import AmuxApi.Billing.Operations

/- Opening a session. The token is charged before the funding source, and a second source
   may be tried after the first: whatever fails on the way,

   1. an error leaves the wallet, every subscription and the token as they were
      (`Restored`), and
   2. a session has charged one funding source and the token, and noted the source in
      relayInfo (`Opened`),

   as long as giving back to the token succeeds (`creation_charges_once`). A request id that
   is on record already is not charged again, and a playground request has no token to
   charge (`playground_spares_token`). -/
namespace AmuxApi.Billing
open Txn
open Subscription (Tables Record UserSubscription charges turns settles givesBack)

/-! What opening a session comes to. -/

/-- `amount` has been taken from this source and nothing from the other. The wallet gives
nothing for an amount below 0. -/
def Charged (env : Subscription.Env) (amount : Int) : Funding → World → World → Prop
  | .wallet _, w, w' => w'.wallet = w.wallet - max 0 amount ∧ w'.tables = w.tables
  | .subscription f, w, w' => w'.wallet = w.wallet ∧
      (w.tables (.record f.requestId) = none → 0 < amount ∧ f.preConsumed = amount ∧
        Along (charges env Eq f.requestId ⟨f.userId, f.subscriptionId, amount, .consumed⟩) w.tables w'.tables) ∧
      ((w.tables (.record f.requestId)).isSome → Along (turns env Eq) w.tables w'.tables)

def tokenCharge (relay : Relay) (amount : Int) : Int := if relay.isPlayground then 0 else max 0 amount

/-- A source as it is before it is charged `amount` for the request. -/
def Funding.Fresh (relay : Relay) (amount : Int) : Funding → Prop
  | .wallet consumed => consumed = 0
  | .subscription f => f.requestId = relay.requestId ∧ f.userId = relay.userId ∧ f.amount = amount

/-- A source as it is afterwards. -/
def Funding.Holds (relay : Relay) (amount : Int) (info : Info) : Funding → Prop
  | .wallet consumed => consumed = max 0 amount
  | .subscription f => f.requestId = relay.requestId ∧ f.userId = relay.userId ∧ info.subscriptionId = f.subscriptionId

/-- Wallet and subscriptions are as before, and so is what relayInfo says of the source and
of what was taken in advance; the token as well if undoing has worked. -/
structure Restored (legal : Kind → Answer → Prop) (w w' : World) : Prop where
  wallet : w'.wallet = w.wallet
  tables : w'.tables = w.tables
  token : UndoSucceeds legal → w'.token = w.token
  source : w'.info.billingSource = w.info.billingSource
  preConsumed : w'.info.finalPreConsumedQuota = w.info.finalPreConsumedQuota

/-- A session that was opened for `quota`. -/
structure Opened (legal : Kind → Answer → Prop) (env : Subscription.Env) (relay : Relay) (quota : Int) (s : Session)
    (w w' : World) : Prop where
  charged : Charged env s.preConsumedQuota s.funding w w'
  token : UndoSucceeds legal → w'.token = w.token - tokenCharge relay s.preConsumedQuota
  holds : s.funding.Holds relay s.preConsumedQuota w'.info
  tokenConsumed : s.tokenConsumed = max 0 s.preConsumedQuota
  extraReserved : s.extraReserved = 0
  unfinished : s.fundingSettled = false ∧ s.settled = false ∧ s.refunded = false
  source : w'.info.billingSource = some s.funding.source
  nonneg : 0 ≤ quota → 0 ≤ s.preConsumedQuota

/-- An attempt that fails has undone what it did. -/
def Attempted (legal : Kind → Answer → Prop) (env : Subscription.Env) (relay : Relay) (quota : Int) (w : World)
    (res : Except ApiError Session) (w' : World) : Prop :=
  match res with
  | .error _ => Restored legal w w'
  | .ok s => Opened legal env relay quota s w w'

section
variable {legal : Kind → Answer → Prop} {env : Subscription.Env} {host : Host} {relay : Relay} {w w0 w' : World}

theorem Restored.refl (w : World) : Restored legal w w := ⟨rfl, rfl, fun _ => rfl, rfl, rfl⟩

theorem Restored.trans (h : Restored legal w0 w) (h' : Restored legal w w') : Restored legal w0 w' :=
  ⟨h'.wallet.trans h.wallet, h'.tables.trans h.tables, fun hu => (h'.token hu).trans (h.token hu),
    h'.source.trans h.source, h'.preConsumed.trans h.preConsumed⟩

variable {amount quota : Int} {funding : Funding} {s : Session}

theorem Charged.after (h : Charged env amount funding w w') (hwallet : w.wallet = w0.wallet)
    (htables : w.tables = w0.tables) : Charged env amount funding w0 w' := by
  cases funding <;> simpa only [Charged, hwallet, htables] using h

/-- An attempt after one that has left nothing behind counts from the beginning. -/
theorem Attempted.after {res : Except ApiError Session} (h : Attempted legal env relay quota w res w')
    (h0 : Restored legal w0 w) : Attempted legal env relay quota w0 res w' := by
  cases res with
  | error e => exact h0.trans h
  | ok s =>
    refine { h with charged := h.charged.after h0.wallet h0.tables, token := fun hu => ?_ }
    rw [h.token hu, h0.token hu]

theorem Attempted.mono {res : Except ApiError Session} (h : Attempted legal env relay amount w res w')
    (hquota : 0 ≤ quota → 0 ≤ amount) : Attempted legal env relay quota w res w' := by
  cases res with
  | error e => exact h
  | ok s => exact { h with nonneg := fun hq => h.nonneg (hquota hq) }

/-! One attempt. -/

theorem synced_source (s : Session) (info : Info) : (s.synced info).billingSource = some s.funding.source := by
  unfold Session.synced
  split
  · next hf => simp [hf, Funding.source]
  · next hf => simp [hf, Funding.source]

variable (hd : ∀ k, legal k default)
include hd

theorem ends_fundingPreConsume (hfresh : funding.Fresh relay amount) :
    Ends legal (funding.preConsume env amount) (Tried w fun funding' w' =>
      Charged env amount funding' w w' ∧ w'.token = w.token ∧
        ∀ info, (∀ f, funding' = .subscription f → info.subscriptionId = f.subscriptionId) →
          funding'.Holds relay amount info) w := by
  cases funding with
  | wallet consumed =>
    have hzero : consumed = 0 := hfresh
    simp only [Funding.preConsume]
    split_ifs with hle
    · have hmax : max 0 amount = 0 := max_eq_left hle
      exact ends_pure ⟨⟨by rw [hmax, Int.sub_zero], rfl⟩, rfl, fun _ _ => by rw [Funding.Holds, hmax, hzero]⟩
    · have hmax : max 0 amount = amount := max_eq_right (by omega)
      refine Ends.tried (R := fun _ (w' : World) => w' = { w with wallet := w.wallet - amount })
        (ends_changeQuota hd (fun _ => rfl) fun _ => rfl) ?_ ?_
      · exact fun e => ends_pure rfl
      · intro _ w' hw
        subst hw
        exact ends_pure ⟨⟨by rw [hmax], rfl⟩, rfl, fun _ _ => hmax.symm⟩
  -- the amount is the one the session was built with, the argument is not used
  | subscription f =>
    obtain ⟨hreq, huser, rfl⟩ := hfresh
    refine Ends.tried (R := fun result (w' : World) =>
        ∃ d, SubCharged env f.requestId f.userId f.amount result w.tables d ∧ w' = { w with tables := d })
      (ends_preConsumeUserSubscription hd (fun _ => rfl) fun result d h => ⟨d, h, rfl⟩) ?_ ?_
    · exact fun e => ends_pure rfl
    · intro result w' hw
      obtain ⟨d, hsub, rfl⟩ := hw
      exact ends_pure ⟨⟨rfl, hsub.new, hsub.again⟩, rfl, fun _ hinfo => ⟨hreq, huser, hinfo _ rfl⟩⟩

theorem ends_rollbackToken (htok : s.tokenConsumed = max 0 amount)
    (hw : w = { w0 with token := w0.token - tokenCharge relay amount }) :
    Ends legal (s.rollbackToken relay) (fun _ w' => Restored legal w0 w') w := by
  subst hw
  unfold Session.rollbackToken
  split_ifs with hcond
  · obtain ⟨hpos, hplay⟩ := hcond
    have hcharge : tokenCharge relay amount = s.tokenConsumed := by rw [tokenCharge, if_neg hplay, htok]
    refine Ends.call ?_ fun _ _ h => ends_pure h
    by_cases hundo : UndoSucceeds legal
    · refine ends_smoothQuota hd hundo hpos.le ⟨rfl, rfl, fun _ => ?_, rfl, rfl⟩
      dsimp only
      omega
    · -- nothing is said about the token when giving back may fail
      have hany : ∀ token : Int, Restored legal w0 { w0 with token } :=
        fun token => ⟨rfl, rfl, fun hu => absurd hu hundo, rfl, rfl⟩
      exact ends_changeQuota hd (fun _ => hany _) fun _ => hany _
  · refine ends_pure ⟨rfl, rfl, fun _ => ?_, rfl, rfl⟩
    dsimp only
    rw [tokenCharge]
    split
    · exact Int.sub_zero _
    · rename_i hplay
      have : ¬ 0 < s.tokenConsumed := fun h => hcond ⟨h, hplay⟩
      omega

section
variable (hfresh : s.funding.Fresh relay amount)
    (hflags : s.fundingSettled = false ∧ s.settled = false ∧ s.refunded = false)
include hfresh hflags

theorem ends_preConsumeFunding (htok : s.tokenConsumed = max 0 amount) (hextra : s.extraReserved = 0)
    (hw : w = { w0 with token := w0.token - tokenCharge relay amount }) :
    Ends legal (s.preConsumeFunding host relay amount) (Attempted legal host.env relay amount w0) w := by
  apply (ends_fundingPreConsume hd hfresh).tried
  · intro e
    exact (ends_rollbackToken hd htok hw).call fun _ _ h => ends_pure h
  subst hw
  intro funding w' h
  obtain ⟨hcharged, htoken, hholds⟩ := h
  refine ends_change (ends_pure ?_)
  refine ⟨?_, fun _ => htoken, hholds _ fun f hf => ?_, htok, hextra, hflags, synced_source _ _, fun hq => hq⟩
  · have : Charged host.env amount funding w0 w' := hcharged.after rfl rfl
    cases funding <;> exact this
  · subst hf
    rfl

theorem ends_preConsumeEffective (htok : s.tokenConsumed = 0) (hextra : s.extraReserved = 0) :
    Ends legal (s.preConsumeEffective host relay amount) (Attempted legal host.env relay amount w) w := by
  unfold Session.preConsumeEffective
  split_ifs with hpos
  · have hmax : max 0 amount = amount := max_eq_right hpos.le
    refine Ends.tried (R := fun _ (w' : World) =>
      w' = { w with token := w.token - if relay.isPlayground then 0 else amount })
      (ends_preConsumeTokenQuota hd (fun _ => rfl) fun _ => rfl) ?_ ?_
    · exact fun e => ends_pure (.refl w)
    · intro _ w' h
      subst h
      exact ends_preConsumeFunding hd hfresh hflags hmax.symm hextra (by rw [tokenCharge, hmax])
  · have hmax : max 0 amount = 0 := max_eq_left (by omega)
    refine ends_preConsumeFunding hd hfresh hflags (htok.trans hmax.symm) hextra ?_
    rw [tokenCharge, hmax, ite_self, Int.sub_zero]

end

omit hd in
theorem ends_shouldTrust : Ends legal (s.shouldTrust host relay)
    (fun trusted w' => w' = w ∧ (trusted = true → ∃ consumed, s.funding = .wallet consumed)) w := by
  unfold Session.shouldTrust
  split
  · exact ends_pure ⟨rfl, by simp⟩
  split
  · exact ends_pure ⟨rfl, by simp⟩
  split
  · rename_i consumed hf
    exact ends_world (ends_pure ⟨rfl, fun _ => ⟨consumed, hf⟩⟩)
  · exact ends_pure ⟨rfl, by simp⟩

theorem ends_preConsume (hfresh : funding.Fresh relay quota) :
    Ends legal (Session.preConsume host relay { funding } quota) (Attempted legal host.env relay quota w) w := by
  refine ends_shouldTrust.call fun trusted w' h => ?_
  obtain ⟨hw, htrust⟩ := h
  subst hw
  split_ifs with htrue
  · obtain ⟨consumed, hf⟩ := htrust htrue
    subst hf
    exact (ends_preConsumeEffective hd hfresh ⟨rfl, rfl, rfl⟩ rfl rfl).mono fun _ _ h => h.mono fun _ => le_refl 0
  · exact ends_preConsumeEffective hd hfresh ⟨rfl, rfl, rfl⟩ rfl rfl

/-! The preferences. -/

theorem ends_tryWallet : Ends legal (tryWallet host relay quota) (Attempted legal host.env relay quota w) w := by
  apply (ends_readQuota hd World.wallet).tried
  · exact fun e => ends_pure (.refl w)
  intro userQuota w' hw
  subst hw
  dsimp only
  split
  · exact ends_pure (.refl _)
  split
  · exact ends_pure (.refl _)
  · refine ends_change (Ends.mono (ends_preConsume hd (show Funding.Fresh relay quota (.wallet 0) from rfl)) ?_)
    exact fun res w' h => h.after ⟨rfl, rfl, fun _ => rfl, rfl, rfl⟩

theorem ends_trySubscription :
    Ends legal (trySubscription host relay quota) (Attempted legal host.env relay quota w) w := by
  refine Ends.mono (Q := Attempted legal host.env relay (subConsume quota) w)
    (ends_preConsume hd ⟨rfl, rfl, rfl⟩) fun _ _ h => h.mono fun hq => ?_
  unfold subConsume
  split <;> omega

omit hd in
theorem ends_orElse {first second : Service (Except ApiError Session)}
    (h1 : Ends legal first (Attempted legal host.env relay quota w) w)
    (h2 : ∀ w, Ends legal second (Attempted legal host.env relay quota w) w) :
    Ends legal (orElse first second) (Attempted legal host.env relay quota w) w := by
  refine h1.call fun res w' h => ?_
  cases res with
  | ok s => exact ends_pure h
  | error e =>
    dsimp only
    split
    · exact (h2 w').mono fun res w'' h' => h'.after h
    · exact ends_pure h

theorem ends_newBillingSession :
    Ends legal (newBillingSession host (some relay) quota) (Attempted legal host.env relay quota w) w := by
  simp only [newBillingSession]
  split
  · exact ends_trySubscription hd
  · exact ends_tryWallet hd
  · exact ends_orElse (ends_tryWallet hd) fun _ => ends_trySubscription hd
  refine Ends.call (Q := fun _ w' => w' = w) ?_ fun res w' hw => ?_
  · unfold hasActiveUserSubscription
    split
    · exact ends_pure rfl
    · refine ends_ask (hd _) fun a _ => ?_
      split
      · exact ends_pure rfl
      · exact ends_world (ends_pure rfl)
  · subst hw
    split
    · exact ends_pure (.refl _)
    · exact ends_tryWallet hd
    · exact ends_orElse (ends_trySubscription hd) fun _ => ends_tryWallet hd

end

/-- What `NewBillingSession` answers, and the world it leaves. -/
def opening (host : Host) (relay : Option Relay) (preConsumedQuota : Int) (w : World) (answers : Kind → List Answer) :
    Except ApiError Session × World :=
  let run := newBillingSession host relay preConsumedQuota ⟨w, answers⟩
  (run.1, run.2.world)

theorem opening_attempted {legal : Kind → Answer → Prop} (hd : ∀ k, legal k default) (host : Host) (relay : Relay)
    (quota : Int) (w : World) {answers : Kind → List Answer} (hs : ∀ k, ∀ a ∈ answers k, legal k a) :
    Attempted legal host.env relay quota w (opening host (some relay) quota w answers).1
      (opening host (some relay) quota w answers).2 := by
  exact (ends_newBillingSession hd).run answers hs

/-- **All or one charge.** Whatever the preference, the state, the amount and the failures
on the way, with the token given back where that is needed: an error leaves everything as
it was; a session has charged one funding source its `preConsumedQuota`, and the token the
same. -/
theorem creation_charges_once (host : Host) (relay : Option Relay) (quota : Int) (w : World)
    (answers : Kind → List Answer) (hundo : ∀ a ∈ answers .giveBack, a.Smooth) :
    match opening host relay quota w answers with
    | (.error _, w') => w'.wallet = w.wallet ∧ w'.tables = w.tables ∧ w'.token = w.token
    | (.ok s, w') => ∃ r, relay = some r ∧ Charged host.env s.preConsumedQuota s.funding w w' ∧
        (∀ f, s.funding = .subscription f → f.requestId = r.requestId ∧ f.userId = r.userId) ∧
        w'.token = w.token - tokenCharge r s.preConsumedQuota := by
  cases relay with
  | none => exact ⟨rfl, rfl, rfl⟩
  | some r =>
    -- only the answers to give-backs are assumed to be smooth; every other call may fail
    let legal : Kind → Answer → Prop := fun k a => k = .giveBack → a.Smooth
    have hu : UndoSucceeds legal := fun a ha => ha rfl
    have hs : ∀ k, ∀ a ∈ answers k, legal k a := fun k a ha hk => hundo a (hk ▸ ha)
    have hrun := opening_attempted (fun _ _ => ⟨rfl, rfl⟩) host r quota w hs
    generalize opening host (some r) quota w answers = result at hrun ⊢
    obtain ⟨res, w'⟩ := result
    cases res with
    | error e => exact ⟨hrun.wallet, hrun.tables, hrun.token hu⟩
    | ok s =>
      refine ⟨r, rfl, hrun.charged, fun f hf => ?_, hrun.token hu⟩
      have hholds := hrun.holds
      rw [hf] at hholds
      exact ⟨hholds.1, hholds.2.1⟩

/-! A user with one subscription of 100 a period, 50 of it used. -/

theorem exampleIds_nodup : ([1] : List Int).Nodup := by decide

def exampleHost : Host := ⟨⟨Go.utc, [1], exampleIds_nodup, 8⟩, 500000, fun quota => toString quota⟩

def exampleRelay (preference : String) (isPlayground : Bool) : Relay :=
  ⟨7, "r1", preference, 500, false, isPlayground, true⟩

def exampleTables : Tables
  | .sub id => if id = 1 then some ⟨7, 3, 100, 50, 0, 5000, .active, 0, 0⟩ else none
  | .record _ => none
  | .plan id => if id = 3 then some ⟨"never", 0⟩ else none

def exampleWorld : World := ⟨1000, 500, exampleTables, ⟨0, 0, none, 0, 0, 0, 0, 0⟩⟩

theorem exampleWorld_sub (id : Int) (sub : UserSubscription) (h : exampleWorld.tables (.sub id) = some sub) :
    id = 1 ∧ 0 ≤ sub.amountUsed := by
  obtain ⟨hid, hsub⟩ := Option.ite_none_right_eq_some.mp h
  cases hsub
  exact ⟨hid, by decide⟩

/-- The subscription has no room for 60, so the token is given back and the wallet pays. -/
theorem wallet_pays_after_subscription :
    (opening exampleHost (some (exampleRelay "subscription_first" false)) 60 exampleWorld fun _ => []).1 =
        .ok { funding := .wallet 60, preConsumedQuota := 60, tokenConsumed := 60 } ∧
      (opening exampleHost (some (exampleRelay "subscription_first" false)) 60 exampleWorld
        fun _ => []).2.wallet = 940 ∧
      (opening exampleHost (some (exampleRelay "subscription_first" false)) 60 exampleWorld
        fun _ => []).2.token = 440 := by
  have hok : (opening exampleHost (some (exampleRelay "subscription_first" false)) 60 exampleWorld fun _ => []).1 =
      .ok { funding := .wallet 60, preConsumedQuota := 60, tokenConsumed := 60 } := by decide +kernel
  have h := creation_charges_once exampleHost (some (exampleRelay "subscription_first" false)) 60 exampleWorld
    (fun _ => []) (by simp)
  generalize opening exampleHost (some (exampleRelay "subscription_first" false)) 60 exampleWorld (fun _ => []) =
    result at h hok ⊢
  obtain ⟨res, w'⟩ := result
  cases hok
  obtain ⟨r, hr, hcharged, -, htoken⟩ := h
  cases hr
  exact ⟨rfl, hcharged.1, htoken⟩

/-- A playground request is charged 60, and the token nothing. -/
theorem playground_spares_token :
    (opening exampleHost (some (exampleRelay "wallet_only" true)) 60 exampleWorld fun _ => []).1 =
        .ok { funding := .wallet 60, preConsumedQuota := 60, tokenConsumed := 60 } ∧
      (opening exampleHost (some (exampleRelay "wallet_only" true)) 60 exampleWorld fun _ => []).2.token ≠
        exampleWorld.token - 60 := by
  decide +kernel

end AmuxApi.Billing
