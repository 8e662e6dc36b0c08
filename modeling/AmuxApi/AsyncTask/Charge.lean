import AmuxApi.AsyncTask.Terminal
import AmuxApi.Billing.Post

/- What a task costs from its submission to its end. `RelayTask` charges in advance, tops the
   charge up while it tries one channel after the other, settles for the quota of the
   accepted task and writes that quota into the row. Later another process, which has only
   the row, settles the difference or gives the recorded quota back.

   Correspondence (Go ↔ Lean):
     `relay/relay_task.go`: `RelayTaskSubmit`, what it charges ↔ `relayTaskSubmit`
     `controller/relay.go`: `RelayTask`, its loop and its end ↔ `relayAttempts`, `relayTask`
     `service/task_billing.go`: `taskAdjustFunding`,
       `taskAdjustTokenQuota` ↔ `rowAccounts`
   Between the two the accounts may change in any way: the world at the end is not the one
   after the submission, and what a task has cost is the sum of what each of the two took.

   If the settlement at submission went through, a success has cost what its row says and a
   failure nothing (`task_costs_its_quota`). If not, the row says more than was charged, and
   the refund pays it out (`refund_exceeds_charge`). -/
namespace AmuxApi.AsyncTask
open Txn
open Billing (World Service Session Relay Kind Answer Before Paid Due Names Booked)

/-! Submission. -/

/-- One pass through `RelayTaskSubmit`: whether the request is refused before anything is
charged, the quota of the estimate that comes before an expensive validation (if the adaptor
makes one), whether that validation fails, the price, and the quota of the task if the
provider takes it. -/
structure Attempt where
  refused : Bool
  validationQuota : Option Int
  invalid : Bool
  freeModel : Bool
  quota : Int
  accepted : Option Int
  deriving DecidableEq, Repr

/-- Tasks are always charged in advance. -/
def forced (relay : Relay) : Relay := { relay with forcePreConsume := true }

section
variable (bhost : Billing.Host) (relay : Relay)

/-- A small charge before the expensive validation, for a request that has none yet. -/
def preValidationBilling (a : Attempt) (billing : Option Session) : Service (Except Unit (Option Session)) :=
  match billing, a.validationQuota with
  | none, some validationQuota =>
    if a.freeModel then return .ok none
    else do
      match ← Billing.newBillingSession bhost (some (forced relay)) validationQuota with
      | .error _ => return .error ()
      | .ok s => return .ok (some s)
  | billing, _ => return .ok billing

/-- The whole charge: a new session, or the one there is topped up. Whether it succeeded. -/
def preciseBilling (a : Attempt) (billing : Option Session) : Service (Option Session × Bool) :=
  if a.freeModel then return (billing, true)
  else
    match billing with
    | none => do
      match ← Billing.newBillingSession bhost (some (forced relay)) a.quota with
      | .error _ => return (none, false)
      | .ok s => return (some s, true)
    | some s => do
      let res ← s.reserve bhost (forced relay) a.quota
      return (some res.1, res.2.isOk)

/-- The session, and the quota of the task if there is one. -/
def relayTaskSubmit (a : Attempt) (billing : Option Session) : Service (Option Session × Option Int) :=
  if a.refused then return (billing, none)
  else do
    match ← preValidationBilling bhost relay a billing with
    | .error _ => return (billing, none)
    | .ok billing =>
      if a.invalid then return (billing, none)
      else do
        let res ← preciseBilling bhost relay a billing
        return (res.1, if res.2 then a.accepted else none)

/-- One channel after the other. The session is kept from attempt to attempt. -/
def relayAttempts : List Attempt → Option Session → Service (Option Session × Option Int)
  | [], billing => return (billing, none)
  | a :: rest, billing => do
    match ← relayTaskSubmit bhost relay a billing with
    | (billing, some quota) => return (billing, some quota)
    | (billing, none) => relayAttempts rest billing

/-- The row that is inserted, and whether `SettleBilling` returned no error: an error is only
logged. `init` has what `InitTask` and the request give. -/
def relayTask (init : Task) (attempts : List Attempt) : Service (Option (Task × Bool)) := do
  match ← relayAttempts bhost relay attempts none with
  | (billing, some quota) => do
    let res ← Billing.settleBilling (forced relay) billing quota
    let w ← Code.world
    return some ({ init with quota, billingSource := w.info.billingSource, subscriptionId := w.info.subscriptionId },
      res.2.isOk)
  | (some s, none) => do
    match (← s.refund).2 with
    | none => return none
    | some job => do
      let _ ← job.run (forced relay)
      return none
  | (none, none) => return none

end

/-! Completion. -/

/-- The accounts as another process reaches them, and the stored row. -/
abbrev Completion := StateT Task Service

def adjustFunding (t : Task) (delta : Int) : Service (Except String Unit) :=
  if taskIsSubscription t then Billing.postConsumeUserSubscriptionDelta .forward t.subscriptionId delta
  else if 0 < delta then Billing.decreaseUserQuota .forward delta
  else Billing.increaseUserQuota .forward (-delta)

def changeToken (delta : Int) : Service (Except String Unit) :=
  if 0 < delta then Billing.decreaseTokenQuota .forward delta else Billing.increaseTokenQuota .forward (-delta)

/-- The key of the token is looked up first; an error is only logged. -/
def adjustToken (t : Task) (delta : Int) : Service Unit :=
  if t.tokenId ≤ 0 ∨ delta = 0 then return ()
  else do
    let key ← Code.ask .forward
    if key.fails then return ()
    else do
      let _ ← changeToken delta
      return ()

/-- An UPDATE of the row; an error is only logged. -/
def saveColumn (f : Task → Task) : Completion Unit := do
  let a ← (Code.ask .forward : Service Answer)
  if a.fails then return () else modify f

def rowAccounts : Accounts Completion where
  taskAdjustFunding t delta := do return (← (adjustFunding t delta : Service _)).isOk
  taskAdjustTokenQuota t delta := (adjustToken t delta : Service Unit)
  saveTokens completion total := saveColumn fun t => { t with completionTokens := completion, totalTokens := total }
  saveQuota quota := saveColumn fun t => { t with quota }

/-- A task that has become a success is settled, one that has become a failure refunded. -/
def complete (host : Host) (info : TaskInfo) : Action → Completion Unit
  | .settle => do
    let t ← get
    let _ ← settleTaskBillingOnComplete rowAccounts host t info
    return ()
  | .refund => do
    let t ← get
    refundTaskQuota rowAccounts t

/-! The submission keeps the books. -/

/-- Prices are not negative. -/
structure Attempt.Priced (a : Attempt) : Prop where
  quota : 0 ≤ a.quota
  validation : ∀ q, a.validationQuota = some q → 0 ≤ q
  accepted : ∀ q, a.accepted = some q → 0 ≤ q

/-- The tables of a request that is new: ids are positive, nothing used is negative, and there
is no record of the request. -/
structure NewRequest (relay : Relay) (w : World) : Prop where
  record : w.tables (.record relay.requestId) = none
  ids : ∀ id sub, w.tables (.sub id) = some sub → 0 < id
  used : ∀ id sub, w.tables (.sub id) = some sub → 0 ≤ sub.amountUsed

def TaskNames (t : Task) : Option Int → Prop
  | none => taskIsSubscription t = false
  | some id => taskIsSubscription t = true ∧ t.subscriptionId = id

section
variable {legal : Kind → Answer → Prop} {bhost : Billing.Host} {relay : Relay} {w0 w w' : World}

variable {account : Option Int}

theorem before_same {env : Subscription.Env} {base : Int} (h : Before env w account base)
    (hwallet : w.wallet = w0.wallet) (htables : w.tables = w0.tables) : Before env w0 account base := by
  cases account with
  | none => exact Eq.trans h hwallet
  | some id => simpa only [Before, htables] using h

variable (hd : ∀ k, legal k default)
include hd

/-- A session is opened, or everything is as before. -/
theorem ends_open (hnew : NewRequest relay w0) (h : Due bhost.env w0 none w) {quota : Int}
    (hquota : 0 ≤ quota) : Ends legal (Billing.newBillingSession bhost (some (forced relay)) quota)
      (fun res w' => match res with
        | .error _ => Due bhost.env w0 none w'
        | .ok s => Due bhost.env w0 (some s) w') w := by
  obtain ⟨hwallet, htables, hpre, hsource⟩ := h
  refine (Billing.ends_newBillingSession hd).mono fun res w' h' => ?_
  cases res with
  | error e =>
    exact ⟨h'.wallet.trans hwallet, h'.tables.trans htables, h'.preConsumed.trans hpre, h'.source.trans hsource⟩
  | ok s =>
    obtain ⟨base, hbefore, hpaid⟩ := Billing.Opened.paid h' (h'.nonneg hquota)
      (fun _ => by rw [htables]; exact hnew.record) (by rw [htables]; exact hnew.used)
    exact ⟨base, before_same hbefore hwallet htables, hpaid, h'.source⟩

theorem ends_topUp (hundo : Billing.UndoSucceeds legal) {s : Session}
    (h : Due bhost.env w0 (some s) w) (target : Int) : Ends legal (s.reserve bhost (forced relay) target)
      (fun res w' => Due bhost.env w0 (some res.1) w') w := by
  obtain ⟨base, hbefore, hpaid, hsource⟩ := h
  refine (Billing.ends_reserve hd hundo hpaid target).mono fun res w' h' => ?_
  obtain ⟨⟨hpaid', haccount⟩, hnote⟩ := h'
  refine ⟨base, by rw [haccount]; exact hbefore, hpaid', ?_⟩
  rcases hnote with hkept | hnoted
  · rw [hkept, hsource, Billing.source_of_account haccount]
  · exact hnoted

variable {billing : Option Session} {a : Attempt}

section
variable (hnew : NewRequest relay w0) (h : Due bhost.env w0 billing w)
include hnew h

theorem ends_preValidationBilling (ha : a.Priced) :
    Ends legal (preValidationBilling bhost relay a billing) (fun res w' => match res with
      | .error _ => Due bhost.env w0 billing w'
      | .ok billing' => Due bhost.env w0 billing' w') w := by
  unfold preValidationBilling
  split
  · next validationQuota hq =>
    split
    · exact ends_pure h
    · refine (ends_open hd hnew h (ha.validation _ hq)).call fun res w' h' => ?_
      cases res with
      | error e | ok s => exact ends_pure h'
  · exact ends_pure h

variable (hundo : Billing.UndoSucceeds legal)
include hundo

theorem ends_preciseBilling (ha : a.Priced) :
    Ends legal (preciseBilling bhost relay a billing) (fun res w' => Due bhost.env w0 res.1 w') w := by
  unfold preciseBilling
  split
  · exact ends_pure h
  cases billing with
  | none =>
    refine (ends_open hd hnew h ha.quota).call fun res w' h' => ?_
    cases res with
    | error e | ok s => exact ends_pure h'
  | some s => exact (ends_topUp hd hundo h a.quota).call fun _ _ h' => ends_pure h'

theorem ends_relayTaskSubmit (ha : a.Priced) :
    Ends legal (relayTaskSubmit bhost relay a billing)
      (fun res w' => Due bhost.env w0 res.1 w' ∧ ∀ q, res.2 = some q → 0 ≤ q) w := by
  unfold relayTaskSubmit
  split
  · exact ends_pure ⟨h, nofun⟩
  refine (ends_preValidationBilling hd hnew h ha).call fun res w1 h1 => ?_
  cases res with
  | error e => exact ends_pure ⟨h1, nofun⟩
  | ok billing1 =>
    dsimp only
    split
    · exact ends_pure ⟨h1, nofun⟩
    · refine (ends_preciseBilling hd hnew h1 hundo ha).call fun res w2 h2 => ends_pure ⟨h2, fun q hq => ?_⟩
      split_ifs at hq
      exact ha.accepted q hq

theorem ends_relayAttempts (attempts : List Attempt) (hpriced : ∀ a ∈ attempts, a.Priced) :
    Ends legal (relayAttempts bhost relay attempts billing)
      (fun res w' => Due bhost.env w0 res.1 w' ∧ ∀ q, res.2 = some q → 0 ≤ q) w := by
  induction attempts generalizing billing w with
  | nil => exact ends_pure ⟨h, nofun⟩
  | cons a rest ih =>
    refine (ends_relayTaskSubmit hd hnew h hundo (hpriced a (by simp))).call fun res w1 h1 => ?_
    obtain ⟨billing1, accepted⟩ := res
    cases accepted with
    | some quota => exact ends_pure h1
    | none => exact ih h1.1 fun a ha => hpriced a (by simp [ha])

end

omit hd in
theorem taskNames_of_names {info : Billing.Info} (h : Names info account)
    (hsource : t.billingSource = info.billingSource) (hid : t.subscriptionId = info.subscriptionId)
    (hpos : ∀ id, account = some id → 0 < id) : TaskNames t account := by
  cases account with
  | none => simp [TaskNames, taskIsSubscription, hsource, show info.billingSource ≠ some .subscription from h]
  | some id =>
    obtain ⟨hsub, rfl⟩ := h
    exact ⟨by simp [taskIsSubscription, hsource, hid, hsub, hpos _ rfl], hid⟩

/-- **The row of a task that was settled** says what was charged, and where. -/
theorem ends_relayTask (hundo : Billing.UndoSucceeds legal) (hnew : NewRequest relay w)
    (hinfo : w.info.finalPreConsumedQuota = 0 ∧ w.info.billingSource = none) (init : Task) (attempts : List Attempt)
    (hpriced : ∀ a ∈ attempts, a.Priced) : Ends legal (relayTask bhost relay init attempts)
      (fun res w' => ∀ t, res = some (t, true) → 0 ≤ t.quota ∧
        ∃ account base, Before bhost.env w account base ∧ w'.taken base account = t.quota ∧ TaskNames t account) w := by
  have hstart : Due bhost.env w none w := ⟨rfl, rfl, hinfo⟩
  refine (ends_relayAttempts hd hnew hstart hundo attempts hpriced).call fun res w1 h1 => ?_
  obtain ⟨billing, accepted⟩ := res
  obtain ⟨hdue, hquota⟩ := h1
  cases accepted with
  | some quota =>
    refine (Billing.ends_settleBilling hd hdue (hquota quota rfl)).call fun res w2 h2 => ends_world (ends_pure ?_)
    intro t ht
    obtain ⟨rfl, hok⟩ := Prod.mk.inj (Option.some.inj ht)
    obtain ⟨account, base, hbooked⟩ := h2 hok
    refine ⟨hquota quota rfl, account, base, hbooked.before, hbooked.taken, ?_⟩
    refine taskNames_of_names hbooked.names rfl rfl fun id hid => ?_
    subst hid
    obtain ⟨sub, -, hsub, -, -⟩ := hbooked.before
    exact hnew.ids id sub hsub
  | none =>
    cases billing with
    | none => exact ends_pure fun t ht => by cases ht
    | some s =>
      obtain ⟨base, -, hpaid, -⟩ := hdue
      refine Ends.call (Q := fun res w' => ∀ job, res.2 = some job → job.Of base s.funding.account w') ?_
        fun res w2 h2 => ?_
      · unfold Session.refund
        split
        · exact ends_pure nofun
        · refine ends_world (ends_pure fun job hjob => ?_)
          cases hjob
          exact ⟨s, hpaid, rfl, rfl⟩
      · split
        · exact ends_pure fun t ht => by cases ht
        · next job hjob => exact (Billing.ends_job hd (h2 job hjob)).call fun _ _ _ => ends_pure fun t ht => by cases ht

/-! The completion. -/

omit hd in
theorem ends_run_bind {α β : Type} {x : Completion α} {f : α → Completion β} {Q : α × Task → World → Prop}
    {R : β × Task → World → Prop} (h : Ends legal (x.run t) Q w)
    (hf : ∀ a t' w', Q (a, t') w' → Ends legal ((f a).run t') R w') : Ends legal ((x >>= f).run t) R w := by
  exact h.call fun p w' hp => hf p.1 p.2 w' hp

omit hd in
theorem ends_run_lift {α : Type} {x : Service α} {Q : α × Task → World → Prop}
    (h : Ends legal x (fun a w' => Q (a, t) w') w) : Ends legal ((liftM x : Completion α).run t) Q w :=
  h.call fun _ _ hq => ends_pure hq

def SameFunds (w w' : World) : Prop := w'.wallet = w.wallet ∧ w'.tables = w.tables

theorem ends_adjustToken (t : Task) (delta : Int) :
    Ends legal (adjustToken t delta) (fun _ w' => SameFunds w w') w := by
  unfold adjustToken
  split
  · exact ends_pure ⟨rfl, rfl⟩
  refine ends_ask (hd _) fun key _ => ?_
  split
  · exact ends_pure ⟨rfl, rfl⟩
  refine Ends.call ?_ fun _ _ h => ends_pure h
  unfold changeToken
  split <;> exact Billing.ends_changeQuota hd (fun _ => ⟨rfl, rfl⟩) fun _ => ⟨rfl, rfl⟩

/-- At least `amount` is on the subscription, so that giving it back is not cut off at 0. -/
def Covers (w : World) (amount : Int) (account : Option Int) : Prop :=
  ∀ id, account = some id → 0 < id ∧ ∃ sub, w.tables (.sub id) = some sub ∧ amount ≤ sub.amountUsed

/-- An adjustment is exact or changes nothing. -/
theorem ends_adjustFunding {delta : Int} (hnames : TaskNames t account) (hdelta : delta ≠ 0)
    (hcovers : Covers w (-delta) account) :
    Ends legal (adjustFunding t delta)
      (Tried w fun _ w' => w'.taken 0 account = w.taken 0 account + delta) w := by
  unfold adjustFunding
  cases account with
  | none =>
    rw [if_neg (by simp [show taskIsSubscription t = false from hnames])]
    split
    · refine Billing.ends_changeQuota hd (fun _ => rfl) fun _ => ?_
      show 0 - (w.wallet - delta) = 0 - w.wallet + delta
      omega
    · refine Billing.ends_changeQuota hd (fun _ => rfl) fun _ => ?_
      show 0 - (w.wallet + -delta) = 0 - w.wallet + delta
      omega
  | some id =>
    obtain ⟨hsub, rfl⟩ := hnames
    obtain ⟨-, sub, hrow, hused⟩ := hcovers _ rfl
    rw [if_pos hsub]
    refine Billing.ends_postConsume hd hdelta (fun _ => rfl) fun d _ hset => ?_
    show World.taken _ 0 (some t.subscriptionId) = _
    rw [Billing.taken_row hrow, Billing.taken_row (Billing.settles_row hset hrow (by omega))]
    dsimp only
    omega

/-- Giving back goes through if no statement fails. -/
theorem ends_giveBack (hsmooth : ∀ a, legal .forward a → a.Smooth) {delta : Int} (hnames : TaskNames t account)
    (hdelta : delta < 0) (hcovers : Covers w (-delta) account) : Ends legal (adjustFunding t delta)
      (fun res w' => res.isOk = true ∧ w'.taken 0 account = w.taken 0 account + delta) w := by
  have hexact := ends_adjustFunding hd hnames (by omega) hcovers
  have hok : Ends legal (adjustFunding t delta) (fun res _ => res.isOk = true) w := by
    unfold adjustFunding
    cases account with
    | none =>
      rw [if_neg (by simp [show taskIsSubscription t = false from hnames]), if_neg (by omega)]
      exact Billing.ends_smoothQuota hd hsmooth (by omega) rfl
    | some id =>
      obtain ⟨hsub, rfl⟩ := hnames
      obtain ⟨hid, sub, hrow, -⟩ := hcovers _ rfl
      rw [if_pos hsub]
      exact Billing.ends_smoothConsume hd hsmooth hid hdelta hrow fun _ _ => rfl
  refine (hok.and hexact).mono fun res w' h => ?_
  obtain ⟨hok, hexact⟩ := h
  cases res with
  | error e => cases hok
  | ok _ => exact ⟨rfl, hexact⟩

omit hd in
theorem taken_sameFunds (h : SameFunds w w') (account : Option Int) : w'.taken 0 account = w.taken 0 account :=
  Billing.taken_same h.1 h.2 account

theorem ends_saveColumn (hsmooth : ∀ a, legal .forward a → a.Smooth) (f : Task → Task)
    (t : Task) : Ends legal ((saveColumn f).run t) (fun p w' => p.2 = f t ∧ w' = w) w := by
  refine ends_run_bind (Q := fun p w' => p.1.Smooth ∧ p.2 = t ∧ w' = w) (ends_run_lift ?_) fun a t' w' h => ?_
  · refine Ends.mono (Q := fun a w' => a.Smooth ∧ w' = w) ?_ fun a w' h => ⟨h.1, rfl, h.2⟩
    exact ends_ask (hd _) fun a ha => ends_pure ⟨hsmooth a ha, rfl⟩
  · obtain ⟨ha, rfl, rfl⟩ := h
    have hfails : a.fails = false := ha.1
    rw [if_neg (by simp [hfails])]
    exact ends_pure ⟨rfl, rfl⟩

/-- **A refund** gives back what the row says. -/
theorem ends_refund (hsmooth : ∀ a, legal .forward a → a.Smooth) (hnames : TaskNames t account) (hquota : 0 ≤ t.quota)
    (hcovers : Covers w t.quota account) :
    Ends legal ((refundTaskQuota rowAccounts t).run t)
      (fun _ w' => w'.taken 0 account = w.taken 0 account - t.quota) w := by
  unfold refundTaskQuota
  split
  · next hzero => exact ends_pure (by omega)
  refine ends_run_bind (Q := fun p w' => p.1 = true ∧ w'.taken 0 account = w.taken 0 account - t.quota) ?_
    fun ok t' w1 h1 => ?_
  · refine ends_run_bind (ends_run_lift (Q := fun p w' => p.1.isOk = true ∧
      w'.taken 0 account = w.taken 0 account + -t.quota)
      (ends_giveBack hd hsmooth hnames (by omega) (by rw [Int.neg_neg]; exact hcovers))) fun res t' w' h => ?_
    exact ends_pure ⟨h.1, by rw [h.2]; omega⟩
  · obtain ⟨rfl, htaken⟩ := h1
    refine ends_run_lift ((ends_adjustToken hd t (-t.quota)).mono fun _ w2 h2 => ?_)
    rw [taken_sameFunds h2, htaken]

omit hd in
theorem TaskNames.same {t t' : Task} (h : TaskNames t account) (hs : SameCharge t t') : TaskNames t' account := by
  cases account with
  | none | some id => simpa only [TaskNames, taskIsSubscription, hs.billingSource, hs.subscriptionId] using h

section
variable (hsmooth : ∀ a, legal .forward a → a.Smooth)
include hsmooth

theorem ends_noteTokens (t : Task)
    (info : TaskInfo) : Ends legal ((noteTokens rowAccounts t info).run t)
      (fun p w' => SameCharge t p.1 ∧ p.2.quota = t.quota ∧ w' = w) w := by
  unfold noteTokens
  split
  · refine ends_run_bind (ends_saveColumn hd hsmooth _ t) fun _ t' w' h =>
      ends_pure ⟨⟨rfl, rfl, rfl, rfl, rfl⟩, ?_, h.2⟩
    rw [show t' = _ from h.1]
  · exact ends_pure ⟨SameCharge.refl t, rfl, rfl⟩

/-- **A recalculation** moves the difference and writes the new quota, or does neither. -/
theorem ends_recalculate {t row : Task} (hnames : TaskNames t account)
    (hrow : row.quota = t.quota) (hcovers : Covers w t.quota account) (actual : Int) :
    Ends legal ((recalculateTaskQuota rowAccounts t actual).run row)
      (fun p w' => w'.taken 0 account = w.taken 0 account + (p.2.quota - t.quota)) w := by
  unfold recalculateTaskQuota
  split
  · exact ends_pure (by rw [hrow]; omega)
  next hcond =>
  have hcovers' : Covers w (-(actual - t.quota)) account := by
    intro id hid
    obtain ⟨hpos, sub, hsub, hused⟩ := hcovers id hid
    exact ⟨hpos, sub, hsub, by omega⟩
  refine ends_run_bind (Q := fun p w' => p.2 = row ∧ ((p.1 = false ∧ w' = w) ∨
    (p.1 = true ∧ w'.taken 0 account = w.taken 0 account + (actual - t.quota)))) ?_ fun ok row' w1 h1 => ?_
  · refine ends_run_bind (ends_run_lift (Q := fun p w' => p.2 = row ∧
      Tried w (fun _ w' => w'.taken 0 account = w.taken 0 account + (actual - t.quota)) p.1 w')
      ((ends_adjustFunding hd hnames (by omega) hcovers').mono fun _ _ h => ⟨rfl, h⟩)) fun res row' w' h => ?_
    obtain ⟨rfl, h⟩ := h
    cases res with
    | error e => exact ends_pure ⟨rfl, .inl ⟨rfl, h⟩⟩
    | ok _ => exact ends_pure ⟨rfl, .inr ⟨rfl, h⟩⟩
  · obtain ⟨rfl, ⟨rfl, rfl⟩ | ⟨rfl, htaken⟩⟩ := h1
    · exact ends_pure (by dsimp only; rw [hrow]; omega)
    · refine ends_run_bind (ends_run_lift (Q := fun p w' => SameFunds w1 w') (ends_adjustToken hd t _))
        fun _ row2 w2 h2 => ?_
      refine ends_run_bind (ends_saveColumn hd hsmooth _ row2) fun _ row3 w3 h3 => ends_pure ?_
      obtain ⟨rfl, rfl⟩ := h3
      rw [taken_sameFunds h2, htaken]

/-- **A settlement** leaves the row with what was charged in the end. -/
theorem ends_settlement
    (hnames : TaskNames t account) (hcovers : Covers w t.quota account) (host : Host) (info : TaskInfo) :
      Ends legal ((settleTaskBillingOnComplete rowAccounts host t info).run t)
      (fun p w' => w'.taken 0 account = w.taken 0 account + (p.2.quota - t.quota)) w := by
  refine ends_run_bind (ends_noteTokens hd hsmooth t info) fun t' row w' h => ?_
  obtain ⟨hsame, hrow, rfl⟩ := h
  dsimp only at hsame hrow
  cases settledQuota host t' info with
  | none => exact ends_pure (by dsimp only; omega)
  | some actual =>
    have h := ends_recalculate hd hsmooth (hnames.same hsame) (by rw [hrow, hsame.quota])
      (by rw [hsame.quota]; exact hcovers) actual
    exact h.mono fun p w1 h => by rw [h, hsame.quota]

end

end

/-! A life. -/

/-- The row that is inserted with whether its charge was settled, and the world afterwards. -/
def submission (bhost : Billing.Host) (relay : Relay) (init : Task) (attempts : List Attempt) (w : World)
    (answers : Kind → List Answer) : Option (Task × Bool) × World :=
  let run := relayTask bhost relay init attempts ⟨w, answers⟩
  (run.1, run.2.world)

def completion (host : Host) (info : TaskInfo) (action : Action) (t : Task) (w : World) (answers : Kind → List Answer) :
    Task × World :=
  let run := (complete host info action).run t ⟨w, answers⟩
  (run.1.2, run.2.world)

/-- What a task has cost: the submission ended in `w1`, and the completion went from `w2` to `w3`. -/
def cost (account : Option Int) (base : Int) (w₁ w₂ w₃ : World) : Int :=
  w₁.taken base account + (w₃.taken 0 account - w₂.taken 0 account)

/-- **A task costs what its row says.** Let the settlement at submission return no error. Then
whatever happens to the accounts until the task ends, as long as a subscription still has the
charge on it and the statements at the end do not fail, a success has cost what the row says
afterwards, whatever quota was recalculated, and a failure nothing. -/
theorem task_costs_its_quota (bhost : Billing.Host) (host : Host) (relay : Relay) (init : Task)
    (attempts : List Attempt) (w w₁ : World) (answers : Kind → List Answer) (t : Task)
    (hsubmit : submission bhost relay init attempts w answers = (some (t, true), w₁)) (hnew : NewRequest relay w)
    (hinfo : w.info.finalPreConsumedQuota = 0 ∧ w.info.billingSource = none) (hpriced : ∀ a ∈ attempts, a.Priced)
    (hundo : ∀ a ∈ answers .giveBack, a.Smooth) :
    ∃ account base, Before bhost.env w account base ∧ TaskNames t account ∧
      ∀ (w₂ : World) (later : Kind → List Answer) (info : TaskInfo), Covers w₂ t.quota account →
        (∀ a ∈ later .forward, a.Smooth) →
        cost account base w₁ w₂ (completion host info .settle t w₂ later).2 =
          (completion host info .settle t w₂ later).1.quota ∧
        cost account base w₁ w₂ (completion host info .refund t w₂ later).2 = 0 := by
  have hends : Ends (fun k a => k = .giveBack → a.Smooth) (relayTask bhost relay init attempts) _ w :=
    ends_relayTask (fun _ _ => ⟨rfl, rfl⟩) (fun a ha => ha rfl) hnew hinfo init attempts hpriced
  have hrun := hends.run answers fun k a ha hk => hundo a (hk ▸ ha)
  obtain ⟨hres, rfl⟩ := Prod.mk.inj hsubmit
  obtain ⟨hquota, account, base, hbefore, htaken, hnames⟩ := hrun t hres
  refine ⟨account, base, hbefore, hnames, fun w₂ later info hcovers hlater => ?_⟩
  let legal : Kind → Answer → Prop := fun k a => k = .forward → a.Smooth
  have hd : ∀ k, legal k default := fun _ _ => ⟨rfl, rfl⟩
  have hsmooth : ∀ a, legal .forward a → a.Smooth := fun a ha => ha rfl
  have hlegal : ∀ k, ∀ a ∈ later k, legal k a := fun k a ha hk => hlater a (hk ▸ ha)
  constructor
  · have hsettle : Ends legal ((complete host info .settle).run t)
        (fun p w' => w'.taken 0 account = w₂.taken 0 account + (p.2.quota - t.quota)) w₂ := by
      show Ends legal ((settleTaskBillingOnComplete rowAccounts host t info >>= fun _ => pure ()).run t) _ w₂
      exact ends_run_bind (ends_settlement hd hsmooth hnames hcovers host info) fun _ _ _ h => ends_pure h
    have h := hsettle.run later hlegal
    simp only [cost, completion]
    omega
  · have hrefund : Ends legal ((complete host info .refund).run t)
        (fun _ w' => w'.taken 0 account = w₂.taken 0 account - t.quota) w₂ :=
      ends_refund hd hsmooth hnames hquota hcovers
    have h := hrefund.run later hlegal
    simp only [cost, completion]
    omega

/-! One attempt: charged 60 in advance, accepted by the provider for 100. -/

def dearerAttempt : Attempt := ⟨false, none, false, false, 60, some 100⟩

/-- A task of user 7 as `InitTask` makes it, called with token 5. -/
def initTask : Task :=
  { exampleTask with quota := 0, status := .notStart, progress := "0%", startTime := 0, billingSource := none }

def chargedTask : Task := { initTask with quota := 100, billingSource := some .wallet }

def dearerSubmission (answers : Kind → List Answer) : Option (Task × Bool) × World :=
  submission Billing.exampleHost Billing.walletRelay initTask [dearerAttempt] Billing.exampleWorld answers

theorem newRequest_example : NewRequest Billing.walletRelay Billing.exampleWorld := by
  refine ⟨rfl, fun id sub hsub => ?_, fun id sub hsub => (Billing.exampleWorld_sub id sub hsub).2⟩
  have hid := (Billing.exampleWorld_sub id sub hsub).1
  omega

/-- Settled at submission: a success ends at 80, a failure at nothing. -/
theorem dearer_task_costs :
    (dearerSubmission fun _ => []) = (some (chargedTask, true), (dearerSubmission fun _ => []).2) ∧
      ∃ account base, Before Billing.exampleHost.env Billing.exampleWorld account base ∧ TaskNames chargedTask account ∧
        ∀ (w₂ : World) (later : Kind → List Answer) (info : TaskInfo), Covers w₂ chargedTask.quota account →
          (∀ a ∈ later .forward, a.Smooth) →
          cost account base (dearerSubmission fun _ => []).2 w₂
            (completion exampleHost info .settle chargedTask w₂ later).2 =
            (completion exampleHost info .settle chargedTask w₂ later).1.quota ∧
          cost account base (dearerSubmission fun _ => []).2 w₂
            (completion exampleHost info .refund chargedTask w₂ later).2 = 0 := by
  have hsubmit : (dearerSubmission fun _ => []) = (some (chargedTask, true), (dearerSubmission fun _ => []).2) :=
    Prod.ext (by decide +kernel) rfl
  have hpriced : ∀ a ∈ [dearerAttempt], a.Priced := by
    intro a ha
    obtain rfl := List.mem_singleton.mp ha
    refine ⟨by decide, fun q hq => ?_, fun q hq => ?_⟩
    · cases hq
    · cases hq
      decide
  exact ⟨hsubmit, task_costs_its_quota Billing.exampleHost exampleHost Billing.walletRelay initTask [dearerAttempt]
    Billing.exampleWorld _ (fun _ => []) chargedTask hsubmit newRequest_example ⟨rfl, rfl⟩ hpriced nofun⟩

/-- The settlement at submission fails: 60 were charged, the row says 100, and the refund of
the failed task leaves the wallet with 40 more than it had. -/
theorem refund_exceeds_charge :
    let failing : Kind → List Answer
      | .forward => [{}, {}, {}, {}, { fails := true }]
      | .giveBack => []
    (dearerSubmission failing).1 = some (chargedTask, false) ∧ (dearerSubmission failing).2.wallet = 940 ∧
      (completion exampleHost { status := some .failure } .refund chargedTask (dearerSubmission failing).2
        fun _ => []).2.wallet = 1040 ∧
      cost none 1000 (dearerSubmission failing).2 (dearerSubmission failing).2
        (completion exampleHost { status := some .failure } .refund chargedTask (dearerSubmission failing).2
          fun _ => []).2 = -40 := by
  decide +kernel

end AmuxApi.AsyncTask
