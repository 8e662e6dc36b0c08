import Mathlib.Algebra.Order.BigOperators.Group.Finset
import AmuxApi.Billing.Create
import AmuxApi.Conc.Logic

/- Sessions that are opened at the same time, statement by statement.

   The wallet is read, compared with the amount, and charged by an UPDATE that subtracts the
   amount from whatever it finds. The value that was read is kept in relayInfo. Between the
   read and the UPDATE other requests may charge the same wallet.

   Correspondence (Go ↔ Lean): `NewBillingSession` and what it calls, as in the model of one
   session; here each SELECT and each UPDATE is one step. Batch updating is off. What the Redis
   caches and the subscription functions answer is part of the call (`Call`), since neither
   touches a wallet.

   Where an UPDATE of the wallet finds at least what its call has read, the wallet does not
   fall below 0 (`wallet_not_overdrawn`); two calls that have both read the same quota
   overdraw it (`two_sessions_overdraw`). -/
namespace AmuxApi.Billing.Parallel
open Conc Function Session

/-- The quota of each user, the remaining quota of each token, and each call's relayInfo. -/
structure Store (ι : Type) where
  users : Int → Option Int
  tokens : Int → Option Int
  infos : ι → Info

/-- A call of `NewBillingSession`, with the answers of the caches and of the subscriptions. -/
structure Call where
  relay : Relay
  tokenId : Int
  preConsumedQuota : Int
  cachedQuota : Option Int := none
  cachedToken : Option Int := none
  hasActiveSubscription : Except String Bool := .ok false
  subscription : Except String Subscription.PreConsumeResult := .error "no active subscription"

section
variable {ι : Type}

def getUserQuota (c : Call) : Prog (Store ι) (Except String Int) :=
  match c.cachedQuota with
  | some quota => return .ok quota
  | none => do
    match ← query fun st : Store ι => (st.users c.relay.userId).getD 0 with
    | none => return .error dbError
    | some quota => return .ok quota

def getTokenByKey (c : Call) : Prog (Store ι) (Except String Int) :=
  match c.cachedToken with
  | some remain => return .ok remain
  | none => do
    match ← query fun st : Store ι => st.tokens c.tokenId with
    | none => return .error dbError
    | some none => return .error "record not found"
    | some (some remain) => return .ok remain

/-- `UPDATE .. SET quota = quota + delta WHERE id = ?`. -/
def addTo (id delta : Int) (rows : Int → Option Int) : Int → Option Int :=
  update rows id ((rows id).map (· + delta))

def changeQuota (apply : Store ι → Store ι) (quota : Int) : Prog (Store ι) (Except String Unit) :=
  if quota < 0 then return .error "quota 不能为负数！"
  else do
    if ← statement apply then return .ok () else return .error dbError

def decreaseUserQuota (id quota : Int) : Prog (Store ι) (Except String Unit) :=
  changeQuota (fun st => { st with users := addTo id (-quota) st.users }) quota

def increaseTokenQuota (id quota : Int) : Prog (Store ι) (Except String Unit) :=
  changeQuota (fun st => { st with tokens := addTo id quota st.tokens }) quota

def decreaseTokenQuota (id quota : Int) : Prog (Store ι) (Except String Unit) :=
  changeQuota (fun st => { st with tokens := addTo id (-quota) st.tokens }) quota

variable (host : Host) (c : Call)

def preConsumeTokenQuota (quota : Int) : Prog (Store ι) (Except String Unit) :=
  if quota < 0 then return .error "quota 不能为负数！"
  else if c.relay.isPlayground then return .ok ()
  else do
    match ← getTokenByKey c with
    | .error e => return .error e
    | .ok remain =>
      if ¬ c.relay.tokenUnlimited ∧ remain < quota then
        return .error ("token quota is not enough, token remain quota: " ++ host.formatQuota remain ++
          ", need quota: " ++ host.formatQuota quota)
      else decreaseTokenQuota c.tokenId quota

def fundingPreConsume (amount : Int) : Funding → Prog (Store ι) (Except String Funding)
  | .wallet consumed =>
    if amount ≤ 0 then return .ok (.wallet consumed)
    else do
      match ← decreaseUserQuota c.relay.userId amount with
      | .error e => return .error e
      | .ok _ => return .ok (.wallet amount)
  | .subscription f =>
    match c.subscription with
    | .error e => return .error e
    | .ok res =>
      return .ok (.subscription { f with
        subscriptionId := res.userSubscriptionId, preConsumed := res.preConsumed,
        amountTotal := res.amountTotal, amountUsedAfter := res.amountUsedAfter })

variable [DecidableEq ι] (i : ι)

def setInfo (f : Info → Info) (st : Store ι) : Store ι :=
  { st with infos := update st.infos i (f (st.infos i)) }

/-- The wallet is trusted by what relayInfo has of it. -/
def shouldTrust (s : Session) : Prog (Store ι) Bool :=
  if c.relay.forcePreConsume ∨ trustQuota host ≤ 0 then return false
  else if ¬ c.relay.tokenUnlimited ∧ c.relay.tokenQuota ≤ trustQuota host then return false
  else
    match s.funding with
    | .wallet _ => get fun st => decide (trustQuota host < (st.infos i).userQuota)
    | .subscription _ => return false

def rollbackToken (s : Session) : Prog (Store ι) Unit :=
  if 0 < s.tokenConsumed ∧ ¬ c.relay.isPlayground then do
    let _ ← increaseTokenQuota c.tokenId s.tokenConsumed
    return ()
  else return ()

def preConsumeFunding (s : Session) (effectiveQuota : Int) : Prog (Store ι) (Except ApiError Session) := do
  match ← fundingPreConsume c effectiveQuota s.funding with
  | .error e =>
    rollbackToken c s
    return .error (fundingError e)
  | .ok funding =>
    modify (setInfo i (synced { s with funding, preConsumedQuota := effectiveQuota }))
    return .ok { s with funding, preConsumedQuota := effectiveQuota }

def preConsumeEffective (s : Session) (effectiveQuota : Int) : Prog (Store ι) (Except ApiError Session) :=
  if 0 < effectiveQuota then do
    match ← preConsumeTokenQuota host c effectiveQuota with
    | .error e => return .error (forbidden .preConsumeTokenQuotaFailed e)
    | .ok _ => preConsumeFunding c i { s with tokenConsumed := effectiveQuota } effectiveQuota
  else preConsumeFunding c i s effectiveQuota

def preConsume (s : Session) (quota : Int) : Prog (Store ι) (Except ApiError Session) := do
  if ← shouldTrust host c i s then preConsumeEffective host c i { s with trusted := true } 0
  else preConsumeEffective host c i s quota

/-- The wallet, once it has been read. -/
def payFromWallet (userQuota : Int) : Prog (Store ι) (Except ApiError Session) :=
  if userQuota ≤ 0 then
    return .error (forbidden .insufficientUserQuota ("用户额度不足, 剩余额度: " ++ host.formatQuota userQuota))
  else if userQuota - c.preConsumedQuota < 0 then
    return .error (forbidden .insufficientUserQuota ("预扣费额度失败, 用户剩余额度: " ++ host.formatQuota userQuota ++
      ", 需要预扣费额度: " ++ host.formatQuota c.preConsumedQuota))
  else do
    modify (setInfo i fun info => { info with userQuota })
    preConsume host c i { funding := .wallet 0 } c.preConsumedQuota

def tryWallet : Prog (Store ι) (Except ApiError Session) := do
  match ← getUserQuota c with
  | .error e => return .error (internal .queryDataError e)
  | .ok userQuota => payFromWallet host c i userQuota

def trySubscription : Prog (Store ι) (Except ApiError Session) :=
  preConsume host c i
    { funding := .subscription
        { requestId := c.relay.requestId, userId := c.relay.userId, amount := subConsume c.preConsumedQuota } }
    (subConsume c.preConsumedQuota)

def orElse (first second : Prog (Store ι) (Except ApiError Session)) : Prog (Store ι) (Except ApiError Session) := do
  match ← first with
  | .ok s => return .ok s
  | .error e => if e.code = .insufficientUserQuota then second else return .error e

def newBillingSession : Prog (Store ι) (Except ApiError Session) :=
  match normalizeBillingPreference c.relay.billingPreference with
  | .subscriptionOnly => trySubscription host c i
  | .walletOnly => tryWallet host c i
  | .walletFirst => orElse (tryWallet host c i) (trySubscription host c i)
  | .subscriptionFirst =>
    match c.hasActiveSubscription with
    | .error e => return .error (internal .queryDataError e)
    | .ok false => tryWallet host c i
    | .ok true => orElse (trySubscription host c i) (tryWallet host c i)

end

/-! What a call does to a wallet. -/

def balance {ι : Type} (u : Int) (st : Store ι) : Int := (st.users u).getD 0

/-- The condition on runs: an UPDATE that takes from the wallet finds at least what its call has
read. -/
def stillCovered {ι : Type} (u : Int) : Guard ι (Store ι) := fun i st st' =>
  decide (balance u st' < balance u st → (st.infos i).userQuota ≤ balance u st)

section
variable {ι : Type}

/-- A change that leaves the wallet and what the calls have read. -/
def Quiet (u : Int) (f : Store ι → Store ι) : Prop :=
  ∀ st, (f st).users u = st.users u ∧ ∀ j, ((f st).infos j).userQuota = (st.infos j).userQuota

theorem quiet_tokens (u : Int) (f : (Int → Option Int) → Int → Option Int) :
    Quiet u fun st : Store ι => { st with tokens := f st.tokens } := fun _ => ⟨rfl, fun _ => rfl⟩

theorem quiet_users {id u : Int} (h : id ≠ u) (delta : Int) :
    Quiet u fun st : Store ι => { st with users := addTo id delta st.users } := by
  intro st
  refine ⟨?_, fun _ => rfl⟩
  show addTo id delta st.users u = st.users u
  rw [addTo, update_of_ne (Ne.symm h)]

theorem quiet_synced [DecidableEq ι] (u : Int) (i : ι) (s : Session) : Quiet u (setInfo i s.synced) := by
  intro st
  refine ⟨rfl, fun j => ?_⟩
  by_cases hj : j = i
  · subst hj
    unfold synced
    cases s.funding <;> simp [setInfo]
  · simp [setInfo, hj]

end

/-- What a call has taken from the wallet, and what it has read of it. -/
structure Ghost where
  taken : Int := 0
  seen : Option Int := none

section
variable {ι : Type} [Fintype ι] [DecidableEq ι]

structure Inv (u initial : Int) (st : Store ι) (g : ι → Ghost) : Prop where
  row : (st.users u).isSome = true
  covered : 0 ≤ balance u st
  taken : ∀ i, 0 ≤ (g i).taken
  sum : balance u st + ∑ i, (g i).taken = initial
  seen : ∀ i q, (g i).seen = some q → (st.infos i).userQuota = q

variable {u initial : Int} {st st' : Store ι} {g : ι → Ghost} {i : ι} {γ : Ghost}

/-- A step that leaves the wallet and what the calls have read. -/
theorem Inv.other (h : Inv u initial st g) (husers : st'.users u = st.users u)
    (hinfos : ∀ j, (st'.infos j).userQuota = (st.infos j).userQuota) : Inv u initial st' (update g i (g i)) := by
  rw [update_eq_self]
  refine ⟨husers ▸ h.row, ?_, h.taken, ?_, fun j q hq => (hinfos j).trans (h.seen j q hq)⟩
  · rw [balance, husers]
    exact h.covered
  · rw [balance, husers]
    exact h.sum

theorem Inv.charge {amount q : Int} (h : Inv u initial st g) (hg : g i = ⟨0, some q⟩) (hq : amount ≤ q)
    (hpos : 0 < amount) (hguard : stillCovered u i st { st with users := addTo u (-amount) st.users } = true) :
    Inv u initial { st with users := addTo u (-amount) st.users } (update g i ⟨amount, some q⟩) := by
  obtain ⟨w, hw⟩ := Option.isSome_iff_exists.mp h.row
  have hrow : addTo u (-amount) st.users u = some (w - amount) := by
    simp [addTo, hw, Int.sub_eq_add_neg]
  have hbefore : balance u st = w := by simp [balance, hw]
  have hafter : balance u { st with users := addTo u (-amount) st.users } = w - amount := by simp [balance, hrow]
  have hseen : (st.infos i).userQuota = q := h.seen i q (by rw [hg])
  have hsum := sum_update Ghost.taken g i ⟨amount, some q⟩
  have htotal := h.sum
  have hstill := of_decide_eq_true hguard
  rw [hg] at hsum
  simp only [Int.add_zero] at hsum
  refine ⟨?_, ?_, fun j => ?_, ?_, fun j q' hq' => ?_⟩
  · show (addTo u (-amount) st.users u).isSome = true
    rw [hrow]
    rfl
  · omega
  · by_cases hj : j = i
    · subst hj
      rw [update_self]
      exact Int.le_of_lt hpos
    · rw [update_of_ne hj]
      exact h.taken j
  · omega
  · by_cases hj : j = i
    · subst hj
      rw [update_self] at hq'
      cases hq'
      exact hseen
    · rw [update_of_ne hj] at hq'
      exact h.seen j q' hq'

theorem Inv.note {q : Int} (h : Inv u initial st g) (hg : (g i).taken = 0) :
    Inv u initial (setInfo i (fun info => { info with userQuota := q }) st) (update g i ⟨0, some q⟩) := by
  have hsum := sum_update Ghost.taken g i ⟨0, some q⟩
  rw [hg] at hsum
  have htotal := h.sum
  refine ⟨h.row, h.covered, fun j => ?_, ?_, fun j q' hq' => ?_⟩
  · by_cases hj : j = i
    · subst hj
      rw [update_self]
    · rw [update_of_ne hj]
      exact h.taken j
  · show balance u st + _ = initial
    simp only [Int.add_zero] at hsum
    rw [hsum]
    exact htotal
  · by_cases hj : j = i
    · subst hj
      rw [update_self] at hq'
      cases hq'
      simp [setInfo]
    · rw [update_of_ne hj] at hq'
      simpa [setInfo, hj] using h.seen j q' hq'

/-- The call ends with `Q`, and the wallet has covered every step. -/
abbrev Covers (u initial : Int) (i : ι) {α : Type} (x : Prog (Store ι) α) (Q : α → Ghost → Prop) (γ : Ghost) : Prop :=
  wp (Inv u initial) (stillCovered u) i x Q γ

section
variable {host : Host} {c : Call}

theorem wp_quiet_statement {f : Store ι → Store ι} {Q : Bool → Ghost → Prop} (hf : Quiet u f) (hQ : ∀ ok, Q ok γ) :
    Covers u initial i (statement f) Q γ := by
  refine wp_statement (fun st g hI hγ _ => ⟨γ, ?_, hQ true⟩) (hQ false)
  rw [← hγ]
  exact hI.other (hf st).1 (hf st).2

variable {quota amount : Int} {s : Session}

theorem wp_changeQuota_quiet {f : Store ι → Store ι} {Q : Except String Unit → Ghost → Prop}
    (hf : Quiet u f) (hQ : ∀ r, Q r γ) : Covers u initial i (changeQuota f quota) Q γ := by
  unfold changeQuota
  split
  · exact hQ _
  · refine wp_bind (wp_quiet_statement hf fun ok => ?_)
    cases ok with
    | true | false => exact hQ _

theorem wp_getTokenByKey {Q : Except String Int → Ghost → Prop} (hQ : ∀ r, Q r γ) :
    Covers u initial i (getTokenByKey c) Q γ := by
  unfold getTokenByKey
  cases c.cachedToken with
  | some remain => exact hQ _
  | none =>
    refine wp_bind (wp_query (fun st g _ _ => ?_) (hQ _))
    cases st.tokens c.tokenId with
    | none | some remain => exact hQ _

theorem wp_preConsumeTokenQuota {Q : Except String Unit → Ghost → Prop} (hQ : ∀ r, Q r γ) :
    Covers u initial i (preConsumeTokenQuota host c quota) Q γ := by
  unfold preConsumeTokenQuota
  split
  · exact hQ _
  split
  · exact hQ _
  refine wp_bind (wp_getTokenByKey fun r => ?_)
  cases r with
  | error e => exact hQ _
  | ok remain =>
    dsimp only
    split
    · exact hQ _
    · exact wp_changeQuota_quiet (quiet_tokens u _) hQ

theorem wp_rollbackToken {Q : Unit → Ghost → Prop} (hQ : Q () γ) :
    Covers u initial i (rollbackToken c s) Q γ := by
  unfold rollbackToken
  split
  · exact wp_bind (wp_changeQuota_quiet (quiet_tokens u _) fun _ => hQ)
  · exact hQ

/-- What a session has been charged to the wallet of `u` in advance. -/
def preConsumed (u : Int) (c : Call) : Except ApiError Session → Int
  | .error _ => 0
  | .ok s =>
    match s.funding with
    | .wallet _ => if c.relay.userId = u then s.preConsumedQuota else 0
    | .subscription _ => 0

/-- What holds when a call, or an attempt of it, has returned: what its session was charged has
been taken, and nothing was taken if there is none. -/
structure Done (u : Int) (c : Call) (r : Except ApiError Session) (γ : Ghost) : Prop where
  charged : preConsumed u c r ≤ γ.taken
  failed : r.isOk = false → γ.taken = 0

theorem done_error {e : ApiError} (h : γ.taken = 0) : Done u c (.error e) γ :=
    ⟨by rw [h]; exact Int.le_refl 0, fun _ => h⟩

def Paid (u : Int) (c : Call) (amount : Int) : Except String Funding → Ghost → Prop
  | .error _, γ => γ.taken = 0
  | .ok (.wallet _), γ => (if c.relay.userId = u then amount else 0) ≤ γ.taken
  | .ok (.subscription _), γ => γ.taken = 0

theorem wp_charge_wallet {q consumed : Int} (hq : amount ≤ q) :
    Covers u initial i (fundingPreConsume c amount (.wallet consumed)) (Paid u c amount) ⟨0, some q⟩ := by
  rw [fundingPreConsume]
  split_ifs with hle
  · show (if c.relay.userId = u then amount else 0) ≤ 0
    split
    · exact hle
    · exact Int.le_refl 0
  · have hpos : 0 < amount := by omega
    unfold decreaseUserQuota changeQuota
    rw [if_neg (by omega)]
    by_cases huser : c.relay.userId = u
    · subst huser
      refine wp_statement (fun st g hI hγ hguard => ?_) rfl
      refine ⟨⟨amount, some q⟩, hI.charge hγ hq hpos hguard, ?_⟩
      show (if c.relay.userId = c.relay.userId then amount else 0) ≤ amount
      rw [if_pos rfl]
    · refine wp_quiet_statement (quiet_users huser _) fun ok => ?_
      cases ok with
      | true =>
        show (if c.relay.userId = u then amount else 0) ≤ 0
        rw [if_neg huser]
      | false => rfl

section
variable (h : Covers u initial i (fundingPreConsume c amount s.funding) (Paid u c amount) γ)
include h

/-- The funding source, and what is done about its answer. -/
theorem wp_preConsumeFunding :
    Covers u initial i (preConsumeFunding c i s amount) (Done u c) γ := by
  refine wp_seq h fun r γ' hr => ?_
  cases r with
  | error e => exact wp_bind (wp_rollbackToken (done_error hr))
  | ok funding =>
    refine wp_bind (wp_atomically fun st g hI hγ _ => ⟨γ', ?_, ?_⟩)
    · rw [← hγ]
      exact hI.other (quiet_synced u i _ st).1 (quiet_synced u i _ st).2
    refine ⟨?_, nofun⟩
    cases funding with
    | wallet n => exact hr
    | subscription f =>
      rw [show γ'.taken = 0 from hr]
      exact Int.le_refl 0

theorem wp_preConsumeEffective (hγ : γ.taken = 0) :
    Covers u initial i (preConsumeEffective host c i s amount) (Done u c) γ := by
  unfold preConsumeEffective
  split
  · refine wp_bind (wp_preConsumeTokenQuota fun r => ?_)
    cases r with
    | error e => exact done_error hγ
    | ok _ => exact wp_preConsumeFunding h
  · exact wp_preConsumeFunding h

end

theorem wp_shouldTrust {Q : Bool → Ghost → Prop} (hQ : ∀ b, Q b γ) :
    Covers u initial i (shouldTrust host c i s) Q γ := by
  unfold shouldTrust
  split
  · exact hQ _
  split
  · exact hQ _
  · cases s.funding with
    | wallet n => exact wp_get fun _ _ _ _ => hQ _
    | subscription f => exact hQ _

theorem wp_preConsume (hγ : γ.taken = 0)
    (h : ∀ amount, amount = 0 ∨ amount = quota →
      Covers u initial i (fundingPreConsume c amount s.funding) (Paid u c amount) γ) :
    Covers u initial i (preConsume host c i s quota) (Done u c) γ := by
  refine wp_bind (wp_shouldTrust fun trusted => ?_)
  cases trusted with
  | true =>
    rw [if_pos rfl]
    exact wp_preConsumeEffective (h 0 (.inl rfl)) hγ
  | false => exact wp_preConsumeEffective (h quota (.inr rfl)) hγ

theorem wp_getUserQuota {Q : Except String Int → Ghost → Prop} (hQ : ∀ r, Q r γ) :
    Covers u initial i (getUserQuota c) Q γ := by
  unfold getUserQuota
  cases c.cachedQuota with
  | some quota => exact hQ _
  | none => exact wp_bind (wp_query (fun _ _ _ _ => hQ _) (hQ _))

theorem wp_payFromWallet (hγ : γ.taken = 0) (userQuota : Int) :
    Covers u initial i (payFromWallet host c i userQuota) (Done u c) γ := by
  unfold payFromWallet
  split
  · exact done_error hγ
  split
  · exact done_error hγ
  refine wp_bind (wp_atomically fun st g hI hg _ => ⟨⟨0, some userQuota⟩, hI.note (by rw [hg, hγ]), ?_⟩)
  refine wp_preConsume rfl fun amount hamount => wp_charge_wallet ?_
  rcases hamount with rfl | rfl <;> omega

theorem wp_tryWallet (hγ : γ.taken = 0) : Covers u initial i (tryWallet host c i) (Done u c) γ := by
  refine wp_bind (wp_getUserQuota fun r => ?_)
  cases r with
  | error e => exact done_error hγ
  | ok userQuota => exact wp_payFromWallet hγ userQuota

theorem wp_orElse {first second : Prog (Store ι) (Except ApiError Session)}
    (hfirst : Covers u initial i first (Done u c) γ)
    (hsecond : ∀ γ', γ'.taken = 0 → Covers u initial i second (Done u c) γ') :
    Covers u initial i (orElse first second) (Done u c) γ := by
  refine wp_seq hfirst fun r γ' hr => ?_
  cases r with
  | ok s => exact hr
  | error e =>
    dsimp only
    split
    · exact hsecond γ' (hr.failed rfl)
    · exact hr

theorem wp_newBillingSession (hγ : γ.taken = 0) :
    Covers u initial i (newBillingSession host c i) (Done u c) γ := by
  have hwallet : ∀ γ' : Ghost, γ'.taken = 0 → Covers u initial i (tryWallet host c i) (Done u c) γ' :=
    fun _ h => wp_tryWallet h
  have hsubscription : ∀ γ' : Ghost, γ'.taken = 0 →
      Covers u initial i (trySubscription host c i) (Done u c) γ' := by
    refine fun γ' h => wp_preConsume h fun _ _ => ?_
    rw [fundingPreConsume]
    cases c.subscription with
    | error e | ok res => exact h
  unfold newBillingSession
  cases normalizeBillingPreference c.relay.billingPreference with
  | subscriptionOnly => exact hsubscription γ hγ
  | walletOnly => exact hwallet γ hγ
  | walletFirst => exact wp_orElse (hwallet γ hγ) hsubscription
  | subscriptionFirst =>
    cases c.hasActiveSubscription with
    | error e => exact done_error hγ
    | ok active =>
      cases active with
      | false => exact hwallet γ hγ
      | true => exact wp_orElse (hsubscription γ hγ) hwallet

end

def charged (u : Int) (c : Call) (x : Prog (Store ι) (Except ApiError Session)) : Int :=
  x.result.elim 0 (preConsumed u c)

end

/-- **A wallet is not overdrawn.** In every run in which each UPDATE of the wallet finds at least
what its call has read, the wallet never falls below 0, and what the sessions were charged in
advance is within what the wallet had. -/
theorem wallet_not_overdrawn {ι : Type} [Fintype ι] [DecidableEq ι] (host : Host) (calls : ι → Call) (u quota : Int)
    (st : Store ι) (hrow : st.users u = some quota) (hquota : 0 ≤ quota) (s : Sys ι (Store ι) (Except ApiError Session))
    (hs : Reach (stillCovered u) ⟨st, fun i => newBillingSession host (calls i) i⟩ s) :
    (∃ left, s.mem.users u = some left ∧ 0 ≤ left) ∧ ∑ i, charged u (calls i) (s.prog i) ≤ quota := by
  have hstart : Inv u quota st fun _ : ι => ({} : Ghost) := by
    have hbalance : balance u st = quota := by simp [balance, hrow]
    refine ⟨by rw [hrow]; rfl, hbalance ▸ hquota, fun _ => Int.le_refl 0, ?_, nofun⟩
    simp [hbalance]
  obtain ⟨g, hgood⟩ := reach_sound hstart (fun i => wp_newBillingSession rfl) hs
  obtain ⟨left, hleft⟩ := Option.isSome_iff_exists.mp hgood.inv.row
  have hcovered := hgood.inv.covered
  have hsum := hgood.inv.sum
  refine ⟨⟨left, hleft, by simpa [balance, hleft] using hcovered⟩, ?_⟩
  have hcharged : ∑ i, charged u (calls i) (s.prog i) ≤ ∑ i, (g i).taken := by
    refine Finset.sum_le_sum fun i _ => ?_
    unfold charged
    cases hresult : (s.prog i).result with
    | none => exact hgood.inv.taken i
    | some r => exact (hgood.returned (Prog.eq_ret_of_result hresult)).charged
  omega

def emptyInfo : Info := ⟨0, 0, none, 0, 0, 0, 0, 0⟩

/-- User 7 has 100. -/
def exampleStore : Store Bool where
  users id := if id = 7 then some 100 else none
  tokens _ := some 1000
  infos _ := emptyInfo

def twoSessions (first : Bool) : Call where
  relay := exampleRelay "wallet_only" false
  tokenId := if first then 1 else 2
  preConsumedQuota := 80

/-- One after the other: the second is turned away. -/
theorem second_session_rejected :
    ∃ s, Reach (stillCovered 7) ⟨exampleStore, fun i => newBillingSession exampleHost (twoSessions i) i⟩ s ∧
      s.mem.users 7 = some 20 ∧
        ((s.prog true).result.any (·.isOk) = true ∧ (s.prog false).result.any (·.isOk) = false) ∧
      ∑ i, charged 7 (twoSessions i) (s.prog i) ≤ 100 := by
  obtain ⟨s, hs, hleft, hresults⟩ :
    ∃ s, Reach (stillCovered 7) ⟨exampleStore, fun i => newBillingSession exampleHost (twoSessions i) i⟩ s ∧
      s.mem.users 7 = some 20 ∧ (s.prog true).result.any (·.isOk) = true ∧ (s.prog false).result.any (·.isOk) = false :=
    exists_of_run (List.replicate 6 (true, true) ++ [(false, true)]) (by decide +kernel)
  exact ⟨s, hs, hleft, hresults,
    (wallet_not_overdrawn exampleHost twoSessions 7 100 exampleStore rfl (by decide) s hs).2⟩

/-- Both read 100 before either is charged. -/
theorem two_sessions_overdraw :
    ∃ s, Reach anyStep ⟨exampleStore, fun i => newBillingSession exampleHost (twoSessions i) i⟩ s ∧
      s.mem.users 7 = some (-60) ∧ charged 7 (twoSessions true) (s.prog true) = 80 ∧
      charged 7 (twoSessions false) (s.prog false) = 80 := by
  exact exists_of_run
    ([(true, true), (false, true)] ++ List.replicate 5 (true, true) ++ List.replicate 5 (false, true))
    (by decide +kernel)

end AmuxApi.Billing.Parallel
