import Mathlib.Data.Rat.Floor
import AmuxApi.Payment.Entry
import AmuxApi.Payment.Complete

/- How much quota an order brings. The amount is fixed when the order is placed and turned
   into quota when it is completed, by code written once per gateway; these are the sums, for
   an order completed by its gateway's callback and by `ManualCompleteTopUp`, with nothing
   else going on and no statement failing. -/
namespace AmuxApi.Payment
open Txn Function

/-! Cutting the fraction off. -/

theorem intPart_of_nonneg {x : Rat} (h : 0 ≤ x) : intPart x = ⌊x⌋ := by
  have hn : 0 ≤ x.num := Rat.num_nonneg.mpr h
  rw [intPart, Int.tdiv_eq_ediv_of_nonneg hn, Rat.floor_def']

theorem intPart_nonpos {x : Rat} (h : x ≤ 0) : intPart x ≤ 0 := by
  have hn : x.num ≤ 0 := Rat.num_nonpos.mpr h
  have := Int.tdiv_nonneg (Int.neg_nonneg_of_nonpos hn) (Int.natCast_nonneg x.den)
  rw [Int.neg_tdiv] at this
  rw [intPart]
  omega

/-! The completion functions, run alone on a pending order. -/

section
variable {cfg : Setting} {d : Tables} {t : String} {o : TopUp} {u : User} {now : Int}

theorem matches_provider {p : Provider} (h : o.paymentProvider = some p) : o.matchesPaymentProvider p = true := by
  simp [TopUp.matchesPaymentProvider, h]

theorem does_withOrderLock {Q : Except Err Unit → Tables → Prop} {body : Call} (p : Nat) (h : Does body d Q) :
    Does (withOrderLock p t body) d Q :=
  (runs_lock d _).bind (h.bind fun _ d' hQ => (runs_unlock d' _).bind (does_pure hQ))

theorem runs_getTopUp (ho : d (.topUp t) = some o) : Runs (getTopUpByTradeNo t) d d (some o) :=
  runs_bind (runs_select d) (ho ▸ runs_pure _ d)

theorem runs_save (o' : TopUp) : Runs (o'.update t) d (update d (.topUp t) (some o')) (.ok ()) :=
  runs_bind (runs_autocommit rfl) (runs_pure _ _)

/-- The callbacks hide the errors of their transaction. -/
theorem does_hiding {Q : Tables → Prop} {body : Call} {e : Err}
    (h : Inside body d fun r v => Q (committed d v r)) :
    Does (do match ← transaction .db body with | .error _ => return .error e | .ok _ => return .ok () : Call) d
      fun _ d' => Q d' := by
  refine (does_transaction (Q := fun _ d' => Q d') h).bind ?_
  rintro (e' | a) d' hQ
  · exact does_pure hQ
  · exact does_pure hQ

variable (ho : d (.topUp t) = some o) (hp : o.status = .pending)
include ho hp

theorem inside_claim {α : Type} {Q : α → Tables → Prop} {g : Except Err (Bool × Status) → Prog Row OrderLock α} :
    Inside (claimPendingTopUpTx t now >>= g) d Q ↔
      Inside (g (.ok (true, .success))) (update d (.topUp t) (some (o.complete now))) Q := by
  have hrow : claimRow now (d (.topUp t)) = some (some (o.complete now)) := by simp [ho, claimRow, hp]
  rw [claimPendingTopUpTx, Prog.bind_assoc, inside_update, hrow]
  rfl

omit ho hp in
theorem inside_creditUser {f : User → User} :
    Inside (creditUser o.userId f) (update d (.topUp t) (some (o.complete now))) fun r v =>
      r = .ok () ∧ v = completed d t o now f := by
  rw [creditUser, inside_update, completed, update_of_ne (by simp)]
  cases d (.user o.userId) with
  | none => exact ⟨rfl, rfl⟩
  | some u => exact ⟨rfl, rfl⟩

/-- Claim and credit, as the four transactions end. -/
theorem inside_complete {f : User → User} {g : Except Err (Bool × Status) → Call} {Q : Tables → Prop}
    (hg : ∀ st, g (.ok (true, st)) = creditUser o.userId f) (hQ : Q (completed d t o now f)) :
    Inside (claimPendingTopUpTx t now >>= g) d fun r v => Q (committed d v r) := by
  rw [inside_claim ho hp, hg]
  refine inside_creditUser.mono ?_
  rintro _ _ ⟨rfl, rfl⟩
  exact hQ

theorem does_recharge {customerId : String} (ht : t ≠ "") (hm : o.paymentProvider = some .stripe) :
    Does (recharge cfg t customerId now) d fun _ d' => d' = completed d t o now (rechargeUser cfg o customerId) := by
  rw [recharge, if_neg ht]
  refine does_hiding (inside_select.mpr ?_)
  simp only [ho, matches_provider hm, hp]
  refine inside_complete (Q := (· = _)) ho hp (fun _ => rfl) rfl

theorem does_rechargeCreem {email : String} (ht : t ≠ "") (hm : o.paymentProvider = some .creem)
    (hu : d (.user o.userId) = some u) :
    Does (rechargeCreem t email now) d fun _ d' => ∃ email', d' = completed d t o now (creemUser o email') := by
  rw [rechargeCreem, if_neg ht]
  refine does_hiding (inside_select.mpr ?_)
  simp only [ho, matches_provider hm, hp]
  refine (inside_claim ho hp).mpr ?_
  have hcredit : ∀ email', Inside (creditUser o.userId (creemUser o email'))
      (update d (.topUp t) (some (o.complete now)))
        fun r v => ∃ email', committed d v r = completed d t o now (creemUser o email') := by
    intro email'
    refine inside_creditUser.mono ?_
    rintro _ _ ⟨rfl, rfl⟩
    exact ⟨email', rfl⟩
  dsimp only
  split
  · exact hcredit _
  · rw [inside_select]
    simp only [update_of_ne (show Key.user o.userId ≠ .topUp t by simp), hu]
    exact hcredit _

/-- Waffo's callback refuses an order that brings nothing. -/
theorem does_rechargeWaffo (ht : t ≠ "") (hm : o.paymentProvider = some .waffo) :
    Does (rechargeWaffo cfg t now) d fun _ d' =>
      d' = if quotaToAdd cfg o ≤ 0 then d else completed d t o now (addQuota (quotaToAdd cfg o)) := by
  rw [rechargeWaffo, if_neg ht]
  refine does_hiding (inside_select.mpr ?_)
  simp only [ho, matches_provider hm, hp]
  dsimp
  split
  · exact rfl
  · refine inside_complete (Q := (· = _)) ho hp (fun _ => rfl) rfl

theorem does_manualCompleteTopUp (ht : t ≠ "") :
    Does (manualCompleteTopUp cfg t now) d fun _ d' =>
      d' = if quotaToAdd cfg o ≤ 0 then d else completed d t o now (addQuota (quotaToAdd cfg o)) := by
  rw [manualCompleteTopUp, if_neg ht]
  refine does_transaction (inside_select.mpr ?_)
  simp only [ho, hp]
  dsimp
  split
  · exact rfl
  · refine inside_complete (Q := (· = _)) ho hp (fun _ => rfl) rfl

/-- Epay's callback saves the order first, and adds nothing when the quota is negative. -/
theorem does_epayNotify {p : Nat} (hm : o.paymentProvider = some .epay) (hu : d (.user o.userId) = some u) :
    Does (epayNotify cfg p t) d fun _ d' => balance d' o.userId = some (u.quota + max 0 (quotaToAdd cfg o)) := by
  refine does_withOrderLock p ((runs_getTopUp ho).bind ?_)
  simp only [matches_provider hm, hp]
  -- two commits: the order is saved first, then the user is credited
  refine (runs_save _).bind ?_
  have husaved : update d (.topUp t) (some { o with status := .success }) (.user o.userId) = some u := by simp [hu]
  generalize update d (.topUp t) (some { o with status := .success }) = saved at husaved
  dsimp only
  rw [increaseUserQuota]
  by_cases hq : quotaToAdd cfg o < 0
  · rw [if_pos hq, max_eq_left hq.le]
    exact (runs_pure _ saved).bind (does_pure (by simp [balance, husaved]))
  · have hadd : onUser (addQuota (quotaToAdd cfg o)) (saved (.user o.userId)) =
        some (some (addQuota (quotaToAdd cfg o) u)) := by rw [husaved]; rfl
    rw [if_neg hq, max_eq_right (not_lt.mp hq), Prog.bind_assoc]
    refine (runs_autocommit hadd).bind (does_pure ?_)
    simp [balance, addQuota]

end

/-! The quota credited. -/

/-- The request a gateway's success callback makes for order `t`; `who` is the customer id
(Stripe) or e-mail (Creem) it carries. -/
def Gateway.callback (process : Nat) (t who : String) (now : Int) : Gateway → Request
  | .epay => .epayNotify process t
  | .stripe => .sessionCompleted process .notFound "complete" "paid" t who now
  | .creem => .handleCheckoutCompleted process .notFound "paid" "onetime" t who now
  | .waffo => .handleWaffoPayment process "PAY_SUCCESS" t now

/-- The user's balance after the order has been completed by its gateway. -/
def Gateway.creditedBalance (cfg : Setting) (o : TopUp) (quota : Int) : Gateway → Int
  | .epay | .waffo => quota + max 0 (quotaToAdd cfg o)
  | .stripe => cfg.rounding.assign (quota + o.amount * cfg.quotaPerUnit)
  | .creem => quota + o.amount

section
variable {cfg : Setting} {d : Tables} {t : String} {o : TopUp} {u : User} {now : Int}

/-- A completion that refuses an order bringing nothing. -/
theorem balance_positive (hu : d (.user o.userId) = some u) :
    balance (if quotaToAdd cfg o ≤ 0 then d else completed d t o now (addQuota (quotaToAdd cfg o))) o.userId =
      some (u.quota + max 0 (quotaToAdd cfg o)) := by
  split_ifs with hq
  · simp [balance, hu, max_eq_left hq]
  · rw [balance_completed (g := (· + quotaToAdd cfg o)) fun v => rfl, max_eq_right (by omega)]
    simp [balance, hu]

variable (ho : d (.topUp t) = some o) (hp : o.status = .pending) (hu : d (.user o.userId) = some u)
include ho hp hu

theorem balance_manual (ht : t ≠ "") :
    balance (solo (manualCompleteTopUp cfg t now) [] d).1 o.userId = some (u.quota + max 0 (quotaToAdd cfg o)) := by
  rw [(does_manualCompleteTopUp ho hp ht).solo]
  exact balance_positive hu

theorem balance_callback (gw : Gateway) (process : Nat) (who : String) (ht : t ≠ "")
    (hm : o.paymentProvider = some gw.provider) :
    balance (solo ((gw.callback process t who now).prog cfg) [] d).1 o.userId =
      some (gw.creditedBalance cfg o u.quota) := by
  cases gw with
  | epay => exact (does_epayNotify ho hp hm hu).solo
  | stripe =>
    show balance (solo (sessionCompleted cfg process .notFound "complete" "paid" t who now) [] d).1 _ = _
    rw [sessionCompleted, if_neg (by decide), if_neg (by decide), fulfillOrder, if_neg ht,
      (does_withOrderLock process (does_recharge ho hp ht hm)).solo,
      balance_completed (g := fun q => cfg.rounding.assign (q + o.amount * cfg.quotaPerUnit)) fun v => rfl, if_pos rfl]
    simp [balance, hu, Gateway.creditedBalance]
  | creem =>
    have hdoes : Does (handleCheckoutCompleted process .notFound "paid" "onetime" t who now) d
        fun _ d' => ∃ email', d' = completed d t o now (creemUser o email') := by
      rw [handleCheckoutCompleted, if_neg (by decide), if_neg ht]
      refine does_withOrderLock process ((runs_getTopUp ho).bind ?_)
      simp only [hp]
      exact does_rechargeCreem ho hp ht hm hu
    obtain ⟨email, hr⟩ := hdoes.solo
    show balance (solo (handleCheckoutCompleted process .notFound "paid" "onetime" t who now) [] d).1 _ = _
    rw [hr, balance_completed (g := (· + o.amount)) fun v => rfl]
    simp [balance, hu, Gateway.creditedBalance]
  | waffo =>
    show balance (solo (handleWaffoPayment cfg process "PAY_SUCCESS" t now) [] d).1 _ = _
    rw [handleWaffoPayment, if_neg (by decide), (does_withOrderLock process (does_rechargeWaffo ho hp ht hm)).solo]
    exact balance_positive hu

end

end AmuxApi.Payment
