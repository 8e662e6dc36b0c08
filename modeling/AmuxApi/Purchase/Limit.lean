import AmuxApi.Purchase.Orders
import AmuxApi.Txn.Limit

/- The limit of purchases per user. `CreateUserSubscriptionFromPlanTx` counts the user's
   subscriptions of the plan and inserts one in the same transaction, but nothing keeps
   another transaction from counting in between: neither sees the other's row. As long as
   the transactions for one user and plan come one after the other, the limit holds
   (`limit_kept_one_by_one`); two at once can both take the last place
   (`limit_exceeded_by_two`). -/
namespace AmuxApi.Purchase
open Txn

/-- One purchase: `CreateUserSubscriptionFromPlanTx` in a transaction of its own. -/
structure Buy (env : Env) where
  stamp : Stamp env
  userId : Int
  planId : Int
  plan : SubscriptionPlan
  source : String

def Buy.prog {env : Env} (b : Buy env) : SQL (Except Err UserSubscription) :=
  transaction .db (createUserSubscriptionFromPlanTx env b.stamp b.userId b.planId b.plan b.source)

/-- For this user and this plan. -/
def Buy.of {env : Env} (userId planId : Int) (b : Buy env) : Prop := b.userId = userId ∧ b.planId = planId

section
variable {env : Env} {userId planId : Int}

def isPurchase (userId planId : Int) : (k : Key) → Row k → Bool
  | .sub _, row => ofPlan userId planId row
  | .plan _, _ | .order _, _ | .topUp _, _ | .user _, _ => false

theorem countKind_eq (d : Tables) :
    countKind (isPurchase userId planId) (env.ids.map .sub) d = countByPlan env d userId planId := by
  rw [countKind, List.countP_map]
  rfl

/-- After the check, a row of this user and plan goes in only at the stage that allows it. -/
theorem upgradeAndInsert_adds (b : Buy env) {st : Stage} (hst : st = .may ∨ ¬ b.of userId planId) (endUnix : Int) :
    (upgradeAndInsert env b.stamp b.userId b.planId b.plan b.source endUnix).Adds (isPurchase userId planId)
      (fun _ _ => True) st := by
  have hgroup : (upgradeUserGroup b.userId (Go.trimSpace b.plan.upgradeGroup)).Adds (isPurchase userId planId)
      (fun st' _ => st' = st) st :=
    adds_of_writes (by rintro k rfl v; rfl) (fun _ => rfl) (upgradeUserGroup_writes ..)
  refine adds_bind (fun st' r hr => ?_) hgroup
  subst hr
  cases r with
  | error e => trivial
  | ok prevGroup =>
    rcases hst with rfl | hne
    · exact .inr ⟨rfl, trivial, trivial, trivial⟩
    · refine .inl ⟨fun v v' hv => ?_, fun r => by match r with | none | some false | some true => trivial⟩
      obtain ⟨-, rfl⟩ := insertSub_some hv
      simp only [isPurchase, ofPlan, Option.any_some, decide_eq_false_iff_not]
      exact hne

theorem afterCheck_adds (b : Buy env) {st : Stage} (hst : st = .may ∨ ¬ b.of userId planId) :
    (match calcPlanEndTime env.loc b.stamp.dbNow b.plan with
      | .error e => return .error e
      | .ok endUnix => upgradeAndInsert env b.stamp b.userId b.planId b.plan b.source endUnix :
      SQL (Except Err UserSubscription)).Adds (isPurchase userId planId) (fun _ _ => True) st := by
  split
  · trivial
  · exact upgradeAndInsert_adds b hst _

theorem other_adds (b : Buy env) (hne : ¬ b.of userId planId) : b.prog.Adds (isPurchase userId planId) ended .done := by
  refine adds_transaction ?_
  unfold createUserSubscriptionFromPlanTx
  split
  · trivial
  split
  · trivial
  have hcheck : (checkPurchaseLimit env b.userId b.planId b.plan).Adds (isPurchase userId planId)
      (fun st _ => st = .done) .done :=
    adds_of_writes (fun _ h => h.elim) (fun _ => rfl) (checkPurchaseLimit_reads ..)
  refine adds_bind (fun st r hr => ?_) hcheck
  cases r with
  | error e => trivial
  | ok _ => exact afterCheck_adds b (.inr hne)

/-- The rest of a purchase of a plan with a limit, once the tables have been read to count. -/
def Buy.afterRead (b : Buy env) (r : Option Tables) : SQL (Except Err UserSubscription) :=
  transaction .db (do
    match ← (match r with
      | none => return .error .db
      | some d =>
        if b.plan.maxPurchasePerUser ≤ countByPlan env d b.userId b.planId then return .error .purchaseLimit
        else return .ok () : SQL (Except Err Unit)) with
    | .error e => return .error e
    | .ok _ =>
      match calcPlanEndTime env.loc b.stamp.dbNow b.plan with
      | .error e => return .error e
      | .ok endUnix => upgradeAndInsert env b.stamp b.userId b.planId b.plan b.source endUnix)

theorem buy_counts (b : Buy env) (hb : b.of userId planId) {m : Nat} (hm : 0 < m)
    (hplan : b.plan.maxPurchasePerUser = m) : b.prog.Counts (isPurchase userId planId) (env.ids.map .sub) m := by
  obtain ⟨rfl, rfl⟩ := hb
  unfold Buy.prog createUserSubscriptionFromPlanTx
  have hdone : Stage.done ≠ .held := by decide
  split
  · exact hdone
  split
  · exact hdone
  have hpos : 0 < b.plan.maxPurchasePerUser := by omega
  rw [checkPurchaseLimit, if_pos hpos]
  refine counts_select (g := b.afterRead) (fun d => ?_) hdone
  rw [countKind_eq]
  refine adds_transaction ?_
  dsimp only
  by_cases hlt : countByPlan env d b.userId b.planId < m
  · rw [if_pos hlt, if_neg (by omega)]
    exact afterCheck_adds b (.inl rfl)
  · rw [if_pos (by omega)]
    trivial

end

/-- All purchases at their first statement. -/
def purchases {ι : Type} [DecidableEq ι] {env : Env} (buys : ι → Buy env) (d : Tables) :
    Sys ι Row Empty (Except Err UserSubscription) :=
  start d fun i => (buys i).prog

def samePurchase {ι : Type} {env : Env} (buys : ι → Buy env) (i j : ι) : Prop :=
  i ≠ j ∧ (buys i).userId = (buys j).userId ∧ (buys i).planId = (buys j).planId

/-- **One by one the limit holds.** Any number of purchases by any users, in any interleaving
and with any statements failing, in which no two purchases of one plan by one user overlap:
of a plan with limit `m` a user never has more than `m` subscriptions, unless they had more
at the start. -/
theorem limit_kept_one_by_one {ι : Type} [DecidableEq ι] (env : Env) (buys : ι → Buy env) (d : Tables)
    (started : ι → Prop) (s : Sys ι Row Empty (Except Err UserSubscription))
    (hs : Serial (samePurchase buys) (purchases buys d) started s) (userId planId : Int) (m : Nat) (hm : 0 < m)
    (hplan : ∀ i, (buys i).of userId planId → (buys i).plan.maxPurchasePerUser = m) :
    countByPlan env s.db userId planId ≤ max m (countByPlan env d userId planId) := by
  rw [← countKind_eq, ← countKind_eq]
  have hkeys : (env.ids.map Key.sub).Nodup := env.nodup.map fun _ _ h => Key.sub.inj h
  have hsame : ∀ i j, (buys i).of userId planId → (buys j).of userId planId → i ≠ j → samePurchase buys i j :=
    fun i j hi hj hne => ⟨hne, hi.1.trans hj.1.symm, hi.2.trans hj.2.symm⟩
  refine serial_limit hkeys ?_ ?_ hsame hs
  · exact fun i hi => buy_counts (buys i) hi hm (hplan i hi)
  · exact fun i hi => other_adds (buys i) hi

def twoBuys : Bool → Buy exampleEnv
  | true => ⟨firstStamp, 7, 3, examplePlan, "admin"⟩
  | false => ⟨secondStamp, 7, 3, examplePlan, "admin"⟩

instance {ι : Type} [DecidableEq ι] {env : Env} (buys : ι → Buy env) : DecidableRel (samePurchase buys) :=
  fun _ _ => inferInstanceAs (Decidable (_ ≠ _ ∧ _ = _ ∧ _ = _))

/-- One after the other: the second is refused. -/
theorem second_buy_refused :
    ∃ started s, Serial (samePurchase twoBuys) (purchases twoBuys exampleTables) started s ∧
      (s.prog true).result.isSome ∧ (s.prog false).result = some (.error .purchaseLimit) ∧
      countByPlan exampleEnv s.db 7 3 ≤ 1 := by
  let schedule : List (Bool × Bool) := List.replicate 5 (true, true) ++ List.replicate 2 (false, true)
  have hrun : (runSerial (samePurchase twoBuys) [] (purchases twoBuys exampleTables) schedule).any (fun p =>
      (p.2.prog true).result.isSome ∧ (p.2.prog false).result = some (.error .purchaseLimit)) = true := by
    decide +kernel
  obtain ⟨⟨started, s⟩, hr, hp⟩ := (Option.any_eq_true ..).mp hrun
  obtain ⟨hone, htwo⟩ := of_decide_eq_true hp
  have hs : Serial (samePurchase twoBuys) (purchases twoBuys exampleTables) (· ∈ started) s :=
    serial_of_run (by simpa using Serial.init) hr
  exact ⟨_, s, hs, hone, htwo, limit_kept_one_by_one exampleEnv twoBuys exampleTables _ s hs 7 3 1 (by decide)
    fun i _ => by cases i <;> rfl⟩

/-- Both at once: both count before either commits. -/
theorem limit_exceeded_by_two :
    (∀ i, (twoBuys i).plan.maxPurchasePerUser = 1) ∧ countByPlan exampleEnv exampleTables 7 3 = 0 ∧
    ∃ s, Reach anyUpdate (purchases twoBuys exampleTables) s ∧ countByPlan exampleEnv s.db 7 3 = 2 := by
  refine ⟨by decide, by decide, ?_⟩
  exact exists_of_run
    ([(true, true), (false, true), (true, true), (false, true)] ++ List.replicate 3 (true, true) ++
      List.replicate 3 (false, true)) (by decide +kernel)

end AmuxApi.Purchase
