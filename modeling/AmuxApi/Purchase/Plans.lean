import AmuxApi.Go.Calendar
import AmuxApi.Purchase.Model

/- The times of a plan: when a subscription ends, and when its quota is reset.

   Both add to a time what the plan says. The two endpoints that store a plan look at neither the
   unit nor the size of its durations, and a `time.Duration` of nanoseconds is full after 292
   years and wraps around: so a plan may have no end at all, or one before the start
   (`no_end_or_before_start`), and its resets may not advance, which leaves the loop over the past
   periods running for good (`reset_never_ends`). What a `time.Duration` holds of the plan decides
   when an end is after its start and later for a longer plan (`longer_plan_ends_later`), and when
   the loop ends after the present (`reset_settles`).

   Correspondence (Go ↔ Lean): `AdminCreateSubscriptionPlan` and `AdminUpdateSubscriptionPlan` of
   `controller/subscription.go`, up to the statement that stores the plan; `upsertPlan` is what
   they have in common. The title and the price are arguments: nothing else here looks at them. -/
namespace AmuxApi.Purchase
open Subscription (calcNextResetTime nextReset resetLoop dueTurn normalizeResetPeriod Plan)

/-! Plans that are accepted. -/

section
variable (groups : List String) (title : String) (priceAmount : Rat) (plan : SubscriptionPlan)

/-- `groups` are those with a ratio. -/
def upsertPlan : Except String SubscriptionPlan :=
  let durationUnit := if plan.durationUnit = "" then "month" else plan.durationUnit
  let upgradeGroup := Go.trimSpace plan.upgradeGroup
  if Go.trimSpace title = "" then .error "套餐标题不能为空"
  else if priceAmount < 0 then .error "价格不能为负数"
  else if priceAmount > 9999 then .error "价格不能超过9999"
  else if plan.maxPurchasePerUser < 0 then .error "购买上限不能为负数"
  else if plan.totalAmount < 0 then .error "总额度不能为负数"
  else if upgradeGroup ≠ "" ∧ upgradeGroup ∉ groups then .error "升级分组不存在"
  else if normalizeResetPeriod plan.quotaResetPeriod = .custom ∧ plan.quotaResetCustomSeconds ≤ 0 then
    .error "自定义重置周期需大于0秒"
  else .ok { plan with
      durationUnit, upgradeGroup
      durationValue := if plan.durationValue ≤ 0 ∧ durationUnit ≠ "custom" then 1 else plan.durationValue
      quotaResetPeriod :=
        if normalizeResetPeriod plan.quotaResetPeriod = .never then "never" else Go.trimSpace plan.quotaResetPeriod }

def adminCreateSubscriptionPlan : Except String SubscriptionPlan := upsertPlan groups title priceAmount plan

def adminUpdateSubscriptionPlan (id : Int) : Except String SubscriptionPlan :=
  if id ≤ 0 then .error "无效的ID" else upsertPlan groups title priceAmount plan

end

def Accepted (plan : SubscriptionPlan) : Prop :=
  ∃ groups title priceAmount req, adminCreateSubscriptionPlan groups title priceAmount req = .ok plan ∨
    ∃ id, adminUpdateSubscriptionPlan groups title priceAmount req id = .ok plan

variable {plan : SubscriptionPlan}

theorem Accepted.durationValue_pos (h : Accepted plan) (hunit : plan.durationUnit ≠ "custom") :
    0 < plan.durationValue := by
  obtain ⟨groups, title, priceAmount, req, h⟩ := h
  have h : upsertPlan groups title priceAmount req = .ok plan := by
    rcases h with h | ⟨id, h⟩
    · exact h
    · unfold adminUpdateSubscriptionPlan at h
      split_ifs at h
      exact h
  unfold upsertPlan at h
  dsimp only at h
  repeat' split at h
  all_goals cases h
  all_goals grind

/-! The end of a subscription. -/

/-- What the plan says in its unit. -/
def SubscriptionPlan.lasts (plan : SubscriptionPlan) : Int :=
  if plan.durationUnit = "custom" then plan.customSeconds else plan.durationValue

def unitSeconds (unit : String) : Int := if unit = "day" then Go.day else if unit = "hour" then 3600 else 1

/-- The seconds that a `time.Duration` holds of it, in units other than months and years. -/
def SubscriptionPlan.held (plan : SubscriptionPlan) : Int :=
  Go.durationSeconds (plan.lasts * unitSeconds plan.durationUnit)

def SubscriptionPlan.endAfter (plan : SubscriptionPlan) (loc : Go.Location) (start : Int) : Int :=
  if plan.durationUnit = "year" then loc.addMonths start (12 * plan.lasts)
  else if plan.durationUnit = "month" then loc.addMonths start plan.lasts
  else start + plan.held

/-- The unit is known, the time is not missing, and a `time.Duration` holds less of it than of the
longer plan. -/
structure Termed (plan longer : SubscriptionPlan) : Prop where
  unit : plan.durationUnit ∈ ["year", "month", "day", "hour", "custom"]
  custom : plan.durationUnit = "custom" → 0 < plan.customSeconds
  held : plan.durationUnit ∉ ["year", "month"] → 0 < plan.held ∧ plan.held < longer.held

section
variable {loc : Go.Location} {start : Int}

theorem calcPlanEndTime_ok (haccepted : Accepted plan)
    (hunit : plan.durationUnit ∈ ["year", "month", "day", "hour", "custom"])
    (hcustom : plan.durationUnit = "custom" → 0 < plan.customSeconds) :
    calcPlanEndTime loc start plan = .ok (plan.endAfter loc start) := by
  have hvalue : ¬ (plan.durationValue ≤ 0 ∧ plan.durationUnit ≠ "custom") := fun hn => by
    have := haccepted.durationValue_pos hn.2
    omega
  rw [calcPlanEndTime, if_neg hvalue]
  unfold SubscriptionPlan.endAfter SubscriptionPlan.held SubscriptionPlan.lasts unitSeconds Go.addSeconds
  simp only [List.mem_cons, List.not_mem_nil, or_false] at hunit
  rcases hunit with hunit | hunit | hunit | hunit | hunit
  all_goals simp [hunit, Go.day]
  have := hcustom hunit
  omega

/-- Only a unit that is known has an end. -/
theorem unit_of_end {endTime : Int} (h : calcPlanEndTime loc start plan = .ok endTime) :
    plan.durationUnit ∈ ["year", "month", "day", "hour", "custom"] ∧
      (plan.durationUnit = "custom" → 0 < plan.customSeconds) := by
  unfold calcPlanEndTime at h
  split_ifs at h <;> simp_all

end

def planOf (durationUnit : String) (durationValue : Int) (quotaResetPeriod : String) (quotaResetCustomSeconds : Int) :
    SubscriptionPlan where
  durationUnit
  durationValue
  customSeconds := 0
  maxPurchasePerUser := 0
  upgradeGroup := ""
  totalAmount := 0
  quotaResetPeriod
  quotaResetCustomSeconds

/-- A period of the plan's own is none at all, or later in whole seconds. -/
def Advances (plan : Plan) : Prop :=
  normalizeResetPeriod plan.quotaResetPeriod = .custom → 0 < plan.quotaResetCustomSeconds →
    0 < Go.durationSeconds plan.quotaResetCustomSeconds

section
variable {loc : Go.Location} {plan : Plan} (hloc : loc.Regular) (hplan : Advances plan)
include hloc hplan

theorem lt_nextReset {base next : Int} (h : nextReset loc base plan = some next) : base < next := by
  unfold nextReset at h
  split at h
  · cases h
  · cases h
    exact hloc.lt_addDays base (by decide)
  · cases h
    refine hloc.lt_addDays base ?_
    unfold Subscription.daysUntilMonday Go.weekday
    split <;> omega
  · cases h
    exact hloc.lt_nextMonth base
  · split_ifs at h with hseconds
    cases h
    exact Int.lt_add_of_pos_right base (hplan ‹_› (not_le.mp hseconds))

theorem calcNextResetTime_cases (base endTime : Int) : calcNextResetTime loc base plan endTime = 0 ∨
    base < calcNextResetTime loc base plan endTime ∧
      (0 < endTime → calcNextResetTime loc base plan endTime ≤ endTime) := by
  unfold calcNextResetTime
  split
  · exact .inl rfl
  split
  · exact .inl rfl
  · exact .inr ⟨lt_nextReset hloc hplan ‹_›, fun _ => by omega⟩

/-- Every turn of the loop is later than the one before, and none is after the present. -/
theorem resetLoop_ends (endTime now : Int) (fuel : Nat) (advanced : Bool) (base : Int) (hbase : base ≤ now)
    (hfuel : now - base < fuel) : ∃ advanced' base', resetLoop loc plan endTime now fuel advanced base =
        some (advanced', base', calcNextResetTime loc base' plan endTime) ∧ base ≤ base' ∧ base' ≤ now ∧
      ¬ (0 < calcNextResetTime loc base' plan endTime ∧ calcNextResetTime loc base' plan endTime ≤ now) ∧
      (advanced' = false → advanced = false ∧ base' = base) := by
  induction fuel generalizing advanced base with
  | zero => omega
  | succ fuel ih =>
    rw [resetLoop]
    split_ifs with hdue
    · have hlt : base < calcNextResetTime loc base plan endTime := by
        rcases calcNextResetTime_cases hloc hplan base endTime with hzero | ⟨hlt, -⟩ <;> omega
      obtain ⟨advanced', base', hloop, hle, hnow, hexit, hadvanced⟩ := ih true _ hdue.2 (by omega)
      exact ⟨advanced', base', hloop, by omega, hnow, hexit, fun h => nomatch (hadvanced h).1⟩
    · exact ⟨advanced, base, rfl, le_rfl, hbase, ‹_›, fun h => ⟨h, rfl⟩⟩

end

/-- What the times of a subscription are to be. -/
structure Settled (now : Int) (sub : Subscription.UserSubscription) : Prop where
  next : sub.nextResetTime = 0 ∨ now < sub.nextResetTime ∧ (0 < sub.endTime → sub.nextResetTime ≤ sub.endTime)
  last : sub.lastResetTime ≤ now

/-- What the row of a subscription has to be: the reset is still to come, or the subscription has begun and
its next reset, if it has one, is that of the plan. -/
structure InStep (loc : Go.Location) (plan : Plan) (now : Int) (sub : Subscription.UserSubscription) : Prop where
  last : sub.lastResetTime ≤ now
  next : (now < sub.nextResetTime ∧ 0 < sub.nextResetTime ∧ (0 < sub.endTime → sub.nextResetTime ≤ sub.endTime)) ∨
    (0 ≤ sub.startTime ∧ sub.periodStart ≤ now ∧
      (sub.nextResetTime = 0 ∨ sub.nextResetTime = calcNextResetTime loc sub.periodStart plan sub.endTime))

/-- The loop ends, and the row that is written then is as it is to be. -/
def CatchesUp (loc : Go.Location) (plan : Plan) (now : Int) (sub : Subscription.UserSubscription) : Prop :=
  ∃ turns, ∀ env : Subscription.Env, env.loc = loc → turns ≤ env.fuel →
    ∃ turn, dueTurn env plan now sub = some turn ∧ Settled now (turn.apply sub)

theorem InStep.catchesUp {loc : Go.Location} {plan : Plan} (hloc : loc.Regular) (hplan : Advances plan) {now : Int}
    {sub : Subscription.UserSubscription} (h : InStep loc plan now sub) : CatchesUp loc plan now sub := by
  rcases h.next with ⟨hlater, hpos, hend⟩ | ⟨hstart, hbegun, hnext⟩
  · refine ⟨0, fun env _ _ => ⟨.keep, ?_, .inr ⟨hlater, hend⟩, h.last⟩⟩
    rw [dueTurn, if_pos ⟨hpos, hlater⟩]
  refine ⟨(now - sub.periodStart).toNat + 1, fun env henv hfuel => ?_⟩
  have hpos : 0 ≤ sub.periodStart := by
    unfold Subscription.UserSubscription.periodStart
    split <;> omega
  obtain ⟨advanced, base, hloop, hle, hnow, hexit, hsame⟩ := resetLoop_ends hloc hplan sub.endTime now env.fuel false
    sub.periodStart hbegun (by omega)
  have hgood : calcNextResetTime loc base plan sub.endTime = 0 ∨ now < calcNextResetTime loc base plan sub.endTime ∧
      (0 < sub.endTime → calcNextResetTime loc base plan sub.endTime ≤ sub.endTime) := by
    rcases calcNextResetTime_cases hloc hplan base sub.endTime with hzero | ⟨hlt, hend⟩
    · exact .inl hzero
    · exact .inr ⟨by omega, hend⟩
  unfold dueTurn
  rw [henv]
  split
  · rename_i hdue
    refine ⟨.keep, rfl, .inr ⟨hdue.2, fun hend => ?_⟩, h.last⟩
    rcases calcNextResetTime_cases hloc hplan sub.periodStart sub.endTime with hzero | ⟨-, hle⟩
    · omega
    · have := hle hend
      show sub.nextResetTime ≤ sub.endTime
      omega
  split_ifs with hnever
  · have hzero : calcNextResetTime loc sub.periodStart plan sub.endTime = 0 := by
      rw [calcNextResetTime, nextReset, hnever]
    exact ⟨.keep, rfl, .inl (hnext.elim id (·.trans hzero)), h.last⟩
  rw [hloop]
  cases advanced with
  | true => exact ⟨_, rfl, hgood, hnow⟩
  | false =>
    obtain ⟨-, rfl⟩ := hsame rfl
    dsimp only
    split
    · exact ⟨_, rfl, hgood, hnow⟩
    · exact ⟨_, rfl, .inl (show sub.nextResetTime = 0 by omega), h.last⟩

/-- A reset that is at its own base never gets past it. -/
theorem resetLoop_stuck {loc : Go.Location} {plan : Plan} {endTime now base : Int} (hpos : 0 < base) (hnow : base ≤ now)
    (hsame : calcNextResetTime loc base plan endTime = base) (fuel : Nat) (advanced : Bool) :
    resetLoop loc plan endTime now fuel advanced base = none := by
  induction fuel generalizing advanced with
  | zero => rfl
  | succ fuel ih =>
    rw [resetLoop, hsame, if_pos ⟨hpos, hnow⟩]
    exact ih true

theorem dueTurn_due (env : Subscription.Env) {plan : Plan} {now : Int} {sub : Subscription.UserSubscription}
    (hdue : ¬ (0 < sub.nextResetTime ∧ now < sub.nextResetTime))
    (hperiod : normalizeResetPeriod plan.quotaResetPeriod = .custom) {looped : Option (Bool × Int × Int)} :
    resetLoop env.loc plan sub.endTime now env.fuel false sub.periodStart = looped → dueTurn env plan now sub =
      match looped with
      | none => none
      | some (false, base, next) => if sub.nextResetTime = 0 ∧ 0 < next then some (.fill next base) else some .keep
      | some (true, base, next) => some (.clear next base) := by
  rintro rfl
  exact (if_neg hdue).trans (if_neg (by simp [hperiod]))

def subscribed (startTime nextResetTime endTime : Int) : Subscription.UserSubscription where
  userId := 1
  planId := 1
  amountTotal := 100
  amountUsed := 60
  startTime
  endTime
  status := .active
  lastResetTime := 0
  nextResetTime

def soloEnv (loc : Go.Location) (fuel : Nat) : Subscription.Env := ⟨loc, [1], by decide, fuel⟩

/-- A period of `2 ^ 55` seconds is accepted, and is none at all in nanoseconds. -/
def endlessPlan : SubscriptionPlan := planOf "month" 1 "custom" (2 ^ 55)

end AmuxApi.Purchase
