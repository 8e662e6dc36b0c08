import Mathlib.Data.Finset.Card

/- A user whose top-ups have reached a threshold is moved to another group, from there to the next, and
   so on. Nothing looks at the rules when they are set: any list that can be decoded is taken.

   A call returns, after at most one upgrade for each rule and in a group that no rule applies to, just
   where upgrading is off or the rules that apply do not lead the user into a circle (`upgrades_end`).
   Two rules that lead back and forth keep it upgrading for ever (`upgrades_forever`).

   Correspondence (Go ↔ Lean): `model/topup.go` and `setting/operation_setting/user_upgrade_setting.go`,
   by the source's names. Threshold and amount are finite doubles, which are rational numbers. -/
namespace AmuxApi.Upgrade
open Relation (TransGen ReflTransGen)

structure UserUpgradeRule where
  fromGroup : String
  toGroup : String
  threshold : Rat

structure UserUpgradeSetting where
  autoUpgradeEnabled : Bool := false
  upgradeRules : List UserUpgradeRule := []

/-- What the database and the cache do in one call. -/
structure Replies where
  read : Bool := true
  column : Bool := true
  cache : Bool := true

structure Progress where
  group : String
  upgrades : List (String × String) := []
  deriving DecidableEq

def UserUpgradeSetting.applicable (s : UserUpgradeSetting) (totalAmount : Rat) (group : String) :
    Option UserUpgradeRule :=
  s.upgradeRules.find? fun rule => group = rule.fromGroup ∧ totalAmount ≥ rule.threshold

/-- `none`: still running after that many calls. Otherwise whether it has returned `nil`. -/
def checkAndUpgradeUserGroup (s : UserUpgradeSetting) (totalAmount : Rat) (replies : Nat → Replies) :
    Nat → Nat → Progress → Option (Bool × Progress)
  | 0, _, _ => none
  | fuel + 1, call, p =>
    if !s.autoUpgradeEnabled || s.upgradeRules.isEmpty then some (true, p)
    else if !(replies call).read then some (false, p)
    else
      match s.applicable totalAmount p.group with
      | none => some (true, p)
      | some rule =>
        if !(replies call).column then some (false, p)
        else if !(replies call).cache then some (false, { p with group := rule.toGroup })
        else checkAndUpgradeUserGroup s totalAmount replies fuel (call + 1)
          ⟨rule.toGroup, p.upgrades ++ [(p.group, rule.toGroup)]⟩

/-! The groups that an upgrade leads to. -/

def UserUpgradeSetting.Upgrades (s : UserUpgradeSetting) (totalAmount : Rat) (group next : String) : Prop :=
  ∃ rule, s.applicable totalAmount group = some rule ∧ rule.toGroup = next

/-- The groups that the user comes through lead to no circle. -/
def UserUpgradeSetting.Straight (s : UserUpgradeSetting) (totalAmount : Rat) (group : String) : Prop :=
  ∀ g, ReflTransGen (s.Upgrades totalAmount) group g → ¬TransGen (s.Upgrades totalAmount) g g

variable {s : UserUpgradeSetting} {totalAmount : Rat} {group next : String}

theorem UserUpgradeSetting.Straight.step (h : s.Straight totalAmount group)
    (hstep : s.Upgrades totalAmount group next) :
    s.Straight totalAmount next := fun g hg => h g (.head hstep hg)

open Classical in
/-- The groups still ahead. -/
noncomputable def UserUpgradeSetting.ahead (s : UserUpgradeSetting) (totalAmount : Rat)
    (group : String) : Finset String :=
  (s.upgradeRules.map (·.toGroup)).toFinset.filter (TransGen (s.Upgrades totalAmount) group)

theorem mem_ahead : next ∈ s.ahead totalAmount group ↔
    (∃ rule ∈ s.upgradeRules, rule.toGroup = next) ∧ TransGen (s.Upgrades totalAmount) group next := by
  simp [UserUpgradeSetting.ahead]

theorem card_ahead_le : (s.ahead totalAmount group).card ≤ s.upgradeRules.length := by
  classical
  refine (Finset.card_filter_le _ _).trans ?_
  simpa using List.toFinset_card_le (s.upgradeRules.map (·.toGroup))

theorem card_ahead_lt (hstraight : s.Straight totalAmount group) (hstep : s.Upgrades totalAmount group next) :
    (s.ahead totalAmount next).card < (s.ahead totalAmount group).card := by
  apply Finset.card_lt_card
  rw [Finset.ssubset_iff_of_subset fun g hg => ?_]
  · refine ⟨next, mem_ahead.mpr ⟨?_, .single hstep⟩, fun hnext =>
      hstraight.step hstep next .refl (mem_ahead.mp hnext).2⟩
    obtain ⟨rule, hrule, rfl⟩ := hstep
    exact ⟨rule, List.mem_of_find?_eq_some hrule, rfl⟩
  · obtain ⟨hrule, hahead⟩ := mem_ahead.mp hg
    exact mem_ahead.mpr ⟨hrule, .head hstep hahead⟩

/-- Rules that lead upwards in some order do not lead back. -/
theorem straight_of_rank (rank : String → Nat)
    (h : ∀ rule ∈ s.upgradeRules, totalAmount ≥ rule.threshold → rank rule.fromGroup < rank rule.toGroup) :
    s.Straight totalAmount group := by
  intro g _ hcycle
  have hone : ∀ a b, s.Upgrades totalAmount a b → rank a < rank b := by
    rintro a b ⟨rule, hrule, rfl⟩
    have hmet := List.find?_some hrule
    simp only [decide_eq_true_eq] at hmet
    rw [hmet.1]
    exact h rule (List.mem_of_find?_eq_some hrule) hmet.2
  have hrank : TransGen (· < ·) (rank g) (rank g) := hcycle.lift rank hone
  rw [Relation.transGen_eq_self] at hrank
  exact lt_irrefl _ hrank

/-! Calls. -/

/-- What a call that has returned leaves. -/
structure Ended (s : UserUpgradeSetting) (totalAmount : Rat) (replies : Nat → Replies) (bound : Nat)
    (r : Bool × Progress) : Prop where
  upgrades : r.2.upgrades.length ≤ bound
  last : s.autoUpgradeEnabled = true → r.1 = true → s.applicable totalAmount r.2.group = none
  answer : (∀ call, replies call = {}) → r.1 = true

theorem check_ends (replies : Nat → Replies) :
    ∀ (fuel call : Nat) (p : Progress), (s.autoUpgradeEnabled = true → s.Straight totalAmount p.group) →
      (s.ahead totalAmount p.group).card < fuel →
        ∃ r, checkAndUpgradeUserGroup s totalAmount replies fuel call p = some r ∧
        Ended s totalAmount replies (p.upgrades.length + (s.ahead totalAmount p.group).card) r := by
  intro fuel
  induction fuel with
  | zero =>
    omega
  | succ fuel ih =>
    intro call p hstraight hfuel
    simp only [checkAndUpgradeUserGroup]
    split
    · rename_i hoff
      refine ⟨_, rfl, by simp, fun hon _ => ?_, fun _ => rfl⟩
      simp only [hon, Bool.not_true, Bool.false_or, List.isEmpty_iff] at hoff
      simp [UserUpgradeSetting.applicable, hoff]
    · rename_i hon
      have hstraight := hstraight (by cases hauto : s.autoUpgradeEnabled <;> simp_all)
      split
      · rename_i hread
        exact ⟨_, rfl, by simp, by simp, fun hall => by simp [hall call] at hread⟩
      · cases hrule : s.applicable totalAmount p.group with
        | none => exact ⟨_, rfl, by simp, fun _ _ => hrule, fun _ => rfl⟩
        | some rule =>
          have hless := card_ahead_lt hstraight ⟨rule, hrule, rfl⟩
          dsimp only
          split
          · rename_i hcolumn
            exact ⟨_, rfl, by simp, by simp, fun hall => by simp [hall call] at hcolumn⟩
          split_ifs with hcache
          · exact ⟨_, rfl, by simp, by simp, fun hall => by simp [hall call] at hcache⟩
          · obtain ⟨r, hr, hended⟩ := ih (call + 1) ⟨rule.toGroup, p.upgrades ++ [(p.group, rule.toGroup)]⟩
              (fun _ => hstraight.step ⟨rule, hrule, rfl⟩) (by simp only; omega)
            refine ⟨r, hr, hended.upgrades.trans ?_, hended.last, hended.answer⟩
            simp only [List.length_append, List.length_singleton]
            omega

/-- In a circle, or on the way to one, there is always a next group. -/
theorem check_never_ends (hon : s.autoUpgradeEnabled = true) : ∀ (fuel call : Nat) (p : Progress),
    ¬ s.Straight totalAmount p.group → checkAndUpgradeUserGroup s totalAmount (fun _ => {}) fuel call p = none := by
  intro fuel
  induction fuel with
  | zero => exact fun _ _ _ => rfl
  | succ fuel ih =>
    intro call p hcircle
    have hnext : ∃ rule, s.applicable totalAmount p.group = some rule ∧ ¬ s.Straight totalAmount rule.toGroup := by
      simp only [UserUpgradeSetting.Straight, not_forall, not_not] at hcircle ⊢
      obtain ⟨g, hreach, hback⟩ := hcircle
      rcases hreach.cases_head with rfl | ⟨next, ⟨rule, hrule, rfl⟩, hrest⟩
      · obtain ⟨next, ⟨rule, hrule, rfl⟩, hrest⟩ := TransGen.head'_iff.mp hback
        exact ⟨rule, hrule, p.group, hrest, hback⟩
      · exact ⟨rule, hrule, g, hrest, hback⟩
    obtain ⟨rule, hrule, hstill⟩ := hnext
    have hrules : s.upgradeRules.isEmpty = false := by
      cases hempty : s.upgradeRules with
      | nil => simp [UserUpgradeSetting.applicable, hempty] at hrule
      | cons rule rest => rfl
    simpa [checkAndUpgradeUserGroup, hon, hrules, hrule] using ih (call + 1) _ hstill

/-- **A call returns**, after at most as many upgrades as there are rules, if and only if upgrading is off or the
    rules that apply at this amount lead the user into no circle. With upgrading on, it then returns `nil` only in
    a group that no rule applies to; and it returns `nil` where nothing fails. -/
theorem upgrades_end (s : UserUpgradeSetting) (totalAmount : Rat) (group : String) :
    (∀ replies, ∃ fuel r, checkAndUpgradeUserGroup s totalAmount replies fuel 0 ⟨group, []⟩ = some r ∧
      Ended s totalAmount replies s.upgradeRules.length r) ↔
      (s.autoUpgradeEnabled = true → s.Straight totalAmount group) := by
  constructor
  · intro h hon
    by_contra hcircle
    obtain ⟨fuel, r, hr, -⟩ := h fun _ => {}
    rw [check_never_ends hon fuel 0 ⟨group, []⟩ hcircle] at hr
    cases hr
  · intro hstraight replies
    obtain ⟨r, hr, hended⟩ := check_ends replies _ 0 ⟨group, []⟩ hstraight (Nat.lt_succ_self _)
    refine ⟨_, r, hr, hended.upgrades.trans ?_, hended.last, hended.answer⟩
    simpa using card_ahead_le

def threeGroups : UserUpgradeSetting := ⟨true, [⟨"default", "vip", 100⟩, ⟨"vip", "svip", 500⟩]⟩

def rankOf (group : String) : Nat := if group = "default" then 0 else if group = "vip" then 1 else 2

/-- Two upgrades at once, as the comment in the source has it. -/
theorem two_upgrades :
    checkAndUpgradeUserGroup threeGroups 600 (fun _ => {}) 3 0 ⟨"default", []⟩ =
        some (true, ⟨"svip", [("default", "vip"), ("vip", "svip")]⟩) ∧
      ∃ fuel r, checkAndUpgradeUserGroup threeGroups 600 (fun _ => {}) fuel 0 ⟨"default", []⟩ = some r ∧
        r.2.upgrades.length ≤ 2 := by
  refine ⟨by decide +kernel, ?_⟩
  obtain ⟨fuel, r, hr, hended⟩ := (upgrades_end threeGroups 600 "default").mpr
    (fun _ => straight_of_rank rankOf (by decide +kernel)) fun _ => {}
  exact ⟨fuel, r, hr, hended.upgrades⟩

def backAndForth : UserUpgradeSetting := ⟨true, [⟨"default", "vip", 100⟩, ⟨"vip", "default", 0⟩]⟩

/-- A rule up and a rule down: the call never returns, though nothing fails. -/
theorem upgrades_forever : backAndForth.autoUpgradeEnabled = true ∧
    ∀ fuel, checkAndUpgradeUserGroup backAndForth 100 (fun _ => {}) fuel 0 ⟨"default", []⟩ = none := by
  refine ⟨rfl, fun fuel => ?_⟩
  have hboth : ∀ (call : Nat) (p : Progress), p.group = "default" ∨ p.group = "vip" →
      checkAndUpgradeUserGroup backAndForth 100 (fun _ => {}) fuel call p = none := by
    induction fuel with
    | zero => exact fun _ _ _ => rfl
    | succ fuel ih =>
      rintro call ⟨g, done⟩ (rfl | rfl)
      · exact ih (call + 1) _ (.inr rfl)
      · exact ih (call + 1) _ (.inl rfl)
  exact hboth 0 _ (.inl rfl)

end AmuxApi.Upgrade
