import AmuxApi.Purchase.Model

/- The part of the tables that matters for the group of one user: their subscriptions and
   the group itself. Three operations say what a purchase, a removal and an expiry do to
   it, and `Sound` is what all three keep, as long as a removal goes by a subscription
   that takes the user back (`Fits`): every subscription has recorded where its buyer came
   from, and a user that no active subscription upgrades is in the group they had at
   first. -/
namespace AmuxApi.Purchase
open Function List

/-! The membership of one user. -/

/-- The rows a table with these ids has, in order. -/
def rowsOf (env : Env) (rows : Int → Option UserSubscription) : List (Int × UserSubscription) :=
  env.ids.filterMap fun id => (rows id).map (id, ·)

/-- The user's own subscriptions, and their group. -/
structure Membership where
  subs : Int → Option UserSubscription
  group : String

/-- Where a user of `group` goes when the subscription is taken back. -/
def UserSubscription.backTo (s : UserSubscription) (group : String) : String :=
  if Go.trimSpace s.upgradeGroup ≠ "" ∧ group = Go.trimSpace s.upgradeGroup ∧ Go.trimSpace s.prevUserGroup ≠ "" then
    Go.trimSpace s.prevUserGroup
  else group

/-- `active`, with an upgrade group; by the status, not by the end time. -/
def UserSubscription.upgrading (s : UserSubscription) : Bool := s.status = .active ∧ s.upgradeGroup ≠ ""

namespace Membership

/-- The subscriptions that hold the user in a group. -/
def upgrading (env : Env) (st : Membership) : List (Int × UserSubscription) :=
  (rowsOf env st.subs).filter (·.2.upgrading)

def buy (id : Int) (sub : UserSubscription) (st : Membership) : Membership where
  subs := update st.subs id (some sub)
  group := if sub.upgradeGroup = "" then st.group else sub.upgradeGroup

def remove (env : Env) (id now : Int) (s : UserSubscription) (row : Option UserSubscription) (st : Membership) :
    Membership where
  subs := update st.subs id row
  group :=
    if (rowsOf env (update st.subs id row)).any fun c => c.1 ≠ id ∧ c.2.upgraded s.userId now then st.group
    else s.backTo st.group

def lapsed (env : Env) (userId now : Int) (st : Membership) (id : Int) : Option UserSubscription :=
  if id ∈ env.ids then (expireSub userId now (st.subs id)).getD (st.subs id) else st.subs id

def lastLapsed (env : Env) (userId now : Int) (st : Membership) : Option (Int × UserSubscription) :=
  latestEnd ((rowsOf env (st.lapsed env userId now)).filter fun c =>
    c.2.userId = userId ∧ c.2.status = .expired ∧ c.2.upgradeGroup ≠ "")

def expire (env : Env) (userId now : Int) (st : Membership) : Membership where
  subs := st.lapsed env userId now
  group :=
    if (rowsOf env (st.lapsed env userId now)).any (·.2.upgraded userId now) then st.group
    else ((st.lastLapsed env userId now).map (·.2.backTo st.group)).getD st.group

end Membership

/-! What the three operations keep. -/

section
variable {env : Env} {userId : Int} {base : String} {fromBase : Int → Bool} {st : Membership}

variable {c : Int × UserSubscription} {s : UserSubscription}

theorem mem_rowsOf {rows : Int → Option UserSubscription} :
    c ∈ rowsOf env rows ↔ c.1 ∈ env.ids ∧ rows c.1 = some c.2 := by
  obtain ⟨id, s⟩ := c
  simp only [rowsOf, mem_filterMap, Option.map_eq_some_iff, Prod.mk.injEq]
  constructor
  · rintro ⟨_, hid, _, hs, rfl, rfl⟩
    exact ⟨hid, hs⟩
  · rintro ⟨hid, hs⟩
    exact ⟨id, hid, s, hs, rfl, rfl⟩

theorem mem_upgrading : c ∈ st.upgrading env ↔ c.1 ∈ env.ids ∧ st.subs c.1 = some c.2 ∧ c.2.upgrading = true := by
  rw [Membership.upgrading, mem_filter, mem_rowsOf, and_assoc]

theorem latestEnd_mem {l : List (Int × UserSubscription)} (h : latestEnd l = some c) : c ∈ l := by
  induction l generalizing c with
  | nil => simp [latestEnd] at h
  | cons c' rest ih =>
    simp only [latestEnd] at h
    split at h
    · simp [Option.some.inj h]
    rename_i b hb
    split at h
    · simp [Option.some.inj h]
    · rw [← Option.some.inj h]
      exact mem_cons_of_mem _ (ih hb)

theorem latestEnd_none {l : List (Int × UserSubscription)} (h : latestEnd l = none) : l = [] := by
  cases l with
  | nil => rfl
  | cons c rest =>
    simp only [latestEnd] at h
    split at h
    · cases h
    · split at h <;> cases h

/-- What subscription `id` of the user has recorded. -/
structure Bought (env : Env) (userId : Int) (base : String) (fromBase : Bool) (id : Int) (s : UserSubscription) :
    Prop where
  mem : id ∈ env.ids
  pos : 0 < userId
  owner : s.userId = userId
  trimmed : Go.trimSpace s.upgradeGroup = s.upgradeGroup
  record : fromBase = true → s.prevUserGroup = if s.upgradeGroup = "" ∨ s.upgradeGroup = base then "" else base

/-- The subscriptions are recorded, and a user that none of them upgrades is in `base`. -/
structure Membership.Sound (env : Env) (userId : Int) (base : String) (fromBase : Int → Bool) (st : Membership) :
    Prop where
  bought : ∀ id s, st.subs id = some s → Bought env userId base (fromBase id) id s
  idle : st.upgrading env = [] → st.group = base

/-- The same subscription to a later time: its owner and its two groups stay. -/
structure UserSubscription.Same (s s' : UserSubscription) : Prop where
  owner : s'.userId = s.userId
  upgradeGroup : s'.upgradeGroup = s.upgradeGroup
  prevUserGroup : s'.prevUserGroup = s.prevUserGroup

theorem UserSubscription.Same.refl (s : UserSubscription) : s.Same s := ⟨rfl, rfl, rfl⟩

theorem Bought.later {b : Bool} {id : Int} {s' : UserSubscription} (h : Bought env userId base b id s)
    (hs : s.Same s') : Bought env userId base b id s' where
  mem := h.mem
  pos := h.pos
  owner := hs.owner.trans h.owner
  trimmed := by rw [hs.upgradeGroup, h.trimmed]
  record hb := by rw [hs.upgradeGroup, hs.prevUserGroup, h.record hb]

/-- A subscription that fits takes the user back to `base`. -/
theorem Bought.backTo_base {b : Bool} {id : Int} {group : String}
    (h : Bought env userId base b id s) (hbase : base ≠ "") (htrim : Go.trimSpace base = base)
    (hup : s.upgradeGroup ≠ "") (hfrom : s.upgradeGroup = group → b = true)
    (hgroup : group ≠ base → s.upgradeGroup = group) : s.backTo group = base := by
  rw [UserSubscription.backTo, h.trimmed]
  by_cases heq : s.upgradeGroup = group
  · have hprev := h.record (hfrom heq)
    by_cases hb : s.upgradeGroup = base
    · -- the user was in `base` and stays: nothing was recorded
      have hempty : Go.trimSpace s.prevUserGroup = "" := by
        rw [hprev, if_pos (.inr hb)]
        simp [Go.trimSpace]
      rw [if_neg (fun hn => hn.2.2 hempty), ← heq, hb]
    · rw [if_neg (by simp [hup, hb])] at hprev
      rw [hprev, htrim, if_pos ⟨hup, heq.symm, hbase⟩]
  · -- the user has left the subscription's group, so they are in `base` already
    rw [if_neg (fun hn => heq hn.2.1.symm)]
    by_contra hne
    exact heq (hgroup hne)

namespace Membership

variable {id now : Int} {s : UserSubscription}

theorem Sound.buy (h : st.Sound env userId base fromBase) {sub : UserSubscription} (hfree : st.subs id = none)
    (hsub : Bought env userId base (st.group = base) id sub) (hactive : sub.status = .active) :
    (st.buy id sub).Sound env userId base (update fromBase id (st.group = base)) where
  bought id' s hs := by
    simp only [Membership.buy] at hs
    by_cases hid : id' = id
    · subst hid
      rw [update_self] at hs ⊢
      cases hs
      exact hsub
    · rw [update_of_ne hid] at hs ⊢
      exact h.bought id' s hs
  idle hnone := by
    have hout : ∀ c, c ∉ (st.buy id sub).upgrading env := fun c hc => by simp [hnone] at hc
    have hup : sub.upgradeGroup = "" := by
      by_contra hup
      refine hout (id, sub) (mem_upgrading.mpr ⟨hsub.mem, update_self .., ?_⟩)
      simp [UserSubscription.upgrading, hactive, hup]
    simp only [Membership.buy, hup]
    refine h.idle (eq_nil_iff_forall_not_mem.mpr fun c hc => ?_)
    obtain ⟨hmem, hc, hcup⟩ := mem_upgrading.mp hc
    refine hout c (mem_upgrading.mpr ⟨hmem, ?_, hcup⟩)
    refine (update_of_ne ?_ _ _).trans hc
    rintro rfl
    rw [hfree] at hc
    cases hc

/-- What becomes of a subscription that is taken away. -/
def Gone (s : UserSubscription) (row : Option UserSubscription) : Prop :=
  ∀ s', row = some s' → s.Same s' ∧ s'.status ≠ .active

/-- The condition on an operation that goes by `s`, subscription `id`, and ends what `ends` says. -/
def Fits (env : Env) (base : String) (fromBase : Int → Bool) (st : Membership) (id : Int) (s : UserSubscription)
    (ends : Int × UserSubscription → Bool) : Prop :=
  (st.upgrading env).all ends = true →
    (s.upgradeGroup = st.group → fromBase id = true) ∧ (st.group ≠ base → s.upgradeGroup = st.group)

theorem Sound.remove (h : st.Sound env userId base fromBase) (hbase : base ≠ "") (htrim : Go.trimSpace base = base)
    {row : Option UserSubscription} (hs : st.subs id = some s) (hrow : Gone s row)
    (hfits : st.Fits env base fromBase id s (·.1 = id)) :
    (st.remove env id now s row).Sound env userId base fromBase where
  bought id' s' hs' := by
    simp only [Membership.remove] at hs'
    by_cases hid : id' = id
    · subst hid
      rw [update_self] at hs'
      exact (h.bought id' s hs).later (hrow s' hs').1
    · rw [update_of_ne hid] at hs'
      exact h.bought id' s' hs'
  idle hnone := by
    have hb := h.bought id s hs
    have hout : ∀ c ∈ st.upgrading env, c.1 = id := by
      intro c hc
      by_contra hid
      obtain ⟨hmem, hc, hcup⟩ := mem_upgrading.mp hc
      have hc' : c ∈ (st.remove env id now s row).upgrading env :=
        mem_upgrading.mpr ⟨hmem, (update_of_ne hid _ _).trans hc, hcup⟩
      simp [hnone] at hc'
    have hnone' : ((rowsOf env (update st.subs id row)).any fun c => c.1 ≠ id ∧ c.2.upgraded s.userId now) = false := by
      rw [any_eq_false]
      intro c hc hother
      obtain ⟨hid, hup⟩ := of_decide_eq_true hother
      obtain ⟨hmem, hc⟩ := mem_rowsOf.mp hc
      rw [update_of_ne hid] at hc
      obtain ⟨-, hactive, -, hne⟩ := of_decide_eq_true hup
      exact hid (hout c (mem_upgrading.mpr ⟨hmem, hc, by simp [UserSubscription.upgrading, hactive, hne]⟩))
    simp only [Membership.remove, hnone', Bool.false_eq_true]
    by_cases hup : s.upgradeGroup = ""
    · -- it held the user nowhere, so nothing did before either
      rw [UserSubscription.backTo, hb.trimmed, if_neg (not_and_of_not_left _ (not_not.mpr hup))]
      refine h.idle (eq_nil_iff_forall_not_mem.mpr fun c hc => ?_)
      obtain rfl := hout c hc
      obtain ⟨-, hc, hcup⟩ := mem_upgrading.mp hc
      obtain rfl : c.2 = s := Option.some.inj (hc.symm.trans hs)
      simp [UserSubscription.upgrading, hup] at hcup
    · obtain ⟨hfrom, hgroup⟩ := hfits (all_eq_true.mpr fun c hc => decide_eq_true (hout c hc))
      exact hb.backTo_base hbase htrim hup hfrom hgroup

/-- A subscription after the expiry: the same, and if it is not still the one it was, it has
expired now. -/
theorem lapsed_some {s' : UserSubscription} (h : st.lapsed env userId now id = some s') :
    ∃ s, st.subs id = some s ∧ s.Same s' := by
  simp only [lapsed] at h
  split at h
  · cases hs : st.subs id with
    | none => simp [hs, expireSub] at h
    | some s =>
      refine ⟨s, rfl, ?_⟩
      simp only [hs, expireSub] at h
      split at h
      · rw [← Option.some.inj h]
        exact ⟨rfl, rfl, rfl⟩
      · rw [← Option.some.inj h]
        exact .refl s
  · exact ⟨s', h, .refl s'⟩

theorem Sound.expire (h : st.Sound env userId base fromBase) (hbase : base ≠ "") (htrim : Go.trimSpace base = base)
    (hfits : ∀ id s, st.lastLapsed env userId now = some (id, s) →
      st.Fits env base fromBase id s (·.2.due now)) : (st.expire env userId now).Sound env userId base fromBase where
  bought id s' hs' := by
    obtain ⟨s, hs, hsame⟩ := lapsed_some hs'
    exact (h.bought id s hs).later hsame
  idle hnone := by
    have hdue : ∀ c ∈ st.upgrading env, c.2.due now = true := by
      intro c hc
      by_contra hdue
      obtain ⟨hmem, hc, hcup⟩ := mem_upgrading.mp hc
      have hc' : c ∈ (st.expire env userId now).upgrading env :=
        mem_upgrading.mpr ⟨hmem, show st.lapsed _ _ _ _ = _ by simp [lapsed, hc, expireSub, hdue], hcup⟩
      simp [hnone] at hc'
    have hnone' : (rowsOf env (st.lapsed env userId now)).any (·.2.upgraded userId now) = false := by
      rw [any_eq_false]
      intro c hc hup
      obtain ⟨hmem, hc⟩ := mem_rowsOf.mp hc
      obtain ⟨-, hactive, -, hne⟩ := of_decide_eq_true hup
      have hc' : c ∈ (st.expire env userId now).upgrading env :=
        mem_upgrading.mpr ⟨hmem, hc, by simp [UserSubscription.upgrading, hactive, hne]⟩
      simp [hnone] at hc'
    simp only [Membership.expire, hnone', Bool.false_eq_true]
    cases hlast : st.lastLapsed env userId now with
    | none =>
      -- what held the user would have expired just now
      refine h.idle (eq_nil_iff_forall_not_mem.mpr fun c hc => ?_)
      have hd := hdue c hc
      obtain ⟨hmem, hc, hcup⟩ := mem_upgrading.mp hc
      have hempty := latestEnd_none hlast
      rw [filter_eq_nil_iff] at hempty
      have howner := (h.bought _ _ hc).owner
      have hlapsed : st.lapsed env userId now c.1 = some { c.2 with status := .expired } := by
        simp [lapsed, hmem, hc, expireSub, howner, hd]
      refine hempty (c.1, { c.2 with status := .expired }) (mem_rowsOf.mpr ⟨hmem, hlapsed⟩) ?_
      obtain ⟨-, hne⟩ := of_decide_eq_true hcup
      simp [howner, hne]
    | some c =>
      obtain ⟨id, s'⟩ := c
      obtain ⟨hmem, hc⟩ := mem_filter.mp (latestEnd_mem hlast)
      obtain ⟨-, -, hup⟩ := of_decide_eq_true hc
      obtain ⟨s, hs, hsame⟩ := lapsed_some (mem_rowsOf.mp hmem).2
      obtain ⟨hfrom, hgroup⟩ := hfits id s' hlast (all_eq_true.mpr hdue)
      exact ((h.bought id s hs).later hsame).backTo_base hbase htrim hup hfrom hgroup

end Membership
end

end AmuxApi.Purchase
