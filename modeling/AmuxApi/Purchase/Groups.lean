import AmuxApi.Purchase.Limit
import AmuxApi.Purchase.Membership
import Mathlib.Data.List.Dedup

/- The group of a user over a course of purchases, expiries, invalidations and deletions,
   one call after the other and without database errors.

   A purchase that changes the group records the group the user came from in the new
   subscription; a removal puts the user back into what the one subscription it goes by
   has recorded. Nothing ties that record to the group the user had at first, so the group
   comes back only if the last removal goes by a subscription bought from there
   (`group_comes_back`); two purchases of the same group, taken back in order, leave the
   user in it (`group_kept_after_two`).

   Each call on the tables, seen by one user, is an operation on their `Membership` or
   leaves it alone (`Created.membership`, `Removed.membership`, `expireDue_spec`). -/
namespace AmuxApi.Purchase
open Txn UserSubscription List

/-! The membership of a user in the tables. -/

/-- The subscription, if it is this user's. -/
def own (userId : Int) (d : Tables) (id : Int) : Option UserSubscription :=
  (d (.sub id)).filter (·.userId = userId)

def groupOf (d : Tables) (userId : Int) : String := ((d (.user userId)).map User.group).getD ""

def membership (userId : Int) (d : Tables) : Membership := ⟨own userId d, groupOf d userId⟩

/-! The calls. -/

inductive GroupCall (env : Env)
  | create (buy : Buy env)
  | expireDue (limit now : Int)
  | invalidate (id now : Int)
  | delete (id now : Int)

def GroupCall.run {env : Env} (d : Tables) : GroupCall env → Tables
  | .create buy => (solo buy.prog [] d).1
  | .expireDue limit now => (solo (expireDueSubscriptions env limit now) [] d).1
  | .invalidate id now => (solo (adminInvalidateUserSubscription env id now) [] d).1
  | .delete id now => (solo (adminDeleteUserSubscription env id now) [] d).1

/-- The users that `ExpireDueSubscriptions` goes through. -/
def dueUsers (env : Env) (d : Tables) (limit now : Int) : List Int :=
  env.ranged (((dueSubs env d limit now).map (·.2.userId)).filter (0 < ·)).dedup

/-- The user's subscription that the call goes by when it looks where to put them. -/
def GroupCall.goesBy {env : Env} (userId : Int) (d : Tables) : GroupCall env → Option (Int × UserSubscription)
  | .create _ => none
  | .expireDue limit now =>
    if userId ∈ dueUsers env d limit now then (membership userId d).lastLapsed env userId now else none
  | .invalidate id _ => ((own userId d id).filter (·.status ≠ .cancelled)).map (id, ·)
  | .delete id _ => (own userId d id).map (id, ·)

def GroupCall.ends {env : Env} (c : Int × UserSubscription) : GroupCall env → Bool
  | .create _ => false
  | .expireDue _ now => c.2.due now
  | .invalidate id _ | .delete id _ => c.1 = id

/-- The tables, and of each of the user's subscriptions whether it was bought while they
were in the group they had at first. -/
structure Course where
  tables : Tables
  fromBase : Int → Bool

namespace Course

def start (d : Tables) : Course := ⟨d, fun _ => false⟩

/-- `userId`'s course, who was in `base` at first. -/
def next {env : Env} (userId : Int) (base : String) (p : Course) (call : GroupCall env) : Course where
  tables := call.run p.tables
  fromBase :=
    match call with
    | .create buy =>
      if buy.userId = userId ∧ (p.tables (.sub buy.stamp.newId)).isNone ∧
          (call.run p.tables (.sub buy.stamp.newId)).isSome then
        Function.update p.fromBase buy.stamp.newId (groupOf p.tables userId = base)
      else p.fromBase
    | _ => p.fromBase

def run {env : Env} (userId : Int) (base : String) (p : Course) (calls : List (GroupCall env)) : Course :=
  calls.foldl (next userId base) p

/-- The condition on a call, before it is made. If it ends all that holds the user in a
group, then the subscription it goes by has to take them back to `base`: it was bought
there if it upgrades to the user's group, and a user outside `base` is in the group it
upgrades to. -/
def fits {env : Env} (userId : Int) (base : String) (p : Course) (call : GroupCall env) : Bool :=
  match call.goesBy userId p.tables with
  | none => true
  | some (id, s) =>
    if ((membership userId p.tables).upgrading env).all (call.ends ·) then
      (s.upgradeGroup = groupOf p.tables userId → p.fromBase id) ∧
        (groupOf p.tables userId ≠ base → s.upgradeGroup = groupOf p.tables userId)
    else true

def allFit {env : Env} (userId : Int) (base : String) : Course → List (GroupCall env) → Bool
  | _, [] => true
  | p, call :: calls => p.fits userId base call && allFit userId base (p.next userId base call) calls

end Course

/-! The calls on the tables, run without faults. -/

section
variable {env : Env} {userId id now : Int} {d v : Tables} {group : String} {sub : UserSubscription}

theorem groupOf_eq (h : d (.user userId) = some ⟨group⟩) : groupOf d userId = group := by
  simp [groupOf, h]

theorem inside_getUserGroupByIdTx {α : Type} {g : Except Err String → SQL α} {Q : α → Tables → Prop}
    (hpos : 0 < userId) :
    Inside (getUserGroupByIdTx userId >>= g) v Q ↔ Inside (g (.ok (groupOf v userId))) v Q := by
  rw [getUserGroupByIdTx, if_neg (by omega)]
  rfl

/-- Only `userId`'s row differs, and a user in `group` is in `group'` now. -/
structure Moves (userId : Int) (v v' : Tables) (step : String → String) : Prop where
  others : ∀ k, k ≠ .user userId → v' k = v k
  moved : ∀ group, v (.user userId) = some ⟨group⟩ → v' (.user userId) = some ⟨step group⟩

theorem Moves.refl {step : String → String} (h : ∀ group, v (.user userId) = some ⟨group⟩ → step group = group) :
    Moves userId v v step :=
  ⟨fun _ _ => rfl, fun group hg => by rw [hg, h group hg]⟩

theorem moves_setGroup (userId : Int) (v : Tables) (group : String) :
    Moves userId v (Function.update v (.user userId) ((setGroup group (v (.user userId))).getD (v (.user userId))))
      fun _ => group := by
  refine ⟨fun k hk => Function.update_of_ne hk _ _, fun _ h => ?_⟩
  rw [Function.update_self, h]
  rfl

theorem inside_upgradeUserGroup (hpos : 0 < userId) (upgradeGroup : String) :
    Inside (upgradeUserGroup userId upgradeGroup) v fun r v' =>
      r = .ok (if upgradeGroup = "" ∨ upgradeGroup = groupOf v userId then "" else groupOf v userId) ∧
      Moves userId v v' fun group => if upgradeGroup = "" then group else upgradeGroup := by
  unfold upgradeUserGroup
  by_cases hempty : upgradeGroup = ""
  · simp only [hempty, if_true, true_or]
    exact ⟨rfl, .refl fun _ _ => rfl⟩
  rw [if_neg hempty, inside_getUserGroupByIdTx hpos]
  simp only [hempty, if_false, false_or]
  split
  · rename_i hsame
    refine ⟨by rw [if_pos hsame.symm], .refl fun group hg => ?_⟩
    rw [← hsame, groupOf_eq hg]
  · rename_i hother
    rw [inside_update]
    exact ⟨by rw [if_neg (Ne.symm hother)], moves_setGroup ..⟩

/-- What a purchase that went through has changed. -/
structure Created {env : Env} (buy : Buy env) (d d' : Tables) (sub : UserSubscription) : Prop where
  pos : 0 < buy.userId
  free : d (.sub buy.stamp.newId) = none
  inserted : d' (.sub buy.stamp.newId) = some sub
  others : ∀ k, k ≠ .sub buy.stamp.newId → k ≠ .user buy.userId → d' k = d k
  owner : sub.userId = buy.userId
  active : sub.status = .active
  trimmed : Go.trimSpace sub.upgradeGroup = sub.upgradeGroup
  record : sub.prevUserGroup =
    if sub.upgradeGroup = "" ∨ sub.upgradeGroup = groupOf d buy.userId then "" else groupOf d buy.userId
  moved : ∀ group, d (.user buy.userId) = some ⟨group⟩ →
    d' (.user buy.userId) = some ⟨if sub.upgradeGroup = "" then group else sub.upgradeGroup⟩

theorem inside_upgradeAndInsert (buy : Buy env) (d : Tables) (endUnix : Int) (hpos : 0 < buy.userId) :
    Inside (upgradeAndInsert env buy.stamp buy.userId buy.planId buy.plan buy.source endUnix) d fun r v =>
      ∀ sub, r = .ok sub → Created buy d v sub := by
  refine (inside_upgradeUserGroup hpos _).bind ?_
  rintro _ v ⟨rfl, hmoves⟩
  rw [inside_update, show v (.sub buy.stamp.newId) = d (.sub buy.stamp.newId) from hmoves.others _ (by simp)]
  cases hfree : d (.sub buy.stamp.newId) with
  | some s =>
    intro sub hsub
    cases hsub
  | none =>
    intro sub hsub
    cases hsub
    refine ⟨hpos, hfree, Function.update_self .., fun k hsub huser => ?_, rfl, rfl, Go.trimSpace_trimSpace _, rfl,
      fun group hg => ?_⟩
    · rw [Function.update_of_ne hsub, hmoves.others k huser]
    · exact hmoves.moved group hg

/-- A purchase goes through, or changes nothing. -/
theorem buy_spec (buy : Buy env) (d : Tables) : Does buy.prog d fun _ d' => d' = d ∨ ∃ sub, Created buy d d' sub := by
  refine does_transaction ?_
  unfold createUserSubscriptionFromPlanTx
  split
  · exact .inl rfl
  split
  · exact .inl rfl
  refine (inside_reads (Q := fun _ v => v = d) (checkPurchaseLimit_reads ..) fun _ => rfl).bind ?_
  rintro r v rfl
  cases r with
  | error e => exact .inl rfl
  | ok _ =>
    dsimp only
    split
    · exact .inl rfl
    · refine (inside_upgradeAndInsert buy v _ (by omega)).mono fun r v' h => ?_
      cases r with
      | error e => exact .inl rfl
      | ok sub => exact .inr ⟨sub, h sub rfl⟩

/-! Taking a subscription away. -/

theorem inside_restoreGroup (sub : UserSubscription) :
    Inside (restoreGroup sub (groupOf v sub.userId)) v fun _ v' => Moves sub.userId v v' fun group =>
      if Go.trimSpace sub.prevUserGroup = "" then group else Go.trimSpace sub.prevUserGroup := by
  unfold restoreGroup
  split
  · rename_i h
    refine .refl fun group hg => ?_
    rcases h with hempty | hsame
    · rw [if_pos hempty]
    · rw [hsame, groupOf_eq hg]
      exact ite_self _
  · rename_i h
    rw [inside_update]
    simp only [if_neg (fun hempty => h (.inl hempty))]
    exact moves_setGroup ..

theorem inside_downgrade (id now : Int) (hpos : 0 < sub.userId) :
    Inside (downgradeUserGroupForSubscriptionTx env id sub now) v fun _ v' => Moves sub.userId v v' fun group =>
      if (subs env v).any fun c => c.1 ≠ id ∧ c.2.upgraded sub.userId now then group else sub.backTo group := by
  unfold downgradeUserGroupForSubscriptionTx
  split
  · rename_i hempty
    exact .refl fun group _ => by simp [backTo, hempty]
  rename_i hne
  rw [inside_getUserGroupByIdTx hpos]
  dsimp only
  split
  · rename_i hother
    refine .refl fun group hg => ?_
    rw [groupOf_eq hg] at hother
    simp [backTo, hother]
  rename_i hsame
  rw [inside_select]
  dsimp only
  split
  · exact .refl fun _ _ => rfl
  · refine (inside_restoreGroup sub).mono fun _ v' hmoves => ⟨hmoves.others, fun group hg => ?_⟩
    rw [hmoves.moved group hg]
    rw [groupOf_eq hg] at hsame
    by_cases hprev : Go.trimSpace sub.prevUserGroup = "" <;> simp [backTo, hprev, hne, hsame]

/-- What taking away subscription `id`, which was `s`, has changed. -/
structure Removed (env : Env) (id now : Int) (d d' : Tables) (s : UserSubscription) (row : Option UserSubscription) :
    Prop where
  stored : d (.sub id) = some s
  written : d' (.sub id) = row
  others : ∀ k, k ≠ .sub id → k ≠ .user s.userId → d' k = d k
  moved : 0 < s.userId → ∀ group, d (.user s.userId) = some ⟨group⟩ → d' (.user s.userId) =
    some ⟨if (subs env d').any fun c => c.1 ≠ id ∧ c.2.upgraded s.userId now then group else s.backTo group⟩

theorem subs_congr {d d' : Tables} (h : ∀ id, d' (.sub id) = d (.sub id)) : subs env d' = subs env d := by
  simp only [subs, h]

variable {s : UserSubscription}

theorem inside_afterRemove (env : Env) (now : Int) (row : Option UserSubscription) (hs : d (.sub id) = some s) :
    Inside (downgradeUserGroupForSubscriptionTx env id s now) (Function.update d (.sub id) row) fun r v =>
      ∀ t, r = .ok t → Removed env id now d v s row := by
  have hremoved : ∀ {v : Tables}, (∀ k, k ≠ .user s.userId → v k = Function.update d (.sub id) row k) →
      v (.sub id) = row ∧ ∀ k, k ≠ .sub id → k ≠ .user s.userId → v k = d k := by
    refine fun hv => ⟨?_, fun k hsub huser => ?_⟩
    · rw [hv _ (by simp), Function.update_self]
    · rw [hv k huser, Function.update_of_ne hsub]
  by_cases hpos : 0 < s.userId
  · refine (inside_downgrade id now hpos).mono fun r v hmoves t _ => ?_
    obtain ⟨hwritten, hothers⟩ := hremoved hmoves.others
    refine ⟨hs, hwritten, hothers, fun _ group hg => ?_⟩
    rw [subs_congr fun id' => hmoves.others _ (by simp)]
    exact hmoves.moved group hg
  · -- there is no such user
    obtain ⟨hwritten, hothers⟩ := hremoved fun _ _ => rfl
    unfold downgradeUserGroupForSubscriptionTx
    split
    · exact fun _ _ => ⟨hs, hwritten, hothers, fun h => absurd h hpos⟩
    · rw [getUserGroupByIdTx, if_pos (by omega)]
      exact fun _ h => by cases h

/-- A removal goes through, or changes nothing. -/
theorem remove_spec (id now : Int) (remove : Option UserSubscription → Option (Option UserSubscription)) (d : Tables) :
    Does (removeUserSubscription env id now remove) d fun _ d' =>
      d' = d ∨ ∃ s row, remove (some s) = some row ∧ Removed env id now d d' s row := by
  unfold removeUserSubscription
  split
  · exact does_pure (.inl rfl)
  refine does_transaction (inside_select.mpr ?_)
  cases hs : d (.sub id) with
  | none =>
    simp only [hs]
    exact .inl rfl
  | some s =>
    simp only [hs]
    rw [inside_update, hs]
    cases hrow : remove (some s) with
    | none =>
      left
      rw [← hs]
      exact Function.update_eq_self ..
    | some row =>
      refine (inside_afterRemove env now row hs).bind fun r v hremoved => ?_
      cases r with
      | error e => exact .inl rfl
      | ok t => exact .inr ⟨s, row, hrow, hremoved t rfl⟩

/-! Expiry. -/

/-- One UPDATE over the rows: each is written on its own, and no other. -/
theorem inside_updateSubs (f : Option UserSubscription → Option (Option UserSubscription)) {ids : List Int}
    (hnodup : ids.Nodup) (v : Tables) :
    Inside (updateSubs f ids) v fun r v' => (∃ n, r = some n) ∧
      (∀ id ∈ ids, v' (.sub id) = (f (v (.sub id))).getD (v (.sub id))) ∧
      ∀ k, (∀ id ∈ ids, k ≠ .sub id) → v' k = v k := by
  induction ids generalizing v with
  | nil => exact ⟨⟨0, rfl⟩, by simp, fun _ _ => rfl⟩
  | cons id rest ih =>
    obtain ⟨hid, hrest⟩ := nodup_cons.mp hnodup
    -- the first row, then the rest on what that leaves
    rw [updateSubs, inside_update]
    refine (ih hrest _).bind ?_
    rintro _ v' ⟨⟨n, rfl⟩, hrows, hothers⟩
    refine ⟨⟨_, rfl⟩, forall_mem_cons.mpr ⟨?_, fun id' hid' => ?_⟩, fun k hk => ?_⟩
    · rw [hothers _ (fun id' hid' heq => hid (by rwa [Key.sub.inj heq])), Function.update_self]
    · have hne : Key.sub id' ≠ .sub id := fun heq => hid (by rwa [← Key.sub.inj heq])
      rw [hrows id' hid', Function.update_of_ne hne]
    · obtain ⟨hne, hk⟩ := forall_mem_cons.mp hk
      rw [hothers k hk, Function.update_of_ne hne]

theorem inside_downgradeExpired (hpos : 0 < userId) (last : UserSubscription) :
    Inside (downgradeExpired userId last) v fun r v' => r = .ok () ∧ Moves userId v v' last.backTo := by
  unfold downgradeExpired
  split_ifs with h
  · refine ⟨rfl, .refl fun group _ => if_neg fun hn => ?_⟩
    exact h.elim hn.1 hn.2.2
  rw [inside_getUserGroupByIdTx hpos]
  dsimp only
  split
  · rename_i hstay
    refine ⟨rfl, .refl fun group hg => ?_⟩
    rw [groupOf_eq hg] at hstay
    rw [backTo]
    split_ifs with hn
    · exact (hstay.resolve_left fun hne => hne hn.2.1).symm
    · rfl
  · rename_i hgo
    have hmoves := moves_setGroup userId v (Go.trimSpace last.prevUserGroup)
    refine ⟨rfl, hmoves.others, fun group hg => (hmoves.moved group hg).trans ?_⟩
    rw [groupOf_eq hg] at hgo
    push Not at h hgo
    rw [backTo, if_pos ⟨h.1, hgo.1, h.2⟩]

/-- What the expiry of one user's subscriptions has changed. -/
structure Expired (env : Env) (userId now : Int) (d d' : Tables) : Prop where
  rows : ∀ id, d' (.sub id) =
    if id ∈ env.ids then (expireSub userId now (d (.sub id))).getD (d (.sub id)) else d (.sub id)
  others : ∀ id, id ≠ userId → d' (.user id) = d (.user id)
  moved : ∀ group, d (.user userId) = some ⟨group⟩ → d' (.user userId) =
    some ⟨if (subs env d').any (·.2.upgraded userId now) then group
      else ((lastExpired env d' userId).map (·.2.backTo group)).getD group⟩

theorem does_expireUser (env : Env) (hpos : 0 < userId) (now : Int) (d : Tables) :
    Does (expireUser env userId now) d fun r d' => (∃ n, r = .ok n) ∧ Expired env userId now d d' := by
  refine does_transaction ((inside_updateSubs (expireSub userId now) env.nodup d).bind ?_)
  rintro _ v ⟨⟨n, rfl⟩, hrows, hothers⟩
  have hsubs : ∀ id, v (.sub id) =
      if id ∈ env.ids then (expireSub userId now (d (.sub id))).getD (d (.sub id)) else d (.sub id) := by
    intro id
    split_ifs with hmem
    · exact hrows id hmem
    · refine hothers _ fun id' hid' heq => hmem ?_
      rwa [Key.sub.inj heq]
  have husers : ∀ id, v (.user id) = d (.user id) := fun id => hothers _ (by simp)
  -- whatever the transaction writes after the UPDATE is the group
  have hdone : ∀ {step : String → String} {v' : Tables}, Moves userId v v' step →
      (∀ group, step group = if (subs env v).any (·.2.upgraded userId now) then group
        else ((lastExpired env v userId).map (·.2.backTo group)).getD group) →
      Expired env userId now d v' := by
    intro step v' hmoves hstep
    have hsame : ∀ id, v' (.sub id) = v (.sub id) := fun id => hmoves.others _ (by simp)
    refine ⟨fun id => (hsame id).trans (hsubs id), fun id hne => ?_, fun group hg => ?_⟩
    · rw [hmoves.others _ (by simpa using hne), husers]
    · rw [hmoves.moved group ((husers userId).trans hg), lastExpired, subs_congr hsame, ← lastExpired, hstep]
  dsimp only
  rw [inside_select, Option.any_some]
  split_ifs with hany
  · exact ⟨⟨n, rfl⟩, hdone (.refl fun _ _ => rfl) (by simp [hany])⟩
  rw [inside_select, Option.bind_some]
  cases hlast : lastExpired env v userId with
  | none => exact ⟨⟨n, rfl⟩, hdone (.refl fun _ _ => rfl) (by simp [hlast])⟩
  | some last =>
    refine (inside_downgradeExpired hpos last.2).bind ?_
    rintro _ v' ⟨rfl, hmoves⟩
    exact ⟨⟨n, rfl⟩, hdone hmoves (by simp [hany, hlast])⟩

/-! The calls, seen by one user. -/

theorem own_eq_some : own userId d id = some s ↔ d (.sub id) = some s ∧ s.userId = userId := by
  simp [own]

theorem own_none_of_ne (h : ∀ s, d (.sub id) = some s → s.userId ≠ userId) : own userId d id = none := by
  cases hs : own userId d id with
  | none => rfl
  | some s =>
    obtain ⟨hd, howner⟩ := own_eq_some.mp hs
    exact absurd howner (h s hd)

variable {d' : Tables}

theorem own_congr (h : d' (.sub id) = d (.sub id)) : own userId d' id = own userId d id := by
  simp only [own, h]

/-- A query about one user's subscriptions sees their own ones only. -/
theorem filter_subs (env : Env) (d : Tables) {p : Int × UserSubscription → Bool}
    (hp : ∀ c, p c = true → c.2.userId = userId) : (subs env d).filter p = (rowsOf env (own userId d)).filter p := by
  simp only [subs, rowsOf, filter_filterMap]
  congr 1
  funext id
  cases hs : d (.sub id) with
  | none => simp [own, hs]
  | some s =>
    by_cases howner : s.userId = userId
    · simp [own, hs, howner, Option.filter_some]
    · have hout : p (id, s) = false := by
        by_contra h
        exact howner (hp (id, s) (by simpa using h))
      simp [own, hs, howner, hout, Option.filter_some]

theorem any_subs (d : Tables) {p : Int × UserSubscription → Bool} (hp : ∀ c, p c = true → c.2.userId = userId) :
    (subs env d).any p = (rowsOf env (own userId d)).any p := by
  have h := congrArg (List.any · fun _ => true) (filter_subs env d hp)
  simpa only [any_filter, Bool.and_true] using h

theorem membership_congr (hsubs : ∀ id, own userId d' id = own userId d id)
    (huser : d' (.user userId) = d (.user userId)) : membership userId d' = membership userId d := by
  simp only [membership, groupOf, huser]
  congr 1
  exact funext hsubs

/-- One subscription was written; where it is there, before and after, it is `owner`'s. -/
structure Rewritten (owner id : Int) (d d' : Tables) : Prop where
  others : ∀ k, k ≠ .sub id → k ≠ .user owner → d' k = d k
  before : ∀ s, d (.sub id) = some s → s.userId = owner
  after : ∀ s, d' (.sub id) = some s → s.userId = owner

section
variable {owner : Int} (h : Rewritten owner id d d')
include h

theorem Rewritten.membership_other (hne : owner ≠ userId) : membership userId d' = membership userId d := by
  refine membership_congr (fun id' => ?_) (h.others _ (by simp) (by simpa using hne.symm))
  by_cases hid : id' = id
  · subst hid
    rw [own_none_of_ne fun s hs => h.after s hs ▸ hne, own_none_of_ne fun s hs => h.before s hs ▸ hne]
  · exact own_congr (h.others _ (by simpa using hid) (by simp))

theorem Rewritten.own : own owner d' = Function.update (own owner d) id (d' (.sub id)) := by
  funext id'
  by_cases hid : id' = id
  · subst hid
    rw [Function.update_self, Purchase.own]
    cases hs : d' (.sub id') with
    | none => rfl
    | some s => simp [h.after s hs]
  · rw [Function.update_of_ne hid]
    exact own_congr (h.others _ (by simpa using hid) (by simp))

end

section
variable {buy : Buy env} (h : Created buy d d' sub)
include h

theorem Created.rewritten : Rewritten buy.userId buy.stamp.newId d d' := by
  refine ⟨h.others, fun s hs => ?_, fun s hs => ?_⟩
  · rw [h.free] at hs
    cases hs
  · rw [h.inserted] at hs
    rw [← Option.some.inj hs, h.owner]

theorem Created.membership (hg : d (.user buy.userId) = some ⟨group⟩) :
    membership buy.userId d' = (membership buy.userId d).buy buy.stamp.newId sub := by
  simp only [Purchase.membership]
  rw [groupOf_eq (h.moved group hg), groupOf_eq hg, h.rewritten.own, h.inserted]
  rfl

end

section
variable {row : Option UserSubscription} (h : Removed env id now d d' s row) (hrow : Membership.Gone s row)
include h hrow

theorem Removed.rewritten : Rewritten s.userId id d d' := by
  refine ⟨h.others, fun s' hs' => ?_, fun s' hs' => ?_⟩
  · rw [h.stored] at hs'
    rw [Option.some.inj hs']
  · rw [h.written] at hs'
    exact (hrow s' hs').1.owner

theorem Removed.membership (hpos : 0 < s.userId) (hg : d (.user s.userId) = some ⟨group⟩) :
    membership s.userId d' = (membership s.userId d).remove env id now s row := by
  simp only [Purchase.membership]
  rw [groupOf_eq (h.moved hpos group hg), groupOf_eq hg, any_subs, (h.rewritten hrow).own, h.written]
  · rfl
  · intro c hc
    exact (of_decide_eq_true (of_decide_eq_true hc).2).1

end

theorem Expired.membership_other {v : Int} (h : Expired env v now d d') (hne : v ≠ userId) :
    membership userId d' = membership userId d := by
  refine membership_congr (fun id => ?_) (h.others _ hne.symm)
  simp only [own, h.rows]
  split
  · cases d (.sub id) with
    | none => rfl
    | some s =>
      simp only [expireSub]
      split_ifs with howner
      · simp [howner.1, hne, Option.filter_some]
      · rfl
  · rfl

theorem Expired.membership (h : Expired env userId now d d')
    (hg : d (.user userId) = some ⟨group⟩) : membership userId d' = (membership userId d).expire env userId now := by
  have hown : own userId d' = (Purchase.membership userId d).lapsed env userId now := by
    funext id
    simp only [own, h.rows, Membership.lapsed, Purchase.membership]
    split
    · cases d (.sub id) with
      | none => rfl
      | some s =>
        by_cases howner : s.userId = userId
        · simp only [howner, Option.filter_some, decide_true, if_true, expireSub]
          split <;> simp [howner]
        · simp [howner, expireSub, Option.filter_some]
    · rfl
  simp only [Purchase.membership, Membership.expire]
  rw [groupOf_eq (h.moved group hg), groupOf_eq hg, any_subs, lastExpired, filter_subs, hown]
  · rfl
  · intro c hc
    exact (of_decide_eq_true hc).1
  · intro c hc
    exact (of_decide_eq_true hc).1

/-- The users one after the other: `userId` is gone through once, or not at all. -/
theorem does_expireUsers {users : List Int} (hnodup : users.Nodup) (hpos : ∀ v ∈ users, 0 < v) (now : Int)
    (d : Tables) (hg : ∃ group, d (.user userId) = some ⟨group⟩) :
    Does (expireUsers env now users) d fun r d' => (∃ n, r = .ok n) ∧ (∃ group, d' (.user userId) = some ⟨group⟩) ∧
      membership userId d' =
        if userId ∈ users then (membership userId d).expire env userId now else membership userId d := by
  induction users generalizing d with
  | nil => exact does_pure ⟨⟨0, rfl⟩, hg, by simp⟩
  | cons v rest ih =>
    obtain ⟨hv, hrest⟩ := nodup_cons.mp hnodup
    obtain ⟨hpos, hposRest⟩ := forall_mem_cons.mp hpos
    obtain ⟨group, hgroup⟩ := hg
    refine (does_expireUser env hpos now d).bind ?_
    rintro _ d1 ⟨⟨n, rfl⟩, hexpired⟩
    have hg1 : ∃ group, d1 (.user userId) = some ⟨group⟩ := by
      by_cases hne : v = userId
      · subst hne
        exact ⟨_, hexpired.moved group hgroup⟩
      · exact ⟨group, (hexpired.others _ (Ne.symm hne)).trans hgroup⟩
    refine (ih hrest hposRest d1 hg1).bind ?_
    rintro _ d' ⟨⟨m, rfl⟩, hg', hmember⟩
    refine does_pure ⟨⟨_, rfl⟩, hg', ?_⟩
    by_cases hne : v = userId
    · subst hne
      rw [hmember, if_neg hv, if_pos mem_cons_self, hexpired.membership hgroup]
    · have hmem : userId ∈ v :: rest ↔ userId ∈ rest := by simp [Ne.symm hne]
      simp only [hmember, hexpired.membership_other hne, hmem]

theorem expireDue_spec (limit now : Int) (d : Tables) (hg : ∃ group, d (.user userId) = some ⟨group⟩) :
    Does (expireDueSubscriptions env limit now) d fun _ d' => (∃ group, d' (.user userId) = some ⟨group⟩) ∧
      membership userId d' =
        if userId ∈ dueUsers env d limit now then (membership userId d).expire env userId now
        else membership userId d := by
  have hperm := env.perm (((dueSubs env d limit now).map (·.2.userId)).filter (0 < ·)).dedup
  have hpos : ∀ v ∈ dueUsers env d limit now, 0 < v := by
    intro v hv
    have hv' := mem_dedup.mp (hperm.mem_iff.mp hv)
    exact of_decide_eq_true (mem_filter.mp hv').2
  obtain ⟨d', r, hrun, -, hspec⟩ := does_expireUsers (hperm.nodup_iff.mpr (nodup_dedup _)) hpos now d hg
  exact ⟨d', r, runs_bind (runs_select d) hrun, hspec⟩

/-! A whole course. -/

/-- The user is there, and their membership is sound. -/
structure Course.Ok (env : Env) (userId : Int) (base : String) (p : Course) : Prop where
  present : ∃ group, p.tables (.user userId) = some ⟨group⟩
  sound : (membership userId p.tables).Sound env userId base p.fromBase

variable {base : String} {p : Course}

theorem Course.fits_goesBy {call : GroupCall env} (h : p.fits userId base call = true)
    (hgoes : call.goesBy userId p.tables = some (id, s)) :
    (membership userId p.tables).Fits env base p.fromBase id s (call.ends ·) := by
  intro hall
  simp only [Course.fits, hgoes, hall, if_true, decide_eq_true_eq] at h
  exact h

section
variable (h : p.Ok env userId base)
include h

theorem Course.Ok.create (buy : Buy env) : (p.next userId base (.create buy)).Ok env userId base := by
  obtain ⟨group, hg⟩ := h.present
  rcases (buy_spec buy p.tables).solo with hsame | ⟨sub, hcreated⟩
  · -- nothing was inserted
    have htables : (GroupCall.create buy).run p.tables = p.tables := hsame
    have hfrom : (p.next userId base (.create buy)).fromBase = p.fromBase := by
      simp only [Course.next, htables]
      refine if_neg fun hn => ?_
      rw [Option.isNone_iff_eq_none.mp hn.2.1] at hn
      exact absurd hn.2.2 (by simp)
    refine ⟨⟨group, (congrFun htables _).trans hg⟩, ?_⟩
    rw [hfrom]
    show (membership userId ((GroupCall.create buy).run p.tables)).Sound ..
    rw [htables]
    exact h.sound
  by_cases hne : buy.userId = userId
  · subst hne
    have hfrom : (p.next buy.userId base (.create buy)).fromBase =
        Function.update p.fromBase buy.stamp.newId (groupOf p.tables buy.userId = base) := by
      refine if_pos ⟨rfl, Option.isNone_iff_eq_none.mpr hcreated.free, Option.isSome_iff_exists.mpr ?_⟩
      exact ⟨sub, hcreated.inserted⟩
    refine ⟨⟨_, hcreated.moved group hg⟩, ?_⟩
    rw [hfrom]
    show (membership buy.userId (solo buy.prog [] p.tables).1).Sound ..
    rw [hcreated.membership hg]
    refine h.sound.buy (own_none_of_ne fun s hs => ?_) ?_ hcreated.active
    · rw [hcreated.free] at hs
      cases hs
    · refine ⟨buy.stamp.mem, hcreated.pos, hcreated.owner, hcreated.trimmed, fun hbase => ?_⟩
      rw [hcreated.record, show groupOf p.tables buy.userId = base from of_decide_eq_true hbase]
  · have hfrom : (p.next userId base (.create buy)).fromBase = p.fromBase := if_neg fun hn => hne hn.1
    refine ⟨⟨group, (hcreated.others _ (by simp) (by simpa using Ne.symm hne)).trans hg⟩, ?_⟩
    rw [hfrom]
    show (membership userId (solo buy.prog [] p.tables).1).Sound ..
    rw [hcreated.rewritten.membership_other hne]
    exact h.sound

section
variable (hbase : base ≠ "") (htrim : Go.trimSpace base = base)
include hbase htrim

theorem Course.Ok.remove
    {remove : Option UserSubscription → Option (Option UserSubscription)}
    (hgone : ∀ s row, remove (some s) = some row → Membership.Gone s row)
    (hfits : ∀ s row, own userId p.tables id = some s → remove (some s) = some row →
      (membership userId p.tables).Fits env base p.fromBase id s (·.1 = id)) :
    (Course.mk (solo (removeUserSubscription env id now remove) [] p.tables).1 p.fromBase).Ok env userId base := by
  obtain ⟨group, hg⟩ := h.present
  rcases (remove_spec id now remove p.tables).solo with hsame | ⟨s, row, hrow, hremoved⟩
  · rw [hsame]
    exact h
  by_cases hne : s.userId = userId
  · subst hne
    have hown : own s.userId p.tables id = some s := own_eq_some.mpr ⟨hremoved.stored, rfl⟩
    have hpos := (h.sound.bought id s hown).pos
    refine ⟨⟨_, hremoved.moved hpos group hg⟩, ?_⟩
    rw [hremoved.membership (hgone s row hrow) hpos hg]
    exact h.sound.remove hbase htrim hown (hgone s row hrow) (hfits s row hown hrow)
  · refine ⟨⟨group, (hremoved.others _ (by simp) (by simpa using Ne.symm hne)).trans hg⟩, ?_⟩
    rw [(hremoved.rewritten (hgone s row hrow)).membership_other hne]
    exact h.sound

theorem Course.Ok.next
    {call : GroupCall env} (hfits : p.fits userId base call = true) : (p.next userId base call).Ok env userId base := by
  cases call with
  | create buy => exact h.create buy
  | invalidate id now =>
    refine h.remove hbase htrim (fun s row hrow s' hs' => ?_) fun s row hs hrow => ?_
    · simp only [cancelSub] at hrow
      split_ifs at hrow
      obtain rfl := Option.some.inj hrow
      rw [← Option.some.inj hs']
      exact ⟨⟨rfl, rfl, rfl⟩, by simp⟩
    · refine Course.fits_goesBy hfits ?_
      simp only [cancelSub] at hrow
      split_ifs at hrow with hstatus
      simp [GroupCall.goesBy, hs, hstatus]
  | delete id now =>
    refine h.remove hbase htrim (fun s row hrow s' hs' => ?_) fun s row hs _ => ?_
    · obtain rfl := Option.some.inj hrow
      cases hs'
    · exact Course.fits_goesBy hfits (by simp [GroupCall.goesBy, hs])
  | expireDue limit now =>
    obtain ⟨hpresent, hmember⟩ := (expireDue_spec limit now p.tables h.present).solo
    refine ⟨hpresent, ?_⟩
    show (membership userId (solo (expireDueSubscriptions env limit now) [] p.tables).1).Sound ..
    rw [hmember]
    split_ifs with hdue
    · refine h.sound.expire hbase htrim fun id s hlast => Course.fits_goesBy hfits ?_
      simp [GroupCall.goesBy, hdue, hlast]
    · exact h.sound

theorem Course.Ok.run {calls : List (GroupCall env)}
    (hfit : p.allFit userId base calls = true) : (p.run userId base calls).Ok env userId base := by
  induction calls generalizing p with
  | nil => exact h
  | cons call calls ih =>
    obtain ⟨hfirst, hrest⟩ := Bool.and_eq_true_iff.mp hfit
    exact ih (h.next hbase htrim hfirst) hrest

end

end

end

/-- **The group comes back.** A user in `base`, without subscriptions, goes through any
course of calls that fit: whenever no active subscription upgrades them, they are in
`base`. -/
theorem group_comes_back (env : Env) (userId : Int) (base : String) (d : Tables) (calls : List (GroupCall env))
    (huser : d (.user userId) = some ⟨base⟩) (hnone : ∀ id s, d (.sub id) = some s → s.userId ≠ userId)
    (hbase : base ≠ "") (htrim : Go.trimSpace base = base) (hfit : (Course.start d).allFit userId base calls = true)
    (hidle : (membership userId ((Course.start d).run userId base calls).tables).upgrading env = []) :
    groupOf ((Course.start d).run userId base calls).tables userId = base := by
  have hstart : (Course.start d).Ok env userId base := by
    refine ⟨⟨base, huser⟩, fun id s hs => ?_, fun _ => groupOf_eq huser⟩
    obtain ⟨hd, howner⟩ := own_eq_some.mp hs
    exact absurd howner (hnone id s hd)
  exact (hstart.run hbase htrim hfit).sound.idle hidle

/-- A subscription that upgrades to "vip" is bought, and expires. -/
def boughtOnce : List (GroupCall exampleEnv) :=
  [.create ⟨firstStamp, 7, 3, examplePlan, "order"⟩, .expireDue 200 3000000]

theorem group_back_after_one :
    groupOf ((Course.start exampleTables).run 7 "default" (boughtOnce.take 1)).tables 7 = "vip" ∧
      groupOf ((Course.start exampleTables).run 7 "default" boughtOnce).tables 7 = "default" :=
  ⟨by decide +kernel, group_comes_back exampleEnv 7 "default" exampleTables boughtOnce rfl
    (fun _ _ h => by cases h) (by decide) (by decide +kernel) (by decide +kernel) (by decide +kernel)⟩

/-- Two subscriptions that upgrade to "vip" are bought, and an admin invalidates the first,
then the second. -/
def boughtTwice : List (GroupCall exampleEnv) :=
  [.create ⟨firstStamp, 7, 3, examplePlan, "order"⟩,
    .create ⟨secondStamp, 7, 4, examplePlan, "order"⟩, .invalidate 1 2000, .invalidate 2 3000]

/-- The second has recorded nothing, so nothing takes the user back. -/
theorem group_kept_after_two :
    groupOf exampleTables 7 = "default" ∧ (∀ id, exampleTables (.sub id) = none) ∧
      (membership 7 ((Course.start exampleTables).run 7 "default" boughtTwice).tables).upgrading exampleEnv = [] ∧
      groupOf ((Course.start exampleTables).run 7 "default" boughtTwice).tables 7 = "vip" :=
  ⟨by decide, fun _ => rfl, by decide +kernel, by decide +kernel⟩

end AmuxApi.Purchase
