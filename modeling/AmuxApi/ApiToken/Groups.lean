import AmuxApi.Go.Library
import Mathlib.Data.List.Dedup

/- Which groups a token may use: the usable groups of its user, and the chain of groups that a request walks.

   A request passes only with groups that its user may use (`chain_authorised`). The usable groups do not
   depend on the order in which the special groups are iterated, just when no entry adds what another one
   removes (`usable_groups_same`, `order_decides`).

   Correspondence (Go ↔ Lean):
     `service/group.go`: `GetUserUsableGroups`, `GetUserAutoGroup` ↔ `getUserUsableGroups`, `getUserAutoGroup`
     `service/group_chain.go`: `ResolveGroupChain` ↔ `resolveGroupChain`
     `model/token.go`: `Token.GetGroups` ↔ `Token.getGroups`
     `middleware/auth.go`: the groups of `TokenAuth` ↔ `tokenAuth`
   Go iterates a map in any order, anew at every call: the special groups of a user group are an argument,
   listed as the call meets them. -/
namespace AmuxApi.TokenGroups
open Function List

/-- `common.Unmarshal` is that of the JSON library. -/
structure Config where
  userUsableGroups : String → Option String
  autoGroups : List String
  containsGroupRatio : String → Bool
  unmarshal : String → Option (List String)

structure Token where
  group : String
  groupsJSON : String
  crossGroupRetry : Bool

inductive Source
  | explicit | legacyAuto | legacySingle | userGroup

structure GroupChain where
  groups : List String
  source : Source
  crossGroup : Bool := false

/-- A special group and its description. -/
abbrev Entry := String × String

/-- Whether an entry adds its group, and the group. -/
def Entry.target (e : Entry) : Bool × String :=
  match Go.after "-:" e.1 with
  | some group => (false, group)
  | none => (true, (Go.after "+:" e.1).getD e.1)

def Entry.apply (groups : String → Option String) (e : Entry) : String → Option String :=
  update groups e.target.2 (if e.target.1 then some e.2 else none)

variable (cfg : Config)

def getUserUsableGroups (special : List Entry) (userGroup : String) : String → Option String :=
  if userGroup = "" then cfg.userUsableGroups
  else
    let groups := special.foldl Entry.apply cfg.userUsableGroups
    update groups userGroup ((groups userGroup).or (some "用户分组"))

def getUserAutoGroup (special : List Entry) (userGroup : String) : List String :=
  cfg.autoGroups.filter fun group => (getUserUsableGroups cfg special userGroup group).isSome

/-- The stored names, without blanks around them. -/
def Token.names (token : Token) : List String :=
  let raw := Go.trimSpace token.groupsJSON
  if raw = "" then [] else ((cfg.unmarshal raw).getD []).map Go.trimSpace

/-- The first of every name that is not blank. -/
def Token.getGroups (token : Token) : List String :=
  ((token.names cfg).filter (· ≠ "")).reverse.dedup.reverse

def resolveGroupChain (special : List Entry) (token : Option Token) (userGroup : String) : Except String GroupChain :=
  let ofUser : Except String GroupChain :=
    if userGroup = "" then .error "无法确定请求分组" else .ok { groups := [userGroup], source := .userGroup }
  match token with
  | none => ofUser
  | some token =>
    if token.getGroups cfg ≠ [] then
      let usable := getUserUsableGroups cfg special userGroup
      match (token.getGroups cfg).filter fun group => (usable group).isSome && cfg.containsGroupRatio group with
      | [] => .error "令牌绑定的分组均不可用，请重新配置令牌分组"
      | groups => .ok { groups, source := .explicit, crossGroup := token.crossGroupRetry }
    else if token.group = "auto" then
      match getUserAutoGroup cfg special userGroup with
      | [] => .error "auto groups is not enabled"
      | groups => .ok { groups, source := .legacyAuto, crossGroup := token.crossGroupRetry }
    else if token.group ≠ "" then .ok { groups := [token.group], source := .legacySingle }
    else ofUser

/-- The chain and the using group of a request, or why it is refused; the special groups as its two calls meet
them. -/
def tokenAuth (special special' : List Entry) (token : Token) (realUserGroup : String) :
    Except String (GroupChain × String) :=
  let single := token.group ≠ "" ∧ token.getGroups cfg = []
  if single ∧ (getUserUsableGroups cfg special realUserGroup token.group).isNone then
    .error ("无权访问 " ++ token.group ++ " 分组")
  else if single ∧ !cfg.containsGroupRatio token.group ∧ token.group ≠ "auto" then
    .error ("分组 " ++ token.group ++ " 已被弃用")
  else match resolveGroupChain cfg special' token realUserGroup with
    | .error e => .error e
    | .ok chain =>
      .ok (chain,
        if single then token.group else if token.getGroups cfg ≠ [] then chain.groups.headD "" else realUserGroup)

section
variable {cfg} {special : List Entry} {token : Token} {userGroup : String}

theorem getGroups_sublist : token.getGroups cfg <+ token.names cfg := by
  have h := (dedup_sublist ((token.names cfg).filter (· ≠ "")).reverse).reverse
  rw [reverse_reverse] at h
  exact h.trans filter_sublist

/-- What the resolver gives: usable groups, of the explicit chain if there is one, or the one group of an older
token. -/
theorem resolve_ok {chain : GroupChain} (h : resolveGroupChain cfg special token userGroup = .ok chain) :
    (∀ group ∈ chain.groups, (getUserUsableGroups cfg special userGroup group).isSome) ∧
        (token.getGroups cfg ≠ [] → chain.groups <+ token.getGroups cfg) ∨
      token.getGroups cfg = [] ∧ (token.group ≠ "" ∧ chain.groups = [token.group] ∨ chain.groups = [userGroup]) := by
  simp only [resolveGroupChain] at h
  split_ifs at h with hexplicit hauto hgroup
  · left
    split at h
    · cases h
    · cases h
      refine ⟨fun group hmem => ?_, fun _ => filter_sublist⟩
      rw [mem_filter, Bool.and_eq_true] at hmem
      exact hmem.2.1
  · left
    split at h
    · cases h
    · cases h
      exact ⟨fun group hmem => (mem_filter.mp hmem).2, fun hne => absurd hne hexplicit⟩
  · cases h
    exact .inr ⟨not_not.mp hexplicit, .inl ⟨hgroup, rfl⟩⟩
  · cases h
    exact .inr ⟨not_not.mp hexplicit, .inr rfl⟩

end

/-- **Every group of the chain of a request is its user's own or usable.** An explicit chain is a part of the
configured one, in its order and without duplicates, and is refused if none of it is usable. -/
theorem chain_authorised (special special' : List Entry) (token : Token) (userGroup : String) :
    (∀ chain usingGroup, tokenAuth cfg special special' token userGroup = .ok (chain, usingGroup) →
      (∀ group ∈ chain.groups, group = userGroup ∨ (getUserUsableGroups cfg special userGroup group).isSome ∨
        (getUserUsableGroups cfg special' userGroup group).isSome) ∧
      (token.getGroups cfg ≠ [] → chain.groups <+ token.names cfg ∧ chain.groups.Nodup)) ∧
    (token.getGroups cfg ≠ [] →
      (∀ group ∈ token.getGroups cfg, (getUserUsableGroups cfg special' userGroup group).isNone) →
      ∃ e, tokenAuth cfg special special' token userGroup = .error e) := by
  unfold tokenAuth
  refine ⟨fun chain usingGroup h => ?_, fun hexplicit hnone => ?_⟩
  · dsimp only at h
    split at h
    · cases h
    rename_i husable
    split at h
    · cases h
    split at h
    · cases h
    rename_i hresolve
    cases h
    obtain ⟨hall, hpart⟩ | ⟨hempty, ⟨hgroup, hone⟩ | hone⟩ := resolve_ok hresolve
    · refine ⟨fun group hmem => .inr (.inr (hall group hmem)), fun hexplicit => ?_⟩
      exact ⟨(hpart hexplicit).trans getGroups_sublist, (hpart hexplicit).nodup (nodup_reverse.mpr (nodup_dedup _))⟩
    · refine ⟨fun group hmem => ?_, fun hexplicit => absurd hempty hexplicit⟩
      rw [hone, mem_singleton] at hmem
      subst hmem
      refine .inr (.inl (Option.ne_none_iff_isSome.mp fun hnone => husable ⟨⟨hgroup, hempty⟩, ?_⟩))
      rw [hnone]
      rfl
    · refine ⟨fun group hmem => ?_, fun hexplicit => absurd hempty hexplicit⟩
      rw [hone, mem_singleton] at hmem
      exact .inl hmem
  · have hnothing : (token.getGroups cfg).filter (fun group =>
        (getUserUsableGroups cfg special' userGroup group).isSome && cfg.containsGroupRatio group) = [] := by
      rw [filter_eq_nil_iff]
      intro group hmem
      simp [Option.isNone_iff_eq_none.mp (hnone group hmem)]
    simp [hexplicit, resolveGroupChain, hnothing]

/-! The order of the special groups. -/

/-- No group but the user's own is added by one entry and removed by another. -/
def Consistent (special : List Entry) (userGroup : String) : Prop :=
  ∀ e ∈ special, ∀ e' ∈ special, e.target.2 = e'.target.2 → e.target.2 ≠ userGroup → e.target.1 = e'.target.1

theorem usable_perm {special special' : List Entry} {userGroup : String} (h : special ~ special')
    (hconsistent : Consistent special userGroup) (group : String) :
    (getUserUsableGroups cfg special userGroup group).isSome =
      (getUserUsableGroups cfg special' userGroup group).isSome := by
  -- the entries of one group, on whether it is there
  have hfold : ∀ l : List Entry, (l.foldl Entry.apply cfg.userUsableGroups group).isSome =
      l.foldl (fun b e => if e.target.2 = group then e.target.1 else b) (cfg.userUsableGroups group).isSome := by
    intro l
    refine (foldl_hom (fun groups : String → Option String => (groups group).isSome) fun groups e => ?_).symm
    simp only [Entry.apply, update_apply, eq_comm (a := group)]
    split_ifs <;> simp_all
  unfold getUserUsableGroups
  split
  · rfl
  by_cases hown : group = userGroup
  · simp [hown]
  simp only [update_of_ne hown, hfold]
  apply h.foldl_eq'
  intro e he e' he' b
  split_ifs with h1 h2
  · exact hconsistent e' he' e he (by rw [h1, h2]) (by rwa [h1])
  all_goals rfl

/-- What the last entry says of its group holds. -/
theorem usable_last {userGroup : String} (huser : userGroup ≠ "") (special : List Entry) {e : Entry}
    (hother : e.target.2 ≠ userGroup) :
    (getUserUsableGroups cfg (special ++ [e]) userGroup e.target.2).isSome = e.target.1 := by
  rw [getUserUsableGroups, if_neg huser]
  simp only [update_of_ne hother, foldl_append, foldl_cons, foldl_nil, Entry.apply, update_self]
  cases e.target.1 <;> rfl

/-- **The order in which the special groups are iterated does not matter** to the set of usable groups and to
the chain, if and only if the user has no group or no other group is both added and removed. -/
theorem usable_groups_same (special : List Entry) (userGroup : String) :
    (∀ special', special' ~ special →
      (∀ group, (getUserUsableGroups cfg special' userGroup group).isSome =
        (getUserUsableGroups cfg special userGroup group).isSome) ∧
      ∀ token, resolveGroupChain cfg special' token userGroup = resolveGroupChain cfg special token userGroup) ↔
    userGroup = "" ∨ Consistent special userGroup := by
  constructor
  · intro h
    by_contra hnot
    obtain ⟨huser, hconflict⟩ := not_or.mp hnot
    refine hconflict fun e he e' he' hsame hother => ?_
    -- each of the two entries may be the last
    have hlast : ∀ e ∈ special, e.target.2 ≠ userGroup →
        (getUserUsableGroups cfg special userGroup e.target.2).isSome = e.target.1 := by
      intro e he hother
      have hperm : special.erase e ++ [e] ~ special := (perm_append_singleton ..).trans (perm_cons_erase he).symm
      rw [← (h _ hperm).1, usable_last cfg huser _ hother]
    rw [← hlast e he hother, hsame, hlast e' he' (hsame ▸ hother)]
  · intro hcondition special' hperm
    have hsame : ∀ group, (getUserUsableGroups cfg special' userGroup group).isSome =
        (getUserUsableGroups cfg special userGroup group).isSome := by
      rcases hcondition with rfl | hconsistent
      · exact fun group => rfl
      · exact fun group => (usable_perm cfg hperm.symm hconsistent group).symm
    refine ⟨hsame, fun token => ?_⟩
    simp only [resolveGroupChain, getUserAutoGroup, hsame]

def exampleConfig : Config := ⟨fun _ => none, [], fun _ => true, fun _ => some ["vip"]⟩

def vipToken : Token := ⟨"", "x", false⟩

theorem usable_groups_same_two :
    (∀ group, (getUserUsableGroups exampleConfig [("+:vip", ""), ("-:a", "")] "u" group).isSome =
      (getUserUsableGroups exampleConfig [("-:a", ""), ("+:vip", "")] "u" group).isSome) ∧
    resolveGroupChain exampleConfig [("+:vip", ""), ("-:a", "")] vipToken "u" =
      resolveGroupChain exampleConfig [("-:a", ""), ("+:vip", "")] vipToken "u" :=
  have h := (usable_groups_same exampleConfig [("-:a", ""), ("+:vip", "")] "u").mpr
    (.inr (by unfold Consistent; decide)) [("+:vip", ""), ("-:a", "")] (Perm.swap ..)
  ⟨h.1, h.2 vipToken⟩

/-- The same entries, and the group is usable or not. -/
theorem order_decides :
    (getUserUsableGroups exampleConfig [("+:vip", ""), ("-:vip", "")] "u" "vip").isSome = false ∧
      (getUserUsableGroups exampleConfig [("-:vip", ""), ("+:vip", "")] "u" "vip").isSome = true := by
  decide

end AmuxApi.TokenGroups
