import AmuxApi.Conc.Logic
import AmuxApi.Conc.Table
import AmuxApi.Identity.AccessTokens

/- Rotating and revoking access tokens at the same time.

   `RotateUserAccessToken` reads the token, and if it is active, revokes it and inserts its successor
   in one transaction. It does not look at whether its UPDATE has changed a row.

   As long as each such UPDATE finds the token still active (`stillActive`), a token has at most one
   successor, and a token with a successor is revoked: the tokens that descend from one are a line,
   of which only the last may be active (`one_active_descendant`). A token that was revoked has no
   successor at all. Two rotations that both read the token as active give it two successors, and one
   that reads it before it is revoked gives it one afterwards (`rotation_races`).

   Correspondence (Go ↔ Lean): the functions of `model/user_access_token.go` have the
   source's names.
   Each statement is one step of a table at read committed. `parent`, `revocations` and `missed` are
   not in the code: they say which token a row is the successor of, which tokens a revocation has
   changed, and how often a rotation has revoked nothing. -/
namespace AmuxApi.Rotation
open Conc Function Table List
open Identity (UserAccessToken TokenSource)

structure Kept where
  token : UserAccessToken
  parent : Option Nat := none
  deriving DecidableEq, Repr

structure Mem (ι : Type) where
  rows : Table ι Kept
  revocations : List Nat := []
  missed : Nat := 0

def Kept.retire (now : Int) (reason : String) (x : Kept) : Kept :=
  { x with token := x.token.retire .revoked now reason }

/-! The calls. -/

section
variable {ι : Type} [DecidableEq ι] (i : ι)

/-- `UPDATE .. SET status, revoked_at, revoke_reason WHERE ..`. -/
def revokeWhere (p : Nat → Kept → Bool) (now : Int) (reason : String) : Prog (Mem ι) Bool :=
  .act (fun m => m.rows.free i p)
    (fun ok m =>
      if ok then
        { m with
          rows := m.rows.autocommit i p (Kept.retire now reason)
          revocations := m.rows.hits i p ++ m.revocations }
      else m)
    fun ok _ => .ret ok

def whereId (id : Nat) (k : Nat) (x : Kept) : Bool := k = id && (x.token.status = .active || x.token.status = .expired)

def whereUser (userId : Int) (sourceFilter : Option TokenSource) (_ : Nat) (x : Kept) : Bool :=
  x.token.userId = userId && x.token.status = .active && sourceFilter.all (x.token.source = ·)

def revokeUserAccessToken (id : Nat) (now : Int) (reason : String) : Prog (Mem ι) Bool :=
  revokeWhere i (whereId id) now reason

def revokeAllUserAccessTokens (userId now : Int) (reason : String) (sourceFilter : Option TokenSource) :
    Prog (Mem ι) Bool :=
  revokeWhere i (whereUser userId sourceFilter) now reason

def getUserAccessTokenByID (id : Nat) : Prog (Mem ι) (Option (Option UserAccessToken)) :=
  query fun m => (m.rows.committed id).map Kept.token

def whereActive (id : Nat) (k : Nat) (x : Kept) : Bool := k = id && x.token.status = .active

def revokeOld (id : Nat) (now : Int) : Prog (Mem ι) Bool :=
  .act (fun m => m.rows.free i (whereActive id))
    (fun ok m =>
      if ok then
        { m with
          rows := m.rows.updateWhere i (whereActive id) (Kept.retire now Identity.userAccessTokenRevokeRotate)
          missed := if m.rows.hits i (whereActive id) = [] then m.missed + 1 else m.missed }
      else m)
    fun ok _ => .ret ok

def create (x : Kept) : Prog (Mem ι) (Option Nat) :=
  .act (fun _ => true) (fun ok m => if ok then { m with rows := m.rows.insert i x } else m)
    fun ok m => .ret (if ok then some m.rows.length else none)

def rollback : Prog (Mem ι) (Option Nat) := atomically (fun m => { m with rows := m.rows.drop i }) fun _ => none

def commit (id : Nat) : Prog (Mem ι) (Option Nat) :=
  .act (fun _ => true) (fun ok m => { m with rows := if ok then m.rows.publish i else m.rows.drop i })
    fun ok _ => .ret (if ok then some id else none)

variable (hash : String → String)

/-- `CreateUserAccessToken` is not called: the fields are copied by hand. -/
def successor (now : Int) (body : String) (old : UserAccessToken) : UserAccessToken :=
  let start :=
    if Identity.hasPrefix old.tokenPrefix Identity.userAccessTokenPrefixOAT then Identity.userAccessTokenPrefixOAT
    else Identity.userAccessTokenPrefixPAT
  { userId := old.userId, name := old.name, description := old.description, source := old.source
    sourceMeta := old.sourceMeta, scopes := old.scopes, expiresAt := old.expiresAt
    tokenPrefix := Identity.storedPrefixOf (start ++ body), tokenHash := hash (start ++ body)
    status := .active, createdAt := now }

def replaceOld (id : Nat) (now : Int) (body : String) (old : UserAccessToken) : Prog (Mem ι) (Option Nat) :=
  revokeOld i id now >>= fun ok =>
    if ok then create i ⟨successor hash now body old, some id⟩ >>= fun
      | some fresh => commit i fresh
      | none => rollback i
    else rollback i

def rotateFound (id : Nat) (now : Int) (body : String) : Option (Option UserAccessToken) → Prog (Mem ι) (Option Nat)
  | some (some old) => if old.status = .active then replaceOld i hash id now body old else pure none
  | _ => pure none

def rotateUserAccessToken (id : Nat) (now : Int) (body : String) : Prog (Mem ι) (Option Nat) :=
  getUserAccessTokenByID id >>= rotateFound i hash id now body

end

inductive Call
  | rotate (id : Nat) (now : Int) (body : String)
  | revoke (id : Nat) (now : Int) (reason : String)
  | revokeAll (userId now : Int) (reason : String) (sourceFilter : Option TokenSource)

variable {k : Nat} {p : Nat → Kept → Bool}

section
variable {ι : Type}

/-- The answer is the id of the new token, if there is one. -/
def Call.prog [DecidableEq ι] (hash : String → String) (i : ι) : Call → Prog (Mem ι) (Option Nat)
  | .rotate id now body => rotateUserAccessToken i hash id now body
  | .revoke id now reason => revokeUserAccessToken i id now reason >>= fun _ => pure none
  | .revokeAll userId now reason sourceFilter =>
    revokeAllUserAccessTokens i userId now reason sourceFilter >>= fun _ => pure none

def Mem.start (tokens : List UserAccessToken) : Mem ι := { rows := stored (tokens.map fun t => ⟨t, none⟩) }

/-- The UPDATE of a rotation finds the token still active. -/
def stillActive : Guard ι (Mem ι) := fun _ m m' => m'.missed = m.missed

/-! Families. -/

def Mem.Child (m : Mem ι) (a b : Nat) : Prop := ∃ x, m.rows.committed b = some x ∧ x.parent = some a

def Mem.Descends (m : Mem ι) : Nat → Nat → Prop := Relation.ReflTransGen m.Child

def Mem.HasStatus (m : Mem ι) (status : Identity.TokenStatus) (k : Nat) : Prop :=
  ∃ x, m.rows.committed k = some x ∧ x.token.status = status

variable {m m' : Mem ι} {a id fresh : Nat}

theorem Mem.HasStatus.unique {status status' : Identity.TokenStatus} (h : m.HasStatus status k)
    (h' : m.HasStatus status' k) : status = status' := by
  obtain ⟨x, hx, rfl⟩ := h
  obtain ⟨y, hy, rfl⟩ := h'
  rw [hx] at hy
  cases hy
  rfl

/-- Successors are in line: one at most, of a token that is revoked by then. -/
structure Line (m : Mem ι) : Prop where
  single : ∀ a b c, m.Child a b → m.Child a c → b = c
  retired : ∀ a b, m.Child a b → m.HasStatus .revoked a
  revoked : ∀ a ∈ m.revocations, m.HasStatus .revoked a ∧ ∀ b, ¬ m.Child a b

/-- Of a line, only the last may be active. -/
theorem Line.one_active (h : Line m) {origin b : Nat} (ha : m.Descends origin a) (hb : m.Descends origin b)
    (hactive : m.HasStatus .active a) (hactive' : m.HasStatus .active b) : a = b := by
  -- a token that is active has no successor
  have hlast : ∀ {c d}, m.HasStatus .active c → m.Descends c d → c = d := by
    intro c d hc hcd
    rcases Relation.ReflTransGen.cases_head hcd with heq | ⟨e, he, -⟩
    · exact heq
    · cases hc.unique (h.retired c e he)
  have hunique : Relator.RightUnique m.Child := fun c d e hd he => h.single c d e hd he
  rcases Relation.ReflTransGen.total_of_right_unique hunique ha hb with hab | hba
  · exact hlast hactive hab
  · exact (hlast hactive' hba).symm

/-- Rows keep their parents, and stay revoked: a line stays a line. -/
theorem Line.mono (h : Line m) (hchild : ∀ a b, m'.Child a b → m.Child a b)
    (hstatus : ∀ a, m.HasStatus .revoked a → m'.HasStatus .revoked a)
    (hnew : ∀ a ∈ m'.revocations, a ∈ m.revocations ∨ m'.HasStatus .revoked a ∧ ∀ b, ¬ m.Child a b) : Line m' := by
  refine ⟨fun a b c hb hc => h.single a b c (hchild a b hb) (hchild a c hc),
    fun a b hb => hstatus a (h.retired a b (hchild a b hb)), fun a ha => ?_⟩
  rcases hnew a ha with hold | ⟨hrevoked, hnone⟩
  · obtain ⟨hrevoked, hnone⟩ := h.revoked a hold
    exact ⟨hstatus a hrevoked, fun b hb => hnone b (hchild a b hb)⟩
  · exact ⟨hrevoked, fun b hb => hnone b (hchild a b hb)⟩

/-- Nothing was committed. -/
theorem Line.same (h : Line m) (hrows : ∀ k, m'.rows.committed k = m.rows.committed k)
    (hrevocations : m'.revocations = m.revocations) : Line m' := by
  refine h.mono ?_ ?_ fun a ha => .inl (hrevocations ▸ ha)
  · rintro a b ⟨y, hy, hparent⟩
    exact ⟨y, (hrows b).symm.trans hy, hparent⟩
  · rintro a ⟨y, hy, hstatus⟩
    exact ⟨y, (hrows a).trans hy, hstatus⟩

/-! What a transaction holds. -/

/-- How far a call has come: nothing, the old row, the old row and its successor. -/
inductive Phase
  | idle
  | holds (id : Nat)
  | inserted (id fresh : Nat)

def Phase.row : Phase → Option Nat
  | .idle => none
  | .holds id => some id
  | .inserted id _ => some id

/-- The pending version revokes the committed one, which is active. -/
def Retiring (committed : Option Kept) (v : Kept) : Prop :=
  ∃ old, committed = some old ∧ old.token.status = .active ∧ v.token.status = .revoked ∧ v.parent = old.parent

/-- What a call may have pending at a place. -/
def Owned (k : Nat) (committed : Option Kept) (v : Kept) : Phase → Prop
  | .idle => False
  | .holds id => k = id ∧ Retiring committed v
  | .inserted id fresh => (k = id ∧ Retiring committed v) ∨ (k = fresh ∧ committed = none ∧ v.parent = some id)

structure Inv (m : Mem ι) (g : ι → Phase) : Prop where
  line : Line m
  owned : ∀ k j v, m.rows.pending k = some (j, v) → Owned k (m.rows.committed k) v (g j)
  held : ∀ j id, (g j).row = some id → ∃ v, m.rows.pending id = some (j, v) ∧ Retiring (m.rows.committed id) v

theorem Inv.idle {g : ι → Phase} {i : ι} (h : Inv m g) (hi : g i = .idle) : m.rows.Idle i := by
  intro k v hpend
  have howned := h.owned k i v hpend
  rw [hi] at howned
  exact howned

theorem Inv.not_revoked {g : ι → Phase} (h : Inv m g) {j : ι} {v : Kept}
    (hpend : m.rows.pending k = some (j, v)) : ¬ m.HasStatus .revoked k := by
  rintro ⟨x, hx, hstatus⟩
  have hretiring : ∀ {w}, ¬ Retiring (m.rows.committed k) w := by
    rintro w ⟨old, hold, hactive, -⟩
    rw [hx] at hold
    cases hold
    rw [hactive] at hstatus
    cases hstatus
  have howned := h.owned k j v hpend
  cases hg : g j with
  | idle =>
    rw [hg] at howned
    exact howned
  | holds id =>
    rw [hg] at howned
    exact hretiring howned.2
  | inserted id fresh =>
    rw [hg] at howned
    rcases howned with ⟨-, howned⟩ | ⟨-, hnone, -⟩
    · exact hretiring howned
    · rw [hx] at hnone
      cases hnone

theorem inv_start (tokens : List UserAccessToken) : Inv (Mem.start tokens : Mem ι) fun _ => .idle := by
  have hchild : ∀ a b, ¬ (Mem.start tokens : Mem ι).Child a b := by
    rintro a b ⟨x, hx, hparent⟩
    replace hx : (stored (tokens.map fun t => (⟨t, none⟩ : Kept)) : Table ι Kept).committed b = some x := hx
    rw [committed_stored, List.getElem?_map] at hx
    obtain ⟨t, -, rfl⟩ := Option.map_eq_some_iff.mp hx
    cases hparent
  refine ⟨⟨fun a b c hb => absurd hb (hchild a b), fun a b hb => absurd hb (hchild a b), fun a ha => ?_⟩,
    fun k j v hpend => ?_, fun j id hrow => ?_⟩
  · cases ha
  · replace hpend : (stored (tokens.map fun t => (⟨t, none⟩ : Kept)) : Table ι Kept).pending k = some (j, v) := hpend
    rw [pending_stored] at hpend
    cases hpend
  · cases hrow

/-! Each statement keeps the invariant. -/

variable [DecidableEq ι] {m : Mem ι} {g : ι → Phase} {i : ι}

section
variable (h : Inv m g)
include h

/-- A statement leaves the transactions of the others as they are. -/
theorem Inv.step {γ : Phase} (hbeside : Table.Beside i m.rows m'.rows) (hline : Line m')
    (hown : ∀ k v, m'.rows.pending k = some (i, v) → Owned k (m'.rows.committed k) v γ)
    (hself : ∀ id, γ.row = some id → ∃ v, m'.rows.pending id = some (i, v) ∧ Retiring (m'.rows.committed id) v) :
    Inv m' (update g i γ) := by
  refine ⟨hline, hbeside.forall_pending (P := fun k _ v committed γ => Owned k committed v γ) h.owned hown,
    fun j id hrow => ?_⟩
  by_cases hj : j = i
  · subst hj
    rw [update_self] at hrow
    exact hself id hrow
  · rw [update_of_ne hj] at hrow
    obtain ⟨v, hpend, hretiring⟩ := h.held j id hrow
    exact ⟨v, (hbeside.pending hj).mpr hpend, (hbeside.committed hj hpend).symm ▸ hretiring⟩

theorem Inv.revoke (hi : g i = .idle) (hfree : m.rows.free i p = true)
    (hp : ∀ k x, p k x = true → x.token.status ≠ .revoked) (now : Int) (reason : String) :
    Inv { m with
      rows := m.rows.autocommit i p (Kept.retire now reason)
      revocations := m.rows.hits i p ++ m.revocations } (update g i .idle) := by
  have hidle := h.idle hi
  have hcommitted := fun k => hidle.committed_autocommit (p := p) (f := Kept.retire now reason) (k := k)
  refine h.step (beside_autocommit hfree) (h.line.mono ?_ ?_ ?_) (fun k v hpend => ?_) nofun
  · rintro a b ⟨y, hy, hparent⟩
    rw [hcommitted] at hy
    obtain ⟨x, hx, hxy⟩ := Option.map_eq_some_iff.mp hy
    refine ⟨x, hx, ?_⟩
    rw [← hparent, ← hxy]
    split <;> rfl
  · rintro a ⟨x, hx, hstatus⟩
    refine ⟨x, ?_, hstatus⟩
    rw [hcommitted, hx, Option.map_some, if_neg fun hhit => hp a x hhit hstatus]
  · intro a ha
    rcases mem_append.mp ha with hhit | hold
    · obtain ⟨x, hx, hhit⟩ := hidle.mem_hits.mp hhit
      refine .inr ⟨⟨x.retire now reason, ?_, rfl⟩, fun b hb => ?_⟩
      · rw [hcommitted, hx, Option.map_some, if_pos hhit]
      · obtain ⟨y, hy, hstatus⟩ := h.line.retired a b hb
        rw [hx] at hy
        cases hy
        exact hp a x hhit hstatus
    · exact .inl hold
  · exact hidle k v ((hidle.pending_autocommit hfree).mp hpend)

theorem Inv.revokeOld (hi : g i = .idle) (hfree : m.rows.free i (whereActive id) = true)
    (hfound : m.rows.hits i (whereActive id) ≠ []) (now : Int) (missed : Nat) :
    Inv { m with
      rows := m.rows.updateWhere i (whereActive id) (Kept.retire now Identity.userAccessTokenRevokeRotate)
      missed } (update g i (.holds id)) := by
  have hidle := h.idle hi
  -- the row that is found is the one asked for
  have hhits : ∀ {k}, k ∈ m.rows.hits i (whereActive id) →
      k = id ∧ ∃ x, m.rows.committed id = some x ∧ x.token.status = .active := by
    intro k hk
    obtain ⟨x, hx, hhit⟩ := hidle.mem_hits.mp hk
    unfold whereActive at hhit
    rw [Bool.and_eq_true, decide_eq_true_eq, decide_eq_true_eq] at hhit
    obtain ⟨rfl, hactive⟩ := hhit
    exact ⟨rfl, x, hx, hactive⟩
  obtain ⟨k0, hk0⟩ := exists_mem_of_ne_nil _ hfound
  obtain ⟨rfl, x, hx, hactive⟩ := hhits hk0
  have hsee : m.rows.visible i k0 = some x := (visible_of_not_pending (hidle k0)).trans hx
  have hwhere : whereActive k0 k0 x = true := by
    unfold whereActive
    rw [hactive]
    simp
  have hpend := pending_updateWhere_hit (f := Kept.retire now Identity.userAccessTokenRevokeRotate) hsee hwhere
  have hcommitted := fun k => committed_updateWhere (t := m.rows) (i := i) (p := whereActive k0)
    (f := Kept.retire now Identity.userAccessTokenRevokeRotate) (k := k)
  have hretiring : Retiring ((m.rows.updateWhere i (whereActive k0) _).committed k0)
      (x.retire now Identity.userAccessTokenRevokeRotate) := ⟨x, (hcommitted k0).trans hx, hactive, rfl, rfl⟩
  refine h.step (beside_updateWhere hfree) (h.line.same hcommitted rfl) (fun k v hpend' => ?_) fun id hrow => ?_
  · by_cases hk : k ∈ m.rows.hits i (whereActive k0)
    · obtain ⟨rfl, -⟩ := hhits hk
      replace hpend' : (m.rows.updateWhere i (whereActive k) _).pending k = some (i, v) := hpend'
      rw [hpend] at hpend'
      cases hpend'
      exact ⟨rfl, hretiring⟩
    · exact absurd ((pending_updateWhere_other hk).symm.trans hpend') (hidle k v)
  · cases hrow
    exact ⟨_, hpend, hretiring⟩

theorem Inv.create (hi : g i = .holds id) {x : Kept} (hparent : x.parent = some id) :
    Inv { m with rows := m.rows.insert i x } (update g i (.inserted id m.rows.length)) := by
  have hcommitted : ∀ k, (m.rows.insert i x).committed k = m.rows.committed k := fun _ => committed_insert i x
  refine h.step (beside_insert x) (h.line.same hcommitted rfl) (fun k v hpend => ?_) fun id' hrow => ?_
  · show Owned k ((m.rows.insert i x).committed k) v _
    replace hpend : (m.rows.insert i x).pending k = some (i, v) := hpend
    rw [pending_insert] at hpend
    rw [hcommitted]
    split_ifs at hpend with hk
    · cases hpend
      exact .inr ⟨hk, committed_none_of_le (Nat.le_of_eq hk.symm), hparent⟩
    · have howned := h.owned k i v hpend
      rw [hi] at howned
      exact .inl howned
  · cases hrow
    obtain ⟨v, hbefore, hretiring⟩ := h.held i id (by rw [hi]; rfl)
    refine ⟨v, ?_, (hcommitted id).symm ▸ hretiring⟩
    -- the place of the new row was nobody's
    refine (pending_insert i x).trans ((if_neg ?_).trans hbefore)
    rintro rfl
    rw [pending_none_of_le (Nat.le_refl _)] at hbefore
    cases hbefore

theorem Inv.drop : Inv { m with rows := m.rows.drop i } (update g i .idle) :=
  h.step beside_drop (h.line.same (fun _ => committed_drop) rfl)
    (fun _ _ hpend => (pending_drop.mp hpend).2 rfl) nofun

/-- What a commit adds to the line: the old row is revoked, and has its successor. -/
theorem Inv.publish_child (hi : g i = .inserted id fresh) {b : Nat}
    (hchild : Mem.Child { m with rows := m.rows.publish i } a b) : m.Child a b ∨ a = id ∧ b = fresh := by
  obtain ⟨y, hy, hparent⟩ := hchild
  by_cases hown : ∃ v, m.rows.pending b = some (i, v)
  · obtain ⟨v, hpend⟩ := hown
    have howned := h.owned b i v hpend
    rw [hi] at howned
    replace hy : (m.rows.publish i).committed b = some y := hy
    rw [committed_publish_own hpend] at hy
    cases hy
    rcases howned with ⟨-, old, hold, -, -, hsame⟩ | ⟨hfresh, -, hid⟩
    · exact .inl ⟨old, hold, hsame.symm.trans hparent⟩
    · rw [hparent] at hid
      cases hid
      exact .inr ⟨rfl, hfresh⟩
  · have hsame := committed_publish_other fun v hv => hown ⟨v, hv⟩
    exact .inl ⟨y, hsame.symm.trans hy, hparent⟩

theorem Inv.publish_revoked (ha : m.HasStatus .revoked a) :
    Mem.HasStatus { m with rows := m.rows.publish i } .revoked a := by
  have hsame := committed_publish_other (i := i) fun v hv => h.not_revoked hv ha
  obtain ⟨y, hy, hstatus⟩ := ha
  exact ⟨y, hsame.trans hy, hstatus⟩

theorem Inv.publish (hi : g i = .inserted id fresh) :
    Inv { m with rows := m.rows.publish i } (update g i .idle) := by
  obtain ⟨v, hpend, hretiring⟩ := h.held i id (by rw [hi]; rfl)
  -- the old row is active, so it had no successor, and no revocation has hit it
  have hnot : ¬ m.HasStatus .revoked id := h.not_revoked hpend
  obtain ⟨old, -, -, hrevoked, -⟩ := hretiring
  have hid : Mem.HasStatus { m with rows := m.rows.publish i } .revoked id :=
    ⟨v, committed_publish_own hpend, hrevoked⟩
  refine h.step beside_publish ⟨?_, ?_, ?_⟩ (fun k w hown => ?_) nofun
  · intro a b c hb hc
    rcases h.publish_child hi hb with hb | ⟨rfl, rfl⟩
    · rcases h.publish_child hi hc with hc | ⟨rfl, -⟩
      · exact h.line.single a b c hb hc
      · exact absurd (h.line.retired a b hb) hnot
    · rcases h.publish_child hi hc with hc | ⟨-, rfl⟩
      · exact absurd (h.line.retired a c hc) hnot
      · rfl
  · intro a b hb
    rcases h.publish_child hi hb with hb | ⟨rfl, -⟩
    · exact h.publish_revoked (h.line.retired a b hb)
    · exact hid
  · intro a ha
    obtain ⟨hstatus, hnone⟩ := h.line.revoked a ha
    refine ⟨h.publish_revoked hstatus, fun b hb => ?_⟩
    rcases h.publish_child hi hb with hb | ⟨rfl, -⟩
    · exact hnone b hb
    · exact hnot hstatus
  · exact (pending_publish.mp hown).2 rfl

end

/-! The calls. -/

theorem wp_revokeWhere (hp : ∀ k x, p k x = true → x.token.status ≠ .revoked) (now : Int)
    (reason : String) : wp Inv stillActive i (revokeWhere i p now reason) (fun _ γ => γ = .idle) .idle := by
  intro m g ok hinv hi hready _
  refine ⟨.idle, ?_, rfl⟩
  cases ok with
  | true => exact hinv.revoke hi hready hp now reason
  | false => exact inv_update_self hinv hi

theorem wp_rollback {γ : Phase} : wp Inv stillActive i (rollback i) (fun _ γ' => γ' = .idle) γ :=
  wp_atomically fun _ _ hinv _ _ => ⟨.idle, hinv.drop, rfl⟩

theorem wp_commit {answer : Nat} :
    wp Inv stillActive i (commit i answer) (fun _ γ' => γ' = .idle) (.inserted id fresh) := by
  intro m g ok hinv hi _ _
  refine ⟨.idle, ?_, rfl⟩
  cases ok with
  | true => exact hinv.publish hi
  | false => exact hinv.drop

theorem wp_replaceOld (hash : String → String) (id : Nat) (now : Int) (body : String) (old : UserAccessToken) :
    wp Inv stillActive i (replaceOld i hash id now body old) (fun _ γ => γ = .idle) .idle := by
  intro m g ok hinv hi hready hguard
  cases ok with
  | false => exact ⟨.idle, inv_update_self hinv hi, wp_rollback⟩
  | true =>
    -- the guard says that the UPDATE has found the row
    have hfound : m.rows.hits i (whereActive id) ≠ [] := by
      intro hnone
      have hmissed : (if m.rows.hits i (whereActive id) = [] then m.missed + 1 else m.missed) = m.missed :=
        of_decide_eq_true hguard
      rw [if_pos hnone] at hmissed
      omega
    refine ⟨.holds id, hinv.revokeOld hi hready hfound now _, wp_bind ?_⟩
    intro m' g' ok' hinv' hi' _ _
    cases ok' with
    | false => exact ⟨.holds id, inv_update_self hinv' hi', wp_rollback⟩
    | true => exact ⟨.inserted id m'.rows.length, hinv'.create hi' rfl, wp_commit⟩

theorem wp_call (hash : String → String) (c : Call) :
    wp Inv stillActive i (c.prog hash i) (fun _ γ => γ = .idle) .idle := by
  cases c with
  | rotate id now body =>
    refine wp_bind (wp_query (fun m g _ _ => ?_) rfl)
    cases hold : (m.rows.committed id).map Kept.token with
    | none => exact wp_pure rfl
    | some old =>
      unfold rotateFound
      dsimp only
      split
      · exact wp_replaceOld hash id now body old
      · exact wp_pure rfl
  | revoke id now reason =>
    refine wp_bind (wp_revokeWhere (fun k x hx => ?_) now reason)
    unfold whereId at hx
    simp only [Bool.and_eq_true, Bool.or_eq_true, decide_eq_true_eq] at hx
    rcases hx.2 with hx | hx
    · rw [hx]
      decide
    · rw [hx]
      decide
  | revokeAll userId now reason sourceFilter =>
    refine wp_bind (wp_revokeWhere (fun k x hx => ?_) now reason)
    unfold whereUser at hx
    simp only [Bool.and_eq_true, decide_eq_true_eq] at hx
    rw [hx.1.2]
    decide

end

/-- **One active descendant.** In every interleaving in which the UPDATE of each rotation finds its
token still active: of the tokens that descend from one by rotations, at most one is active, and a
token that a revocation has hit has no successor. -/
theorem one_active_descendant {ι : Type} [DecidableEq ι] (hash : String → String) (tokens : List UserAccessToken)
    (calls : ι → Call) (s : Sys ι (Mem ι) (Option Nat))
    (h : Reach stillActive ⟨Mem.start tokens, fun i => (calls i).prog hash i⟩ s) (origin : Nat) :
    (∀ a b, s.mem.Descends origin a → s.mem.Descends origin b → s.mem.HasStatus .active a → s.mem.HasStatus .active b →
        a = b) ∧
      (origin ∈ s.mem.revocations → ∀ fresh, ¬ s.mem.Child origin fresh) := by
  obtain ⟨g, hgood⟩ := reach_sound (inv_start tokens) (fun i => wp_call hash (calls i)) h
  have hline := hgood.inv.line
  exact ⟨fun a b ha hb hactive hactive' => hline.one_active ha hb hactive hactive',
    fun horigin => (hline.revoked origin horigin).2⟩

/-! Two races. -/

section

def laptop : UserAccessToken := { userId := 1, name := "laptop", tokenPrefix := "amux_api_pat_000" }

def twice (second : Bool) : Call := if second then .rotate 0 5 "second" else .rotate 0 5 "first"
def rotateAndRevoke (second : Bool) : Call := if second then .revoke 0 5 "user" else .rotate 0 5 "first"

def system (calls : Bool → Call) : Sys Bool (Mem Bool) (Option Nat) :=
  ⟨Mem.start [laptop], fun i => (calls i).prog id i⟩

def inTurn : List (Bool × Bool) := [(false, true), (false, true), (false, true), (false, true), (true, true)]

/-- The first call reads, the second is made as a whole, and then the rest of the first. -/
def overtaken (steps : Nat) : List (Bool × Bool) :=
  (false, true) :: List.replicate steps (true, true) ++ [(false, true), (false, true), (false, true)]

def Mem.summary {ι : Type} (m : Mem ι) (k : Nat) : Option (Option Nat × Identity.TokenStatus) :=
  (m.rows.committed k).map fun x => (x.parent, x.token.status)

theorem Mem.child_of_summary {ι : Type} {m : Mem ι} {a : Nat} {status : Identity.TokenStatus}
    (h : m.summary k = some (some a, status)) : m.Child a k ∧ m.HasStatus status k := by
  obtain ⟨x, hx, hpair⟩ := Option.map_eq_some_iff.mp h
  rw [Prod.mk.injEq] at hpair
  exact ⟨⟨x, hx, hpair.1⟩, x, hx, hpair.2⟩

def rotatedInTurn : Mem Bool := (after stillActive (system twice) inTurn).mem

/-- One rotation after the other: the second is refused, and the successor of the first is the only
one that is active. -/
theorem rotated_in_turn :
    rotatedInTurn.Child 0 1 ∧ rotatedInTurn.HasStatus .active 1 ∧
      ∀ b, rotatedInTurn.Descends 0 b → rotatedInTurn.HasStatus .active b → 1 = b := by
  have hrow : rotatedInTurn.summary 1 = some (some 0, .active) := by decide +kernel
  obtain ⟨hchild, hactive⟩ := Mem.child_of_summary hrow
  refine ⟨hchild, hactive, fun b hb hb' => ?_⟩
  exact (one_active_descendant id [laptop] twice _
    (reach_run .start (run_after (by decide +kernel : (run stillActive (system twice) inTurn).isSome = true)))
    0).1 1 b (.single hchild) hb hactive hb'

/-- Two rotations that have both read the token as active: two successors are active. A rotation that
has read the token before it was revoked: it has an active successor afterwards. -/
theorem rotation_races :
    (∃ s, Reach anyStep (system twice) s ∧ s.mem.Child 0 1 ∧ s.mem.HasStatus .active 1 ∧ s.mem.Child 0 2 ∧
        s.mem.HasStatus .active 2) ∧
      ∃ s, Reach anyStep (system rotateAndRevoke) s ∧ s.mem.revocations = [0] ∧ s.mem.Child 0 1 ∧
        s.mem.HasStatus .active 1 := by
  refine ⟨?_, ?_⟩
  · obtain ⟨s, hs, h₁, h₂⟩ : ∃ s, Reach anyStep (system twice) s ∧
        s.mem.summary 1 = some (some 0, .active) ∧ s.mem.summary 2 = some (some 0, .active) :=
      exists_of_run (overtaken 4) (by decide +kernel)
    obtain ⟨hchild₁, hactive₁⟩ := Mem.child_of_summary h₁
    obtain ⟨hchild₂, hactive₂⟩ := Mem.child_of_summary h₂
    exact ⟨s, hs, hchild₁, hactive₁, hchild₂, hactive₂⟩
  · obtain ⟨s, hs, hrevoked, hrow⟩ : ∃ s, Reach anyStep (system rotateAndRevoke) s ∧
        s.mem.revocations = [0] ∧ s.mem.summary 1 = some (some 0, .active) :=
      exists_of_run (overtaken 1) (by decide +kernel)
    obtain ⟨hchild, hactive⟩ := Mem.child_of_summary hrow
    exact ⟨s, hs, hrevoked, hchild, hactive⟩

end

/-! A call that is alone does what the model of a single request says. -/

section
variable {ι : Type}

def Call.alone (hash : String → String) : Call → Identity.Tables → Identity.Tables
  | .rotate id now body => Identity.rotateUserAccessToken hash now id body
  | .revoke id now reason => Identity.revokeUserAccessToken now id reason
  | .revokeAll userId now reason sourceFilter => Identity.revokeAllUserAccessTokens now userId reason sourceFilter

def Mem.tokens (m : Mem ι) : List UserAccessToken := m.rows.filterMap fun r => r.committed.map Kept.token

theorem tokens_stored (rows : List Kept) (m : Mem ι) (h : m.rows = stored rows) :
    m.tokens = rows.map Kept.token := by
  unfold Mem.tokens
  rw [h, stored, filterMap_map]
  show rows.filterMap (some ∘ Kept.token) = _
  rw [filterMap_eq_map]

def unrelated (tokens : List UserAccessToken) : List Kept := tokens.map fun t => ⟨t, none⟩

variable (tokens : List UserAccessToken)

theorem map_unrelated : (unrelated tokens).map Kept.token = tokens := by
  unfold unrelated
  rw [map_map]
  exact map_id _

/-- Row by row, what a statement leaves of the tokens. -/
theorem tokens_mapIdx {result : List UserAccessToken} {now : Int} {reason : String}
    (h : ∀ k, result[k]? = tokens[k]?.map fun t => if p k ⟨t, none⟩ then t.retire .revoked now reason else t) :
    ((unrelated tokens).mapIdx fun k x => if p k x then Kept.retire now reason x else x).map Kept.token = result := by
  apply ext_getElem?
  intro k
  unfold unrelated
  rw [h, List.getElem?_map, List.getElem?_mapIdx, List.getElem?_map]
  cases tokens[k]? with
  | none => rfl
  | some t => exact congrArg some (apply_ite Kept.token ..)

theorem getElem_modify_iff {n : Nat} {q : UserAccessToken → Prop} [DecidablePred q]
    {f : UserAccessToken → UserAccessToken} (h : ∀ t, p k ⟨t, none⟩ = true ↔ k = n ∧ q t) :
    (tokens.modify n fun t => if q t then f t else t)[k]? =
      tokens[k]?.map fun t => if p k ⟨t, none⟩ then f t else t := by
  simp only [List.getElem?_modify, h, ite_and, @eq_comm _ k]
  rfl

variable [DecidableEq ι]

theorem revoke_alone (i : ι) {p : Nat → Kept → Bool} {now : Int} {reason : String} {result : List UserAccessToken}
    (h : ∀ k, result[k]? = tokens[k]?.map fun t => if p k ⟨t, none⟩ then t.retire .revoked now reason else t) :
    ((revokeWhere i p now reason).exec (Mem.start tokens)).2.tokens = result := by
  rw [tokens_stored _ _ (autocommit_stored (unrelated tokens))]
  exact tokens_mapIdx tokens h

theorem rotate_alone (hash : String → String) (i : ι) (id : Nat) (now : Int) (body : String) (s : Identity.Tables) :
    ((rotateUserAccessToken i hash id now body).exec (Mem.start s.tokens)).2.tokens =
      (Identity.rotateUserAccessToken hash now id body s).tokens := by
  have hsame : (Mem.start s.tokens : Mem ι).tokens = s.tokens := by
    rw [tokens_stored (unrelated s.tokens) _ rfl, map_unrelated]
  unfold Identity.rotateUserAccessToken
  have hread : ((Mem.start s.tokens : Mem ι).rows.committed id).map Kept.token = s.tokens[id]? := by
    show (committed (stored (unrelated s.tokens)) id).map _ = _
    rw [committed_stored, ← List.getElem?_map, map_unrelated]
  show ((rotateFound i hash id now body (some (((Mem.start s.tokens : Mem ι).rows.committed id).map Kept.token))).exec
    (Mem.start s.tokens)).2.tokens = _
  rw [hread]
  cases hold : s.tokens[id]? with
  | none => exact hsame
  | some old =>
    unfold rotateFound
    dsimp only
    by_cases hactive : old.status = .active
    · rw [if_pos hactive, if_neg (not_not.mpr hactive)]
      have hrows : ((replaceOld i hash id now body old).exec (Mem.start s.tokens)).2.rows =
          stored (((unrelated s.tokens).mapIdx fun k x =>
            if whereActive id k x then Kept.retire now Identity.userAccessTokenRevokeRotate x else x) ++
              [⟨successor hash now body old, some id⟩]) := by
        show (((stored (unrelated s.tokens)).updateWhere i _ _).insert i _).publish i = _
        rw [publish_insert]
        show autocommit _ i _ _ ++ _ = _
        rw [autocommit_stored, stored, stored, map_append]
        rfl
      rw [tokens_stored _ _ hrows, map_append, tokens_mapIdx s.tokens fun k => getElem_modify_iff s.tokens
        (n := id) (q := fun t => t.status = .active) fun t => by simp [whereActive]]
      rfl
    · rw [if_neg hactive, if_pos hactive]
      exact hsame

/-- **A call alone.** On a table that nobody else changes, each call leaves the tokens as the model of
one request does. -/
theorem call_alone (hash : String → String) (i : ι) (c : Call) (s : Identity.Tables) :
    ((c.prog hash i).exec (Mem.start s.tokens)).2.tokens = (c.alone hash s).tokens := by
  cases c with
  | rotate id now body => exact rotate_alone hash i id now body s
  | revoke id now reason =>
    exact revoke_alone s.tokens i fun k => getElem_modify_iff s.tokens fun t => by simp [whereId]
  | revokeAll userId now reason sourceFilter => exact revoke_alone s.tokens i fun _ => List.getElem?_map

end

end AmuxApi.Rotation
