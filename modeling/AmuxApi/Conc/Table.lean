import AmuxApi.Conc.System

/- A table at read committed, with statements about many rows.

   A row has a committed version, and may have one that a transaction has written and not yet
   committed. A read sees the committed versions, and those of its own transaction. An UPDATE is
   about the rows that it sees and that meet its condition; it waits while another transaction holds
   one of them, and takes them until its transaction ends. The id of a row is its place: rows are
   only added, and one that was never committed stays as a gap.

   A statement outside a transaction is committed at once (`autocommit`). The lemmas say what each
   operation does to the committed and to the pending version of the row at one place. -/
namespace AmuxApi.Conc
open Option

variable {ι V : Type}

structure Row (ι V : Type) where
  committed : Option V
  pending : Option (ι × V)
  deriving DecidableEq, Repr

abbrev Table (ι V : Type) := List (Row ι V)

namespace Row
variable [DecidableEq ι]

def visible (i : ι) (r : Row ι V) : Option V :=
  match r.pending with
  | some (j, v) => if j = i then some v else r.committed
  | none => r.committed

def blocked (i : ι) (p : V → Bool) (r : Row ι V) : Bool :=
  match r.pending with
  | some (j, _) => decide (j ≠ i) && r.committed.any p
  | none => false

def update (i : ι) (p : V → Bool) (f : V → V) (r : Row ι V) : Row ι V :=
  match r.visible i with
  | some v => if p v then { r with pending := some (i, f v) } else r
  | none => r

def publish (i : ι) (r : Row ι V) : Row ι V :=
  match r.pending with
  | some (j, v) => if j = i then ⟨some v, none⟩ else r
  | none => r

def drop (i : ι) (r : Row ι V) : Row ι V :=
  match r.pending with
  | some (j, _) => if j = i then { r with pending := none } else r
  | none => r

end Row

namespace Table

def committed (t : Table ι V) (k : Nat) : Option V := t[k]?.bind Row.committed

def pending (t : Table ι V) (k : Nat) : Option (ι × V) := t[k]?.bind Row.pending

/-- Nothing is pending. -/
def stored (rows : List V) : Table ι V := rows.map fun v => ⟨some v, none⟩

def insert (t : Table ι V) (i : ι) (v : V) : Table ι V := t ++ [⟨none, some (i, v)⟩]

section
variable [DecidableEq ι]

def visible (t : Table ι V) (i : ι) (k : Nat) : Option V := t[k]?.bind (Row.visible i)

/-- No row that the UPDATE is about is held by another transaction. -/
def free (t : Table ι V) (i : ι) (p : Nat → V → Bool) : Bool := t.zipIdx.all fun x => !x.1.blocked i (p x.2)

def hits (t : Table ι V) (i : ι) (p : Nat → V → Bool) : List Nat :=
  (List.range t.length).filter fun k => (t.visible i k).any (p k)

def updateWhere (t : Table ι V) (i : ι) (p : Nat → V → Bool) (f : V → V) : Table ι V :=
  t.mapIdx fun k r => r.update i (p k) f

/-- COMMIT. -/
def publish (t : Table ι V) (i : ι) : Table ι V := t.map (Row.publish i)

/-- ROLLBACK. -/
def drop (t : Table ι V) (i : ι) : Table ι V := t.map (Row.drop i)

def autocommit (t : Table ι V) (i : ι) (p : Nat → V → Bool) (f : V → V) : Table ι V := (t.updateWhere i p f).publish i

end

/-! Places. -/

section
variable {t : Table ι V} {k : Nat}

theorem pending_none_of_le (h : t.length ≤ k) : t.pending k = none := by
  unfold pending
  rw [List.getElem?_eq_none h]
  rfl

theorem committed_none_of_le (h : t.length ≤ k) : t.committed k = none := by
  unfold committed
  rw [List.getElem?_eq_none h]
  rfl

theorem committed_stored (rows : List V) : (stored rows : Table ι V).committed k = rows[k]? := by
  unfold committed stored
  rw [List.getElem?_map]
  cases rows[k]? with
  | none | some v => rfl

theorem pending_stored (rows : List V) : (stored rows : Table ι V).pending k = none := by
  unfold pending stored
  rw [List.getElem?_map]
  cases rows[k]? with
  | none | some v => rfl

theorem committed_insert (i : ι) (v : V) : (t.insert i v).committed k = t.committed k := by
  unfold committed insert
  rcases Nat.lt_trichotomy k t.length with hlt | heq | hgt
  · rw [List.getElem?_append_left hlt]
  · rw [heq, List.getElem?_concat_length, List.getElem?_eq_none (Nat.le_refl _)]
    rfl
  · rw [List.getElem?_eq_none (Nat.le_of_lt hgt), List.getElem?_eq_none (by rw [List.length_append]; exact hgt)]

theorem pending_insert (i : ι) (v : V) :
    (t.insert i v).pending k = if k = t.length then some (i, v) else t.pending k := by
  unfold pending insert
  rcases Nat.lt_trichotomy k t.length with hlt | heq | hgt
  · rw [List.getElem?_append_left hlt, if_neg (Nat.ne_of_lt hlt)]
  · rw [if_pos heq, heq, List.getElem?_concat_length]
    rfl
  · rw [if_neg (Nat.ne_of_gt hgt), List.getElem?_eq_none (Nat.le_of_lt hgt),
      List.getElem?_eq_none (by rw [List.length_append]; exact hgt)]

end

/-! Statements. -/

section
variable [DecidableEq ι] {t : Table ι V} {i : ι} {p : Nat → V → Bool} {f : V → V} {k : Nat}

theorem getElem?_updateWhere : (t.updateWhere i p f)[k]? = t[k]?.map (Row.update i (p k) f) := List.getElem?_mapIdx

/-- Of a row that it has not written, a transaction sees what is committed. -/
theorem visible_of_not_pending (h : ∀ v, t.pending k ≠ some (i, v)) : t.visible i k = t.committed k := by
  unfold visible committed
  unfold pending at h
  cases hr : t[k]? with
  | none => rfl
  | some r =>
    rw [hr] at h
    rw [bind_some, bind_some]
    unfold Row.visible
    cases hp : r.pending with
    | none => rfl
    | some w =>
      obtain ⟨j, v⟩ := w
      dsimp only
      rw [if_neg]
      rintro rfl
      exact h v hp

theorem mem_hits : k ∈ t.hits i p ↔ ∃ v, t.visible i k = some v ∧ p k v = true := by
  unfold hits
  rw [List.mem_filter, List.mem_range, any_eq_true]
  constructor
  · exact fun h => h.2
  intro h
  refine ⟨Nat.lt_of_not_le fun hle => ?_, h⟩
  obtain ⟨v, hv, -⟩ := h
  unfold visible at hv
  rw [List.getElem?_eq_none hle] at hv
  cases hv

theorem committed_updateWhere : (t.updateWhere i p f).committed k = t.committed k := by
  unfold committed
  rw [getElem?_updateWhere]
  cases t[k]? with
  | none => rfl
  | some r =>
    show (Row.update i (p k) f r).committed = r.committed
    unfold Row.update
    split
    · split <;> rfl
    · rfl

variable {v : V} {j : ι}

theorem pending_updateWhere_hit (hv : t.visible i k = some v) (hp : p k v = true) :
    (t.updateWhere i p f).pending k = some (i, f v) := by
  obtain ⟨r, hr, hrow⟩ := bind_eq_some_iff.mp hv
  unfold pending
  rw [getElem?_updateWhere, hr]
  show (Row.update i (p k) f r).pending = some (i, f v)
  unfold Row.update
  rw [hrow]
  dsimp only
  rw [if_pos hp]

theorem pending_updateWhere_other (h : k ∉ t.hits i p) : (t.updateWhere i p f).pending k = t.pending k := by
  unfold pending
  rw [getElem?_updateWhere]
  cases hr : t[k]? with
  | none => rfl
  | some r =>
    show (Row.update i (p k) f r).pending = r.pending
    unfold Row.update
    cases hv : r.visible i with
    | none => rfl
    | some v =>
      dsimp only
      rw [if_neg]
      intro hp
      refine h (mem_hits.mpr ⟨v, ?_, hp⟩)
      unfold visible
      rw [hr]
      exact hv

/-- The rows that a free UPDATE changes are not held by another transaction. -/
theorem holder_of_free (hfree : t.free i p = true) {w : V} (hpend : t.pending k = some (j, w))
    (hhit : k ∈ t.hits i p) : j = i := by
  by_contra hne
  obtain ⟨v, hv, hp⟩ := mem_hits.mp hhit
  rw [visible_of_not_pending (fun v' h' => hne (by rw [hpend] at h'; cases h'; rfl))] at hv
  obtain ⟨r, hr, hrow⟩ := bind_eq_some_iff.mp hpend
  unfold committed at hv
  rw [hr, bind_some] at hv
  have hnot := List.all_eq_true.mp hfree (r, k) (List.mem_zipIdx_iff_getElem?.mpr hr)
  have hblocked : r.blocked i (p k) = true := by
    unfold Row.blocked
    rw [hrow]
    rw [Bool.and_eq_true, decide_eq_true_eq, hv]
    exact ⟨hne, hp⟩
  rw [hblocked] at hnot
  cases hnot

theorem committed_publish_own (h : t.pending k = some (i, v)) : (t.publish i).committed k = some v := by
  obtain ⟨r, hr, hp⟩ := bind_eq_some_iff.mp h
  unfold committed publish
  rw [List.getElem?_map, hr]
  show (Row.publish i r).committed = some v
  unfold Row.publish
  rw [hp]
  dsimp only
  rw [if_pos rfl]

theorem committed_publish_other (h : ∀ v, t.pending k ≠ some (i, v)) : (t.publish i).committed k = t.committed k := by
  unfold pending at h
  unfold committed publish
  rw [List.getElem?_map]
  cases hr : t[k]? with
  | none => rfl
  | some r =>
    rw [hr] at h
    show (Row.publish i r).committed = r.committed
    unfold Row.publish
    cases hp : r.pending with
    | none => rfl
    | some w =>
      obtain ⟨j, v⟩ := w
      dsimp only
      rw [if_neg]
      rintro rfl
      exact h v hp

theorem committed_drop : (t.drop i).committed k = t.committed k := by
  unfold committed drop
  rw [List.getElem?_map]
  cases t[k]? with
  | none => rfl
  | some r =>
    show (Row.drop i r).committed = r.committed
    unfold Row.drop
    split
    · split <;> rfl
    · rfl

theorem pending_drop : (t.drop i).pending k = some (j, v) ↔ t.pending k = some (j, v) ∧ j ≠ i := by
  unfold pending drop
  rw [List.getElem?_map]
  cases hr : t[k]? with
  | none => simp
  | some r =>
    show (Row.drop i r).pending = some (j, v) ↔ r.pending = some (j, v) ∧ j ≠ i
    unfold Row.drop
    cases hp : r.pending with
    | none => simp [hp]
    | some w =>
      obtain ⟨j', v'⟩ := w
      dsimp only
      by_cases hj : j' = i
      · rw [if_pos hj]
        simp only [reduceCtorEq, Option.some.injEq, false_iff, not_and, not_not]
        rintro ⟨rfl, -⟩
        exact hj
      · rw [if_neg hj, hp]
        simp only [Option.some.injEq, iff_self_and]
        rintro ⟨rfl, -⟩
        exact hj

/-- A commit leaves the same versions pending as a rollback. -/
theorem pending_publish : (t.publish i).pending k = some (j, v) ↔ t.pending k = some (j, v) ∧ j ≠ i := by
  have hdrop : (t.publish i).pending k = (t.drop i).pending k := by
    unfold pending publish drop
    rw [List.getElem?_map, List.getElem?_map]
    cases t[k]? with
    | none => rfl
    | some r =>
      show (Row.publish i r).pending = (Row.drop i r).pending
      unfold Row.publish Row.drop
      split
      · split <;> rfl
      · rfl
  rw [hdrop, pending_drop]

/-- On a table with nothing pending, a statement is done and committed at once. -/
theorem autocommit_stored (rows : List V) :
    (stored rows : Table ι V).autocommit i p f = stored (rows.mapIdx fun k v => if p k v then f v else v) := by
  apply List.ext_getElem?
  intro k
  unfold autocommit publish updateWhere stored
  rw [List.getElem?_map, List.getElem?_mapIdx, List.getElem?_map, List.getElem?_map, List.getElem?_mapIdx]
  cases rows[k]? with
  | none => rfl
  | some v =>
    by_cases hp : p k v = true <;> simp [Row.update, Row.visible, Row.publish, hp]

theorem publish_insert (v : V) : (t.insert i v).publish i = t.publish i ++ [⟨some v, none⟩] := by
  simp [publish, insert, Row.publish]

def Idle (t : Table ι V) (i : ι) : Prop := ∀ k v, t.pending k ≠ some (i, v)

theorem Idle.mem_hits (h : t.Idle i) : k ∈ t.hits i p ↔ ∃ v, t.committed k = some v ∧ p k v = true := by
  rw [Table.mem_hits, visible_of_not_pending (h k)]

theorem Idle.committed_autocommit (h : t.Idle i) :
    (t.autocommit i p f).committed k = (t.committed k).map fun v => if p k v then f v else v := by
  unfold autocommit
  by_cases hhit : k ∈ t.hits i p
  · obtain ⟨v, hv, hp⟩ := h.mem_hits.mp hhit
    have hsee : t.visible i k = some v := (visible_of_not_pending (h k)).trans hv
    rw [committed_publish_own (pending_updateWhere_hit hsee hp), hv, map_some, if_pos hp]
  · have hpend : ∀ v, (t.updateWhere i p f).pending k ≠ some (i, v) := by
      intro v
      rw [pending_updateWhere_other hhit]
      exact h k v
    rw [committed_publish_other hpend, committed_updateWhere]
    cases hv : t.committed k with
    | none => rfl
    | some v =>
      rw [map_some, if_neg fun hp => hhit (h.mem_hits.mpr ⟨v, hv, hp⟩)]

/-! What a statement leaves to the others. -/

/-- The versions that others have pending stay, over the same committed ones. -/
structure Beside (i : ι) (t t' : Table ι V) : Prop where
  pending : ∀ {k j v}, j ≠ i → (t'.pending k = some (j, v) ↔ t.pending k = some (j, v))
  committed : ∀ {k j v}, j ≠ i → t.pending k = some (j, v) → t'.committed k = t.committed k

omit [DecidableEq ι] in
theorem Beside.trans {t' t'' : Table ι V} (h : Beside i t t') (h' : Beside i t' t'') : Beside i t t'' :=
  ⟨fun hj => (h'.pending hj).trans (h.pending hj),
    fun hj hp => (h'.committed hj ((h.pending hj).mpr hp)).trans (h.committed hj hp)⟩

theorem beside_updateWhere (hfree : t.free i p = true) : Beside i t (t.updateWhere i p f) := by
  refine ⟨fun {k j v} hj => ?_, fun _ _ => committed_updateWhere⟩
  by_cases hhit : k ∈ t.hits i p
  · obtain ⟨w, hw, hp⟩ := mem_hits.mp hhit
    rw [pending_updateWhere_hit hw hp]
    exact ⟨fun hown => by cases hown; exact absurd rfl hj, fun hp => absurd (holder_of_free hfree hp hhit) hj⟩
  · rw [pending_updateWhere_other hhit]

omit [DecidableEq ι] in
theorem beside_insert (v : V) : Beside i t (t.insert i v) := by
  refine ⟨fun {k j w} hj => ?_, fun _ _ => committed_insert i v⟩
  rw [pending_insert]
  split
  · rename_i hk
    rw [pending_none_of_le (Nat.le_of_eq hk.symm)]
    simp [Ne.symm hj]
  · rfl

theorem beside_drop : Beside i t (t.drop i) :=
  ⟨fun hj => pending_drop.trans (and_iff_left hj), fun _ _ => committed_drop⟩

theorem beside_publish : Beside i t (t.publish i) := by
  refine ⟨fun hj => pending_publish.trans (and_iff_left hj), fun hj hp => committed_publish_other fun v hv => hj ?_⟩
  rw [hp] at hv
  cases hv
  rfl

theorem beside_autocommit (hfree : t.free i p = true) : Beside i t (t.autocommit i p f) :=
  (beside_updateWhere hfree).trans beside_publish

/-- `P` of every pending version, after a statement: it held before, and holds of those of its own. -/
theorem Beside.forall_pending {t' : Table ι V} {G : Type} {g : ι → G} {γ : G} {P : Nat → ι → V → Option V → G → Prop}
    (h : Beside i t t') (hold : ∀ k j v, t.pending k = some (j, v) → P k j v (t.committed k) (g j))
    (hown : ∀ k v, t'.pending k = some (i, v) → P k i v (t'.committed k) γ) (k : Nat) (j : ι) (v : V)
    (hv : t'.pending k = some (j, v)) : P k j v (t'.committed k) (Function.update g i γ j) := by
  by_cases hj : j = i
  · subst hj
    rw [Function.update_self]
    exact hown k v hv
  · have hbefore := (h.pending hj).mp hv
    rw [Function.update_of_ne hj, h.committed hj hbefore]
    exact hold k j v hbefore

theorem Idle.pending_autocommit (h : t.Idle i) (hfree : t.free i p = true) :
    (t.autocommit i p f).pending k = some (j, v) ↔ t.pending k = some (j, v) := by
  by_cases hj : j = i
  · subst hj
    exact ⟨fun hp => absurd rfl (pending_publish.mp hp).2, fun hp => absurd hp (h k v)⟩
  · exact (beside_autocommit hfree).pending hj

end

end Table

end AmuxApi.Conc
