import AmuxApi.Conc.Logic
import AmuxApi.TwoFA.Model

/- Backup codes are used once, and only those of the newest set.

   An attempt looks for an unused code, and marks it as used by another statement that asks for
   nothing but the row. A set is made in a transaction of its own: it deletes what is there, inserts
   the new codes, and commits. As long as a code that is marked is not used already, and a set is not
   begun while another is being made (`inOrder`), no code is accepted twice, and none of an earlier set
   by an attempt that began after a newer one (`codes_used_once`).

   Two attempts that have both found a code both mark it: it is accepted twice. Of two sets that are
   made at once, neither deletes the codes of the other (`codes_race`).

   The proof. What is committed is told apart from what is pending. Every code that can be found is of
   the newest set (`Books.live`); a pending version is that of a deleted code, or a new code of the
   call that makes the set (`Owned`); while a set is made, its call holds every code that can be found
   (`Stage.Holds`), so that the commit leaves none of them. -/
namespace AmuxApi.TwoFA
open Conc Table List Option

/-- A code that is marked is not used already, and one set is made after the other. -/
def inOrder {ι : Type} : Guard ι (Mem ι) := fun _ m m' => m'.slips == m.slips

section
variable {ι : Type}

/-- What a SELECT finds. -/
def BackupCode.Live (x : BackupCode ι) : Prop := x.isUsed = false ∧ x.deleted = false

/-- `ready`: no transaction is open; for an attempt, the sets that were committed when it began, and
the code that it has found. `making`, `clearing`: in the transaction that makes a set, or that
switches two-factor authentication off. `done`: the set was committed. -/
inductive Stage (ι : Type)
  | ready (start : List (Option ι)) (found : Option Nat)
  | making
  | clearing
  | done

def Stage.Holds (m : Mem ι) (i : ι) : Stage ι → Prop
  | .ready start found =>
    some i ∉ m.commits ∧ start <:+ m.commits ∧ ∀ k, found = some k → ∃ x, m.codes.committed k = some x
  | .making =>
    some i ∉ m.commits ∧ m.making = [i] ∧
      ∀ k x, m.codes.committed k = some x → x.Live → ∃ v, m.codes.pending k = some (i, v)
  | .clearing => some i ∉ m.commits
  | .done => True

/-- A pending version of a call: that of a deleted code, or a new code. -/
def Owned (i : ι) (stage : Stage ι) (v : BackupCode ι) : Option (BackupCode ι) → Prop
  | some x => v.isUsed = x.isUsed ∧ v.deleted = true ∧ (stage = .making ∨ stage = .clearing)
  | none => v.maker = some i ∧ stage = .making

structure Books (m : Mem ι) : Prop where
  nodup : m.commits.Nodup
  live : ∀ k x, m.codes.committed k = some x → x.Live → m.commits.head? = some x.maker
  used : ∀ e ∈ m.accepted, ∃ x, m.codes.committed e.row = some x ∧ x.isUsed = true
  once : (m.accepted.map Acceptance.row).Nodup
  fresh : ∀ e ∈ m.accepted, e.maker ∉ e.start.tail

structure Ledger (m : Mem ι) (g : ι → Stage ι) : Prop where
  books : Books m
  owned : ∀ k j v, m.codes.pending k = some (j, v) → Owned j (g j) v (m.codes.committed k)
  holds : ∀ i, (g i).Holds m i

/-! What a step of one call leaves to the others. -/

structure Leaves (i : ι) (m m' : Mem ι) : Prop where
  commits : m'.commits = m.commits ∨ m'.commits = some i :: m.commits
  stays : ∀ k x, m.codes.committed k = some x → ∃ y, m'.codes.committed k = some y
  making : ∀ j, j ≠ i → m.making = [j] → m'.making = [j]
  pending : ∀ j, j ≠ i → ∀ k v, m.codes.pending k = some (j, v) → m'.codes.pending k = some (j, v)
  live : ∀ j, j ≠ i → m.making = [j] → ∀ k y, m'.codes.committed k = some y → y.Live →
    ∃ x, m.codes.committed k = some x ∧ x.Live

variable {i j : ι} {m m' : Mem ι} {g : ι → Stage ι} {e : Acceptance ι} {now : Int} {k : Nat}

theorem Leaves.suffix (h : Leaves i m m') : m.commits <:+ m'.commits := by
  rcases h.commits with hsame | hnew
  · rw [hsame]
  · rw [hnew]
    exact suffix_cons _ _

theorem Leaves.not_mem (h : Leaves i m m') (hj : j ≠ i) (hnot : some j ∉ m.commits) : some j ∉ m'.commits := by
  rcases h.commits with hsame | hnew
  · rw [hsame]
    exact hnot
  · rw [hnew, mem_cons, Option.some.injEq]
    rintro (hji | hmem)
    · exact hj hji
    · exact hnot hmem

variable {stage : Stage ι}

theorem Stage.Holds.leaves (h : stage.Holds m j) (hm : Leaves i m m') (hj : j ≠ i) : stage.Holds m' j := by
  cases stage with
  | ready start found =>
    obtain ⟨hnot, hstart, hfound⟩ := h
    refine ⟨hm.not_mem hj hnot, hstart.trans hm.suffix, fun k hk => ?_⟩
    obtain ⟨x, hx⟩ := hfound k hk
    exact hm.stays k x hx
  | making =>
    obtain ⟨hnot, hmaking, hheld⟩ := h
    refine ⟨hm.not_mem hj hnot, hm.making j hj hmaking, fun k y hy hlive => ?_⟩
    obtain ⟨x, hx, hlive'⟩ := hm.live j hj hmaking k y hy hlive
    obtain ⟨v, hv⟩ := hheld k x hx hlive'
    exact ⟨v, hm.pending j hj k v hv⟩
  | clearing => exact hm.not_mem hj h
  | done => trivial

/-- Nothing is said of the rest of the memory. -/
structure Same (m m' : Mem ι) : Prop where
  codes : m'.codes = m.codes
  making : m'.making = m.making
  commits : m'.commits = m.commits
  accepted : m'.accepted = m.accepted

theorem Stage.Holds.same (h : stage.Holds m i) (hm : Same m m') : stage.Holds m' i := by
  unfold Stage.Holds at h ⊢
  rw [hm.codes, hm.making, hm.commits]
  exact h

/-- What is committed stays as it is, up to codes that are used or deleted. -/
theorem Books.onward (h : Books m) (hcommits : m'.commits = m.commits)
    (haccepted : m'.accepted = m.accepted)
    (hlive : ∀ k y, m'.codes.committed k = some y → y.Live → m.codes.committed k = some y)
    (hused : ∀ k x, m.codes.committed k = some x → x.isUsed = true →
      ∃ y, m'.codes.committed k = some y ∧ y.isUsed = true) : Books m' := by
  refine ⟨?_, fun k y hy hl => ?_, fun e he => ?_, ?_, ?_⟩
  · rw [hcommits]
    exact h.nodup
  · rw [hcommits]
    exact h.live k y (hlive k y hy hl) hl
  · rw [haccepted] at he
    obtain ⟨x, hx, hxused⟩ := h.used e he
    exact hused e.row x hx hxused
  · rw [haccepted]
    exact h.once
  · rw [haccepted]
    exact h.fresh

theorem Books.committed_same (h : Books m) (hcommits : m'.commits = m.commits) (haccepted : m'.accepted = m.accepted)
    (hcodes : ∀ k, m'.codes.committed k = m.codes.committed k) : Books m' :=
  h.onward hcommits haccepted (fun k _ hy _ => (hcodes k).symm.trans hy) fun k x hx hu => ⟨x, (hcodes k).trans hx, hu⟩

variable {start : List (Option ι)} {found : Option Nat}

section
variable (h : Ledger m g)
include h

theorem Ledger.same (hm : Same m m') : Ledger m' g := by
  refine ⟨h.books.committed_same hm.commits hm.accepted fun k => by rw [hm.codes], ?_, fun i => (h.holds i).same hm⟩
  rw [hm.codes]
  exact h.owned

theorem Ledger.idle (hi : g i = .ready start found) : m.codes.Idle i := by
  intro k v hpend
  have howned := h.owned k i v hpend
  rw [hi] at howned
  cases hx : m.codes.committed k with
  | none =>
    rw [hx] at howned
    cases howned.2
  | some x =>
    rw [hx] at howned
    rcases howned.2.2 with hmaking | hclearing
    · cases hmaking
    · cases hclearing

/-- What a call has written that can be found is of a new set. -/
theorem Ledger.new {y : BackupCode ι} (hown : m.codes.pending k = some (i, y)) (hl : y.Live) :
    y.maker = some i ∧ g i = .making := by
  have howned := h.owned k i y hown
  cases hx : m.codes.committed k with
  | none =>
    rw [hx] at howned
    exact howned
  | some x =>
    rw [hx] at howned
    exact absurd howned.2.1 (by rw [hl.2]; exact Bool.false_ne_true)

theorem Ledger.at (hi : g i = stage) : stage.Holds m i := hi ▸ h.holds i

theorem Ledger.not_committed (hi : g i = stage) (hopen : stage ≠ .done) : some i ∉ m.commits := by
  have hholds := h.at hi
  cases stage with
  | ready start found | making => exact hholds.1
  | clearing => exact hholds
  | done => exact absurd rfl hopen

/-! Statements. -/

variable [DecidableEq ι]

theorem Ledger.step (hbooks : Books m') (hbeside : Table.Beside i m.codes m'.codes)
    (howned : ∀ k v, m'.codes.pending k = some (i, v) → Owned i stage v (m'.codes.committed k))
    (hown : stage.Holds m' i) (hleaves : Leaves i m m') : Ledger m' (Function.update g i stage) := by
  refine ⟨hbooks, hbeside.forall_pending (P := fun _ j v committed γ => Owned j γ v committed) h.owned howned, ?_⟩
  refine (Function.forall_update_iff g fun j stage => stage.Holds m' j).mpr ⟨hown, fun j hj => ?_⟩
  exact (h.holds j).leaves hleaves hj

/-- What is committed stays as it is. -/
theorem Ledger.write (hcommits : m'.commits = m.commits) (haccepted : m'.accepted = m.accepted)
    (hcommitted : ∀ k, m'.codes.committed k = m.codes.committed k) (hbeside : Table.Beside i m.codes m'.codes)
    (howned : ∀ k v, m'.codes.pending k = some (i, v) → Owned i stage v (m.codes.committed k))
    (hown : stage.Holds m' i) (hmaking : ∀ j, j ≠ i → m.making = [j] → m'.making = [j]) :
    Ledger m' (Function.update g i stage) :=
  h.step (h.books.committed_same hcommits haccepted hcommitted) hbeside
    (fun k v hv => (hcommitted k).symm ▸ howned k v hv) hown
    ⟨.inl hcommits, fun k x hx => ⟨x, (hcommitted k).trans hx⟩, hmaking, fun _ hj _ _ => (hbeside.pending hj).mpr,
      fun _ _ _ k y hy hl => ⟨y, (hcommitted k).symm.trans hy, hl⟩⟩

theorem Ledger.ready {start start' : List (Option ι)} {found found' : Option Nat}
    (hi : g i = .ready start found) (hstart : start' <:+ m.commits)
    (hfound : ∀ k, found' = some k → ∃ x, m.codes.committed k = some x) :
    Ledger m (Function.update g i (.ready start' found')) :=
  h.write rfl rfl (fun _ => rfl) ⟨fun _ => Iff.rfl, fun _ _ => rfl⟩ (fun k v hv => absurd hv (h.idle hi k v))
    ⟨h.not_committed hi nofun, hstart, hfound⟩ fun _ _ hm => hm

variable {code : BackupCode ι}

/-- A code is marked that is not used already. -/
theorem Ledger.mark (hi : g i = .ready start found) {p : Nat → BackupCode ι → Bool}
    (hp : ∀ k x, p k x = true → k = e.row) (hfree : m.codes.free i p = true) (hhit : e.row ∈ m.codes.hits i p)
    (hfresh : e.maker ∉ e.start.tail) (hguard : inOrder i m (m.mark i p code now e) = true) :
    Ledger (m.mark i p code now e) g := by
  have hidle := h.idle hi
  have hcommitted : ∀ k, (m.mark i p code now e).codes.committed k =
      (m.codes.committed k).map fun x => if p k x then code.use now x else x := fun k => hidle.committed_autocommit
  have hbeside : Table.Beside i m.codes (m.mark i p code now e).codes := beside_autocommit hfree
  obtain ⟨x0, hx0, hp0⟩ := hidle.mem_hits.mp hhit
  have hnot : x0.isUsed = false := by
    by_contra hused
    have hslips : (m.mark i p code now e).slips = m.slips + 1 := by
      unfold Mem.mark
      rw [hx0, any_some, if_pos (eq_true_of_ne_false hused)]
    unfold inOrder at hguard
    rw [beq_iff_eq, hslips] at hguard
    exact Nat.succ_ne_self _ hguard
  -- a code that can be found was not marked
  have hlive : ∀ k y, (m.mark i p code now e).codes.committed k = some y → y.Live → m.codes.committed k = some y := by
    intro k y hy hl
    rw [hcommitted] at hy
    obtain ⟨x, hx, hxy⟩ := map_eq_some_iff.mp hy
    by_cases hpx : p k x = true
    · rw [if_pos hpx] at hxy
      rw [← hxy] at hl
      cases hl.1
    · rw [if_neg hpx] at hxy
      rw [hx, hxy]
  have hused : ∀ k x, m.codes.committed k = some x → x.isUsed = true →
      ∃ y, (m.mark i p code now e).codes.committed k = some y ∧ y.isUsed = true := by
    intro k x hx hu
    refine ⟨_, by rw [hcommitted, hx, map_some], ?_⟩
    split
    · rfl
    · exact hu
  have hleaves : Leaves i m (m.mark i p code now e) := by
    refine ⟨.inl rfl, fun k x hx => ?_, fun _ _ hm => hm, fun j hj k v =>
      (hbeside.pending hj).mpr, fun j _ _ k y hy hl => ?_⟩
    · exact ⟨_, by rw [hcommitted, hx, map_some]⟩
    · exact ⟨y, hlive k y hy hl, hl⟩
  have hledger : Ledger (m.mark i p code now e) (Function.update g i (.ready start found)) := by
    refine h.step ⟨h.books.nodup, ?_, ?_, ?_, ?_⟩ hbeside (fun k v hv => ?_) ?_ hleaves
    · exact fun k y hy hl => h.books.live k y (hlive k y hy hl) hl
    · intro e' he'
      rcases mem_cons.mp he' with rfl | hold
      · refine ⟨code.use now x0, ?_, rfl⟩
        rw [hcommitted, hx0, map_some, if_pos hp0]
      · obtain ⟨x, hx, hu⟩ := h.books.used e' hold
        exact hused e'.row x hx hu
    · refine nodup_cons.mpr ⟨fun hmem => ?_, h.books.once⟩
      obtain ⟨e', he', hrow⟩ := mem_map.mp hmem
      obtain ⟨x, hx, hu⟩ := h.books.used e' he'
      rw [hrow, hx0] at hx
      cases hx
      rw [hnot] at hu
      cases hu
    · exact forall_mem_cons.mpr ⟨hfresh, h.books.fresh⟩
    · exact absurd ((hidle.pending_autocommit hfree).mp hv) (hidle k v)
    · obtain ⟨hnew, hstart, hfound⟩ := h.at hi
      refine ⟨hnew, hstart, fun k hk => ?_⟩
      obtain ⟨x, hx⟩ := hfound k hk
      exact hleaves.stays k x hx
  rwa [← hi, Function.update_eq_self] at hledger

theorem Ledger.take (hi : g i = .ready start found) {p : Nat → BackupCode ι → Bool}
    (hfree : m.codes.free i p = true) (hstage : stage = .making ∨ stage = .clearing)
    (hcodes : m'.codes = m.codes.updateWhere i p BackupCode.delete) (hcommits : m'.commits = m.commits)
    (haccepted : m'.accepted = m.accepted) (hmaking : ∀ j, j ≠ i → m.making = [j] → m'.making = [j])
    (hown : stage.Holds m' i) : Ledger m' (Function.update g i stage) := by
  have hidle := h.idle hi
  refine h.write hcommits haccepted (fun k => ?_) (hcodes ▸ beside_updateWhere hfree) (fun k v hv => ?_) hown hmaking
  · rw [hcodes, committed_updateWhere]
  rw [hcodes] at hv
  by_cases hhit : k ∈ m.codes.hits i p
  · obtain ⟨x, hx, hpx⟩ := hidle.mem_hits.mp hhit
    rw [pending_updateWhere_hit ((visible_of_not_pending (hidle k)).trans hx) hpx] at hv
    cases hv
    rw [hx]
    exact ⟨rfl, rfl, hstage⟩
  · rw [pending_updateWhere_other hhit] at hv
    exact absurd hv (hidle k v)

theorem Ledger.insert (hi : g i = .making) {v : BackupCode ι} (hv : v.maker = some i) :
    Ledger { m with codes := m.codes.insert i v } (Function.update g i .making) := by
  have hkept : ∀ {k w}, m.codes.pending k = some (i, w) → (m.codes.insert i v).pending k = some (i, w) := by
    intro k w hw
    rw [pending_insert, if_neg]
    · exact hw
    · rintro rfl
      rw [pending_none_of_le (Nat.le_refl _)] at hw
      cases hw
  have hcommitted : ∀ k, (m.codes.insert i v).committed k = m.codes.committed k := fun k => committed_insert i v
  obtain ⟨hnew, hmaking, hheld⟩ := h.at hi
  refine h.write rfl rfl hcommitted (beside_insert v) (fun k w hw => ?_) ⟨hnew, hmaking, fun k x hx hl => ?_⟩
    fun _ _ hm => hm
  · replace hw : (m.codes.insert i v).pending k = some (i, w) := hw
    rw [pending_insert] at hw
    split_ifs at hw with hk
    · cases hw
      rw [committed_none_of_le (Nat.le_of_eq hk.symm)]
      exact ⟨hv, rfl⟩
    · exact hi ▸ h.owned k i w hw
  · obtain ⟨w, hw⟩ := hheld k x ((hcommitted k).symm.trans hx) hl
    exact ⟨w, hkept hw⟩

theorem Ledger.undo (hi : g i = stage) (hopen : stage ≠ .done) :
    Ledger (m.undo i) (Function.update g i (.ready [] none)) := by
  refine h.write rfl rfl (fun k => committed_drop) beside_drop
    (fun k v hv => absurd rfl (pending_drop.mp hv).2) ⟨h.not_committed hi hopen, nil_suffix, nofun⟩ fun j hj hm => ?_
  show m.making.erase i = [j]
  rw [hm]
  exact erase_of_not_mem (by simpa using hj.symm)

/-! Commits. -/

omit h in
theorem committed_publish {y : BackupCode ι} (hy : (m.codes.publish i).committed k = some y) :
    m.codes.pending k = some (i, y) ∨ (∀ v, m.codes.pending k ≠ some (i, v)) ∧ m.codes.committed k = some y := by
  by_cases hown : ∃ v, m.codes.pending k = some (i, v)
  · obtain ⟨v, hv⟩ := hown
    rw [committed_publish_own hv] at hy
    cases hy
    exact .inl hv
  · rw [not_exists] at hown
    rw [committed_publish_other hown] at hy
    exact .inr ⟨hown, hy⟩

theorem Ledger.used_publish {x : BackupCode ι} (hx : m.codes.committed k = some x) :
    ∃ y, (m.codes.publish i).committed k = some y ∧ y.isUsed = x.isUsed := by
  by_cases hown : ∃ v, m.codes.pending k = some (i, v)
  · obtain ⟨v, hv⟩ := hown
    have howned := h.owned k i v hv
    rw [hx] at howned
    exact ⟨v, committed_publish_own hv, howned.1⟩
  · rw [not_exists] at hown
    exact ⟨x, (committed_publish_other hown).trans hx, rfl⟩

omit h in
theorem owned_publish {v : BackupCode ι} (hv : (m.codes.publish i).pending k = some (i, v)) :
    Owned i stage v ((m.codes.publish i).committed k) :=
  absurd rfl (pending_publish.mp hv).2

/-- A new set is committed: the codes of the one before are deleted. -/
theorem Ledger.commitSet (hi : g i = .making) :
    Ledger { m with codes := m.codes.publish i, making := m.making.erase i, commits := some i :: m.commits }
      (Function.update g i .done) := by
  obtain ⟨hnew, hmaking, hheld⟩ := h.at hi
  -- no other call makes a set
  have hother : ∀ j, j ≠ i → m.making ≠ [j] := by
    intro j hj hm
    rw [hmaking] at hm
    cases hm
    exact hj rfl
  refine h.step ⟨nodup_cons.mpr ⟨hnew, h.books.nodup⟩, fun k y hy hl => ?_, fun e he => ?_, h.books.once, h.books.fresh⟩
    beside_publish (fun k v => owned_publish) trivial
    ⟨.inr rfl, fun k x hx => ?_, fun j hj hm => absurd hm (hother j hj),
      fun j hj k v hv => pending_publish.mpr ⟨hv, hj⟩, fun j hj hm => absurd hm (hother j hj)⟩
  · rcases committed_publish hy with hown | ⟨hnot, hold⟩
    · rw [(h.new hown hl).1]
      rfl
    · obtain ⟨v, hv⟩ := hheld k y hold hl
      exact absurd hv (hnot v)
  · obtain ⟨x, hx, hu⟩ := h.books.used e he
    obtain ⟨y, hy, hsame⟩ := h.used_publish hx
    exact ⟨y, hy, hsame.trans hu⟩
  · obtain ⟨y, hy, -⟩ := h.used_publish hx
    exact ⟨y, hy⟩

theorem Ledger.commitDelete (hi : g i = .clearing) :
    Ledger { m with codes := m.codes.publish i, row := none } (Function.update g i (.ready [] none)) := by
  have hlive : ∀ k y, (m.codes.publish i).committed k = some y → y.Live → m.codes.committed k = some y := by
    intro k y hy hl
    rcases committed_publish hy with hown | ⟨-, hold⟩
    · cases hi.symm.trans (h.new hown hl).2
    · exact hold
  refine h.step (h.books.onward rfl rfl hlive fun k x hx hu => ?_) beside_publish (fun k v => owned_publish)
    ⟨h.not_committed hi nofun, nil_suffix, nofun⟩
    ⟨.inl rfl, fun k x hx => ?_, fun _ _ hm => hm, fun j hj k v hv => pending_publish.mpr ⟨hv, hj⟩,
      fun j _ _ k y hy hl => ⟨y, hlive k y hy hl, hl⟩⟩
  · obtain ⟨y, hy, hsame⟩ := h.used_publish hx
    exact ⟨y, hy, hsame.trans hu⟩
  · obtain ⟨y, hy, -⟩ := h.used_publish hx
    exact ⟨y, hy⟩

end

/-! Programs that leave the codes alone. -/

variable [DecidableEq ι] {code : BackupCode ι}

theorem ledger_same {α : Type} {x : Prog (Mem ι) α} (h : x.Each Same) :
    wp Ledger inOrder i x (fun _ stage' => stage' = stage) stage :=
  wp_of_each (fun _ _ _ hledger hm => hledger.same hm) h

section
omit [DecidableEq ι]

theorem same_clock : (clock : Prog (Mem ι) Int).Each Same := each_atomically fun _ => ⟨rfl, rfl, rfl, rfl⟩

theorem same_compare (right : Mem ι → Bool) : (compareCode right).Each Same :=
  each_atomically fun _ => ⟨rfl, rfl, rfl, rfl⟩

variable (t : Row)

theorem same_update (locks : Bool) : (update t locks : Prog (Mem ι) Unit).Each Same :=
  each_act (fun _ => ⟨rfl, rfl, rfl, rfl⟩) fun _ => ⟨rfl, rfl, rfl, rfl⟩

theorem same_increment : (incrementFailedAttempts t : Prog (Mem ι) Row).Each Same := by
  rw [incrementFailedAttempts]
  split
  · exact each_bind (fun now => each_bind (fun _ => each_pure _) (same_update _ _)) same_clock
  · exact each_bind (fun _ => each_pure _) (same_update _ _)

theorem same_reset : (resetAfterSuccess t : Prog (Mem ι) Row).Each Same :=
  each_bind (fun _ => each_bind (fun _ => each_pure _) (same_update _ _))
    (each_atomically fun _ => ⟨rfl, rfl, rfl, rfl⟩)

theorem same_countResult (right : Bool) : (countResult t right : Prog (Mem ι) (Row × Option Bool)).Each Same := by
  cases right with
  | true => exact each_bind (fun _ => each_pure _) (same_reset t)
  | false => exact each_bind (fun _ => each_pure _) (same_increment t)

theorem same_countAnswer (answer : Option Bool) :
    (countAnswer t answer : Prog (Mem ι) (Row × Option Bool)).Each Same := by
  cases answer with
  | none => exact each_pure _
  | some right => exact same_countResult t right

theorem same_validateTOTP (env : Checks) (code : String) :
    (validateTOTPAndUpdateUsage env t code : Prog (Mem ι) (Row × Option Bool)).Each Same := by
  refine each_bind (fun now => ?_) same_clock
  split
  · exact each_pure _
  · exact each_bind (same_countResult t) (same_compare _)

end

/-! Sets. -/

theorem ledger_rollback (hstage : stage ≠ .done) : wp Ledger inOrder i (rollback i) (fun _ _ => True) stage :=
  wp_atomically fun _ _ hledger hi _ => ⟨_, hledger.undo hi hstage, trivial⟩

/-- The call holds every code that can be found. -/
theorem ledger_deleteOld :
    wp Ledger inOrder i (deleteOld i) (fun ok stage => stage = if ok then .making else .ready start found)
      (.ready start found) := by
  intro m g ok hledger hi hfree hguard
  cases ok with
  | false =>
    exact ⟨_, inv_update_self hledger hi, rfl⟩
  | true =>
    refine ⟨.making, ?_, rfl⟩
    have hidle := hledger.idle hi
    have hmaking : m.making = [] := by
      by_contra hne
      have hslips : (if m.making = [] then m.slips else m.slips + 1) = m.slips := beq_iff_eq.mp hguard
      rw [if_neg hne] at hslips
      exact Nat.succ_ne_self _ hslips
    refine hledger.take hi hfree (.inl rfl) rfl rfl rfl (fun j _ hj => ?_) ⟨?_, ?_, fun k x hx hl => ?_⟩
    · rw [hmaking] at hj
      cases hj
    · exact hledger.not_committed hi nofun
    · show i :: m.making = [i]
      rw [hmaking]
    replace hx : (m.codes.updateWhere i whereLive BackupCode.delete).committed k = some x := hx
    rw [committed_updateWhere] at hx
    refine ⟨x.delete, pending_updateWhere_hit ((visible_of_not_pending (hidle k)).trans hx) ?_⟩
    unfold whereLive
    rw [hl.2]
    rfl

theorem ledger_commitSet : wp Ledger inOrder i (commitSet i) (fun _ _ => True) .making := by
  intro m g ok hledger hi _ _
  cases ok with
  | true => exact ⟨.done, hledger.commitSet hi, trivial⟩
  | false => exact ⟨.ready [] none, hledger.undo hi nofun, trivial⟩

theorem ledger_insertCodes (env : Checks) :
    ∀ codes : List String, wp Ledger inOrder i (insertCodes env i codes) (fun _ _ => True) .making
  | [] => ledger_commitSet
  | code :: codes => by
    refine wp_bind (wp_statement (fun m g hledger hi _ => ⟨.making, ?_, ?_⟩) ?_)
    · exact hledger.insert hi rfl
    · exact ledger_insertCodes env codes
    · exact ledger_rollback nofun

theorem ledger_createBackupCodes (env : Checks) (codes : List String) :
    wp Ledger inOrder i (createBackupCodes env i codes) (fun _ _ => True) (.ready start found) := by
  refine wp_known ledger_deleteOld fun ok => ?_
  cases ok with
  | true => exact ledger_insertCodes env codes
  | false => exact ledger_rollback nofun

theorem ledger_deleteCodes :
    wp Ledger inOrder i (deleteCodes i) (fun ok stage => stage = if ok then .clearing else .ready start found)
      (.ready start found) := by
  intro m g ok hledger hi hfree _
  cases ok with
  | false =>
    exact ⟨_, inv_update_self hledger hi, rfl⟩
  | true =>
    refine ⟨.clearing, ?_, rfl⟩
    refine hledger.take hi hfree (.inr rfl) rfl rfl rfl (fun _ _ hj => hj) ?_
    exact hledger.not_committed hi nofun

theorem ledger_commitDelete : wp Ledger inOrder i (commitDelete i) (fun _ _ => True) .clearing := by
  intro m g ok hledger hi _ _
  cases ok with
  | true => exact ⟨.ready [] none, hledger.commitDelete hi, trivial⟩
  | false => exact ⟨.ready [] none, hledger.undo hi nofun, trivial⟩

theorem ledger_disableTwoFA : wp Ledger inOrder i (disableTwoFA i) (fun _ _ => True) (.ready start found) := by
  refine wp_bind (wp_get fun m g _ _ => ?_)
  split
  · refine wp_known ledger_deleteCodes fun ok => ?_
    cases ok with
    | true => exact ledger_commitDelete
    | false => exact ledger_rollback nofun
  · exact wp_pure trivial

theorem ledger_afterwards (env : Checks) (kind : Kind) :
    wp Ledger inOrder i (kind.afterwards env i) (fun _ _ => True) (.ready start found) := by
  cases kind with
  | login => exact wp_pure trivial
  | disable => exact ledger_disableTwoFA
  | regenerate codes => exact ledger_createBackupCodes env codes
  | stepUp => exact wp_pure trivial

/-! Attempts. -/

/-- An attempt that has begun, with these sets committed. -/
def Began (start : List (Option ι)) (stage : Stage ι) : Prop := ∃ found, stage = .ready start found

/-- In an attempt. -/
abbrev Attempts {α : Type} (i : ι) (start : List (Option ι)) (found : Option Nat) (x : Prog (Mem ι) α) : Prop :=
  wp Ledger inOrder i x (fun _ => Began start) (.ready start found)

omit [DecidableEq ι] in
/-- The newest set is not among those before it. -/
theorem newest_not_earlier {commits start : List (Option ι)} {maker : Option ι} (hnodup : commits.Nodup)
    (hhead : commits.head? = some maker) (hstart : start <:+ commits) : maker ∉ start.tail := by
  obtain ⟨later, rfl⟩ := hstart
  cases later with
  | nil =>
    obtain ⟨rest, rfl⟩ := List.head?_eq_some_iff.mp hhead
    exact (nodup_cons.mp hnodup).1
  | cons newest later =>
    cases hhead
    intro hmem
    exact (nodup_cons.mp hnodup).1 (mem_append_right _ (mem_of_mem_tail hmem))

omit [DecidableEq ι] in
theorem mem_unused {x : BackupCode ι} (h : (k, x) ∈ m.unused) : m.codes.committed k = some x ∧ x.Live := by
  obtain ⟨k', -, hk'⟩ := mem_filterMap.mp h
  obtain ⟨y, hy, hif⟩ := bind_eq_some_iff.mp hk'
  split_ifs at hif with hlive
  cases hif
  exact ⟨hy, hlive⟩

theorem ledger_upsertCode (hfresh : e.maker ∉ e.start.tail) :
    Attempts i e.start (some e.row) (upsertCode i code now e) := by
  intro m g ok hledger hi hfree hguard
  refine ⟨_, inv_update_self (I := Ledger) ?_ hi, ⟨_, rfl⟩⟩
  cases ok with
  | false => exact hledger
  | true =>
    obtain ⟨x, hx⟩ := (hledger.at hi).2.2 e.row rfl
    refine hledger.mark hi (fun k _ hk => of_decide_eq_true hk) hfree ?_ hfresh hguard
    exact (hledger.idle hi).mem_hits.mpr ⟨x, hx, decide_eq_true rfl⟩

theorem ledger_saveCode (hfresh : e.maker ∉ e.start.tail) :
    Attempts i e.start (some e.row) (saveCode i code now e) := by
  have hrow : ∀ k (x : BackupCode ι), whereLiveRow e.row k x = true → k = e.row := by
    intro k x hk
    exact of_decide_eq_true ((Bool.and_eq_true _ _).mp hk).1
  intro m g ok hledger hi hfree hguard
  refine ⟨_, inv_update_self (I := Ledger) ?_ hi, ?_⟩
  · by_cases hhit : ok = true ∧ m.codes.hits i (whereLiveRow e.row) ≠ []
    · dsimp only at hguard ⊢
      rw [if_pos hhit] at hguard ⊢
      obtain ⟨k, hk⟩ := exists_mem_of_ne_nil _ hhit.2
      obtain ⟨x, -, hx⟩ := mem_hits.mp hk
      obtain rfl := hrow k x hx
      exact hledger.mark hi hrow hfree hk hfresh hguard
    · dsimp only
      rw [if_neg hhit]
      exact hledger
  · dsimp only
    split
    · split
      · exact ledger_upsertCode hfresh
      · exact ⟨_, rfl⟩
    · exact ⟨_, rfl⟩

theorem ledger_compareSome (hfresh : code.maker ∉ start.tail) :
    wp Ledger inOrder i (compareCodes i start (some (k, code))) (fun _ stage => Began start stage)
      (.ready start (some k)) := by
  refine wp_known (ledger_same (same_compare _)) fun _ => ?_
  refine wp_known (ledger_same same_clock) fun now => ?_
  exact wp_seq (ledger_saveCode hfresh) fun _ _ hstage => hstage

section
variable (env : Checks)

-- no proof looks into the format of a code
attribute [local irreducible] backupCodeFormat validateNumericCode normalizeBackupCode

variable {start : List (Option ι)} {found : Option Nat}

section
variable (t : Row) (code : String)

/-- The code that is found is of the newest set. -/
theorem ledger_search : Attempts i start found (query Mem.unused >>= searchCodes env i start code) := by
  refine wp_bind fun m g ok hledger hi _ _ => ?_
  cases ok with
  | false =>
    exact ⟨_, inv_update_self hledger hi, ⟨_, rfl⟩⟩
  | true =>
    obtain ⟨-, hstart, -⟩ := hledger.at hi
    show ∃ stage, Ledger m (Function.update g i stage) ∧ wp Ledger inOrder i (compareCodes i start _) _ stage
    cases hfind : m.unused.find? fun c => env.verify (normalizeBackupCode code) c.2.codeHash with
    | none =>
      exact ⟨_, inv_update_self hledger hi, wp_seq (ledger_same (same_compare _)) fun _ _ hstage => ⟨found, hstage⟩⟩
    | some c =>
      obtain ⟨k, x⟩ := c
      obtain ⟨hx, hlive⟩ := mem_unused (mem_of_find?_eq_some hfind)
      refine ⟨.ready start (some k), hledger.ready hi hstart fun k' hk' => ?_, ledger_compareSome ?_⟩
      · cases hk'
        exact ⟨x, hx⟩
      · exact newest_not_earlier hledger.books.nodup (hledger.books.live k x hx hlive) hstart

theorem ledger_validateBackupCode : Attempts i start found (validateBackupCode env i start code) := by
  rw [validateBackupCode]
  split
  · exact ledger_search env code
  · exact wp_pure ⟨_, rfl⟩

theorem ledger_validateBackupCodeAndUpdateUsage :
    Attempts i start found (validateBackupCodeAndUpdateUsage env i start t code) := by
  refine wp_known (ledger_same same_clock) fun now => ?_
  split
  · exact wp_pure ⟨_, rfl⟩
  · refine wp_seq (ledger_validateBackupCode env code) fun answer stage hstage => ?_
    obtain ⟨found', rfl⟩ := hstage
    exact wp_mono (fun _ _ hstage => ⟨found', hstage⟩) (ledger_same (same_countAnswer t answer))

theorem ledger_validateTOTP : Attempts i start found (validateTOTPAndUpdateUsage env t code) :=
  wp_mono (fun _ _ hstage => ⟨found, hstage⟩) (ledger_same (same_validateTOTP t env code))

theorem ledger_verifyEither : Attempts i start found (verifyEither env i start t code) := by
  rw [verifyEither]
  cases validateNumericCode code with
  | none => exact wp_bind (ledger_validateBackupCodeAndUpdateUsage env t code)
  | some clean =>
    refine wp_seq (ledger_validateTOTP env t clean) fun r stage hstage => ?_
    obtain ⟨found', rfl⟩ := hstage
    split
    · exact wp_pure ⟨_, rfl⟩
    · exact wp_bind (ledger_validateBackupCodeAndUpdateUsage env r.1 code)

theorem ledger_verifyTOTP : Attempts i start found (verifyTOTP env t code) := by
  rw [verifyTOTP]
  cases validateNumericCode code with
  | none => exact wp_pure ⟨_, rfl⟩
  | some clean => exact wp_bind (ledger_validateTOTP env t clean)

theorem ledger_verify (kind : Kind) : Attempts i start found (kind.verify env i start t code) := by
  cases kind with
  | regenerate codes => exact ledger_verifyTOTP env t code
  | login | disable | stepUp => exact ledger_verifyEither env t code

theorem ledger_go (kind : Kind) (row : Option Row) :
    wp Ledger inOrder i (kind.go env i code start row) (fun _ _ => True) (.ready start found) := by
  cases row with
  | none => exact wp_pure trivial
  | some t =>
    rw [Kind.go]
    split
    · exact wp_pure trivial
    refine wp_seq (ledger_verify env t code kind) fun right stage hstage => ?_
    obtain ⟨found', rfl⟩ := hstage
    split
    · exact ledger_afterwards env kind
    · exact wp_pure trivial

end

theorem ledger_begin : wp Ledger inOrder i (begin i) (fun answer stage => Began answer.2 stage) (.ready [] none) := by
  intro m g ok hledger hi _ _
  have hsame : Ledger { m with running := i :: m.running } g := hledger.same ⟨rfl, rfl, rfl, rfl⟩
  exact ⟨.ready m.commits none, hsame.ready hi (suffix_refl _) nofun, ⟨_, rfl⟩⟩

theorem ledger_call (call : Call) : wp Ledger inOrder i (call.prog env i) (fun _ _ => True) (.ready [] none) := by
  cases call with
  | attempt kind code =>
    refine wp_seq ledger_begin fun answer stage hstage => ?_
    obtain ⟨found, rfl⟩ := hstage
    refine wp_seq (ledger_go env code kind answer.1) fun right stage _ => ?_
    exact wp_mono (fun _ _ _ => trivial) (ledger_same (each_atomically fun _ => ⟨rfl, rfl, rfl, rfl⟩))
  | createBackupCodes codes => exact ledger_createBackupCodes env codes
  | wait seconds =>
    exact wp_mono (fun _ _ _ => trivial) (ledger_same (each_atomically fun _ => ⟨rfl, rfl, rfl, rfl⟩))

omit [DecidableEq ι] in
theorem ledger_start (row : Option Row) (codes : List (BackupCode ι)) (now : Int) :
    Ledger (Mem.start row codes now) fun _ : ι => .ready [] none := by
  have hpending : ∀ k, (Mem.start row codes now).codes.pending k = none := fun k => pending_stored _
  refine ⟨⟨nodup_singleton _, fun k x hx _ => ?_, fun e he => ?_, nodup_nil, fun e he => ?_⟩, fun k j v hv => ?_,
    fun i => ⟨?_, nil_suffix, fun k hk => ?_⟩⟩
  · replace hx : (stored (codes.map fun code => { code with maker := none })).committed k = some x := hx
    rw [committed_stored, List.getElem?_map] at hx
    obtain ⟨code, -, rfl⟩ := map_eq_some_iff.mp hx
    rfl
  · cases he
  · cases he
  · rw [hpending] at hv
    cases hv
  · show some i ∉ [none]
    simp
  · cases hk

/-- **Backup codes are used once, and only those of the newest set.** As long as a code that is marked
is not used already and one set is made after the other, in every state that is reached no code was
accepted twice, and none of an earlier set by an attempt that began after a newer set was committed. -/
theorem codes_used_once (row : Option Row) (codes : List (BackupCode ι)) (now : Int) (calls : ι → Call)
    (s : Sys ι (Mem ι) Bool) (hs : Reach inOrder ⟨Mem.start row codes now, fun i => (calls i).prog env i⟩ s) :
    (s.mem.accepted.map Acceptance.row).Nodup ∧ ∀ e ∈ s.mem.accepted, e.maker ∉ e.start.tail := by
  obtain ⟨g, hgood⟩ := reach_sound (ledger_start row codes now) (fun i => ledger_call env (calls i)) hs
  exact ⟨hgood.inv.books.once, hgood.inv.books.fresh⟩

end

end

/-! Three calls. -/

section

def plain : Checks := ⟨fun _ _ _ => false, (· == ·), id⟩

def withCodes (codes : List (BackupCode Nat)) (calls : Nat → Call) : Sys Nat (Mem Nat) Bool :=
  ⟨Mem.start (some { secret := "JBSWY3DP", isEnabled := true }) codes 1000, fun i => (calls i).prog plain i⟩

def loginWith (code : String) : Call := .attempt .login code

/-- A login with a code, a new set, and a login with a code of it. -/
def renewed : Nat → Call
  | 0 => loginWith "AAAAAAAA"
  | 1 => .createBackupCodes ["BBBBBBBB"]
  | _ => loginWith "BBBBBBBB"

/-- An attempt makes nine steps, a set of one code three. -/
def oneAfterAnother : List (Nat × Bool) :=
  List.replicate 9 (0, true) ++ List.replicate 3 (1, true) ++ List.replicate 9 (2, true)

def afterRenewal : Mem Nat :=
  (after inOrder (withCodes [{ codeHash := "AAAA-AAAA" }] renewed) oneAfterAnother).mem

/-- One after another, both logins are accepted, each with its code. -/
theorem renewed_in_order :
    afterRenewal.accepted.map Acceptance.row = [1, 0] ∧
      (afterRenewal.accepted.map Acceptance.row).Nodup ∧ ∀ e ∈ afterRenewal.accepted, e.maker ∉ e.start.tail := by
  have hrun : (run inOrder (withCodes [{ codeHash := "AAAA-AAAA" }] renewed) oneAfterAnother).isSome = true := by
    decide +kernel
  exact ⟨by decide +kernel, codes_used_once plain _ _ _ _ _ (reach_run .start (run_after hrun))⟩

/-- Two sets at once, and a login with a code of the first. -/
def twoSets : Nat → Call
  | 0 => .createBackupCodes ["AAAAAAAA"]
  | 1 => .createBackupCodes ["BBBBBBBB"]
  | _ => loginWith "AAAAAAAA"

/-- Each attempt finds the code before the other marks it. -/
def bothFind : List (Nat × Bool) :=
  List.replicate 3 (0, true) ++ List.replicate 3 (1, true) ++ List.replicate 3 (0, true) ++ List.replicate 3 (1, true)

/-- Each set is made before the other is committed. -/
def bothMake : List (Nat × Bool) :=
  [(0, true), (0, true), (1, true), (1, true), (0, true), (1, true)] ++ List.replicate 6 (2, true)

/-- Two attempts that have both found a code: it is accepted twice. Two sets that are made at once,
when there is no code to delete: a code of the earlier one is accepted after the newer one. -/
theorem codes_race :
    (∃ s, Reach anyStep (withCodes [{ codeHash := "AAAA-AAAA" }] fun _ => loginWith "AAAAAAAA") s ∧
        s.mem.accepted.map Acceptance.row = [0, 0]) ∧
      ∃ s, Reach anyStep (withCodes [] twoSets) s ∧ ∃ e ∈ s.mem.accepted, e.maker ∈ e.start.tail := by
  refine ⟨?_, ?_⟩
  · exact exists_of_run bothFind (by decide +kernel)
  · exact exists_of_run bothMake (by decide +kernel)

end

end AmuxApi.TwoFA
