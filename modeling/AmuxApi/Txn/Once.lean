import AmuxApi.Txn.Logic
import Mathlib.Algebra.BigOperators.Ring.Finset

/- What a run has done to one quantity, read off its commits.

   `E` is what a database says of some effect (a ledger, a counter), `X` a flag that no
   commit takes back. Where a call may change `E` only after it has raised `X` itself, and
   only if it has not changed `E` before, `E` changes at most once in a run, whoever else
   runs (`Kept.claimed_once`): the flag is raised once, so the claim has one owner.

   A number is what it was plus what the commits of each call have added to it
   (`Chain.sum_calls`), and where one call alone may change it, what that call's commits have
   added (`Kept.sole`). -/
namespace AmuxApi.Txn
open List

variable {ι κ : Type} {V : κ → Type} {L β : Type}

/-- The commit that raises the flag. -/
def raises (X : DB V → Bool) (c : Change V) : Bool := !X c.1 && X c.2

def Raised (X : DB V → Bool) (own : List (Change V)) : Prop := ∃ c ∈ own, raises X c = true

def Untouched (E : DB V → β) (own : List (Change V)) : Prop := ∀ c ∈ own, E c.2 = E c.1

/-- What one commit does to the flag and to the effect. -/
structure Claimed (X : DB V → Bool) (E : DB V → β) (own : List (Change V)) (d d' : DB V) : Prop where
  stays : X d = true → X d' = true
  owner : E d' ≠ E d → Raised X own ∧ Untouched E own

section
variable {X : DB V → Bool} {E : DB V → β} {own : List (Change V)} {c : Change V}

theorem Raised.cons (h : Raised X own) (c : Change V) : Raised X (c :: own) := by
  obtain ⟨c', hc', hr⟩ := h
  exact ⟨c', mem_cons_of_mem _ hc', hr⟩

theorem Untouched.cons (h : Untouched E own) (hc : E c.2 = E c.1) : Untouched E (c :: own) :=
  forall_mem_cons.mpr ⟨hc, h⟩

theorem Untouched.of_cons (h : Untouched E (c :: own)) : Untouched E own :=
  fun c' hc' => h c' (mem_cons_of_mem _ hc')

/-- A flag that is up was up at the start, or a commit has raised it. -/
theorem Chain.raised {d0 : DB V} : ∀ {hist : List (Commit ι V)} {d : DB V}, Chain d0 hist d → X d = true →
    X d0 = true ∨ ∃ c ∈ hist, raises X (c.before, c.after) = true
  | [], _, hchain, hX => by
    cases hchain
    exact .inl hX
  | c :: hist, _, ⟨heq, hchain⟩, hX => by
    cases heq
    cases hb : X c.before with
    | false => exact .inr ⟨c, mem_cons_self, by simp [raises, hb, hX]⟩
    | true =>
      refine (Chain.raised hchain hb).imp_right fun ⟨c', hc', hr⟩ => ?_
      exact ⟨c', mem_cons_of_mem _ hc', hr⟩

end

section
variable [DecidableEq ι] {P : Proto ι V L} {X : DB V → Bool} {E : DB V → β} {d0 d : DB V} {hist : List (Commit ι V)}

section
variable (stays : ∀ i own b a, P.guar i own b a → X b = true → X a = true)
include stays

/-- A flag that no commit takes back is raised by one commit. -/
theorem Kept.raised_once (hchain : Chain d0 hist d)
    (hkept : Kept P hist) {c c' : Commit ι V} (hc : c ∈ hist) (hc' : c' ∈ hist)
    (h : raises X (c.before, c.after) = true) (h' : raises X (c'.before, c'.after) = true) : c = c' := by
  have hone := Kept.once (p := fun c => raises X (c.before, c.after))
    (fun c hc => by simpa [raises] using hc) stays hchain hkept
  have hin : c ∈ hist.filter fun c => raises X (c.before, c.after) := mem_filter.mpr ⟨hc, h⟩
  have hin' : c' ∈ hist.filter fun c => raises X (c.before, c.after) := mem_filter.mpr ⟨hc', h'⟩
  match hl : hist.filter (fun c => raises X (c.before, c.after)) with
  | [] => rw [hl] at hin; cases hin
  | [x] =>
    rw [hl, mem_singleton] at hin hin'
    rw [hin, hin']
  | x :: y :: rest =>
    rw [hl] at hone
    simp at hone

/-- Two calls that have raised the flag are one. -/
theorem Raised.unique (hchain : Chain d0 hist d)
    (hkept : Kept P hist) {i j : ι} (hi : Raised X (ownChanges i hist))
      (hj : Raised X (ownChanges j hist)) : i = j := by
  obtain ⟨⟨b, a⟩, hmem, hr⟩ := hi
  obtain ⟨⟨b', a'⟩, hmem', hr'⟩ := hj
  obtain ⟨c, hc, rfl, rfl, rfl⟩ := mem_ownChanges.mp hmem
  obtain ⟨c', hc', rfl, rfl, rfl⟩ := mem_ownChanges.mp hmem'
  rw [hkept.raised_once stays hchain hc hc' hr hr']

end

/-- What stays as it is once the flag is up is now as the commit that raised it has left it. -/
theorem Kept.frozen {F : DB V → β} (stays : ∀ i own b a, P.guar i own b a → X b = true → X a = true ∧ F a = F b) :
    ∀ {hist : List (Commit ι V)} {d : DB V}, Chain d0 hist d → Kept P hist → ∀ {c : Commit ι V}, c ∈ hist →
      X c.after = true → X d = true ∧ F d = F c.after
  | ⟨i, b, a⟩ :: hist, _, ⟨heq, hchain⟩, ⟨hg, hkept⟩, c, hc, hX => by
    cases heq
    rcases mem_cons.mp hc with rfl | hc
    · exact ⟨hX, rfl⟩
    · obtain ⟨hb, hF⟩ := Kept.frozen stays hchain hkept hc hX
      obtain ⟨ha, hF'⟩ := stays _ _ _ _ hg hb
      exact ⟨ha, hF'.trans hF⟩

/-- No commit has made the effect, or one commit has made all of it, and its call is the one
that has raised the flag. -/
theorem Kept.claimed_once (claimed : ∀ i own b a, P.guar i own b a → Claimed X E own b a) :
    ∀ {hist : List (Commit ι V)} {d : DB V}, Chain d0 hist d → Kept P hist →
      (E d = E d0 ∧ ∀ c ∈ hist, E c.after = E c.before) ∨
      ∃ c ∈ hist, E c.before = E d0 ∧ E c.after = E d ∧ E c.after ≠ E c.before ∧ Raised X (ownChanges c.call hist)
  | [], _, hchain, _ => by
    cases hchain
    exact .inl ⟨rfl, nofun⟩
  | ⟨i, b, a⟩ :: hist, _, ⟨heq, hchain⟩, ⟨hg, hkept⟩ => by
    cases heq
    have ih := Kept.claimed_once claimed hchain hkept
    by_cases hE : E a = E b
    · rw [hE]
      refine ih.imp (fun ⟨hsame, hnone⟩ => ⟨hsame, forall_mem_cons.mpr ⟨hE, hnone⟩⟩) ?_
      rintro ⟨c, hc, hbefore, hafter, hmoved, hraised⟩
      refine ⟨c, mem_cons_of_mem _ hc, hbefore, hafter, hmoved, ?_⟩
      by_cases hcall : c.call = i
      · rw [hcall] at hraised ⊢
        rw [ownChanges_self]
        exact hraised.cons _
      · rw [ownChanges_other hcall]
        exact hraised
    · obtain ⟨hraised, huntouched⟩ := (claimed _ _ _ _ hg).owner hE
      rcases ih with ⟨hsame, -⟩ | ⟨c, hc, -, -, hmoved, hraised'⟩
      · refine .inr ⟨⟨i, b, a⟩, mem_cons_self, hsame, rfl, hE, ?_⟩
        show Raised X (ownChanges i _)
        rw [ownChanges_self]
        exact hraised.cons _
      · -- the call before it has raised the flag too, so it is the same one
        obtain rfl := Raised.unique (fun i own b a h => (claimed i own b a h).stays) hchain hkept hraised hraised'
        exact absurd (huntouched _ (mem_ownChanges.mpr ⟨c, hc, rfl, rfl, rfl⟩)) hmoved

end

section
variable {M : DB V → Int} {d0 : DB V}

def added (M : DB V → Int) (changes : List (Change V)) : Int := (changes.map fun c => M c.2 - M c.1).sum

@[simp] theorem added_nil (M : DB V → Int) : added M [] = 0 := rfl

@[simp] theorem added_cons (M : DB V → Int) (c : Change V) (changes : List (Change V)) :
    added M (c :: changes) = M c.2 - M c.1 + added M changes := by
  simp [added]

theorem Chain.sum_calls [Fintype ι] [DecidableEq ι] : ∀ {hist : List (Commit ι V)} {d : DB V}, Chain d0 hist d →
    M d = M d0 + ∑ i, added M (ownChanges i hist)
  | [], _, hchain => by
    cases hchain
    simp [ownChanges]
  | ⟨j, b, a⟩ :: hist, _, ⟨heq, hchain⟩ => by
    cases heq
    have ih : M b = M d0 + ∑ i, added M (ownChanges i hist) := Chain.sum_calls hchain
    -- the commit counts for its own call
    have hstep : ∀ i, added M (ownChanges i (⟨j, b, a⟩ :: hist)) =
        (if i = j then M a - M b else 0) + added M (ownChanges i hist) := by
      intro i
      by_cases hi : i = j
      · subst hi
        rw [ownChanges_self, added_cons, if_pos rfl]
      · rw [ownChanges_other hi, if_neg hi, Int.zero_add]
    calc M a = M b + (M a - M b) := by omega
      _ = M d0 + ((M a - M b) + ∑ i, added M (ownChanges i hist)) := by rw [ih]; omega
      _ = M d0 + ∑ i, added M (ownChanges i (⟨j, b, a⟩ :: hist)) := by
        simp only [hstep, Finset.sum_add_distrib, Finset.sum_ite_eq', Finset.mem_univ, if_true]

/-- Only call `j` changes the number. -/
theorem Kept.sole [DecidableEq ι] {P : Proto ι V L} {j : ι}
    (others : ∀ i own b a, P.guar i own b a → i ≠ j → M a = M b) :
    ∀ {hist : List (Commit ι V)} {d : DB V}, Chain d0 hist d → Kept P hist →
      M d = M d0 + added M (ownChanges j hist)
  | [], _, hchain, _ => by
    cases hchain
    simp [ownChanges]
  | ⟨i, b, a⟩ :: hist, _, ⟨heq, hchain⟩, ⟨hg, hkept⟩ => by
    cases heq
    have ih : M b = M d0 + added M (ownChanges j hist) := Kept.sole others hchain hkept
    by_cases hi : i = j
    · subst hi
      rw [ownChanges_self]
      show M a = M d0 + (M a - M b + added M (ownChanges i hist))
      omega
    · rw [ownChanges_other (Ne.symm hi), others _ _ _ _ hg hi]
      exact ih

end

end AmuxApi.Txn
