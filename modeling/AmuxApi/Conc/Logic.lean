import Mathlib.Algebra.BigOperators.Group.Finset.Basic
import AmuxApi.Conc.System

/- Programs verified one by one against an invariant of the whole. Each program has a ghost: a
   value that says what the proof knows of it. The invariant `I s g` relates the state to the
   ghosts of all programs, and is all that a program may use of the state.

   `wp I guard i x Q γ`: from any state within the invariant, with ghost `γ`, each step of `x`
   that meets the guard leads back into the invariant, with another ghost of its own and the
   same ghosts of the others; and when `x` returns, `Q` holds of its answer and its ghost.

   `reach_sound`: if every program has its `wp`, the invariant holds in every state reached,
   and a program that has returned satisfies its `Q`. -/
namespace AmuxApi.Conc
open Function

variable {ι S G α β : Type} [DecidableEq ι]

def wp (I : S → (ι → G) → Prop) (guard : Guard ι S) (i : ι) : Prog S α → (α → G → Prop) → G → Prop
  | .ret a, Q, γ => Q a γ
  | .act ready f next, Q, γ => ∀ s g ok, I s g → g i = γ → ready s = true → guard i s (f ok s) = true →
      ∃ γ', I (f ok s) (update g i γ') ∧ wp I guard i (next ok s) Q γ'

variable {g : ι → G}

section
variable {I : S → (ι → G) → Prop} {guard : Guard ι S} {i : ι}

variable {Q : α → G → Prop} {k : α → Prog S β} {γ : G} {f : S → S} {answer : S → α}

theorem wp_mono {Q' : α → G → Prop} (hQ : ∀ a γ, Q a γ → Q' a γ) :
    ∀ {x : Prog S α} {γ : G}, wp I guard i x Q γ → wp I guard i x Q' γ
  | .ret a, γ, h => hQ a γ h
  | .act ready f next, γ, h => by
    intro s g ok hI hγ hready hguard
    obtain ⟨γ', hI', hnext⟩ := h s g ok hI hγ hready hguard
    exact ⟨γ', hI', wp_mono hQ hnext⟩

theorem wp_bind {Q : β → G → Prop} :
    ∀ {x : Prog S α} {γ : G}, wp I guard i x (fun a γ' => wp I guard i (k a) Q γ') γ → wp I guard i (x >>= k) Q γ
  | .ret a, γ, h => h
  | .act ready f next, γ, h => by
    intro s g ok hI hγ hready hguard
    obtain ⟨γ', hI', hnext⟩ := h s g ok hI hγ hready hguard
    exact ⟨γ', hI', wp_bind hnext⟩

theorem wp_seq {x : Prog S α} {P : α → G → Prop} {Q : β → G → Prop} (hx : wp I guard i x P γ)
    (hk : ∀ a γ', P a γ' → wp I guard i (k a) Q γ') : wp I guard i (x >>= k) Q γ :=
  wp_bind (wp_mono hk hx)

theorem wp_known {x : Prog S α} {Q : β → G → Prop} {f : α → G} (hx : wp I guard i x (fun a γ' => γ' = f a) γ)
    (hk : ∀ a, wp I guard i (k a) Q (f a)) : wp I guard i (x >>= k) Q γ :=
  wp_seq hx fun a _ hγ => hγ ▸ hk a

theorem wp_pure {a : α} (h : Q a γ) : wp I guard i (pure a) Q γ := h

theorem wp_atomically
    (h : ∀ s g, I s g → g i = γ → guard i s (f s) = true →
      ∃ γ', I (f s) (update g i γ') ∧ Q (answer s) γ') :
    wp I guard i (atomically f answer) Q γ := by
  intro s g ok hI hγ _ hguard
  exact h s g hI hγ hguard

/-- A program that keeps its ghost. -/
theorem inv_update_self {s : S} (hI : I s g) (hγ : g i = γ) : I s (update g i γ) := by
  rw [← hγ, update_eq_self]
  exact hI

theorem wp_get (h : ∀ s g, I s g → g i = γ → Q (answer s) γ) : wp I guard i (get answer) Q γ :=
  wp_atomically fun s g hI hγ _ => ⟨γ, inv_update_self hI hγ, h s g hI hγ⟩

/-- What is read may be noted in the ghost. -/
theorem wp_query_note {Q : Option α → G → Prop}
    (hsome : ∀ s g, I s g → g i = γ → ∃ γ', I s (update g i γ') ∧ Q (some (answer s)) γ') (hnone : Q none γ) :
    wp I guard i (query answer) Q γ := by
  intro s g ok hI hγ _ _
  cases ok with
  | true => exact hsome s g hI hγ
  | false => exact ⟨γ, inv_update_self hI hγ, hnone⟩

theorem wp_query {Q : Option α → G → Prop} (hsome : ∀ s g, I s g → g i = γ → Q (some (answer s)) γ) (hnone : Q none γ) :
    wp I guard i (query answer) Q γ :=
  wp_query_note (fun s g hI hγ => ⟨γ, inv_update_self hI hγ, hsome s g hI hγ⟩) hnone

theorem wp_statement {Q : Bool → G → Prop}
    (hdone : ∀ s g, I s g → g i = γ → guard i s (f s) = true → ∃ γ', I (f s) (update g i γ') ∧ Q true γ')
    (hfailed : Q false γ) : wp I guard i (statement f) Q γ := by
  intro s g ok hI hγ _ hguard
  cases ok with
  | true => exact hdone s g hI hγ hguard
  | false => exact ⟨γ, inv_update_self hI hγ, hfailed⟩

/-- A statement that keeps the invariant, whatever the ghosts. -/
theorem wp_statement_keep (h : ∀ s g, I s g → guard i s (f s) = true → I (f s) g) :
    wp I guard i (statement f) (fun _ γ' => γ' = γ) γ :=
  wp_statement (fun s g hI hγ hguard => ⟨γ, inv_update_self (h s g hI hguard) hγ, rfl⟩) rfl

/-- A statement that does something where its condition holds, and answers whether it has. -/
theorem wp_when {c : S → Bool} {Q : Bool → G → Prop}
    (hdone : ∀ s g, I s g → g i = γ → c s = true → guard i s (f s) = true →
      ∃ γ', I (f s) (update g i γ') ∧ Q true γ') (hskipped : Q false γ) :
    wp I guard i (.act (fun _ => true) (fun ok s => if ok = true ∧ c s = true then f s else s)
      fun ok s => .ret (ok && c s)) Q γ := by
  intro s g ok hI hγ _ hguard
  show ∃ γ', I (if ok = true ∧ c s = true then f s else s) _ ∧ Q (ok && c s) γ'
  by_cases hc : ok = true ∧ c s = true
  · dsimp only at hguard
    rw [if_pos hc] at hguard
    rw [if_pos hc, (Bool.and_eq_true _ _).mpr hc]
    exact hdone s g hI hγ hc.2 hguard
  · rw [if_neg hc, eq_false_of_ne_true fun h => hc ((Bool.and_eq_true _ _).mp h)]
    exact ⟨γ, inv_update_self hI hγ, hskipped⟩

/-- A program whose steps keep the invariant, whatever the ghosts. -/
theorem wp_of_each {R : S → S → Prop} (hR : ∀ s s' g, I s g → R s s' → I s' g) :
    ∀ {x : Prog S α}, x.Each R → wp I guard i x (fun _ γ' => γ' = γ) γ
  | .ret _, _ => rfl
  | .act _ _ _, h => by
    intro s g ok hI hγ _ _
    exact ⟨γ, inv_update_self (hR _ _ _ hI (h ok s).1) hγ, wp_of_each hR (h ok s).2⟩

end

/-! Runs. -/

/-- What holds of a state that is reached, with the ghosts of its programs. -/
structure Good (I : S → (ι → G) → Prop) (guard : Guard ι S) (Q : ι → α → G → Prop) (s : Sys ι S α) (g : ι → G) :
    Prop where
  inv : I s.mem g
  calls : ∀ i, wp I guard i (s.prog i) (Q i) (g i)

section
variable {I : S → (ι → G) → Prop} {guard : Guard ι S} {Q : ι → α → G → Prop} {s s' s0 : Sys ι S α}

theorem Good.step (h : Good I guard Q s g) {i : ι} {ok : Bool} (hstep : Conc.step s i ok = some s')
    (hguard : guard i s.mem s'.mem = true) : ∃ g', Good I guard Q s' g' := by
  obtain ⟨ready, f, next, hprog, hready, hmem, hprog'⟩ := step_some hstep
  have hcall := h.calls i
  rw [hprog] at hcall
  rw [hmem] at hguard
  obtain ⟨γ', hI', hnext⟩ := hcall s.mem g ok h.inv rfl hready hguard
  refine ⟨update g i γ', hmem ▸ hI', fun j => ?_⟩
  rw [hprog']
  by_cases hj : j = i
  · subst hj
    rw [update_self, update_self]
    exact hnext
  · rw [update_of_ne hj, update_of_ne hj]
    exact h.calls j

theorem Good.reach {g0 : ι → G} (h0 : Good I guard Q s0 g0) (hs : Reach guard s0 s) : ∃ g, Good I guard Q s g := by
  induction hs with
  | start => exact ⟨g0, h0⟩
  | step i ok _ hstep hguard ih =>
    obtain ⟨g, hg⟩ := ih
    exact hg.step hstep hguard

theorem reach_sound {prog : ι → Prog S α} {mem : S} {g0 : ι → G} (hI : I mem g0)
    (hcalls : ∀ i, wp I guard i (prog i) (Q i) (g0 i)) (hs : Reach guard ⟨mem, prog⟩ s) : ∃ g, Good I guard Q s g :=
  Good.reach ⟨hI, hcalls⟩ hs

theorem Good.returned (h : Good I guard Q s g) {i : ι} {a : α} (ha : s.prog i = .ret a) : Q i a (g i) := by
  have hcall := h.calls i
  rw [ha] at hcall
  exact hcall

end

/-- A sum over all programs, when one of them has another ghost. -/
theorem sum_update {M : Type} [AddCommMonoid M] [Fintype ι] (m : G → M) (g : ι → G) (i : ι) (γ : G) :
    ∑ j, m (update g i γ j) + m (g i) = ∑ j, m (g j) + m γ := by
  rw [← Finset.add_sum_erase _ _ (Finset.mem_univ i), ← Finset.add_sum_erase _ (fun j => m (g j)) (Finset.mem_univ i),
    update_self]
  have hrest : ∑ j ∈ Finset.univ.erase i, m (update g i γ j) = ∑ j ∈ Finset.univ.erase i, m (g j) := by
    refine Finset.sum_congr rfl fun j hj => ?_
    rw [update_of_ne (Finset.ne_of_mem_erase hj)]
  rw [hrest]
  ac_rfl

end AmuxApi.Conc
