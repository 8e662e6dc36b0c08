import Mathlib.Logic.Function.Basic

/- Sequential code between operations that may fail. A service function holds no
   transaction of its own: it calls one operation after the other and goes on with what
   each has answered. `Code` is such a function over a world `W`. The environment decides
   how an operation of kind `k : K` goes by the next answer of that kind; an
   environment with nothing left to say gives the default answer.

   `Ends legal x Q w`: from world `w`, whatever the environment answers as long as every
   answer is `legal`, `x` ends with `Q`. Code without loops always ends, so this is
   total. -/
namespace AmuxApi.Txn

variable {W K A α β : Type}

/-- The world, and what the environment is still going to answer. -/
structure Scene (W K A : Type) where
  world : W
  answers : K → List A

abbrev Code (W K A : Type) := StateM (Scene W K A)

namespace Code
variable [DecidableEq K] [Inhabited A]

/-- The environment's next answer to an operation of kind `k`. -/
def ask (k : K) : Code W K A A := fun s =>
  ((s.answers k).headD default, { s with answers := Function.update s.answers k (s.answers k).tail })

def world : Code W K A W := fun s => (s.world, s)

def change (f : W → W) : Code W K A Unit := fun s => ((), { s with world := f s.world })

end Code

/-- Every answer still to come is legal. -/
def Scene.Legal (legal : K → A → Prop) (s : Scene W K A) : Prop := ∀ k, ∀ a ∈ s.answers k, legal k a

def Ends (legal : K → A → Prop) (x : Code W K A α) (Q : α → W → Prop) (w : W) : Prop :=
  ∀ s : Scene W K A, s.world = w → s.Legal legal → Q (x s).1 (x s).2.world ∧ (x s).2.Legal legal

section
variable {legal : K → A → Prop} {w : W}

theorem ends_pure {a : α} {Q : α → W → Prop} (h : Q a w) : Ends legal (pure a) Q w := by
  intro s hw hs
  subst hw
  exact ⟨h, hs⟩

variable {x : Code W K A α} {Q : β → W → Prop}

theorem ends_bind {f : α → Code W K A β} (h : Ends legal x (fun a w' => Ends legal (f a) Q w') w) :
    Ends legal (x >>= f) Q w := by
  intro s hw hs
  obtain ⟨hx, hs'⟩ := h s hw hs
  exact hx (x s).2 rfl hs'

theorem Ends.mono {Q R : α → W → Prop} (h : Ends legal x Q w) (hQ : ∀ a w', Q a w' → R a w') : Ends legal x R w :=
  fun s hw hs => ⟨hQ _ _ (h s hw hs).1, (h s hw hs).2⟩

theorem Ends.and {Q R : α → W → Prop} (h : Ends legal x Q w) (h' : Ends legal x R w) :
    Ends legal x (fun a w' => Q a w' ∧ R a w') w :=
  fun s hw hs => ⟨⟨(h s hw hs).1, (h' s hw hs).1⟩, (h s hw hs).2⟩

/-- Call a function by its specification. -/
theorem Ends.call {f : α → Code W K A β} {Q : α → W → Prop} {R : β → W → Prop} (h : Ends legal x Q w)
    (hf : ∀ a w', Q a w' → Ends legal (f a) R w') : Ends legal (x >>= f) R w :=
  ends_bind (h.mono hf)

/-- The answer of a fallible operation: a failure has changed nothing, and `R` is what success
comes to. -/
def Tried {ε : Type} (w : W) (R : α → W → Prop) : Except ε α → W → Prop
  | .error _, w' => w' = w
  | .ok a, w' => R a w'

/-- Call a fallible operation by its specification. -/
theorem Ends.tried {ε : Type} {x : Code W K A (Except ε α)} {f : Except ε α → Code W K A β} {R : α → W → Prop}
    (h : Ends legal x (Tried w R) w) (hfail : ∀ e, Ends legal (f (.error e)) Q w)
    (hok : ∀ a w', R a w' → Ends legal (f (.ok a)) Q w') : Ends legal (x >>= f) Q w := by
  apply h.call
  intro res w' hres
  cases res with
  | error e =>
    rw [show w' = w from hres]
    exact hfail e
  | ok a => exact hok a w' hres

theorem ends_world {f : W → Code W K A β} (h : Ends legal (f w) Q w) : Ends legal (Code.world >>= f) Q w := by
  apply ends_bind
  intro s hw hs
  subst hw
  exact ⟨h, hs⟩

theorem ends_change {g : W → W} {f : Unit → Code W K A β} (h : Ends legal (f ()) Q (g w)) :
    Ends legal (Code.change g >>= f) Q w := by
  apply ends_bind
  intro s hw hs
  subst hw
  exact ⟨h, hs⟩

theorem ends_ask [DecidableEq K] [Inhabited A] {k : K} {f : A → Code W K A β} (hdefault : legal k default)
    (h : ∀ a, legal k a → Ends legal (f a) Q w) : Ends legal (Code.ask k >>= f) Q w := by
  apply ends_bind
  intro s hw hs
  subst hw
  refine ⟨h _ ?_, fun k' a ha => ?_⟩
  · cases hk : s.answers k with
    | nil => simpa [Code.ask, hk] using hdefault
    | cons a rest => simpa [Code.ask, hk] using hs k a (by simp [hk])
  · -- the answers left are among those there were
    by_cases hk : k' = k
    · subst hk
      simp only [Code.ask, Function.update_self] at ha
      exact hs k' a (List.mem_of_mem_tail ha)
    · simp only [Code.ask, Function.update_of_ne hk] at ha
      exact hs k' a ha

/-- What `Ends` says of one run. -/
theorem Ends.run {Q : α → W → Prop} (h : Ends legal x Q w) (answers : K → List A)
    (hs : ∀ k, ∀ a ∈ answers k, legal k a) : Q (x ⟨w, answers⟩).1 (x ⟨w, answers⟩).2.world :=
  (h ⟨w, answers⟩ rfl hs).1

end

end AmuxApi.Txn
