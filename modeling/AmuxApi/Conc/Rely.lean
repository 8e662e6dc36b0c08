import AmuxApi.Conc.System

/- Programs verified one by one against what the others may do meanwhile.

   A preorder `R` on the states says what a step may do, whoever makes it. `safe R guard i x Q s`:
   when the program `x` is begun in the state `s`, or in any later one, each of its steps that
   meets the guard is within `R`, and when it returns, `Q` holds of its answer and of the state,
   then and later. A program may so rely on all that is kept along `R`, and has to keep it.

   `safe_reach`: if every program is safe, every state that is reached is later than the first,
   and what is left of every program is safe there. -/
namespace AmuxApi.Conc

variable {ι S α β : Type}

def safe (R : S → S → Prop) (guard : Guard ι S) (i : ι) : Prog S α → (α → S → Prop) → S → Prop
  | .ret a, Q, s => ∀ s', R s s' → Q a s'
  | .act ready f next, Q, s => ∀ s' ok, R s s' → ready s' = true → guard i s' (f ok s') = true →
      R s' (f ok s') ∧ safe R guard i (next ok s') Q (f ok s')

section
variable {R : S → S → Prop} {guard : Guard ι S} {i : ι} {s : S}

variable {Q : α → S → Prop}

theorem safe_pure {a : α} (h : ∀ s', R s s' → Q a s') : safe R guard i (pure a) Q s := h

variable {answer : S → α}

theorem safe_atomically {f : S → S}
    (h : ∀ s', R s s' → guard i s' (f s') = true → R s' (f s') ∧ ∀ s'', R (f s') s'' → Q (answer s') s'') :
    safe R guard i (atomically f answer) Q s := by
  intro s' ok hs _ hguard
  exact h s' hs hguard

variable [IsPreorder S R] {x : Prog S α}

theorem safe_later {s' : S} (h : safe R guard i x Q s) (hs : R s s') : safe R guard i x Q s' := by
  cases x with
  | ret a => exact fun s'' hs' => h s'' (trans_of R hs hs')
  | act ready f next => exact fun s'' ok hs' => h s'' ok (trans_of R hs hs')

/-- What a program ends in is later than where it began. -/
theorem safe_mono {Q Q' : α → S → Prop} {s0 : S} (hQ : ∀ a s', R s0 s' → Q a s' → Q' a s') :
    ∀ {x : Prog S α} {s : S}, R s0 s → safe R guard i x Q s → safe R guard i x Q' s
  | .ret a, s, hs, h => fun s' hs' => hQ a s' (trans_of R hs hs') (h s' hs')
  | .act ready f next, s, hs, h => by
    intro s' ok hs' hready hguard
    obtain ⟨hstep, hnext⟩ := h s' ok hs' hready hguard
    exact ⟨hstep, safe_mono hQ (trans_of R (trans_of R hs hs') hstep) hnext⟩

theorem safe_bind {k : α → Prog S β} {Q : β → S → Prop} :
    ∀ {x : Prog S α} {s : S}, safe R guard i x (fun a s' => safe R guard i (k a) Q s') s →
      safe R guard i (x >>= k) Q s
  | .ret a, s, h => h s (refl_of R s)
  | .act ready f next, s, h => by
    intro s' ok hs' hready hguard
    obtain ⟨hstep, hnext⟩ := h s' ok hs' hready hguard
    exact ⟨hstep, safe_bind hnext⟩

theorem safe_returned {a : α} (h : safe R guard i x Q s) (ha : x = .ret a) : Q a s := by
  rw [ha] at h
  exact h s (refl_of R s)

/-- A program with its specification `P`, and then the rest. -/
theorem safe_seq {k : α → Prog S β} {P : α → S → Prop} {Q : β → S → Prop} (hx : safe R guard i x P s)
    (h : ∀ a s', R s s' → P a s' → safe R guard i (k a) Q s') : safe R guard i (x >>= k) Q s := by
  apply safe_bind
  exact safe_mono h (refl_of R s) hx

theorem safe_get (h : ∀ s' s'', R s s' → R s' s'' → Q (answer s') s'') : safe R guard i (get answer) Q s :=
  safe_atomically fun s' hs _ => ⟨refl_of R s', fun s'' hs' => h s' s'' hs hs'⟩

variable {Q : Option α → S → Prop}

theorem safe_query (hsome : ∀ s' s'', R s s' → R s' s'' → Q (some (answer s')) s'')
    (hnone : ∀ s', R s s' → Q none s') : safe R guard i (query answer) Q s := by
  intro s' ok hs _ _
  refine ⟨refl_of R s', fun s'' hs' => ?_⟩
  cases ok with
  | true => exact hsome s' s'' hs hs'
  | false => exact hnone s'' (trans_of R hs hs')

/-- A read whose answer does not matter. -/
theorem safe_query_any (h : ∀ a s', R s s' → Q a s') : safe R guard i (query answer) Q s :=
  safe_query (fun _ s'' hs hs' => h _ s'' (trans_of R hs hs')) (h none)

theorem safe_statement {f : S → S} {Q : Bool → S → Prop}
    (hdone : ∀ s', R s s' → guard i s' (f s') = true → R s' (f s') ∧ ∀ s'', R (f s') s'' → Q true s'')
    (hfailed : ∀ s', R s s' → Q false s') : safe R guard i (statement f) Q s := by
  intro s' ok hs _ hguard
  cases ok with
  | true => exact hdone s' hs hguard
  | false => exact ⟨refl_of R s', fun s'' hs' => hfailed s'' (trans_of R hs hs')⟩

theorem safe_await {answer : S → Option α} (h : ∀ s' s'' a, R s s' → answer s' = some a → R s' s'' → Q (some a) s'') :
    safe R guard i (await answer) Q s := by
  intro s' ok hs hready _
  obtain ⟨a, ha⟩ := Option.isSome_iff_exists.mp hready
  refine ⟨refl_of R s', fun s'' hs' => ?_⟩
  rw [ha]
  exact h s' s'' a hs ha hs'

/-- A loop, one turn of which brings `Q` about from `P`; both are kept. -/
theorem safe_forEach {f : α → Prog S Unit} {p : α → Prop} {P Q : S → Prop} (hP : ∀ s s', R s s' → P s → P s')
    (hQ : ∀ s s', R s s' → Q s → Q s') (h : ∀ a s, safe R guard i (f a) (fun _ s' => p a → P s → Q s') s) :
    ∀ (as : List α) (s : S), safe R guard i (forEach f as) (fun _ s' => (∃ a ∈ as, p a) → P s → Q s') s
  | [], s => by
    intro s' _ ⟨a, ha, _⟩
    cases ha
  | a :: as, s => by
    refine safe_seq (h a s) fun _ s1 hs1 hturn => ?_
    refine safe_mono (fun _ s' hs' hrest ⟨b, hb, hpb⟩ hs => ?_) (refl_of R s1) (safe_forEach hP hQ h as s1)
    rcases List.mem_cons.mp hb with hb | hb
    · subst hb
      exact hQ s1 s' hs' (hturn hpb hs)
    · exact hrest ⟨b, hb, hpb⟩ (hP s s1 hs1 hs)

end

/-! Runs. -/

section
variable [DecidableEq ι] {R : S → S → Prop} [IsPreorder S R] {guard : Guard ι S} {Q : ι → α → S → Prop}
    {s s' : Sys ι S α}

theorem safe_step (h : ∀ i, safe R guard i (s.prog i) (Q i) s.mem) {i : ι} {ok : Bool}
    (hstep : Conc.step s i ok = some s') (hguard : guard i s.mem s'.mem = true) :
    R s.mem s'.mem ∧ ∀ j, safe R guard j (s'.prog j) (Q j) s'.mem := by
  obtain ⟨ready, f, next, hprog, hready, hmem, hprog'⟩ := step_some hstep
  have hi := h i
  rw [hprog] at hi
  rw [hmem] at hguard ⊢
  obtain ⟨hR, hnext⟩ := hi s.mem ok (refl_of R s.mem) hready hguard
  refine ⟨hR, fun j => ?_⟩
  rw [hprog']
  by_cases hj : j = i
  · subst hj
    rw [Function.update_self]
    exact hnext
  · rw [Function.update_of_ne hj]
    exact safe_later (h j) hR

theorem safe_reach (h : ∀ i, safe R guard i (s.prog i) (Q i) s.mem) (hs : Reach guard s s') :
    R s.mem s'.mem ∧ ∀ i, safe R guard i (s'.prog i) (Q i) s'.mem := by
  induction hs with
  | start => exact ⟨refl_of R s.mem, h⟩
  | step i ok _ hstep hguard ih =>
    obtain ⟨hR, hsafe⟩ := safe_step ih.2 hstep hguard
    exact ⟨trans_of R ih.1 hR, hsafe⟩

end

end AmuxApi.Conc
