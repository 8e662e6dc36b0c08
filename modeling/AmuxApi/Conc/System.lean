import Mathlib.Logic.Function.Basic

/- Programs over a shared state. A program is a tree of atomic steps: it waits until the state
   is ready for its next step, makes it, and goes on with what it has seen. A step may fail;
   what a failed step does is up to the step.

   A system is a family of programs, and any of them may make the next step. Tasks in the
   background are programs whose first step waits for the state to say that they were started.
   A `Guard` is a condition on the steps of a run, on the state before and after each. -/
namespace AmuxApi.Conc
open Function

variable {ι S α β : Type}

/-- `act ready f next`: when `ready` holds, the state `s` becomes `f ok s`, and the program is
`next ok s` from then on. -/
inductive Prog (S α : Type) : Type
  | ret (a : α)
  | act (ready : S → Bool) (f : Bool → S → S) (next : Bool → S → Prog S α)

variable {g : α → Prog S β}

namespace Prog

def bind : Prog S α → (α → Prog S β) → Prog S β
  | .ret a, g => g a
  | .act ready f next, g => .act ready f fun ok s => bind (next ok s) g

instance : Monad (Prog S) where
  pure := .ret
  bind := bind

theorem bind_assoc {γ : Type} {k : β → Prog S γ} (x : Prog S α) : (x >>= g) >>= k = x >>= fun a => g a >>= k := by
  induction x with
  | ret a => rfl
  | act ready f next ih => exact congrArg (Prog.act ready f) (funext fun ok => funext fun s => ih ok s)

def result : Prog S α → Option α
  | .ret a => some a
  | .act _ _ _ => none

theorem eq_ret_of_result {x : Prog S α} {a : α} (h : x.result = some a) : x = .ret a := by
  cases x with
  | ret b => simpa [result] using h
  | act ready f next => cases h

/-- A program that is alone, with steps that are ready and succeed. -/
def exec : Prog S α → S → α × S
  | .ret a, s => (a, s)
  | .act _ f next, s => exec (next true s) (f true s)

theorem exec_bind (x : Prog S α) (g : α → Prog S β) (s : S) :
    (x >>= g).exec s = (g (x.exec s).1).exec (x.exec s).2 := by
  induction x generalizing s with
  | ret a => rfl
  | act ready f next ih => exact ih true s (f true s)

end Prog

/-! The steps programs are made of. -/

/-- A step that does not fail, and answers from the state it finds. -/
def atomically (f : S → S) (answer : S → α) : Prog S α := .act (fun _ => true) (fun _ => f) fun _ s => .ret (answer s)

def get (answer : S → α) : Prog S α := atomically id answer

def modify (f : S → S) : Prog S Unit := atomically f fun _ => ()

/-- A step that waits for the state to have an answer. -/
def await (answer : S → Option α) : Prog S (Option α) :=
  .act (fun s => (answer s).isSome) (fun _ s => s) fun _ s => .ret (answer s)

/-- A read that may fail. -/
def query (answer : S → α) : Prog S (Option α) :=
  .act (fun _ => true) (fun _ s => s) fun ok s => .ret (if ok then some (answer s) else none)

/-- A change that may fail, and then changes nothing. -/
def statement (f : S → S) : Prog S Bool :=
  .act (fun _ => true) (fun ok s => if ok then f s else s) fun ok _ => .ret ok

/-- A loop over a list. -/
def forEach (f : α → Prog S Unit) : List α → Prog S Unit
  | [] => pure ()
  | a :: as => f a >>= fun _ => forEach f as

/-- Every step of the program relates the states before and after it. -/
def Prog.Each (R : S → S → Prop) : Prog S α → Prop
  | .ret _ => True
  | .act _ f next => ∀ ok s, R s (f ok s) ∧ (next ok s).Each R

variable {answer : S → α}

section
variable {R : S → S → Prop}

theorem each_pure (a : α) : (pure a : Prog S α).Each R := trivial

theorem each_bind (hg : ∀ a, (g a).Each R) : ∀ {x : Prog S α}, x.Each R → (x >>= g).Each R
  | .ret a, _ => hg a
  | .act _ _ _, h => fun ok s => ⟨(h ok s).1, each_bind hg (h ok s).2⟩

theorem each_mono {R' : S → S → Prop} (hR : ∀ s s', R s s' → R' s s') : ∀ {x : Prog S α}, x.Each R → x.Each R'
  | .ret _, _ => trivial
  | .act _ _ _, h => fun ok s => ⟨hR _ _ (h ok s).1, each_mono hR (h ok s).2⟩

theorem each_atomically {f : S → S} (h : ∀ s, R s (f s)) : (atomically f answer).Each R :=
  fun _ s => ⟨h s, trivial⟩

/-- A step that may fail, and then answers. -/
theorem each_act {ready : S → Bool} {f : Bool → S → S} {answer : Bool → S → α} (hok : ∀ s, R s (f true s))
    (hfail : ∀ s, R s (f false s)) : (Prog.act ready f fun ok s => .ret (answer ok s)).Each R
  | true, s => ⟨hok s, trivial⟩
  | false, s => ⟨hfail s, trivial⟩

theorem each_forEach {f : α → Prog S Unit} (h : ∀ a, (f a).Each R) : ∀ as, (forEach f as).Each R
  | [] => each_pure ()
  | a :: as => each_bind (fun _ => each_forEach h as) (h a)

end

/-- The program never waits, and its steps are within `R`. -/
def Prog.Free (R : S → S → Prop) : Prog S α → Prop
  | .ret _ => True
  | .act ready f next => ∀ ok s, ready s = true ∧ R s (f ok s) ∧ (next ok s).Free R

section
variable {R : S → S → Prop}

theorem free_pure (a : α) : (pure a : Prog S α).Free R := trivial

theorem free_bind (hg : ∀ a, (g a).Free R) : ∀ {x : Prog S α}, x.Free R → (x >>= g).Free R
  | .ret a, _ => hg a
  | .act _ _ _, h => fun ok s => ⟨(h ok s).1, (h ok s).2.1, free_bind hg (h ok s).2.2⟩

theorem free_atomically {f : S → S} (h : ∀ s, R s (f s)) : (atomically f answer).Free R :=
  fun _ s => ⟨rfl, h s, trivial⟩

theorem free_query (h : ∀ s, R s s) : (query answer).Free R := fun _ s => ⟨rfl, h s, trivial⟩

end

/-- What is noted in the state is noted by the last step of the program only, and fits its answer. -/
def Prog.Announces (noted : S → List β) (A : β → α → Prop) : Prog S α → Prop
  | .ret _ => True
  | .act _ f next => ∀ ok s, noted (f ok s) = noted s ∧ (next ok s).Announces noted A ∨
      ∃ a new, next ok s = .ret a ∧ noted (f ok s) = new ++ noted s ∧ ∀ b ∈ new, A b a

section
variable {noted : S → List β} {A : β → α → Prop}

theorem announces_pure (a : α) : (pure a : Prog S α).Announces noted A := trivial

theorem announces_of_each : ∀ {x : Prog S α}, x.Each (fun s s' => noted s' = noted s) → x.Announces noted A
  | .ret _, _ => trivial
  | .act _ _ _, h => fun ok s => .inl ⟨(h ok s).1, announces_of_each (h ok s).2⟩

theorem announces_bind {γ : Type} {k : γ → Prog S α} (hk : ∀ c, (k c).Announces noted A) :
    ∀ {x : Prog S γ}, x.Each (fun s s' => noted s' = noted s) → (x >>= k).Announces noted A
  | .ret c, _ => hk c
  | .act _ _ _, h => fun ok s => .inl ⟨(h ok s).1, announces_bind hk (h ok s).2⟩

end

/-! Systems. -/

structure Sys (ι S α : Type) where
  mem : S
  prog : ι → Prog S α

/-- A condition on the steps: who makes it, and the state before and after. -/
abbrev Guard (ι S : Type) := ι → S → S → Bool

def anyStep : Guard ι S := fun _ _ _ => true

variable [DecidableEq ι]

def step (s : Sys ι S α) (i : ι) (ok : Bool) : Option (Sys ι S α) :=
  match s.prog i with
  | .ret _ => none
  | .act ready f next => if ready s.mem then some ⟨f ok s.mem, update s.prog i (next ok s.mem)⟩ else none

variable {s s₀ : Sys ι S α} {i : ι} {R : S → S → Prop}

/-- A step that is made: the program was at it, and the state was ready. -/
theorem step_some {s' : Sys ι S α} {ok : Bool} (h : step s i ok = some s') :
    ∃ ready f next, s.prog i = .act ready f next ∧ ready s.mem = true ∧ s'.mem = f ok s.mem ∧
      s'.prog = update s.prog i (next ok s.mem) := by
  unfold step at h
  split at h
  · cases h
  · next ready f next hprog =>
    split at h
    · next hready =>
      cases h
      exact ⟨ready, f, next, hprog, hready, rfl, rfl⟩
    · cases h

/-- The states that are reached by steps that meet the guard. -/
inductive Reach (g : Guard ι S) (s₀ : Sys ι S α) : Sys ι S α → Prop
  | start : Reach g s₀ s₀
  | step {s s' : Sys ι S α} (i : ι) (ok : Bool) (h : Reach g s₀ s) (hstep : Conc.step s i ok = some s')
      (hguard : g i s.mem s'.mem = true) : Reach g s₀ s'

variable {g : Guard ι S}

theorem Reach.trans {s1 s2 : Sys ι S α} (h : Reach g s₀ s1) (h' : Reach g s1 s2) : Reach g s₀ s2 := by
  induction h' with
  | start => exact h
  | step i ok _ hstep hguard ih => exact .step i ok ih hstep hguard

/-- What every step of a program does, every step that is left of it does. -/
theorem Reach.each (h : Reach g s₀ s) (h0 : (s₀.prog i).Each R) : (s.prog i).Each R := by
  induction h with
  | start => exact h0
  | step j ok _ hstep _ ih =>
    obtain ⟨ready, f, next, hprog, -, -, hprog'⟩ := step_some hstep
    rw [hprog']
    by_cases hj : i = j
    · subst hj
      rw [update_self]
      rw [hprog] at ih
      exact (ih ok _).2
    · rw [update_of_ne hj]
      exact ih

/-- What every step of every program keeps. -/
theorem Reach.keeps {P : S → Prop} (h : Reach g s₀ s) (hR : ∀ m m', P m → R m m' → P m')
    (heach : ∀ i, (s₀.prog i).Each R) (h0 : P s₀.mem) : P s.mem := by
  induction h with
  | start => exact h0
  | step i ok hreach hstep _ ih =>
    obtain ⟨ready, f, next, hprog, -, hmem, -⟩ := step_some hstep
    have hrest := hreach.each (heach i)
    rw [hprog] at hrest
    rw [hmem]
    exact hR _ _ ih (hrest ok _).1

/-- What is noted in the state was answered by a program. -/
theorem Reach.announced {noted : S → List β} {A : β → α → Prop} (h : Reach g s₀ s)
    (hprog : ∀ i, (s₀.prog i).Announces noted A) (h0 : noted s₀.mem = []) :
    (∀ i, (s.prog i).Announces noted A) ∧ ∀ b ∈ noted s.mem, ∃ i a, s.prog i = .ret a ∧ A b a := by
  induction h with
  | start =>
    refine ⟨hprog, fun b hb => ?_⟩
    rw [h0] at hb
    cases hb
  | @step s s' i ok _ hstep _ ih =>
    obtain ⟨hleft, hnoted⟩ := ih
    obtain ⟨ready, f, next, hact, -, hmem, hprog'⟩ := step_some hstep
    -- a program that has returned is not the one that makes the step
    have hkept : ∀ {j a}, s.prog j = .ret a → s'.prog j = .ret a := by
      intro j a hj
      rw [hprog', update_of_ne, hj]
      rintro rfl
      rw [hact] at hj
      cases hj
    have hold : ∀ b ∈ noted s.mem, ∃ i a, s'.prog i = .ret a ∧ A b a := by
      intro b hb
      obtain ⟨j, a, hj, ha⟩ := hnoted b hb
      exact ⟨j, a, hkept hj, ha⟩
    have hself : s'.prog i = next ok s.mem := by rw [hprog', update_self]
    have hi := hleft i
    rw [hact] at hi
    refine ⟨fun j => ?_, ?_⟩
    · by_cases hj : j = i
      · subst hj
        rw [hself]
        rcases hi ok s.mem with ⟨-, hnext⟩ | ⟨a, new, hret, -⟩
        · exact hnext
        · rw [hret]
          trivial
      · rw [hprog', update_of_ne hj]
        exact hleft j
    · rw [hmem]
      rcases hi ok s.mem with ⟨hsame, -⟩ | ⟨a, new, hret, hnew, hA⟩
      · rw [hsame]
        exact hold
      intro b hb
      rw [hnew] at hb
      rcases List.mem_append.mp hb with hb | hb
      · exact ⟨i, a, hself.trans hret, hA b hb⟩
      · exact hold b hb

/-- A program that never waits, and whose steps meet the guard, can return whatever the others do. -/
theorem exists_returned (hg : ∀ m m', R m m' → g i m m' = true) :
    ∀ (x : Prog S α) (s : Sys ι S α), s.prog i = x → x.Free R → ∃ s' a, Reach g s s' ∧ s'.prog i = .ret a
  | .ret a, s, hx, _ => ⟨s, a, .start, hx⟩
  | .act ready f next, s, hx, hfree => by
    obtain ⟨hready, hR, hnext⟩ := hfree true s.mem
    have hstep : step s i true = some ⟨f true s.mem, update s.prog i (next true s.mem)⟩ := by
      unfold step
      rw [hx]
      dsimp only
      rw [if_pos hready]
    obtain ⟨s', a, hs', ha⟩ := exists_returned hg (next true s.mem)
      ⟨f true s.mem, update s.prog i (next true s.mem)⟩ (update_self i (next true s.mem) s.prog) hnext
    exact ⟨s', a, Reach.trans (.step i true .start hstep (hg _ _ hR)) hs', ha⟩

/-- A run along a schedule: who makes each step, and whether it succeeds. -/
def run (g : Guard ι S) : Sys ι S α → List (ι × Bool) → Option (Sys ι S α)
  | s, [] => some s
  | s, (i, ok) :: rest =>
    match step s i ok with
    | none => none
    | some s' => if g i s.mem s'.mem then run g s' rest else none

theorem run_cons {ok : Bool} {rest : List (ι × Bool)} (h : run g s ((i, ok) :: rest) = some s') :
    ∃ s1, step s i ok = some s1 ∧ g i s.mem s1.mem = true ∧ run g s1 rest = some s' := by
  rw [run] at h
  split at h
  · cases h
  · next s1 hstep =>
    split at h
    · next hg => exact ⟨s1, hstep, hg, h⟩
    · cases h

theorem reach_run :
    ∀ {schedule : List (ι × Bool)} {s s' : Sys ι S α}, Reach g s₀ s → run g s schedule = some s' → Reach g s₀ s'
  | [], s, s', hs, h => by
    cases h
    exact hs
  | (i, ok) :: rest, s, s', hs, h => by
    obtain ⟨s1, hstep, hg, h⟩ := run_cons h
    exact reach_run (.step i ok hs hstep hg) h

theorem run_idle :
    ∀ {schedule : List (ι × Bool)} {s s' : Sys ι S α}, run g s schedule = some s' → (∀ x ∈ schedule, i ≠ x.1) →
      s'.prog i = s.prog i
  | [], s, s', h, _ => by
    cases h
    rfl
  | (j, ok) :: rest, s, s', h, hidle => by
    obtain ⟨s1, hstep, -, h⟩ := run_cons h
    obtain ⟨_, _, _, _, _, _, hprog⟩ := step_some hstep
    rw [run_idle h fun x hx => hidle x (List.mem_cons_of_mem _ hx), hprog,
      update_of_ne (hidle (j, ok) List.mem_cons_self)]

def after (g : Guard ι S) (s : Sys ι S α) (schedule : List (ι × Bool)) : Sys ι S α := (run g s schedule).getD s

theorem run_after {schedule : List (ι × Bool)} (h : (run g s schedule).isSome = true) :
    run g s schedule = some (after g s schedule) := by
  obtain ⟨s', hs'⟩ := Option.isSome_iff_exists.mp h
  rw [after, hs', Option.getD_some]

/-- A schedule whose run can be evaluated gives a state that is reached. -/
theorem exists_of_run {p : Sys ι S α → Prop} [DecidablePred p] (schedule : List (ι × Bool))
    (h : (run g s₀ schedule).any (fun s => decide (p s)) = true) : ∃ s, Reach g s₀ s ∧ p s := by
  obtain ⟨s, hs, hp⟩ := (Option.any_eq_true ..).mp h
  exact ⟨s, reach_run .start hs, of_decide_eq_true hp⟩

end AmuxApi.Conc
