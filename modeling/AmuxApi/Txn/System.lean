import AmuxApi.Txn.Program

/- Many calls at once. Calls `i : ι` run their programs one statement at a time,
   in any order. The database is read committed: a plain read sees the committed
   rows and the reader's own writes, never another call's. A write takes the row,
   and the row stays taken until its owner commits or rolls back; a statement
   that would write a taken row waits. `dirty k` is the one uncommitted version a
   row can have together with its owner, so two calls never hold a row at once.
   A process mutex `l` is held by at most one call in the same way.

   Every commit is kept in `hist` with the database before and after it, newest
   first: what a run has done is what its commits have done. -/
namespace AmuxApi.Txn

variable {ι κ : Type} {V : κ → Type} {L α : Type}

/-- One commit: who made it, and the committed rows before and after. -/
structure Commit (ι : Type) {κ : Type} (V : κ → Type) where
  call : ι
  before : DB V
  after : DB V

structure Sys (ι : Type) {κ : Type} (V : κ → Type) (L α : Type) where
  db : DB V
  dirty : (k : κ) → Option (ι × V k)
  mutex : L → Option ι
  prog : ι → Prog V L α
  hist : List (Commit ι V)

variable [DecidableEq ι]

namespace Sys

def pend (s : Sys ι V L α) (i : ι) : Pending V := fun k =>
  match s.dirty k with
  | some (j, v) => if j = i then some v else none
  | none => none

def view (s : Sys ι V L α) (i : ι) : DB V := Txn.view (s.pend i) s.db

def taken (s : Sys ι V L α) (i : ι) (k : κ) : Bool :=
  match s.dirty k with
  | some (j, _) => decide (j ≠ i)
  | none => false

def goto (s : Sys ι V L α) (i : ι) (p : Prog V L α) : Sys ι V L α :=
  { s with prog := Function.update s.prog i p }

def release (s : Sys ι V L α) (i : ι) : Sys ι V L α :=
  { s with dirty := fun k => if s.taken i k then s.dirty k else none }

def publish (s : Sys ι V L α) (i : ι) : Sys ι V L α :=
  { s with db := s.view i, hist := ⟨i, s.db, s.view i⟩ :: s.hist }

end Sys

variable [DecidableEq κ] [DecidableEq L]

/-- One statement of call `i`; `ok` is whether the database carries it out.
`none`: the call has finished, or waits for a row or a mutex. -/
def step (s : Sys ι V L α) (i : ι) (ok : Bool) : Option (Sys ι V L α) :=
  match s.prog i with
  | .ret _ => none
  | .read next => some (s.goto i (next (if ok then some (s.view i) else none)))
  | .update k f next =>
    if ok then
      if s.taken i k then none
      else match f (s.view i k) with
        | some v => some ({ s with dirty := Function.update s.dirty k (some (i, v)) }.goto i (next (some true)))
        | none => some (s.goto i (next (some false)))
    else some (s.goto i (next none))
  | .commit next =>
    if ok then some (((s.publish i).release i).goto i (next true))
    else some ((s.release i).goto i (next false))
  | .rollback next => some ((s.release i).goto i next)
  | .lock l next =>
    if s.mutex l = none then some ({ s with mutex := Function.update s.mutex l (some i) }.goto i next)
    else none
  | .unlock l next =>
    some ({ s with mutex := if s.mutex l = some i then Function.update s.mutex l none else s.mutex }.goto i next)

/-- All calls at their first statement, nothing taken. -/
def start (d : DB V) (prog : ι → Prog V L α) : Sys ι V L α :=
  { db := d, dirty := fun _ => none, mutex := fun _ => none, prog, hist := [] }

/-- A condition on the UPDATE a call is about to make: the row, the statement, the
value it finds, and whether the database carries it out. -/
abbrev Guard (ι : Type) {κ : Type} (V : κ → Type) := ι → (k : κ) → (V k → Option (V k)) → V k → Bool → Bool

def anyUpdate : Guard ι V := fun _ _ _ _ _ => true

/-- The next statement of call `i` meets the condition. -/
def meets (g : Guard ι V) (s : Sys ι V L α) (i : ι) (ok : Bool) : Bool :=
  match s.prog i with
  | .update k f _ => g i k f (s.view i k) ok
  | _ => true

/-- The states of the runs from `s₀` whose UPDATEs all meet the condition. -/
inductive Reach (g : Guard ι V) (s₀ : Sys ι V L α) : Sys ι V L α → Prop
  | init : Reach g s₀ s₀
  | step {s s' : Sys ι V L α} (i : ι) (ok : Bool) (hr : Reach g s₀ s) (hm : meets g s i ok)
      (hs : step s i ok = some s') : Reach g s₀ s'

/-- A schedule says which call moves next, and whether its statement succeeds. -/
def run (g : Guard ι V) : Sys ι V L α → List (ι × Bool) → Option (Sys ι V L α)
  | s, [] => some s
  | s, (i, ok) :: rest => if meets g s i ok then (step s i ok).bind (run g · rest) else none

theorem reach_run {g : Guard ι V} {s₀ : Sys ι V L α} :
    ∀ {schedule : List (ι × Bool)} {s s' : Sys ι V L α}, Reach g s₀ s → run g s schedule = some s' → Reach g s₀ s'
  | [], _, _, hr, h => by
    cases h
    exact hr
  | (i, ok) :: rest, s, s', hr, h => by
    simp only [run] at h
    split at h
    · rename_i hm
      obtain ⟨s1, hs, h⟩ := Option.bind_eq_some_iff.mp h
      exact reach_run (hr.step i ok hm hs) h
    · cases h

/-- A schedule that ends in a state with `p` shows that one is reached. -/
theorem exists_of_run {g : Guard ι V} {s₀ : Sys ι V L α} {p : Sys ι V L α → Prop} [DecidablePred p]
    (schedule : List (ι × Bool)) (h : (run g s₀ schedule).any (fun s => decide (p s)) = true) :
    ∃ s, Reach g s₀ s ∧ p s := by
  cases hs : run g s₀ schedule with
  | none => rw [hs] at h; cases h
  | some s => rw [hs] at h; exact ⟨s, reach_run .init hs, of_decide_eq_true h⟩

end AmuxApi.Txn
