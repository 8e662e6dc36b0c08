import Mathlib.Logic.Function.Basic

/- Programs that issue SQL statements. A table row is named by a key `k : κ` and
   holds a value of type `V k`; a database is the committed value of every row.
   A program is a tree of statements: every statement is one atomic step, its
   answer is handed to the rest of the program, and any statement may fail.
   Writes stay private to the transaction until `commit`; `rollback` drops them.
   `lock` and `unlock` are mutexes of the server process, not of the database.

   `exec` is the run of a program alone. The interleaving of many programs is in
   `System`, and the proof rules for both are in `Logic`. -/
namespace AmuxApi.Txn

/-- The committed value of every row. -/
abbrev DB {κ : Type} (V : κ → Type) := (k : κ) → V k

/-- The rows a transaction has written and not yet committed. -/
abbrev Pending {κ : Type} (V : κ → Type) := (k : κ) → Option (V k)

variable {κ : Type} {V : κ → Type} {L α β : Type}

def clean : Pending V := fun _ => none

/-- What a transaction sees: its own writes over the committed rows. -/
def view (w : Pending V) (d : DB V) : DB V := fun k => (w k).getD (d k)

theorem view_clean (d : DB V) : view clean d = d := rfl

variable {w : Pending V} {k : κ}

theorem view_off (h : w k = none) (d : DB V) : view w d k = d k := by
  simp [view, h]

variable {v : V k}

section
variable [DecidableEq κ]

def write (w : Pending V) (k : κ) (v : V k) : Pending V := Function.update w k (some v)

theorem write_eq_none {k' : κ} : (write w k v) k' = none ↔ k' ≠ k ∧ w k' = none := by
  by_cases h : k' = k
  · subst h; simp [write]
  · simp [write, h]

theorem write_isSome {k' : κ} : ((write w k v) k').isSome ↔ k' = k ∨ (w k').isSome := by
  by_cases h : k' = k
  · subst h; simp [write]
  · simp [write, h]

/-- A write shows in the view, and nowhere else. -/
theorem view_write (w : Pending V) (k : κ) (v : V k) (d : DB V) :
    view (write w k v) d = Function.update (view w d) k v := by
  funext k'
  by_cases h : k' = k
  · subst h; simp [view, write]
  · simp [view, write, h]

end

/-- A program over the rows `V` and the process mutexes `L`, returning an `α`.
`read` is a plain SELECT: it hands over everything the transaction sees, or
`none` when the statement fails. `update k f` is an UPDATE or INSERT of the one
row `k`: `f` gives the new value where the WHERE clause (or the unique index)
lets the statement through; the answer is `none` when the statement fails, else
whether the row was written. `commit` answers whether the commit went through. -/
inductive Prog {κ : Type} (V : κ → Type) (L α : Type) : Type
  | ret (a : α)
  | read (next : Option (DB V) → Prog V L α)
  | update (k : κ) (f : V k → Option (V k)) (next : Option Bool → Prog V L α)
  | commit (next : Bool → Prog V L α)
  | rollback (next : Prog V L α)
  | lock (l : L) (next : Prog V L α)
  | unlock (l : L) (next : Prog V L α)

variable {x : Prog V L α} {a : α} {g : α → Prog V L β}

namespace Prog

def bind : Prog V L α → (α → Prog V L β) → Prog V L β
  | .ret a, g => g a
  | .read next, g => .read (fun r => bind (next r) g)
  | .update k f next, g => .update k f (fun r => bind (next r) g)
  | .commit next, g => .commit (fun r => bind (next r) g)
  | .rollback next, g => .rollback (bind next g)
  | .lock l next, g => .lock l (bind next g)
  | .unlock l next, g => .unlock l (bind next g)

instance : Monad (Prog V L) where
  pure := .ret
  bind := bind

def result : Prog V L α → Option α
  | .ret a => some a
  | _ => none

theorem eq_ret_of_result (h : x.result = some a) : x = .ret a := by
  cases x <;> simp_all [result]

theorem bind_ret (x : Prog V L α) : x.bind .ret = x := by
  induction x <;> simp_all [bind, -Bool.forall_bool]

theorem bind_assoc {γ : Type} {k : β → Prog V L γ} (x : Prog V L α) : (x >>= g) >>= k = x >>= fun a => g a >>= k := by
  induction x with
  | ret a => rfl
  | read next ih => exact congrArg Prog.read (funext ih)
  | update key f next ih => exact congrArg (Prog.update key f) (funext ih)
  | commit next ih => exact congrArg Prog.commit (funext ih)
  | rollback next ih => exact congrArg Prog.rollback ih
  | lock l next ih => exact congrArg (Prog.lock l) ih
  | unlock l next ih => exact congrArg (Prog.unlock l) ih

end Prog

/-! The statements as programs. -/

def select : Prog V L (Option (DB V)) := .read .ret

/-- An UPDATE or INSERT of row `k`. -/
def update (k : κ) (f : V k → Option (V k)) : Prog V L (Option Bool) := .update k f .ret

def commit : Prog V L Bool := .commit .ret

def rollback : Prog V L Unit := .rollback (.ret ())

def lock (l : L) : Prog V L Unit := .lock l (.ret ())

def unlock (l : L) : Prog V L Unit := .unlock l (.ret ())

/-- `DB.Transaction(body)`: commit when the body succeeds, roll back when it
returns an error; a commit that fails is an error too. -/
def transaction {ε : Type} (failed : ε) (body : Prog V L (Except ε α)) : Prog V L (Except ε α) := do
  match ← body with
  | .error e => do rollback; return .error e
  | .ok a => do if ← commit then return .ok a else return .error failed

/-- A statement outside a transaction commits by itself. -/
def autocommit (k : κ) (f : V k → Option (V k)) : Prog V L (Option Bool) := do
  match ← update k f with
  | none => do rollback; return none
  | some r => do if ← commit then return some r else return none

/-! What a program may write. -/

namespace Prog

/-- Whatever its statements answer, every UPDATE of the program is in `K` and its result is in `Q`. -/
def Issues (K : (k : κ) → (V k → Option (V k)) → Prop) (Q : α → Prop) : Prog V L α → Prop
  | .ret a => Q a
  | .read next => ∀ r, (next r).Issues K Q
  | .update k f next => K k f ∧ ∀ r, (next r).Issues K Q
  | .commit next => ∀ r, (next r).Issues K Q
  | .rollback next => next.Issues K Q
  | .lock _ next => next.Issues K Q
  | .unlock _ next => next.Issues K Q

variable {K K' : (k : κ) → (V k → Option (V k)) → Prop} {P P' : α → Prop} {Q : β → Prop}

theorem issues_bind_iff : (x >>= g).Issues K Q ↔ x.Issues K fun a => (g a).Issues K Q := by
  induction x with
  | ret a => exact .rfl
  | read next ih | commit next ih => exact forall_congr' ih
  | update k f next ih => exact and_congr_right' (forall_congr' ih)
  | rollback next ih | lock l next ih | unlock l next ih => exact ih

theorem Issues.mono (h : x.Issues K P) (hK : ∀ k f, K k f → K' k f) (hP : ∀ a, P a → P' a) : x.Issues K' P' := by
  induction x with
  | ret a => exact hP a h
  | read next ih | commit next ih => exact fun r => ih r (h r)
  | update k f next ih => exact ⟨hK k f h.1, fun r => ih r (h.2 r)⟩
  | rollback next ih | lock l next ih | unlock l next ih => exact ih h

theorem issues_bind (hx : x.Issues K P) (hg : ∀ a, P a → (g a).Issues K Q) : (x >>= g).Issues K Q :=
  issues_bind_iff.mpr (hx.mono (fun _ _ => id) hg)

/-- The program has some result, and both bounds are about it. -/
theorem Issues.some (h : x.Issues K P) (h' : x.Issues K' P') : ∃ a, P a ∧ P' a := by
  induction x with
  | ret a => exact ⟨a, h, h'⟩
  | read next ih => exact ih none (h none) (h' none)
  | update k f next ih => exact ih none (h.2 none) (h'.2 none)
  | commit next ih => exact ih false (h false) (h' false)
  | rollback next ih | lock l next ih | unlock l next ih => exact ih h h'

theorem issues_autocommit {f : V k → Option (V k)} (h : K k f) :
    (autocommit k f : Prog V L _).Issues K fun _ => True := by
  refine ⟨h, fun r => ?_⟩
  cases r with
  | none => trivial
  | some _ => intro committed; cases committed <;> trivial

theorem issues_transaction {ε : Type} {failed : ε} {body : Prog V L (Except ε α)}
    (h : body.Issues K fun _ => True) : (transaction failed body).Issues K fun _ => True := by
  refine issues_bind h fun res _ => ?_
  cases res with
  | error e => trivial
  | ok a => intro committed; cases committed <;> trivial

end Prog

/-! The run of a program alone. -/

/-- Where a program run alone ends: the committed rows, the writes still pending, the
faults not yet used, and the result. -/
structure Outcome {κ : Type} (V : κ → Type) (α : Type) where
  db : DB V
  pend : Pending V
  faults : List Bool
  val : α

section
variable [DecidableEq κ]

/-- Run a program with nothing else going on. `faults` says of each statement,
in order, whether it fails; past its end statements succeed. -/
def exec : Prog V L α → List Bool → Pending V → DB V → Outcome V α
  | .ret a, fs, w, d => ⟨d, w, fs, a⟩
  | .read next, fs, w, d =>
    exec (next (if fs.headD false then none else some (view w d))) fs.tail w d
  | .update k f next, fs, w, d =>
    if fs.headD false then exec (next none) fs.tail w d
    else match f (view w d k) with
      | some v => exec (next (some true)) fs.tail (write w k v) d
      | none => exec (next (some false)) fs.tail w d
  | .commit next, fs, w, d =>
    if fs.headD false then exec (next false) fs.tail clean d
    else exec (next true) fs.tail clean (view w d)
  | .rollback next, fs, _, d => exec next fs.tail clean d
  | .lock _ next, fs, w, d => exec next fs.tail w d
  | .unlock _ next, fs, w, d => exec next fs.tail w d

/-- The rest of the program goes on where its first part ended. -/
theorem exec_bind (g : α → Prog V L β) : ∀ (x : Prog V L α) (fs : List Bool) (w : Pending V) (d : DB V),
    exec (x >>= g) fs w d = exec (g (exec x fs w d).val) (exec x fs w d).faults (exec x fs w d).pend (exec x fs w d).db
  | .ret _, _, _, _ => rfl
  | .read next, fs, w, d => exec_bind g (next _) fs.tail w d
  | .update k f next, fs, w, d => by
    show exec (.update k f fun r => next r >>= g) fs w d = _
    simp only [exec]
    split
    · exact exec_bind g (next none) fs.tail w d
    · split
      · exact exec_bind g (next (some true)) fs.tail _ d
      · exact exec_bind g (next (some false)) fs.tail w d
  | .commit next, fs, w, d => by
    show exec (.commit fun r => next r >>= g) fs w d = _
    simp only [exec]
    split
    · exact exec_bind g (next false) fs.tail clean d
    · exact exec_bind g (next true) fs.tail clean (view w d)
  | .rollback next, fs, _, d => exec_bind g next fs.tail clean d
  | .lock _ next, fs, w, d => exec_bind g next fs.tail w d
  | .unlock _ next, fs, w, d => exec_bind g next fs.tail w d

/-- Run a whole call on the committed database. Writes that are never committed are lost. -/
def solo (x : Prog V L α) (faults : List Bool) (d : DB V) : DB V × α :=
  ((exec x faults clean d).db, (exec x faults clean d).val)

/-! Code without transactions around it: between two of its statements nothing is pending. -/

/-- Without faults `x` takes the committed rows from `d` to `d'` and ends with `a`. -/
def Runs (x : Prog V L α) (d d' : DB V) (a : α) : Prop := exec x [] clean d = ⟨d', clean, [], a⟩

/-- The program ends with `Q` there. -/
def Does (x : Prog V L α) (d : DB V) (Q : α → DB V → Prop) : Prop := ∃ d' a, Runs x d d' a ∧ Q a d'

theorem runs_pure (a : α) (d : DB V) : Runs (pure a : Prog V L α) d d a := rfl

variable {d : DB V}

theorem runs_bind {d1 d2 : DB V} {b : β} (hx : Runs x d d1 a) (hg : Runs (g a) d1 d2 b) : Runs (x >>= g) d d2 b := by
  rw [Runs, exec_bind, hx]
  exact hg

theorem does_pure {Q : α → DB V → Prop} (h : Q a d) : Does (pure a : Prog V L α) d Q :=
  ⟨d, a, runs_pure a d, h⟩

theorem runs_select (d : DB V) : Runs (select : Prog V L _) d d (some d) := rfl

theorem runs_lock (d : DB V) (l : L) : Runs (lock l : Prog V L _) d d () := rfl

theorem runs_unlock (d : DB V) (l : L) : Runs (unlock l : Prog V L _) d d () := rfl

theorem runs_autocommit {f : V k → Option (V k)} (h : f (d k) = some v) :
    Runs (autocommit k f : Prog V L _) d (Function.update d k v) (some true) := by
  have hupdate : exec (update k f : Prog V L _) [] clean d = ⟨d, write clean k v, [], some true⟩ := by
    simp [update, exec, view_clean, h]
  rw [Runs, autocommit, exec_bind, hupdate]
  show (⟨view (write clean k v) d, clean, [], some true⟩ : Outcome V _) = _
  rw [view_write, view_clean]

theorem Runs.bind {d1 : DB V} {Q : β → DB V → Prop} (hx : Runs x d d1 a) (hg : Does (g a) d1 Q) :
    Does (x >>= g) d Q := by
  obtain ⟨d2, b, hrun, hQ⟩ := hg
  exact ⟨d2, b, runs_bind hx hrun, hQ⟩

theorem Does.bind {P : α → DB V → Prop} {Q : β → DB V → Prop}
    (hx : Does x d P) (hg : ∀ a d', P a d' → Does (g a) d' Q) : Does (x >>= g) d Q := by
  obtain ⟨d1, a, hrun, hP⟩ := hx
  exact hrun.bind (hg a d1 hP)

theorem Does.mono {P Q : α → DB V → Prop} (h : Does x d P) (hQ : ∀ a d', P a d' → Q a d') : Does x d Q :=
  let ⟨d', a, hrun, hP⟩ := h
  ⟨d', a, hrun, hQ a d' hP⟩

theorem Runs.solo {d' : DB V} (h : Runs x d d' a) : Txn.solo x [] d = (d', a) := by
  rw [Txn.solo, h]

theorem Does.solo {Q : α → DB V → Prop} (h : Does x d Q) : Q (Txn.solo x [] d).2 (Txn.solo x [] d).1 := by
  obtain ⟨d', a, hrun, hQ⟩ := h
  rw [hrun.solo]
  exact hQ

/-! Code inside a transaction. -/

/-- Without faults `x`, which neither commits nor rolls back, takes what its transaction sees
from `v` to where `Q` holds. -/
def Inside : Prog V L α → DB V → (α → DB V → Prop) → Prop
  | .ret a, v, Q => Q a v
  | .read next, v, Q => Inside (next (some v)) v Q
  | .update k f next, v, Q =>
    Inside (next (some (f (v k)).isSome)) (Function.update v k ((f (v k)).getD (v k))) Q
  | _, _, _ => False

section
variable {x : Prog V L α} {g : α → Prog V L β} {v : DB V} {P : α → DB V → Prop} {Q : β → DB V → Prop}

theorem Inside.bind (hx : Inside x v P) (hg : ∀ a v', P a v' → Inside (g a) v' Q) : Inside (x >>= g) v Q := by
  induction x generalizing v with
  | ret a => exact hg a v hx
  | read next ih => exact ih _ hx
  | update k f next ih => exact ih _ hx
  | _ => exact hx.elim

theorem Inside.mono {R : α → DB V → Prop} (h : Inside x v P) (hR : ∀ a v', P a v' → R a v') : Inside x v R :=
  x.bind_ret ▸ Inside.bind h hR

theorem inside_select {g : Option (DB V) → Prog V L β} : Inside (select >>= g) v Q ↔ Inside (g (some v)) v Q := .rfl

theorem inside_update {f : V k → Option (V k)} {g : Option Bool → Prog V L β} : Inside (update k f >>= g) v Q ↔
    Inside (g (some (f (v k)).isSome)) (Function.update v k ((f (v k)).getD (v k))) Q := .rfl

theorem Inside.exec (h : Inside x (view w d) P) : ∃ w' a, Txn.exec x [] w d = ⟨d, w', [], a⟩ ∧ P a (view w' d) := by
  induction x generalizing w with
  | ret a => exact ⟨w, a, rfl, h⟩
  | read next ih => exact ih _ h
  | update k f next ih =>
    simp only [Inside] at h
    cases hf : f (view w d k) with
    | none =>
      simp only [hf, Option.getD_none, Function.update_eq_self] at h
      simpa [Txn.exec, hf] using ih _ h
    | some row =>
      simp only [hf, Option.getD_some, ← view_write] at h
      simpa [Txn.exec, hf] using ih _ h
  | _ => exact h.elim

/-- The rows after a transaction on `d` whose body has ended with this answer, seeing `v`. -/
def committed {ε : Type} (d v : DB V) : Except ε α → DB V
  | .error _ => d
  | .ok _ => v

/-- A transaction commits what its body has written, or nothing. -/
theorem does_transaction {ε : Type} {e : ε} {body : Prog V L (Except ε α)} {Q : Except ε α → DB V → Prop}
    (h : Inside body d fun r v => Q r (committed d v r)) : Does (transaction e body) d Q := by
  obtain ⟨w, r, hexec, hQ⟩ := h.exec (w := clean)
  have hrun : Runs (transaction e body) d (committed d (view w d) r) r := by
    rw [Runs, transaction, exec_bind, hexec]
    cases r <;> rfl
  exact ⟨_, r, hrun, hQ⟩

end

end

end AmuxApi.Txn
