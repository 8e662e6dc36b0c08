import AmuxApi.Txn.System

/- Weakest preconditions under interference. A call is verified alone, against a
   `Proto`: what every commit guarantees, given the commits the same call has made
   before it (`guar`), what a call may rely on the others to do to the committed
   rows between two of its statements (`rely`), which rows a process mutex protects
   (`prot`), and the condition its UPDATEs are assumed to meet (`guard`). Between
   two statements the rows the call has taken, and the rows its mutexes protect, do
   not move.

   `wp P i x Q σ`: run by call `i` from `σ`, every commit of `x` is within the
   guarantee, and `x` ends, if it does, in a state where `Q` holds.

   1. `reach_sound` — if every call has its `wp`, then in every reachable state
      every commit made so far is within its guarantee, and every call that has
      returned satisfies its `Q`: whatever holds along the commits holds in
      every interleaving.
   2. `solo_sound` — the same `wp` is about the run of the program alone, for every
      pattern of failing statements. -/
namespace AmuxApi.Txn
open Sys

variable {ι κ : Type} {V : κ → Type} {L α β : Type}

/-- The database before and after a commit. -/
abbrev Change {κ : Type} (V : κ → Type) := DB V × DB V

structure Proto (ι : Type) {κ : Type} (V : κ → Type) (L : Type) where
  rely : DB V → DB V → Prop
  guar : ι → List (Change V) → DB V → DB V → Prop
  prot : L → κ → Prop
  guard : Guard ι V

/-- What one call knows of the system: the committed rows, its own writes, the
mutexes it holds, and the commits it has made, newest first. -/
structure Local {κ : Type} (V : κ → Type) (L : Type) where
  db : DB V
  pend : Pending V
  held : L → Prop
  own : List (Change V)

namespace Local

def view (σ : Local V L) : DB V := Txn.view σ.pend σ.db

/-- The others have moved the committed rows to `d`. -/
def on (σ : Local V L) (d : DB V) : Local V L := { σ with db := d }

def drop (σ : Local V L) : Local V L := { σ with pend := clean }

def publish (σ : Local V L) : Local V L :=
  { σ with db := σ.view, pend := clean, own := (σ.db, σ.view) :: σ.own }

/-- A call that has written nothing and holds nothing. -/
def fresh (d : DB V) : Local V L := { db := d, pend := clean, held := fun _ => False, own := [] }

end Local

variable {P : Proto ι V L} {σ : Local V L} {d : DB V}

namespace Proto

/-- The others may move the committed rows from `σ.db` to `d`. -/
structure Moves (P : Proto ι V L) (σ : Local V L) (d : DB V) : Prop where
  rely : P.rely σ.db d
  taken : ∀ k, (σ.pend k).isSome → d k = σ.db k
  held : ∀ l k, σ.held l → P.prot l k → d k = σ.db k

/-- The rely is a preorder. -/
class Order (P : Proto ι V L) : Prop where
  refl : ∀ d, P.rely d d
  trans : ∀ d₁ d₂ d₃, P.rely d₁ d₂ → P.rely d₂ d₃ → P.rely d₁ d₃

/-- The rely is a preorder that allows what every call guarantees. -/
class Sound (P : Proto ι V L) : Prop extends P.Order where
  guar : ∀ i own d d', P.guar i own d d' → P.rely d d'

theorem Moves.refl [P.Order] (σ : Local V L) : P.Moves σ σ.db :=
  ⟨Order.refl _, fun _ _ => rfl, fun _ _ _ _ => rfl⟩

theorem Moves.trans [P.Order] {d' : DB V} (h : P.Moves σ d) (h' : P.Moves (σ.on d) d') : P.Moves σ d' where
  rely := Order.trans _ _ _ h.rely h'.rely
  taken k hk := (h'.taken k hk).trans (h.taken k hk)
  held l k hl hk := (h'.held l k hl hk).trans (h.held l k hl hk)

end Proto

namespace Local
variable {σ : Local V L} {d : DB V} {k : κ}

theorem view_off (h : σ.pend k = none) : σ.view k = σ.db k := Txn.view_off h _

theorem view_on_off (h : σ.pend k = none) : (σ.on d).view k = d k := Txn.view_off h d

theorem view_on_clean (h : σ.pend = clean) : (σ.on d).view = d := by
  rw [Local.view, Local.on, h, view_clean]

end Local

/-- A guarantee given row by row. -/
def Along (R : (k : κ) → V k → V k → Prop) (d d' : DB V) : Prop := ∀ k, R k (d k) (d' k)

/-- What a call's writes do row by row, they still do after the others have moved: the rows
it has written do not move, and of the rest it asks nothing. -/
theorem Along.moves {R : (k : κ) → V k → V k → Prop} (hR : ∀ k, σ.pend k = none → ∀ v, R k v v)
    (h : Along R σ.db σ.view) (hd : P.Moves σ d) : Along R d (σ.on d).view := by
  intro k
  cases hk : σ.pend k with
  | none =>
    rw [Local.view_on_off hk]
    exact hR k hk _
  | some v =>
    have hrow : d k = σ.db k := hd.taken k (by rw [hk]; rfl)
    have hview : (σ.on d).view k = σ.view k := by simp [Local.view, Local.on, Txn.view, hk]
    rw [hrow, hview]
    exact h k

/-- The program reads, and writes rows of `K` only; it neither commits nor takes a mutex. -/
def Prog.Writes (K : κ → Prop) : Prog V L α → Prop
  | .ret _ => True
  | .read next => ∀ r, (next r).Writes K
  | .update k _ next => K k ∧ ∀ r, (next r).Writes K
  | _ => False

variable {K : κ → Prop} {g : α → Prog V L β}

theorem writes_bind (hg : ∀ a, (g a).Writes K) : ∀ {x : Prog V L α}, x.Writes K → (x >>= g).Writes K
  | .ret a, _ => hg a
  | .read _, h => fun r => writes_bind hg (h r)
  | .update _ _ _, h => ⟨h.1, fun r => writes_bind hg (h.2 r)⟩

theorem writes_select : (select : Prog V L (Option (DB V))).Writes K := fun _ => trivial

variable {k : κ} {f : V k → Option (V k)}

theorem writes_update (h : K k) : (update k f : Prog V L (Option Bool)).Writes K :=
  ⟨h, fun _ => trivial⟩

/-- A program that only reads may be taken as one that writes. -/
theorem writes_of_reads : ∀ {x : Prog V L α}, (x.Writes fun _ => False) → x.Writes K
  | .ret _, _ => trivial
  | .read _, h => fun r => writes_of_reads (h r)
  | .update _ _ _, h => h.1.elim

variable {l : L}

section wp
variable [DecidableEq κ]

variable {σ : Local V L}

/-- One more write, and what it does to its row. -/
theorem Along.write {R R' : (k : κ) → V k → V k → Prop} {v : V k} (h : Along R σ.db σ.view)
    (hk : R' k (σ.db k) v) (hoff : ∀ k', k' ≠ k → ∀ a b, R k' a b → R' k' a b) :
    Along R' σ.db ({ σ with pend := write σ.pend k v } : Local V L).view := by
  intro k'
  show R' k' (σ.db k') (Txn.view (Txn.write σ.pend k v) σ.db k')
  rw [view_write]
  by_cases e : k' = k
  · subst e
    rw [Function.update_self]
    exact hk
  · rw [Function.update_of_ne e]
    exact hoff k' e _ _ (h k')

/-- What a call has written, row by row, and that nothing is asked of the other rows. -/
structure Wrote (R : (k : κ) → V k → V k → Prop) (σ : Local V L) : Prop where
  along : Along R σ.db σ.view
  rest : ∀ k, σ.pend k = none → ∀ v, R k v v

section
variable {R R' : (k : κ) → V k → V k → Prop} {v : V k}

omit [DecidableEq κ] in
theorem Wrote.moves (h : Wrote R σ) (hd : P.Moves σ d) : Wrote R (σ.on d) := ⟨h.along.moves h.rest hd, h.rest⟩

/-- One more write: its row is asked for `R'`. -/
theorem Wrote.write (R' : (k : κ) → V k → V k → Prop) (h : Wrote R σ) (hk : R' k (σ.db k) v) :
    Wrote (Function.update R k (R' k)) { σ with pend := write σ.pend k v } := by
  refine ⟨h.along.write (by rwa [Function.update_self]) fun k' hk' a b hab => ?_, fun k' hk' w => ?_⟩
  · rwa [Function.update_of_ne hk']
  · obtain ⟨hne, hoff⟩ := write_eq_none.mp hk'
    rw [Function.update_of_ne hne]
    exact h.rest k' hoff w

theorem of_update {k' : κ} {a b : V k'} (h : Function.update R k (R' k) k' a b)
    (hoff : k' ≠ k → R k' a b → R' k' a b) : R' k' a b := by
  by_cases e : k' = k
  · subst e
    rwa [Function.update_self] at h
  · rw [Function.update_of_ne e] at h
    exact hoff e h

end

def wp (P : Proto ι V L) (i : ι) : Prog V L α → (α → Local V L → Prop) → Local V L → Prop
  | .ret a, Q, σ => ∀ d, P.Moves σ d → Q a (σ.on d)
  | .read next, Q, σ => ∀ d, P.Moves σ d →
      wp P i (next (some (σ.on d).view)) Q (σ.on d) ∧ wp P i (next none) Q (σ.on d)
  | .update k f next, Q, σ => ∀ d, P.Moves σ d →
      (P.guard i k f ((σ.on d).view k) true → match f ((σ.on d).view k) with
        | some v => (∀ l, P.prot l k → σ.held l) ∧
            wp P i (next (some true)) Q { σ.on d with pend := write σ.pend k v }
        | none => wp P i (next (some false)) Q (σ.on d)) ∧
      (P.guard i k f ((σ.on d).view k) false → wp P i (next none) Q (σ.on d))
  | .commit next, Q, σ => ∀ d, P.Moves σ d →
      P.guar i σ.own d (σ.on d).view ∧
      wp P i (next true) Q (σ.on d).publish ∧
      wp P i (next false) Q (σ.on d).drop
  | .rollback next, Q, σ => ∀ d, P.Moves σ d → wp P i next Q (σ.on d).drop
  | .lock l next, Q, σ => ∀ d, P.Moves σ d →
      wp P i next Q { σ.on d with held := fun l' => l' = l ∨ σ.held l' }
  | .unlock l next, Q, σ => ∀ d, P.Moves σ d →
      (∀ k, P.prot l k → σ.pend k = none) ∧
      wp P i next Q { σ.on d with held := fun l' => l' ≠ l ∧ σ.held l' }

variable {P : Proto ι V L} {i : ι}

variable {Q : α → Local V L → Prop}

variable {x : Prog V L α}

/-- What the others do to the committed rows does not invalidate a `wp`. -/
theorem wp_moves [P.Order] (h : wp P i x Q σ) (hd : P.Moves σ d) : wp P i x Q (σ.on d) := by
  cases x <;> exact fun d' hd' => h d' (hd.trans hd')

/-- What the end of a program leads to is whatever the rest of the program needs. -/
theorem wp_seq (g : α → Prog V L β) {Q' : β → Local V L → Prop}
    (hQ : ∀ a σ, (∀ d, P.Moves σ d → Q a (σ.on d)) → wp P i (g a) Q' σ) :
    ∀ {x : Prog V L α} {σ : Local V L}, wp P i x Q σ → wp P i (x >>= g) Q' σ
  | .ret _, _, h => hQ _ _ h
  | .read _, _, h => fun d hd => ⟨wp_seq g hQ (h d hd).1, wp_seq g hQ (h d hd).2⟩
  | .update k f next, σ, h => fun d hd => by
    refine ⟨fun hg => ?_, fun hg => wp_seq g hQ ((h d hd).2 hg)⟩
    have := (h d hd).1 hg
    cases hf : f ((σ.on d).view k) with
    | some v => rw [hf] at this; exact ⟨this.1, wp_seq g hQ this.2⟩
    | none => rw [hf] at this; exact wp_seq g hQ this
  | .commit _, _, h => fun d hd => ⟨(h d hd).1, wp_seq g hQ (h d hd).2.1, wp_seq g hQ (h d hd).2.2⟩
  | .rollback _, _, h => fun d hd => wp_seq g hQ (h d hd)
  | .lock _ _, _, h => fun d hd => wp_seq g hQ (h d hd)
  | .unlock _ _, _, h => fun d hd => ⟨(h d hd).1, wp_seq g hQ (h d hd).2⟩

theorem wp_end {Q Q' : α → Local V L → Prop}
    (hQ : ∀ a σ, (∀ d, P.Moves σ d → Q a (σ.on d)) → ∀ d, P.Moves σ d → Q' a (σ.on d))
    (h : wp P i x Q σ) : wp P i x Q' σ :=
  x.bind_ret ▸ wp_seq .ret hQ h

theorem wp_mono {Q Q' : α → Local V L → Prop} (hQ : ∀ a σ, Q a σ → Q' a σ) : wp P i x Q σ → wp P i x Q' σ :=
  wp_end fun _ _ h d hd => hQ _ _ (h d hd)

/-- A postcondition may be read at any later moment. -/
theorem wp_later [P.Order] : wp P i x Q σ → wp P i x (fun a σ' => ∀ d, P.Moves σ' d → Q a (σ'.on d)) σ :=
  wp_end fun _ _ h _ hd d' hd' => h d' (hd.trans hd')

theorem wp_bind [P.Order] {Q : β → Local V L → Prop} :
    wp P i x (fun a σ' => wp P i (g a) Q σ') σ → wp P i (x >>= g) Q σ :=
  wp_seq g fun _ σ h => h σ.db (.refl σ)

/-- Call a program by its specification. -/
theorem wp_then [P.Order] {R : β → Local V L → Prop} (hx : wp P i x Q σ)
    (hg : ∀ a σ', Q a σ' → wp P i (g a) R σ') : wp P i (x >>= g) R σ :=
  wp_bind (wp_mono hg hx)

/-! One rule per statement, for the statement followed by the rest of the program. -/

/-- What the others do cannot make `Q` false. -/
def Proto.Stable (P : Proto ι V L) (Q : α → Local V L → Prop) : Prop :=
  ∀ a σ d, Q a σ → P.Moves σ d → Q a (σ.on d)

theorem stable_wp [P.Order] (g : α → Prog V L β) (Q : β → Local V L → Prop) :
    P.Stable fun a σ => wp P i (g a) Q σ :=
  fun _ _ _ h hd => wp_moves h hd

theorem wp_pure {a : α} (hQ : P.Stable Q) (h : Q a σ) : wp P i (pure a) Q σ :=
  fun d hd => hQ a σ d h hd

section Statements
variable {Q : β → Local V L → Prop} {σ : Local V L}

theorem wp_select {g : Option (DB V) → Prog V L β}
    (hok : ∀ d, P.Moves σ d → wp P i (g (some (σ.on d).view)) Q (σ.on d))
    (hfail : ∀ d, P.Moves σ d → wp P i (g none) Q (σ.on d)) : wp P i (select >>= g) Q σ :=
  fun d hd => ⟨hok d hd, hfail d hd⟩

theorem wp_update {g : Option Bool → Prog V L β}
    (hwrite : ∀ d v, P.Moves σ d → P.guard i k f ((σ.on d).view k) true → f ((σ.on d).view k) = some v →
      (∀ l, P.prot l k → σ.held l) ∧ wp P i (g (some true)) Q { σ.on d with pend := write σ.pend k v })
    (hskip : ∀ d, P.Moves σ d → P.guard i k f ((σ.on d).view k) true → f ((σ.on d).view k) = none →
      wp P i (g (some false)) Q (σ.on d))
    (hfail : ∀ d, P.Moves σ d → P.guard i k f ((σ.on d).view k) false → wp P i (g none) Q (σ.on d)) :
    wp P i (update k f >>= g) Q σ := by
  intro d hd
  refine ⟨fun hg => ?_, hfail d hd⟩
  cases hf : f ((σ.on d).view k) with
  | some v => exact hwrite d v hd hg hf
  | none => exact hskip d hd hg hf

theorem wp_lock {g : Unit → Prog V L β}
    (h : ∀ d, P.Moves σ d → wp P i (g ()) Q { σ.on d with held := fun l' => l' = l ∨ σ.held l' }) :
    wp P i (lock l >>= g) Q σ := h

theorem wp_unlock {g : Unit → Prog V L β} (hp : ∀ k, P.prot l k → σ.pend k = none)
    (h : ∀ d, P.Moves σ d → wp P i (g ()) Q { σ.on d with held := fun l' => l' ≠ l ∧ σ.held l' }) :
    wp P i (unlock l >>= g) Q σ :=
  fun d hd => ⟨hp, h d hd⟩

end Statements

/-- The frame rule: what neither the others nor a write of `K` can make false stays true. -/
theorem wp_writes {K : κ → Prop} {I : Local V L → Prop} (hprot : ∀ l k, K k → ¬ P.prot l k)
    (hmoves : ∀ σ d, I σ → P.Moves σ d → I (σ.on d))
    (hwrite : ∀ σ k v, K k → I σ → I { σ with pend := write σ.pend k v }) :
    ∀ {x : Prog V L α} {σ : Local V L}, x.Writes K → I σ → wp P i x (fun _ => I) σ
  | .ret _, σ, _, h => fun d hd => hmoves σ d h hd
  | .read _, σ, hx, h => fun d hd =>
    ⟨wp_writes hprot hmoves hwrite (hx _) (hmoves σ d h hd), wp_writes hprot hmoves hwrite (hx _) (hmoves σ d h hd)⟩
  | .update k f next, σ, hx, h => fun d hd => by
    have hI := hmoves σ d h hd
    refine ⟨fun _ => ?_, fun _ => wp_writes hprot hmoves hwrite (hx.2 _) hI⟩
    cases f ((σ.on d).view k) with
    | some v => exact ⟨fun l hl => absurd hl (hprot l k hx.1),
      wp_writes hprot hmoves hwrite (hx.2 _) (hwrite _ k v hx.1 hI)⟩
    | none => exact wp_writes hprot hmoves hwrite (hx.2 _) hI

/-- Reading changes nothing: whatever the answers are, only the others have moved. -/
theorem wp_reads [P.Order] (hx : x.Writes fun _ => False)
    (h : ∀ r d, P.Moves σ d → Q r (σ.on d)) : wp P i x Q σ := by
  have hframe : wp P i x (fun _ σ' => ∃ d, P.Moves σ d ∧ σ' = σ.on d) σ := by
    refine wp_writes (fun _ _ h => h.elim) ?_ (fun _ _ _ h => h.elim) hx ⟨σ.db, .refl σ, rfl⟩
    rintro _ d' ⟨d, hd, rfl⟩ hd'
    exact ⟨d', hd.trans hd', rfl⟩
  refine wp_mono ?_ hframe
  rintro r _ ⟨d, hd, rfl⟩
  exact h r d hd

/-- `DB.Transaction`: on success the body must leave its writes within the guarantee. -/
theorem wp_transaction [P.Order] {ε : Type} {failed : ε} {body : Prog V L (Except ε α)}
    {Q : Except ε α → Local V L → Prop} (hQ : P.Stable Q) (h : wp P i body (fun
      | .error e => fun σ' => Q (.error e) σ'.drop
      | .ok a => fun σ' => P.guar i σ'.own σ'.db σ'.view ∧ Q (.ok a) σ'.publish ∧ Q (.error failed) σ'.drop) σ) :
    wp P i (transaction failed body) Q σ := by
  refine wp_then (wp_later h) fun r σ' hr => ?_
  cases r with
  | error e => exact fun d hd => wp_pure hQ (hr d hd)
  | ok a =>
    intro d hd
    obtain ⟨hg, hok, hfail⟩ := hr d hd
    exact ⟨hg, wp_pure hQ hok, wp_pure hQ hfail⟩

/-- A statement outside a transaction, on a call with nothing pending. The row that it has written
does not move before the commit. -/
theorem wp_autocommit [P.Order] {Q : Option Bool → Local V L → Prop}
    (hQ : P.Stable Q) (hclean : σ.pend = clean) (hheld : ∀ l, P.prot l k → σ.held l)
    (hwrite : ∀ d v, P.Moves σ d → P.guard i k f (d k) true → f (d k) = some v →
      P.guar i σ.own d (Function.update d k v) ∧
      Q (some true) { σ with db := Function.update d k v, own := (d, Function.update d k v) :: σ.own })
    (hskip : ∀ d d', P.Moves σ d → f (d k) = none → P.Moves (σ.on d) d' →
      P.guar i σ.own d' d' ∧ Q (some false) { σ with db := d', own := (d', d') :: σ.own })
    (hfail : ∀ d, P.Moves σ d → Q none (σ.on d)) : wp P i (autocommit k f) Q σ := by
  obtain ⟨db, pend, held, own⟩ := σ
  subst hclean
  refine wp_update (fun d v hd hg hf => ⟨hheld, fun d' hd' => ?_⟩) (fun d hd _ hf d' hd' => ?_)
    (fun d hd _ d' hd' => ?_)
  -- three chances to fail: the statement, the commit after a write, the commit after no write
  · have hrow : d' k = d k := hd'.taken k (by simp [write])
    have hmoves : P.Moves ⟨db, clean, held, own⟩ d' := by
      refine ⟨Proto.Order.trans _ _ _ hd.rely hd'.rely, fun _ h => absurd h (by simp [clean]), ?_⟩
      exact fun l k' h h' => (hd'.held l k' h h').trans (hd.held l k' h h')
    obtain ⟨hg', hq⟩ := hwrite d' v hmoves (hrow ▸ hg) (hrow ▸ hf)
    have hv : view (write clean k v) d' = Function.update d' k v := view_write clean k v d'
    refine ⟨?_, wp_pure hQ ?_, wp_pure hQ (hfail d' hmoves)⟩
    · show P.guar i own d' (view (write clean k v) d')
      rw [hv]; exact hg'
    · simp only [Local.publish, Local.on, Local.view, hv]; exact hq
  · obtain ⟨hg', hq⟩ := hskip d d' hd hf hd'
    exact ⟨hg', wp_pure hQ hq, wp_pure hQ (hfail d' (hd.trans hd'))⟩
  · exact wp_pure hQ (hfail d' (hd.trans hd'))

end wp

/-! Every interleaving. -/

section Reach
variable [DecidableEq ι]

def ownChanges (i : ι) (hist : List (Commit ι V)) : List (Change V) :=
  (hist.filter (·.call = i)).map fun c => (c.before, c.after)

variable {i j : ι} {P : Proto ι V L}

theorem ownChanges_self (d d' : DB V) (hist : List (Commit ι V)) :
    ownChanges i (⟨i, d, d'⟩ :: hist) = (d, d') :: ownChanges i hist := by
  simp [ownChanges]

theorem ownChanges_other (hj : j ≠ i) (d d' : DB V) (hist : List (Commit ι V)) :
    ownChanges j (⟨i, d, d'⟩ :: hist) = ownChanges j hist := by
  simp [ownChanges, hj.symm]

theorem mem_ownChanges {hist : List (Commit ι V)} {a b : DB V} :
    (a, b) ∈ ownChanges i hist ↔ ∃ c ∈ hist, c.call = i ∧ c.before = a ∧ c.after = b := by
  simp [ownChanges, and_assoc]

def Sys.loc (s : Sys ι V L α) (i : ι) : Local V L :=
  { db := s.db, pend := s.pend i, held := fun l => s.mutex l = some i, own := ownChanges i s.hist }

section
variable (s : Sys ι V L α)

theorem Sys.pend_release_self (i : ι) : (s.release i).pend i = clean := by
  funext k
  cases hk : s.dirty k with
  | none => simp [pend, release, hk, clean]
  | some p => by_cases h : p.1 = i <;> simp [pend, release, taken, hk, h, clean]

theorem Sys.pend_release_other (hj : j ≠ i) : (s.release i).pend j = s.pend j := by
  funext k
  cases hk : s.dirty k with
  | none => simp [pend, release, hk]
  | some p =>
    by_cases h : p.1 = i
    · simp [pend, release, taken, hk, h, hj.symm]
    · simp [pend, release, taken, hk, h]

/-- A row one call has written, no other call has. -/
theorem Sys.pend_other (hj : j ≠ i) (h : (s.pend i k).isSome) : s.pend j k = none := by
  simp only [pend] at h ⊢
  cases hk : s.dirty k with
  | none => rfl
  | some p =>
    rw [hk] at h
    by_cases hi : p.1 = i
    · simp [hi, hj.symm]
    · simp [hi] at h

theorem Sys.goto_prog_self (i : ι) (p : Prog V L α) : (s.goto i p).prog i = p := by
  simp [goto]

theorem Sys.goto_prog_other (p : Prog V L α) (hj : j ≠ i) : (s.goto i p).prog j = s.prog j := by
  simp [goto, hj]

theorem Sys.loc_goto (i j : ι) (p : Prog V L α) : (s.goto i p).loc j = s.loc j := rfl

theorem Sys.loc_release_self (i : ι) : (s.release i).loc i = (s.loc i).drop := by
  simp only [loc, pend_release_self]; rfl

theorem Sys.loc_release_other (hj : j ≠ i) : (s.release i).loc j = s.loc j := by
  simp only [loc, pend_release_other _ hj]; rfl

theorem Sys.loc_publish_self (i : ι) : ((s.publish i).release i).loc i = (s.loc i).publish := by
  rw [loc_release_self]
  simp only [loc, publish, ownChanges_self]; rfl

theorem Sys.loc_publish_other (hj : j ≠ i) :
    ((s.publish i).release i).loc j = (s.loc j).on (s.view i) := by
  rw [loc_release_other _ hj]
  simp only [loc, publish, ownChanges_other hj]; rfl

end

section Take
variable [DecidableEq κ] {s : Sys ι V L α} {i : ι} {k : κ}

theorem Sys.pend_take_self (v : V k) :
    ({ s with dirty := Function.update s.dirty k (some (i, v)) } : Sys ι V L α).pend i = write (s.pend i) k v := by
  funext k'
  by_cases h : k' = k
  · subst h; simp [pend, write]
  · simp [pend, write, h]

theorem Sys.pend_take_other (ht : s.taken i k = false) (v : V k) {j : ι} (hj : j ≠ i) :
    ({ s with dirty := Function.update s.dirty k (some (i, v)) } : Sys ι V L α).pend j = s.pend j := by
  funext k'
  by_cases h : k' = k
  · subst h
    cases hk : s.dirty k' with
    | none => simp [pend, hk, hj.symm]
    | some p =>
      have hp : p.1 = i := by simpa [taken, hk] using ht
      simp [pend, hk, hp, hj.symm]
  · simp [pend, h]

end Take

section Mutex
variable [DecidableEq L] {s : Sys ι V L α} {i j : ι} {l : L}

theorem Sys.loc_lock_self : ({ s with mutex := Function.update s.mutex l (some i) } : Sys ι V L α).loc i =
    { s.loc i with held := fun l' => l' = l ∨ s.mutex l' = some i } := by
  simp only [loc]
  congr 1
  funext l'
  by_cases e : l' = l
  · subst e; simp
  · simp [e]

theorem Sys.loc_lock_other (hfree : s.mutex l = none) (hj : j ≠ i) :
    ({ s with mutex := Function.update s.mutex l (some i) } : Sys ι V L α).loc j = s.loc j := by
  simp only [loc]
  congr 1
  funext l'
  by_cases e : l' = l
  · subst e; simp [hfree, hj.symm]
  · simp [e]

theorem Sys.loc_unlock_self :
    ({ s with mutex := if s.mutex l = some i then Function.update s.mutex l none else s.mutex } :
      Sys ι V L α).loc i = { s.loc i with held := fun l' => l' ≠ l ∧ s.mutex l' = some i } := by
  simp only [loc]
  congr 1
  funext l'
  by_cases e : l' = l
  · subst e; by_cases h : s.mutex l' = some i <;> simp [h]
  · by_cases h : s.mutex l = some i <;> simp [h, e]

theorem Sys.loc_unlock_other (l : L) (hj : j ≠ i) :
    ({ s with mutex := if s.mutex l = some i then Function.update s.mutex l none else s.mutex } :
      Sys ι V L α).loc j = s.loc j := by
  simp only [loc]
  congr 1
  funext l'
  by_cases h : s.mutex l = some i
  · by_cases e : l' = l
    · subst e; simp [h, hj.symm]
    · simp [h, e]
  · simp [h]

end Mutex

/-- The commits lead from `d₀` to `d`. -/
def Chain (d₀ : DB V) : List (Commit ι V) → DB V → Prop
  | [], d => d = d₀
  | c :: cs, d => c.after = d ∧ Chain d₀ cs c.before

def Kept (P : Proto ι V L) : List (Commit ι V) → Prop
  | [] => True
  | c :: cs => P.guar c.call (ownChanges c.call cs) c.before c.after ∧ Kept P cs

/-- Induction over the commits: what holds at the start, and is kept by every commit within
its guarantee, holds now. -/
theorem Kept.rule {d₀ : DB V} {I : List (Commit ι V) → DB V → Prop} (start : I [] d₀)
    (commit : ∀ i hist b a, I hist b → P.guar i (ownChanges i hist) b a → I (⟨i, b, a⟩ :: hist) a) :
    ∀ {hist : List (Commit ι V)} {d : DB V}, Chain d₀ hist d → Kept P hist → I hist d
  | [], _, hc, _ => by
    cases hc
    exact start
  | ⟨i, b, a⟩ :: hist, _, ⟨e, hc⟩, ⟨hg, hk⟩ => by
    cases e
    exact commit i hist b a (Kept.rule start commit hc hk) hg

theorem Kept.mem {c : Commit ι V} :
    ∀ {hist : List (Commit ι V)}, Kept P hist → c ∈ hist → ∃ own, P.guar c.call own c.before c.after
  | _ :: cs, ⟨hg, hk⟩, h => by
    rcases List.mem_cons.mp h with rfl | h
    · exact ⟨_, hg⟩
    · exact hk.mem h

/-- What makes `X` true where it was false happens once, if no commit undoes `X`. -/
theorem Kept.once {d₀ : DB V} {X : DB V → Prop} {p : Commit ι V → Bool}
    (makes : ∀ c, p c = true → ¬ X c.before ∧ X c.after) (stays : ∀ i own b a, P.guar i own b a → X b → X a)
    {hist : List (Commit ι V)} (hc : Chain d₀ hist d) (hk : Kept P hist) : (hist.filter p).length ≤ 1 := by
  have count : (hist.filter p).length = 0 ∨ ((hist.filter p).length = 1 ∧ X d) := by
    refine hk.rule (I := fun hist d => (hist.filter p).length = 0 ∨ ((hist.filter p).length = 1 ∧ X d))
      (.inl rfl) (fun i hist b a ih hg => ?_) hc
    by_cases hp : p ⟨i, b, a⟩ = true
    · obtain ⟨hb, ha⟩ := makes _ hp
      rw [List.filter_cons_of_pos hp]
      rcases ih with h | ⟨-, hX⟩
      · exact .inr ⟨by simpa using h, ha⟩
      · exact absurd hX hb
    · rw [List.filter_cons_of_neg hp]
      exact ih.imp_right fun h => ⟨h.1, stays _ _ _ _ hg h.2⟩
  omega

structure Good (P : Proto ι V L) (Q : ι → α → Local V L → Prop) (d₀ : DB V) (s : Sys ι V L α)
    [DecidableEq κ] : Prop where
  calls : ∀ i, wp P i (s.prog i) (Q i) (s.loc i)
  chain : Chain d₀ s.hist s.db
  kept : Kept P s.hist
  prot : ∀ i k, (s.pend i k).isSome → ∀ l, P.prot l k → s.mutex l = some i

section Rule
variable [DecidableEq κ] {P : Proto ι V L} {Q : ι → α → Local V L → Prop} {d₀ : DB V}
  {s s' : Sys ι V L α} {i : ι}

section
variable (h : Good P Q d₀ s)
include h

/-- To re-establish `Good` after a step of call `i` that leaves the commits
alone: its own `wp`, and that nobody else's part has changed. -/
theorem Good.quiet (hdb : s'.db = s.db) (hh : s'.hist = s.hist)
    (hprog : ∀ j, j ≠ i → s'.prog j = s.prog j) (hloc : ∀ j, j ≠ i → s'.loc j = s.loc j)
    (hi : wp P i (s'.prog i) (Q i) (s'.loc i))
    (hp : ∀ k, (s'.pend i k).isSome → ∀ l, P.prot l k → s'.mutex l = some i) : Good P Q d₀ s' where
  calls j := by
    by_cases hj : j = i
    · subst hj; exact hi
    · rw [hprog j hj, hloc j hj]; exact h.calls j
  chain := by rw [hdb, hh]; exact h.chain
  kept := by rw [hh]; exact h.kept
  prot j k hk l hl := by
    by_cases hj : j = i
    · subst hj; exact hp k hk l hl
    have e := hloc j hj
    have hpend : s'.pend j = s.pend j := congrArg Local.pend e
    have hheld : (s'.mutex l = some j) = (s.mutex l = some j) := congrFun (congrArg Local.held e) l
    rw [hheld]
    exact h.prot j k (by rw [← hpend]; exact hk) l hl

/-- A commit of call `i` is a move that every other call is prepared for. -/
theorem Good.moves_commit [P.Sound] {own : List (Change V)}
    (hg : P.guar i own s.db (s.view i)) {j : ι} (hj : j ≠ i) : P.Moves (s.loc j) (s.view i) where
  rely := Proto.Sound.guar _ _ _ _ hg
  taken k hk := view_off (s.pend_other hj.symm hk) _
  held l k hl hk := by
    refine view_off ?_ _
    cases hpk : s.pend i k with
    | none => rfl
    | some v =>
      have := h.prot i k (by rw [hpk]; rfl) l hk
      rw [show s.mutex l = some j from hl] at this
      exact absurd (Option.some.inj this) hj

theorem Good.commit [P.Sound] {next : Bool → Prog V L α}
    (hp : s.prog i = .commit next) : Good P Q d₀ (((s.publish i).release i).goto i (next true)) := by
  have hw := h.calls i
  rw [hp] at hw
  obtain ⟨hg, hok, -⟩ := hw s.db (.refl _)
  refine ⟨fun j => ?_, ⟨rfl, h.chain⟩, ⟨hg, h.kept⟩, fun j k hk l hl => ?_⟩
  · by_cases hj : j = i
    · subst hj
      rw [goto_prog_self, loc_goto, loc_publish_self]
      exact hok
    · rw [goto_prog_other _ _ hj, loc_goto, loc_publish_other _ hj]
      exact wp_moves (h.calls j) (h.moves_commit hg hj)
  · change ((s.release i).pend j k).isSome at hk
    by_cases hj : j = i
    · subst hj; rw [pend_release_self] at hk; simp [clean] at hk
    · rw [pend_release_other _ hj] at hk; exact h.prot j k hk l hl

variable {p : Prog V L α}

theorem Good.goto (hw : wp P i p (Q i) (s.loc i)) : Good P Q d₀ (s.goto i p) := by
  refine h.quiet rfl rfl (fun j hj => goto_prog_other _ _ hj) (fun _ _ => rfl) ?_ (h.prot i)
  rw [goto_prog_self]
  exact hw

theorem Good.drop (hw : wp P i p (Q i) (s.loc i).drop) : Good P Q d₀ ((s.release i).goto i p) := by
  refine h.quiet rfl rfl (fun j hj => goto_prog_other _ _ hj) (fun j hj => ?_) ?_ ?_
  · rw [loc_goto, loc_release_other _ hj]
  · rw [goto_prog_self, loc_goto, loc_release_self]
    exact hw
  · intro k hk
    change ((s.release i).pend i k).isSome at hk
    rw [pend_release_self] at hk
    simp [clean] at hk

theorem Good.write {v : V k} (ht : s.taken i k = false)
    (hl : ∀ l, P.prot l k → s.mutex l = some i) (hw : wp P i p (Q i) { s.loc i with pend := write (s.pend i) k v }) :
    Good P Q d₀ ({ s with dirty := Function.update s.dirty k (some (i, v)) }.goto i p) := by
  refine h.quiet rfl rfl (fun j hj => goto_prog_other _ _ hj) (fun j hj => ?_) ?_ ?_
  · rw [loc_goto, loc, pend_take_other ht v hj, loc]
  · rw [goto_prog_self, loc_goto, loc, pend_take_self]
    exact hw
  intro k' hk' l hlk
  change (({ s with dirty := Function.update s.dirty k (some (i, v)) } : Sys ι V L α).pend i k').isSome at hk'
  rw [pend_take_self, write_isSome] at hk'
  rcases hk' with rfl | hk'
  · exact hl l hlk
  · exact h.prot i k' hk' l hlk

end

theorem good_start {prog : ι → Prog V L α} (h : ∀ i, wp P i (prog i) (Q i) (Local.fresh d₀)) :
    Good P Q d₀ (start d₀ prog) where
  calls i := by
    have e : (start d₀ prog).loc i = Local.fresh d₀ := by simp [loc, start]; rfl
    rw [e]; exact h i
  chain := rfl
  kept := trivial
  prot i k hk := by simp [start, pend] at hk

variable [DecidableEq L]

section
variable (h : Good P Q d₀ s)
include h

omit [DecidableEq L] in
theorem Good.returned [P.Order] {a : α} (ha : s.prog i = .ret a) : Q i a (s.loc i) := by
  have hw := h.calls i
  rw [ha] at hw
  exact hw s.db (.refl _)

/-- A mutex is taken: only the holder's part changes. -/
theorem Good.lock (hfree : s.mutex l = none)
    (hw : wp P i p (Q i) { s.loc i with held := fun l' => l' = l ∨ (s.loc i).held l' }) :
    Good P Q d₀ ({ s with mutex := Function.update s.mutex l (some i) }.goto i p) := by
  refine h.quiet rfl rfl (fun j hj => goto_prog_other _ _ hj) (fun j hj => ?_) ?_ ?_
  · exact loc_lock_other hfree hj
  · rw [goto_prog_self, loc_goto, loc_lock_self]
    exact hw
  intro k hk l' hl'
  by_cases e : l' = l
  · subst e
    exact Function.update_self ..
  · exact (Function.update_of_ne e _ _).trans (h.prot i k hk l' hl')

/-- A mutex is given back: a row still pending is not one that it protects. -/
theorem Good.unlock (hclean : ∀ k, P.prot l k → s.pend i k = none)
    (hw : wp P i p (Q i) { s.loc i with held := fun l' => l' ≠ l ∧ (s.loc i).held l' }) :
    Good P Q d₀
      ({ s with mutex := if s.mutex l = some i then Function.update s.mutex l none else s.mutex }.goto i p) := by
  refine h.quiet rfl rfl (fun j hj => goto_prog_other _ _ hj) (fun j hj => ?_) ?_ ?_
  · rw [loc_goto]
    exact loc_unlock_other l hj
  · rw [goto_prog_self, loc_goto, loc_unlock_self]
    exact hw
  intro k hk l' hl'
  change (s.pend i k).isSome at hk
  have e : l' ≠ l := by
    rintro rfl
    rw [hclean k hl'] at hk
    cases hk
  have hmut := h.prot i k hk l' hl'
  show (if s.mutex l = some i then Function.update s.mutex l none else s.mutex) l' = some i
  split
  · rw [Function.update_of_ne e]
    exact hmut
  · exact hmut

theorem Good.step [P.Sound] {ok : Bool} (hm : meets P.guard s i ok)
    (hs : step s i ok = some s') : Good P Q d₀ s' := by
  have hw := h.calls i
  unfold meets at hm
  unfold Txn.step at hs
  split at hs
  · cases hs
  · -- a read, answered or failed
    rename_i next hp
    rw [hp] at hw
    obtain ⟨hok, hfail⟩ := hw s.db (.refl _)
    cases hs
    apply h.goto
    cases ok
    · exact hfail
    · exact hok
  · rename_i k f next hp
    rw [hp] at hw hm
    obtain ⟨hok, hfail⟩ := hw s.db (.refl _)
    split at hs
    · rename_i htrue
      subst htrue
      have hok := hok hm
      split at hs
      · cases hs
      rename_i ht
      change (match f (s.view i k) with
        | some v => (∀ l, P.prot l k → s.mutex l = some i) ∧
            wp P i (next (some true)) (Q i) { s.loc i with pend := Txn.write (s.pend i) k v }
        | none => wp P i (next (some false)) (Q i) (s.loc i)) at hok
      split at hs
      · -- the row is written
        rename_i v hf
        rw [hf] at hok
        cases hs
        exact h.write (by simpa using ht) hok.1 hok.2
      · -- the WHERE clause matches nothing
        rename_i hf
        rw [hf] at hok
        cases hs
        exact h.goto hok
    · rename_i hfalse
      rw [Bool.not_eq_true] at hfalse
      subst hfalse
      cases hs
      exact h.goto (hfail hm)
  · rename_i next hp
    split at hs
    · cases hs; exact h.commit hp
    · rw [hp] at hw
      cases hs
      exact h.drop (hw s.db (.refl _)).2.2
  · rename_i next hp
    rw [hp] at hw
    cases hs
    exact h.drop (hw s.db (.refl _))
  · rename_i l next hp
    rw [hp] at hw
    split at hs
    · rename_i hfree
      cases hs
      exact h.lock hfree (hw s.db (.refl _))
    · cases hs
  · rename_i l next hp
    rw [hp] at hw
    obtain ⟨hclean, hnext⟩ := hw s.db (.refl _)
    cases hs
    exact h.unlock hclean hnext

end

/-- **Every interleaving keeps to the protocol.** If every call has its `wp`, then in
every state reached the commits made so far lead from the first database to the present
one, each within the guarantee of the call that made it, and every call's remaining
program still has its `wp`. -/
theorem reach_sound [P.Sound] {prog : ι → Prog V L α} (h : ∀ i, wp P i (prog i) (Q i) (Local.fresh d₀))
    (hr : Reach P.guard (start d₀ prog) s) : Good P Q d₀ s := by
  induction hr with
  | init => exact good_start h
  | step i ok _ hm hs ih => exact ih.step hm hs

/-- Only a commit changes the committed rows. -/
theorem step_db {ok : Bool} (hs : Txn.step s i ok = some s') :
    s'.db = s.db ∨ ∃ next, s.prog i = .commit next ∧ s'.db = s.view i := by
  unfold Txn.step at hs
  split at hs
  · cases hs
  · cases hs
    exact .inl rfl
  · split at hs
    · split at hs
      · cases hs
      · split at hs <;> cases hs <;> exact .inl rfl
    · cases hs
      exact .inl rfl
  · rename_i next hp
    split at hs <;> cases hs
    · exact .inr ⟨next, hp, rfl⟩
    · exact .inl rfl
  · cases hs
    exact .inl rfl
  · split at hs <;> cases hs
    exact .inl rfl
  · cases hs
    exact .inl rfl

/-- What every commit keeps is kept from any state of a run to any later one. -/
theorem Good.between [P.Sound] {R : DB V → DB V → Prop} (refl : ∀ d, R d d)
    (trans : ∀ {d1 d2 d3}, R d1 d2 → R d2 d3 → R d1 d3) (commit : ∀ i own b a, P.guar i own b a → R b a)
    (h : Good P Q d₀ s) (hr : Reach P.guard s s') : R s.db s'.db := by
  have key : Good P Q d₀ s' ∧ R s.db s'.db := by
    induction hr with
    | init => exact ⟨h, refl _⟩
    | step i ok _ hm hs ih =>
      refine ⟨ih.1.step hm hs, ?_⟩
      rcases step_db hs with e | ⟨next, hp, e⟩
      · rw [e]
        exact ih.2
      · have hw := ih.1.calls i
        rw [hp] at hw
        rw [e]
        exact trans ih.2 (commit i _ _ _ (hw _ (.refl _)).1)
  exact key.2

end Rule

end Reach

/-! A program alone. -/

/-- The commits of a call that has had the database to itself lead from `d₀` to `d`, each
within the guarantee. -/
def Past (P : Proto ι V L) (i : ι) (d₀ : DB V) : List (Change V) → DB V → Prop
  | [], d => d = d₀
  | (b, a) :: own, d => a = d ∧ P.guar i own b a ∧ Past P i d₀ own b

section Solo
variable [DecidableEq κ] {P : Proto ι V L} {i : ι} {d₀ : DB V} {Q : α → Local V L → Prop}

theorem exec_sound [P.Order] (hg : P.guard = anyUpdate) :
    ∀ (x : Prog V L α) (fs : List Bool) (σ : Local V L), Past P i d₀ σ.own σ.db → wp P i x Q σ →
      ∃ σ', σ'.db = (exec x fs σ.pend σ.db).db ∧ Q (exec x fs σ.pend σ.db).val σ' ∧ Past P i d₀ σ'.own σ'.db
  | .ret a, fs, σ, hp, h => ⟨σ, rfl, h σ.db (.refl σ), hp⟩
  | .read next, fs, σ, hp, h => by
    obtain ⟨hok, hfail⟩ := h σ.db (.refl σ)
    simp only [exec]
    split
    · exact exec_sound hg (next none) _ σ hp hfail
    · exact exec_sound hg (next (some σ.view)) _ σ hp hok
  | .update k f next, fs, σ, hp, h => by
    obtain ⟨hok, hfail⟩ := h σ.db (.refl σ)
    have hok := hok (by rw [hg]; rfl)
    have hfail := hfail (by rw [hg]; rfl)
    change (match f (σ.view k) with
      | some v => (∀ l, P.prot l k → σ.held l) ∧ wp P i (next (some true)) _ { σ with pend := write σ.pend k v }
      | none => wp P i (next (some false)) _ σ) at hok
    simp only [exec]
    split
    · exact exec_sound hg (next none) _ σ hp hfail
    change ∃ σ', σ'.db = Outcome.db (match f (σ.view k) with
        | some v => exec (next (some true)) fs.tail (write σ.pend k v) σ.db
        | none => exec (next (some false)) fs.tail σ.pend σ.db) ∧
      Q (Outcome.val (match f (σ.view k) with
        | some v => exec (next (some true)) fs.tail (write σ.pend k v) σ.db
        | none => exec (next (some false)) fs.tail σ.pend σ.db)) σ' ∧ Past P i d₀ σ'.own σ'.db
    cases hf : f (σ.view k) with
    | some v =>
      rw [hf] at hok
      exact exec_sound hg (next (some true)) _ { σ with pend := write σ.pend k v } hp hok.2
    | none =>
      rw [hf] at hok
      exact exec_sound hg (next (some false)) _ σ hp hok
  | .commit next, fs, σ, hp, h => by
    obtain ⟨hguar, hok, hfail⟩ := h σ.db (.refl σ)
    simp only [exec]
    split
    · exact exec_sound hg (next false) _ σ.drop hp hfail
    · exact exec_sound hg (next true) _ σ.publish ⟨rfl, hguar, hp⟩ hok
  | .rollback next, fs, σ, hp, h =>
    exec_sound hg next fs.tail σ.drop hp (h σ.db (.refl σ))
  | .lock l next, fs, σ, hp, h =>
    exec_sound hg next fs.tail { σ with held := fun l' => l' = l ∨ σ.held l' } hp (h σ.db (.refl σ))
  | .unlock l next, fs, σ, hp, h =>
    exec_sound hg next fs.tail { σ with held := fun l' => l' ≠ l ∧ σ.held l' } hp (h σ.db (.refl σ)).2

/-- **A program alone.** Whatever statements fail, the run ends as its `wp` says, and each of
its commits is within the guarantee. -/
theorem solo_sound [P.Order] (hg : P.guard = anyUpdate) {x : Prog V L α}
    (h : wp P i x Q (Local.fresh d)) (faults : List Bool) :
    ∃ σ, σ.db = (solo x faults d).1 ∧ Q (solo x faults d).2 σ ∧ Past P i d σ.own σ.db :=
  exec_sound hg x faults (Local.fresh d) rfl h

/-- A program that only reads changes nothing. -/
theorem inside_reads {x : Prog V L α} {v : DB V} {Q : α → DB V → Prop} (hx : x.Writes fun _ => False)
    (hQ : ∀ a, Q a v) : Inside x v Q := by
  induction x with
  | ret a => exact hQ a
  | read next ih => exact ih _ (hx _)
  | update => exact hx.1.elim
  | _ => exact hx.elim

end Solo

end AmuxApi.Txn
