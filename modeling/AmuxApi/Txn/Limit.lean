import AmuxApi.Txn.Logic

/- A limit on the number of rows of a kind, kept by programs that count the rows before
   they insert one. The count and the INSERT are two statements, so two programs that
   overlap can both find room for the last row. As long as programs that conflict do not
   overlap (`Serial`), the count is still right when the row goes in.

   `Prog.Adds` says of a program how many rows of the kind it may still add: one, before
   its INSERT (`may`); none, while its row is not committed (`held`) and after (`done`).
   `Prog.Counts` is a program that starts with the count, and may add a row only where it
   has found fewer than `m`. `serial_limit` is the run lemma. -/
namespace AmuxApi.Txn
open Function Option

variable {ι κ : Type} {V : κ → Type} {L α β : Type}

section
variable [DecidableEq ι] [DecidableEq κ] [DecidableEq L]

/-- The runs from `s₀` in which a call makes its first statement only when every call that
conflicts with it has not started or has returned; with the calls that have started. -/
inductive Serial (conflict : ι → ι → Prop) (s₀ : Sys ι V L α) : (ι → Prop) → Sys ι V L α → Prop
  | init : Serial conflict s₀ (fun _ => False) s₀
  | step {started : ι → Prop} {s s' : Sys ι V L α} (i : ι) (ok : Bool) (hr : Serial conflict s₀ started s)
      (hfree : ¬ started i → ∀ j, conflict i j → started j → ∃ a, s.prog j = .ret a)
      (hs : step s i ok = some s') : Serial conflict s₀ (fun j => j = i ∨ started j) s'

/-- A schedule, refused where conflicting calls would overlap; with the calls started. -/
def runSerial (conflict : ι → ι → Prop) [DecidableRel conflict] :
    List ι → Sys ι V L α → List (ι × Bool) → Option (List ι × Sys ι V L α)
  | started, s, [] => some (started, s)
  | started, s, (i, ok) :: rest =>
    if i ∈ started ∨ ∀ j ∈ started, conflict i j → (s.prog j).result.isSome then
      (step s i ok).bind (runSerial conflict (i :: started) · rest)
    else none

theorem serial_of_run {conflict : ι → ι → Prop} [DecidableRel conflict] {s₀ : Sys ι V L α} :
    ∀ {schedule : List (ι × Bool)} {started started' : List ι} {s s' : Sys ι V L α},
      Serial conflict s₀ (· ∈ started) s → runSerial conflict started s schedule = some (started', s') →
      Serial conflict s₀ (· ∈ started') s'
  | [], _, _, _, _, hs, h => by
    cases h
    exact hs
  | (i, ok) :: rest, started, started', s, s', hs, h => by
    simp only [runSerial] at h
    split at h
    · rename_i hfree
      obtain ⟨s1, hs1, h⟩ := bind_eq_some_iff.mp h
      have hnext := hs.step i ok (fun hi j hj hst => ?_) hs1
      · refine serial_of_run ?_ h
        simpa only [List.mem_cons] using hnext
      · obtain ⟨a, ha⟩ := isSome_iff_exists.mp (hfree.resolve_left hi j hst hj)
        exact ⟨a, Prog.eq_ret_of_result ha⟩
    · cases h

end

/-- Where a program stands with the one row it may add. -/
inductive Stage
  | may | held | done
  deriving DecidableEq

/-- From stage `st` on the program adds at most what the stage allows; it returns `a` at a
stage with `leaf st a`. -/
def Prog.Adds (kind : (k : κ) → V k → Bool) (leaf : Stage → α → Prop) : Prog V L α → Stage → Prop
  | .ret a, st => leaf st a
  | .read next, st => ∀ r, (next r).Adds kind leaf st
  | .update k f next, st =>
    ((∀ v v', f v = some v' → kind k v' = false) ∧ ∀ r, (next r).Adds kind leaf st) ∨
      (st = .may ∧ (next (some true)).Adds kind leaf .held ∧ (next (some false)).Adds kind leaf .may ∧
        (next none).Adds kind leaf .may)
  | .commit next, _ => ∀ r, (next r).Adds kind leaf .done
  | .rollback next, _ => next.Adds kind leaf .done
  | .lock _ next, st => next.Adds kind leaf st
  | .unlock _ next, st => next.Adds kind leaf st

/-- A call ends with nothing left uncommitted. -/
def ended (st : Stage) (_ : α) : Prop := st ≠ .held

def countKind (kind : (k : κ) → V k → Bool) (ks : List κ) (d : DB V) : Nat := ks.countP fun k => kind k (d k)

/-- The program adds no row, or it starts by counting them and adds one only where it has
found fewer than `m`. -/
def Prog.Counts (kind : (k : κ) → V k → Bool) (ks : List κ) (m : Nat) : Prog V L α → Prop
  | .read next =>
    (∀ d, (next (some d)).Adds kind ended (if countKind kind ks d < m then .may else .done)) ∧
      (next none).Adds kind ended .done
  | x => x.Adds kind ended .done

section
variable {kind : (k : κ) → V k → Bool} {leaf : Stage → α → Prop} {leaf' : Stage → β → Prop}

theorem adds_bind {g : α → Prog V L β} (hg : ∀ st a, leaf st a → (g a).Adds kind leaf' st) :
    ∀ {x : Prog V L α} {st : Stage}, x.Adds kind leaf st → (x >>= g).Adds kind leaf' st
  | .ret a, st, h => hg st a h
  | .read _, _, h => fun r => adds_bind hg (h r)
  | .update _ _ _, _, h =>
    h.imp (fun h => ⟨h.1, fun r => adds_bind hg (h.2 r)⟩)
      fun h => ⟨h.1, adds_bind hg h.2.1, adds_bind hg h.2.2.1, adds_bind hg h.2.2.2⟩
  | .commit _, _, h => fun r => adds_bind hg (h r)
  | .rollback next, _, h => adds_bind (x := next) hg h
  | .lock _ next, _, h => adds_bind (x := next) hg h
  | .unlock _ next, _, h => adds_bind (x := next) hg h

/-- A program that writes only rows that can never be of the kind adds none. -/
theorem adds_of_writes {K : κ → Prop} (hK : ∀ k, K k → ∀ v, kind k v = false) {st : Stage}
    (hleaf : ∀ a, leaf st a) : ∀ {x : Prog V L α}, x.Writes K → x.Adds kind leaf st
  | .ret a, _ => hleaf a
  | .read _, h => fun r => adds_of_writes hK hleaf (h r)
  | .update k _ _, h => .inl ⟨fun _ v' _ => hK k h.1 v', fun r => adds_of_writes hK hleaf (h.2 r)⟩

/-- A transaction ends what its body has begun. -/
theorem adds_transaction {ε : Type} {failed : ε} {body : Prog V L (Except ε α)} {st : Stage}
    (h : body.Adds kind (fun _ _ => True) st) : (transaction failed body).Adds kind ended st := by
  refine adds_bind (fun st' r _ => ?_) h
  have hdone : Stage.done ≠ .held := by decide
  cases r with
  | error e => exact hdone
  | ok a =>
    intro b
    cases b <;> exact hdone

theorem counts_select {ks : List κ} {m : Nat} {g : Option (DB V) → Prog V L α}
    (hsome : ∀ d, (g (some d)).Adds kind ended (if countKind kind ks d < m then .may else .done))
    (hnone : (g none).Adds kind ended .done) : (select >>= g).Counts kind ks m :=
  ⟨hsome, hnone⟩

/-- A count that changes at one row grows by one at most. -/
theorem countP_le_succ {p p' : κ → Bool} {k0 : κ} (h : ∀ k, k ≠ k0 → p' k = true → p k = true) :
    ∀ {ks : List κ}, ks.Nodup → ks.countP p' ≤ ks.countP p + 1
  | [], _ => by simp
  | k :: ks, hks => by
    obtain ⟨hk, hks⟩ := List.nodup_cons.mp hks
    rw [List.countP_cons, List.countP_cons]
    by_cases e : k = k0
    · have hrest : ks.countP p' ≤ ks.countP p := by
        refine List.countP_mono_left fun k' hk' => h k' ?_
        rintro rfl
        exact hk (e ▸ hk')
      split <;> split <;> omega
    · have ih := countP_le_succ h hks
      split <;> split <;> simp_all
      omega

end

/-! The system. -/

section
variable (kind : (k : κ) → V k → Bool) (ks : List κ)

/-- Row `k` is of the kind, or will be if its uncommitted version is committed. -/
def occupied (s : Sys ι V L α) (k : κ) : Bool := kind k (s.db k) || (s.dirty k).any fun p => kind k p.2

def total (s : Sys ι V L α) : Nat := ks.countP (occupied kind s)

/-- Call `i` has no uncommitted row of the kind. -/
def Spotless (s : Sys ι V L α) (i : ι) : Prop := ∀ k v, s.dirty k = some (i, v) → kind k v = false

/-- A call that has started is at some stage: with room for a row if it may still add one,
and without an uncommitted row unless it holds one. -/
structure AtStage (member : ι → Prop) (m : Nat) (s : Sys ι V L α) (i : ι) (st : Stage) : Prop where
  adds : (s.prog i).Adds kind ended st
  room : st = .may → total kind ks s < m
  spotless : st ≠ .held → Spotless kind s i
  member : member i ∨ st = .done

/-- What the runs keep. -/
structure Limited (prog : ι → Prog V L α) (member : ι → Prop) (m top : Nat) (started : ι → Prop)
    (s : Sys ι V L α) : Prop where
  bound : total kind ks s ≤ top
  fresh : ∀ i, ¬ started i → s.prog i = prog i ∧ ∀ k v, s.dirty k ≠ some (i, v)
  stage : ∀ i, started i → ∃ st, AtStage kind ks member m s i st
  alone : ∀ i j, member i → member j → i ≠ j → started i → started j →
    (∃ a, s.prog i = .ret a) ∨ ∃ a, s.prog j = .ret a

end

section
variable {kind : (k : κ) → V k → Bool} {ks : List κ} {prog : ι → Prog V L α} {member : ι → Prop}
  {m top : Nat} {started : ι → Prop} {s s' : Sys ι V L α} {i : ι}

theorem total_mono (h : ∀ k, occupied kind s' k = true → occupied kind s k = true) :
    total kind ks s' ≤ total kind ks s :=
  List.countP_mono_left fun k _ => h k

variable {st : Stage} {x : Prog V L α}

theorem AtStage.returned (h : AtStage kind ks member m s i st) {a : α} (ha : s.prog i = .ret a)
    (hs : s'.prog i = s.prog i) (hd : ∀ k v, s'.dirty k = some (i, v) → s.dirty k = some (i, v)) :
    AtStage kind ks member m s' i .done := by
  have hended := h.adds
  rw [ha] at hended
  refine ⟨?_, nofun, fun _ k v hk => h.spotless hended k v (hd k v hk), .inr rfl⟩
  rw [hs, ha]
  exact nofun

variable (hfree : ¬ started i → member i → ∀ j, member j → j ≠ i → started j → ∃ a, s.prog j = .ret a)
  (h : Limited kind ks prog member m top started s)
include hfree h

section
variable (hgoing : ∀ a, s.prog i ≠ .ret a)
include hgoing

/-- Where a member goes on, the others that have started have returned. -/
theorem Limited.over (hi : member i) {j : ι} (hj : member j) (hne : j ≠ i) (hsj : started j) :
    ∃ a, s.prog j = .ret a := by
  by_cases hsi : started i
  · exact (h.alone i j hi hj (Ne.symm hne) hsi hsj).resolve_left fun ⟨a, ha⟩ => hgoing a ha
  · exact hfree hsi hi j hj hne hsj

variable [DecidableEq ι] (hprog : s'.prog = Function.update s.prog i x)
include hprog

/-- A step of call `i`: what has to be shown of the new state. -/
theorem Limited.advance (st : Stage)
    (hdirty : ∀ j, j ≠ i → ∀ k v, s'.dirty k = some (j, v) → s.dirty k = some (j, v))
    (htotal : total kind ks s' ≤ top) (hstage : AtStage kind ks member m s' i st)
    (hroom : ∀ j, j ≠ i → started j → member j → (∀ a, s.prog j ≠ .ret a) → total kind ks s < m →
      total kind ks s' < m) :
    Limited kind ks prog member m top (fun j => j = i ∨ started j) s' := by
  have hother : ∀ j, j ≠ i → s'.prog j = s.prog j := fun j hj => by rw [hprog, update_of_ne hj]
  refine ⟨htotal, fun j hj => ?_, fun j hj => ?_, fun j j' hm hm' hne hj hj' => ?_⟩
  · obtain ⟨hne, hsj⟩ := not_or.mp hj
    obtain ⟨hp, hd⟩ := h.fresh j hsj
    exact ⟨(hother j hne).trans hp, fun k v hk => hd k v (hdirty j hne k v hk)⟩
  · by_cases hne : j = i
    · subst hne
      exact ⟨st, hstage⟩
    · obtain ⟨st', hst'⟩ := h.stage j (hj.resolve_left hne)
      by_cases hret : ∃ a, s.prog j = .ret a
      · obtain ⟨a, ha⟩ := hret
        exact ⟨.done, hst'.returned ha (hother j hne) (hdirty j hne)⟩
      · refine ⟨st', by rw [hother j hne]; exact hst'.adds, fun e => ?_,
          fun e k v hk => hst'.spotless e k v (hdirty j hne k v hk), hst'.member⟩
        have hmem : member j := hst'.member.resolve_right fun e' => by rw [e] at e'; cases e'
        exact hroom j hne (hj.resolve_left hne) hmem (fun a ha => hret ⟨a, ha⟩) (hst'.room e)
  · by_cases e : j = i
    · subst e
      have hne' : j' ≠ j := fun e => hne e.symm
      obtain ⟨a, ha⟩ := h.over hfree hgoing hm hm' hne' (hj'.resolve_left hne')
      exact .inr ⟨a, (hother j' hne').trans ha⟩
    · by_cases e' : j' = i
      · subst e'
        obtain ⟨a, ha⟩ := h.over hfree hgoing hm' hm e (hj.resolve_left e)
        exact .inl ⟨a, (hother j e).trans ha⟩
      · rw [hother j e, hother j' e']
        exact h.alone j j' hm hm' hne (hj.resolve_left e) (hj'.resolve_left e')

/-- Commit and rollback: call `i` has no uncommitted row any more, and no row of the kind
has come in. -/
theorem Limited.finish (hdirty : s'.dirty = (s.release i).dirty) (hdb : ∀ k, s'.db k = s.db k ∨ s'.db k = s.view i k)
    (hx : x.Adds kind ended .done) : Limited kind ks prog member m top (fun j => j = i ∨ started j) s' := by
  have hkept : ∀ k p, s'.dirty k = some p → s.dirty k = some p ∧ p.1 ≠ i := by
    intro k p hk
    rw [hdirty] at hk
    change (if s.taken i k then s.dirty k else none) = some p at hk
    split at hk
    · rename_i ht
      refine ⟨hk, ?_⟩
      rintro rfl
      simp [Sys.taken, hk] at ht
    · cases hk
  have hle : total kind ks s' ≤ total kind ks s := by
    refine total_mono fun k hk => ?_
    simp only [occupied, Bool.or_eq_true, any_eq_true] at hk ⊢
    rcases hk with hk | ⟨p, hp, hkp⟩
    · rcases hdb k with e | e
      · exact .inl (e ▸ hk)
      · -- the committed version was already counted as the uncommitted one
        rw [e] at hk
        simp only [Sys.view, Txn.view, Sys.pend] at hk
        cases hd : s.dirty k with
        | none => rw [hd] at hk; exact .inl hk
        | some q =>
          rw [hd] at hk
          by_cases e' : q.1 = i
          · simp only [e', if_true, getD_some] at hk
            exact .inr ⟨q, rfl, hk⟩
          · simp only [e', if_false, getD_none] at hk
            exact .inl hk
    · exact .inr ⟨p, (hkept k p hp).1, hkp⟩
  refine h.advance hfree hgoing hprog .done (fun j hj k v hk => (hkept k _ hk).1) (Nat.le_trans hle h.bound) ?_
    fun _ _ _ _ _ hlt => Nat.lt_of_le_of_lt hle hlt
  refine ⟨?_, (fun h => by cases h), fun _ k v hk => absurd rfl (hkept k _ hk).2, .inr rfl⟩
  rw [hprog, update_self]
  exact hx

theorem Limited.quiet (hdirty : s'.dirty = s.dirty) (hdb : s'.db = s.db)
    (hx : x.Adds kind ended st) (hroom : st = .may → total kind ks s < m) (hspot : st ≠ .held → Spotless kind s i)
    (hmem : member i ∨ st = .done) : Limited kind ks prog member m top (fun j => j = i ∨ started j) s' := by
  have htotal : total kind ks s' = total kind ks s := by
    unfold total occupied
    rw [hdirty, hdb]
  refine h.advance hfree hgoing hprog st (fun j _ k v hk => by rwa [hdirty] at hk) (htotal ▸ h.bound) ?_
    fun _ _ _ _ _ hlt => htotal ▸ hlt
  refine ⟨?_, fun e => htotal ▸ hroom e, fun e k v hk => hspot e k v (by rwa [hdirty] at hk), hmem⟩
  rw [hprog, update_self]
  exact hx

/-- A write. Only a call with room for a row adds one. -/
theorem Limited.wrote [DecidableEq κ] (hks : ks.Nodup) (htop : m ≤ top) {k : κ} {v : V k} {st' : Stage}
    (hdirty : s'.dirty = Function.update s.dirty k (some (i, v))) (hdb : s'.db = s.db)
    (hst : AtStage kind ks member m s i st) (hx : x.Adds kind ended st')
    (hadd : (st' = st ∧ kind k v = false) ∨ (st = .may ∧ st' = .held)) :
    Limited kind ks prog member m top (fun j => j = i ∨ started j) s' := by
  have hold : ∀ j, j ≠ i → ∀ k' v', s'.dirty k' = some (j, v') → s.dirty k' = some (j, v') := by
    intro j hj k' v' hk
    by_cases e : k' = k
    · subst e
      rw [hdirty, update_self] at hk
      cases hk
      exact absurd rfl hj
    · rwa [hdirty, update_of_ne e] at hk
  have hoff : ∀ k', k' ≠ k → occupied kind s' k' = true → occupied kind s k' = true := by
    intro k' e hk
    rwa [occupied, hdb, hdirty, update_of_ne e] at hk
  have hprog' : (s'.prog i).Adds kind ended st' := by
    rw [hprog, update_self]
    exact hx
  rcases hadd with ⟨rfl, hkind⟩ | ⟨rfl, rfl⟩
  · -- the row is not of the kind
    have hle : total kind ks s' ≤ total kind ks s := by
      refine total_mono fun k' hk => ?_
      by_cases e : k' = k
      · subst e
        rw [occupied, hdb, hdirty, update_self] at hk
        simp only [any_some, hkind, Bool.or_false] at hk
        simp [occupied, hk]
      · exact hoff k' e hk
    refine h.advance hfree hgoing hprog st' hold (Nat.le_trans hle h.bound) ?_
      fun _ _ _ _ _ hlt => Nat.lt_of_le_of_lt hle hlt
    refine ⟨hprog', fun e => Nat.lt_of_le_of_lt hle (hst.room e), fun e k' v' hk => ?_, hst.member⟩
    by_cases e' : k' = k
    · subst e'
      rw [hdirty, update_self] at hk
      cases hk
      exact hkind
    · rw [hdirty, update_of_ne e'] at hk
      exact hst.spotless e k' v' hk
  · -- the row goes in, and nobody else who may conflict is under way
    have hlt := hst.room rfl
    have hle : total kind ks s' ≤ total kind ks s + 1 := countP_le_succ hoff hks
    have hi : member i := hst.member.resolve_right nofun
    refine h.advance hfree hgoing hprog .held hold (by omega)
      ⟨hprog', nofun, (fun e => absurd rfl e), .inl hi⟩ fun j hj hsj hm hret _ => ?_
    obtain ⟨a, ha⟩ := h.over hfree hgoing hi hm hj hsj
    exact absurd ha (hret a)

end

variable [DecidableEq ι]

/-- What a member counts with its first statement is all there is: an uncommitted row would
belong to a member that is under way. -/
theorem Limited.counted (hsi : ¬ started i) (hi : member i) :
    total kind ks s ≤ countKind kind ks (s.view i) := by
  refine List.countP_mono_left fun k _ hk => ?_
  have hview : s.view i k = s.db k := by
    simp only [Sys.view, Txn.view, Sys.pend]
    cases hd : s.dirty k with
    | none => rfl
    | some p =>
      have hne : p.1 ≠ i := by
        rintro rfl
        exact (h.fresh p.1 hsi).2 k p.2 hd
      simp [hne]
  rw [hview]
  simp only [occupied, Bool.or_eq_true, any_eq_true] at hk
  rcases hk with hk | ⟨⟨j, v⟩, hd, hv⟩
  · exact hk
  exfalso
  have hsj : started j := by
    by_contra hsj
    exact (h.fresh j hsj).2 k v hd
  obtain ⟨st, hst⟩ := h.stage j hsj
  have hheld : st = .held := by
    by_contra hne
    rw [hst.spotless hne k v hd] at hv
    cases hv
  subst hheld
  have hj : member j := hst.member.resolve_right fun h => by cases h
  have hne : j ≠ i := fun e => hsi (e ▸ hsj)
  obtain ⟨a, ha⟩ := hfree hsi hi j hj hne hsj
  have hended := hst.adds
  rw [ha] at hended
  exact hended rfl

variable [DecidableEq κ] [DecidableEq L]

theorem Limited.step_at (hks : ks.Nodup) (htop : m ≤ top)
    (hst : AtStage kind ks member m s i st) {ok : Bool} (hs : step s i ok = some s') :
    Limited kind ks prog member m top (fun j => j = i ∨ started j) s' := by
  have hadds := hst.adds
  unfold Txn.step at hs
  split at hs
  · cases hs
  · rename_i next hp
    rw [hp] at hadds
    cases hs
    exact h.quiet hfree (by rw [hp]; simp) rfl rfl rfl (hadds _) hst.room hst.spotless hst.member
  · rename_i k f next hp
    rw [hp] at hadds
    have hgoing : ∀ a, s.prog i ≠ .ret a := by rw [hp]; simp
    split at hs
    · split at hs
      · cases hs
      · split at hs
        · rename_i v hf
          cases hs
          rcases hadds with ⟨hkind, hnext⟩ | ⟨hmay, hheld, -, -⟩
          · exact h.wrote hfree hgoing rfl hks htop rfl rfl hst (hnext _) (.inl ⟨rfl, hkind _ _ hf⟩)
          · exact h.wrote hfree hgoing rfl hks htop rfl rfl hst hheld (.inr ⟨hmay, rfl⟩)
        · cases hs
          refine h.quiet hfree hgoing rfl rfl rfl ?_ hst.room hst.spotless hst.member
          rcases hadds with ⟨-, hnext⟩ | ⟨rfl, -, hskip, -⟩
          · exact hnext _
          · exact hskip
    · cases hs
      refine h.quiet hfree hgoing rfl rfl rfl ?_ hst.room hst.spotless hst.member
      rcases hadds with ⟨-, hnext⟩ | ⟨rfl, -, -, hfail⟩
      · exact hnext _
      · exact hfail
  · rename_i next hp
    rw [hp] at hadds
    split at hs
    · cases hs
      exact h.finish hfree (by rw [hp]; simp) rfl rfl (fun k => .inr rfl) (hadds _)
    · cases hs
      exact h.finish hfree (by rw [hp]; simp) rfl rfl (fun k => .inl rfl) (hadds _)
  · rename_i next hp
    rw [hp] at hadds
    cases hs
    exact h.finish hfree (by rw [hp]; simp) rfl rfl (fun k => .inl rfl) hadds
  · rename_i l next hp
    rw [hp] at hadds
    split at hs
    · cases hs
      exact h.quiet hfree (by rw [hp]; simp) rfl rfl rfl hadds hst.room hst.spotless hst.member
    · cases hs
  · rename_i l next hp
    rw [hp] at hadds
    cases hs
    exact h.quiet hfree (by rw [hp]; simp) rfl rfl rfl hadds hst.room hst.spotless hst.member

section
variable (hks : ks.Nodup) (hcounts : ∀ i, member i → (prog i).Counts kind ks m)
    (hother : ∀ i, ¬ member i → (prog i).Adds kind ended .done)
include hks hcounts hother

theorem Limited.step (htop : m ≤ top)
    {ok : Bool} (hs : Txn.step s i ok = some s') :
    Limited kind ks prog member m top (fun j => j = i ∨ started j) s' := by
  by_cases hsi : started i
  · obtain ⟨st, hst⟩ := h.stage i hsi
    exact h.step_at hfree hks htop hst hs
  obtain ⟨hp, hclean⟩ := h.fresh i hsi
  have spotless : Spotless kind s i := fun k v hk => absurd hk (hclean k v)
  -- a program that adds nothing is at the last stage from the start
  have idle : (prog i).Adds kind ended .done → Limited kind ks prog member m top (fun j => j = i ∨ started j) s' :=
    fun hdone => h.step_at hfree hks htop
      ⟨by rw [hp]; exact hdone, (fun e => by cases e), fun _ => spotless, .inr rfl⟩ hs
  by_cases hi : member i
  · have hc := hcounts i hi
    cases hx : prog i with
    | read next =>
      rw [hx] at hc
      obtain ⟨hsome, hnone⟩ := hc
      have hread : s.prog i = .read next := hp.trans hx
      simp only [Txn.step, hread, Option.some.injEq] at hs
      subst hs
      have hgoing : ∀ a, s.prog i ≠ .ret a := by rw [hread]; simp
      cases ok with
      | false => exact h.quiet hfree hgoing rfl rfl rfl hnone (fun h => by cases h) (fun _ => spotless) (.inr rfl)
      | true =>
        refine h.quiet hfree hgoing rfl rfl rfl (hsome (s.view i)) (fun e => ?_) (fun _ => spotless) (.inl hi)
        have hall := h.counted hfree hsi hi
        split at e
        · omega
        · cases e
    | ret a => exact idle (by rw [hx] at hc ⊢; exact hc)
    | update k f next => exact idle (by rw [hx] at hc ⊢; exact hc)
    | commit next | rollback next | lock l next | unlock l next => exact idle (by rw [hx] at hc ⊢; exact hc)
  · exact idle (hother i hi)

omit hfree h in
/-- **The limit is kept** in every run in which members do not overlap: there are never
more than `m` rows of the kind, unless there were more at the start. -/
theorem serial_limit {conflict : ι → ι → Prop} {d : DB V}
    (hconf : ∀ i j, member i → member j → i ≠ j → conflict i j) (hs : Serial conflict (start d prog) started s) :
    countKind kind ks s.db ≤ max m (countKind kind ks d) := by
  have hlimited : Limited kind ks prog member m (max m (countKind kind ks d)) started s := by
    induction hs with
    | init =>
      refine ⟨?_, fun i _ => ⟨rfl, nofun⟩, fun _ h => h.elim, fun _ _ _ _ _ h => h.elim⟩
      have : total kind ks (start d prog) = countKind kind ks d :=
        congrArg (ks.countP ·) (funext fun k => by simp [occupied, start])
      omega
    | step i ok _ hfree hs ih =>
      refine ih.step (fun hsi hi j hj hne hsj => ?_) hks hcounts hother (Nat.le_max_left ..) hs
      exact hfree hsi j (hconf i j hi hj (Ne.symm hne)) hsj
  refine Nat.le_trans (List.countP_mono_left fun k _ h => ?_) hlimited.bound
  simp [occupied, h]

end

end

end AmuxApi.Txn
