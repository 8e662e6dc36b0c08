import AmuxApi.Conc.Logic
import AmuxApi.TwoFA.Model

/- How many wrong codes are compared before the account is locked.

   An attempt counts its failure in a copy of the row, and saves the copy. As long as attempts of the
   user do not overlap and the row is saved (`oneAtATime`), the copy is the row: the failures are at
   least the wrong codes compared since the last lock, and the fifth one locks (`Counting`). So no
   more than five are compared before a lock, and none during it (`wrong_codes_bounded`).

   Attempts that overlap each have a copy from before the others: any number of codes is compared
   without a lock, and one that has read the row before the lock is compared after it
   (`attempts_overlap`). -/
namespace AmuxApi.TwoFA
open Conc Function

/-- An attempt begins when no other is running, and the row is saved when it should be. -/
def oneAtATime {ι : Type} : Guard ι (Mem ι) := fun _ m m' => m'.running.length ≤ 1 && m'.unsaved == m.unsaved

/-! What an attempt knows. -/

/-- `idle`: begun, without a copy. `working t unlocked`: with the copy `t`, and with `unlocked` after
a look at the lock. `counted t`: a wrong code was compared, and is not yet in the row. `won`: it has
succeeded. -/
inductive Phase
  | out
  | idle
  | working (t : Row) (unlocked : Bool)
  | counted (t : Row)
  | won

/-- `n` wrong codes were compared: the row counts them all and is about to lock, or there were none. -/
def Counting (n : Nat) (row : Option Row) : Prop :=
  n = 0 ∨ ∃ t, row = some t ∧ n ≤ t.failedAttempts ∧ t.failedAttempts < maxFailAttempts

theorem Counting.lt {n : Nat} {row : Option Row} (h : Counting n row) : n < maxFailAttempts := by
  rcases h with rfl | ⟨t, -, hle, hlt⟩
  · decide
  · exact Nat.lt_of_le_of_lt hle hlt

/-- One more was compared, and one more is counted. -/
theorem Counting.count {n : Nat} {t : Row} (h : Counting n (some t)) (hmax : t.failedAttempts + 1 < maxFailAttempts) :
    Counting (n + 1) (some { t with failedAttempts := t.failedAttempts + 1 }) := by
  refine .inr ⟨_, rfl, ?_, hmax⟩
  rcases h with rfl | ⟨t', ht', hle, -⟩
  · exact Nat.le_add_left 1 _
  · cases ht'
    exact Nat.add_le_add_right hle 1

section
variable {ι : Type}

def Phase.Holds (m : Mem ι) : Phase → Prop
  | .out => Counting m.tries m.row
  | .idle => Counting m.tries m.row
  | .working t unlocked => m.row = some t ∧ Counting m.tries m.row ∧ (unlocked = true → t.isLocked m.now = false)
  | .counted t => m.row = some t ∧ ∃ n, m.tries = n + 1 ∧ Counting n m.row
  | .won => m.tries = 0

structure Inv (m : Mem ι) (g : ι → Phase) : Prop where
  alone : ∀ i j, g i ≠ .out → g j ≠ .out → i = j
  begun : ∀ i, g i ≠ .out → i ∈ m.running
  holds : ∀ i, g i ≠ .out → (g i).Holds m
  quiet : (∀ i, g i = .out) → Counting m.tries m.row
  late : m.late = 0

variable {m m' : Mem ι} {γ : Phase} {g : ι → Phase} {t : Row} {α : Type} {b : Bool}

theorem Phase.Holds.bound (h : γ.Holds m) : m.tries ≤ maxFailAttempts := by
  cases γ with
  | out | idle => exact Nat.le_of_lt (Counting.lt h)
  | working t b => exact Nat.le_of_lt h.2.1.lt
  | counted t =>
    obtain ⟨-, n, hn, hcounting⟩ := h
    rw [hn]
    exact hcounting.lt
  | won =>
    have htries : m.tries = 0 := h
    rw [htries]
    exact Nat.zero_le _

theorem Inv.bound (h : Inv m g) : m.tries ≤ maxFailAttempts := by
  by_cases hout : ∀ i, g i = .out
  · exact Nat.le_of_lt (h.quiet hout).lt
  · obtain ⟨i, hi⟩ := not_forall.mp hout
    exact (h.holds i hi).bound

/-- Nothing that an attempt knows of the row has changed. -/
structure Aside (m m' : Mem ι) : Prop where
  row : m'.row = m.row
  running : m'.running = m.running
  tries : m'.tries = m.tries
  late : m'.late = m.late
  now : m.now ≤ m'.now

theorem Aside.refl (m : Mem ι) : Aside m m := ⟨rfl, rfl, rfl, rfl, Int.le_refl _⟩

theorem aside_codes (h : m' = { m with
    codes := m'.codes, making := m'.making, commits := m'.commits, accepted := m'.accepted, slips := m'.slips }) :
    Aside m m' := by
  rw [h]
  exact ⟨rfl, rfl, rfl, rfl, Int.le_refl _⟩

theorem isLocked_later {now now' : Int} (h : t.isLocked now = false) (hnow : now ≤ now') : t.isLocked now' = false := by
  unfold Row.isLocked at h ⊢
  cases hlock : t.lockedUntil with
  | none => rfl
  | some u =>
    rw [hlock, Option.any_some, decide_eq_false_iff_not] at h
    rw [Option.any_some, decide_eq_false_iff_not]
    omega

theorem Phase.Holds.aside (h : γ.Holds m) (hm : Aside m m') : γ.Holds m' := by
  unfold Phase.Holds at h ⊢
  rw [hm.row, hm.tries]
  cases γ with
  | working t b => exact ⟨h.1, h.2.1, fun hb => isLocked_later (h.2.2 hb) hm.now⟩
  | out | idle | counted t | won => exact h

theorem Inv.aside (h : Inv m g) (hm : Aside m m') : Inv m' g := by
  refine ⟨h.alone, ?_, fun i hi => (h.holds i hi).aside hm, ?_, hm.late.trans h.late⟩
  · rw [hm.running]
    exact h.begun
  · rw [hm.tries, hm.row]
    exact h.quiet

theorem Inv.others_out (h : Inv m g) {i : ι} (hi : g i ≠ .out) : ∀ j, j ≠ i → g j = .out := by
  intro j hj
  by_contra hne
  exact hj (h.alone j i hne hi)

variable [DecidableEq ι] {m m' : Mem ι} {g : ι → Phase} {i : ι}

/-- The others are out: what is left to show is about the one that has another phase. -/
theorem inv_of_others_out (hout : ∀ j, j ≠ i → g j = .out) (hbegun : γ ≠ .out → i ∈ m.running) (hholds : γ.Holds m)
    (hlate : m.late = 0) : Inv m (Function.update g i γ) := by
  have hself : ∀ j, Function.update g i γ j ≠ .out → j = i := by
    intro j hj
    by_contra hji
    rw [update_of_ne hji] at hj
    exact hj (hout j hji)
  refine ⟨fun j k hj hk => (hself j hj).trans (hself k hk).symm, fun j hj => ?_, fun j hj => ?_, fun hall => ?_, hlate⟩
  · obtain rfl := hself j hj
    rw [update_self] at hj
    exact hbegun hj
  · obtain rfl := hself j hj
    rw [update_self]
    exact hholds
  · have hγ : γ = .out := by
      rw [← hall i, update_self]
    rw [hγ] at hholds
    exact hholds

theorem Inv.go {γ' : Phase} (h : Inv m g) (hi : g i = γ) (hγ : γ ≠ .out) (hrunning : m'.running = m.running)
    (hholds : γ.Holds m → γ'.Holds m') (hlate : m'.late = m.late) : Inv m' (Function.update g i γ') := by
  subst hi
  refine inv_of_others_out (h.others_out hγ) (fun _ => ?_) (hholds (h.holds i hγ)) (hlate.trans h.late)
  rw [hrunning]
  exact h.begun i hγ

/-! Programs that leave the row alone. -/

theorem wp_aside {x : Prog (Mem ι) α} (h : x.Each Aside) : wp Inv oneAtATime i x (fun _ γ' => γ' = γ) γ :=
  wp_of_each (fun _ _ _ hinv hm => hinv.aside hm) h

omit [DecidableEq ι] in
theorem each_clock : (clock : Prog (Mem ι) Int).Each Aside := each_atomically fun m => Aside.refl m

theorem each_saveCode (code : BackupCode ι) (now : Int) (e : Acceptance ι) : (saveCode i code now e).Each Aside := by
  intro ok m
  refine ⟨?_, ?_⟩
  · dsimp only
    split
    · exact aside_codes rfl
    · exact Aside.refl m
  · dsimp only
    split
    · split
      · exact each_act (fun _ => aside_codes rfl) fun m => Aside.refl m
      · trivial
    · trivial

theorem each_rollback : (rollback i).Each Aside := each_atomically fun _ => aside_codes rfl

theorem each_insertCodes (env : Checks) : ∀ codes : List String, (insertCodes env i codes).Each Aside
  | [] => each_act (fun _ => aside_codes rfl) fun _ => aside_codes rfl
  | code :: codes => by
    refine each_bind (fun ok => ?_) (each_act (fun _ => aside_codes rfl) fun m => Aside.refl m)
    cases ok with
    | true => exact each_insertCodes env codes
    | false => exact each_rollback

theorem each_createBackupCodes (env : Checks) (codes : List String) : (createBackupCodes env i codes).Each Aside := by
  refine each_bind (fun ok => ?_) (each_act (fun _ => aside_codes rfl) fun m => Aside.refl m)
  cases ok with
  | true => exact each_insertCodes env codes
  | false => exact each_rollback

/-! An attempt that has succeeded. -/

/-- It may write the row: no other attempt has a copy. -/
structure Settled (m m' : Mem ι) : Prop where
  running : m'.running = m.running
  tries : m.tries = 0 → m'.tries = 0
  late : m'.late = m.late

omit [DecidableEq ι] in
theorem Aside.settled (h : Aside m m') : Settled m m' := ⟨h.running, fun hm => h.tries.trans hm, h.late⟩

theorem Inv.settled (h : Inv m g) (hi : g i = .won) (hm : Settled m m') : Inv m' (Function.update g i .won) :=
  h.go hi Phase.noConfusion hm.running hm.tries hm.late

theorem wp_won : ∀ {x : Prog (Mem ι) α}, x.Each Settled →
    wp Inv oneAtATime i x (fun _ γ' => γ' = .won) .won
  | .ret _, _ => rfl
  | .act _ _ _, h => by
    intro m g ok hinv hi _ _
    exact ⟨.won, hinv.settled hi (h ok m).1, wp_won (h ok m).2⟩

theorem each_disableTwoFA : (disableTwoFA i).Each Settled := by
  refine each_bind (fun found => ?_) (each_atomically fun m => (Aside.refl m).settled)
  cases found with
  | false => exact each_pure _
  | true =>
    refine each_bind (fun ok => ?_) (each_act (fun _ => ⟨rfl, id, rfl⟩) fun _ => ⟨rfl, id, rfl⟩)
    cases ok with
    | true => exact each_act (fun _ => ⟨rfl, id, rfl⟩) fun _ => ⟨rfl, id, rfl⟩
    | false => exact each_mono (fun _ _ => Aside.settled) each_rollback

/-- What a right code was asked for leaves the count of failures alone. -/
theorem each_afterwards (env : Checks) (kind : Kind) : (kind.afterwards env i).Each Settled := by
  cases kind with
  | login => exact each_pure _
  | disable => exact each_disableTwoFA
  | regenerate codes => exact each_mono (fun _ _ => Aside.settled) (each_createBackupCodes env codes)
  | stepUp => exact each_pure _

/-! Counting. -/

theorem wp_checkLock {Q : α → Phase → Prop} {x y : Prog (Mem ι) α} (hx : wp Inv oneAtATime i x Q (.working t b))
    (hy : wp Inv oneAtATime i y Q (.working t true)) :
    wp Inv oneAtATime i (clock >>= fun now => if t.isLocked now then x else y) Q (.working t b) := by
  refine wp_bind (wp_atomically fun m g hinv hi _ => ?_)
  by_cases hlock : t.isLocked m.now = true
  · refine ⟨.working t b, inv_update_self hinv hi, ?_⟩
    rw [if_pos hlock]
    exact hx
  · refine ⟨.working t true, ?_, ?_⟩
    · refine hinv.go hi Phase.noConfusion rfl (fun h => ⟨h.1, h.2.1, fun _ => ?_⟩) rfl
      exact eq_false_of_ne_true hlock
    · rw [if_neg hlock]
      exact hy

/-- The copy is the row, and was looked at: no code is compared during a lock. -/
theorem wp_compare (right : Mem ι → Bool) :
    wp Inv oneAtATime i (compareCode right) (fun b γ' => γ' = if b then .working t true else .counted t)
      (.working t true) := by
  refine wp_atomically fun m g hinv hi _ => ⟨_, ?_, rfl⟩
  have hholds := hinv.holds i (by rw [hi]; exact Phase.noConfusion)
  rw [hi] at hholds
  obtain ⟨hrow, hcounting, hunlocked⟩ := hholds
  have hlate : (m.compared (right m)).late = m.late := by
    have hlocked : m.locked = false := by
      unfold Mem.locked
      rw [hrow]
      exact hunlocked rfl
    show (if m.locked then m.late + 1 else m.late) = m.late
    rw [hlocked]
    rfl
  refine hinv.go hi Phase.noConfusion rfl (fun _ => ?_) hlate
  cases right m with
  | true => exact ⟨hrow, hcounting, hunlocked⟩
  | false => exact ⟨hrow, m.tries, rfl, hcounting⟩

/-- A failure is saved: the copy is the row again. -/
theorem wp_update {t' : Row} {locks : Bool}
    (h : ∀ n, Counting n (some t) → Counting (if locks then 0 else n + 1) (some t')) :
    wp Inv oneAtATime i (update t' locks) (fun _ γ' => γ' = .working t' false) (.counted t) := by
  intro m g ok hinv hi _ hguard
  cases ok with
  | false =>
    -- this save does not fail
    unfold oneAtATime at hguard
    rw [Bool.and_eq_true, beq_iff_eq] at hguard
    exact absurd hguard.2 (Nat.succ_ne_self _)
  | true =>
    refine ⟨.working t' false, ?_, rfl⟩
    refine hinv.go hi Phase.noConfusion rfl (fun hholds => ?_) rfl
    obtain ⟨hrow, n, hn, hcounting⟩ := hholds
    rw [hrow] at hcounting
    refine ⟨rfl, ?_, fun hb => absurd hb Bool.false_ne_true⟩
    show Counting (if locks then 0 else m.tries) (some t')
    rw [hn]
    exact h n hcounting

theorem wp_increment :
    wp Inv oneAtATime i (incrementFailedAttempts t) (fun t' γ' => γ' = .working t' false) (.counted t) := by
  unfold incrementFailedAttempts
  dsimp only
  split
  · refine wp_known (wp_aside each_clock) fun now => ?_
    exact wp_bind (wp_update fun n _ => .inl rfl)
  · rename_i hmax
    exact wp_bind (wp_update fun n hn => hn.count (Nat.lt_of_not_le hmax))

theorem wp_succeed : wp Inv oneAtATime i (succeed : Prog (Mem ι) Int) (fun _ γ' => γ' = .won) (.working t b) :=
  wp_atomically fun _ _ hinv hi _ => ⟨.won, hinv.go hi Phase.noConfusion rfl (fun _ => rfl) rfl, rfl⟩

/-- After a right code the attempt has won; otherwise it works on with its copy. -/
def Counted (p : Row × Option Bool) (γ : Phase) : Prop :=
  if p.2 = some true then γ = .won else ∃ b, γ = .working p.1 b

theorem wp_countResult (right : Bool) :
    wp Inv oneAtATime i (countResult t right) Counted (if right then .working t b else .counted t) := by
  cases right with
  | true =>
    refine wp_bind (wp_known wp_succeed fun now => ?_)
    exact wp_seq (wp_won (each_act (fun _ => ⟨rfl, id, rfl⟩) fun _ => ⟨rfl, id, rfl⟩)) fun _ γ hγ => hγ
  | false =>
    exact wp_seq wp_increment fun t' γ hγ => ⟨false, hγ⟩

/-! Attempts. -/

section
variable (env : Checks)

-- no proof looks into the format of a code
attribute [local irreducible] backupCodeFormat validateNumericCode

variable {t : Row}

variable {b : Bool}

theorem wp_validateTOTP (code : String) :
    wp Inv oneAtATime i (validateTOTPAndUpdateUsage env t code) Counted (.working t b) := by
  refine wp_checkLock (wp_pure ⟨b, rfl⟩) ?_
  refine wp_known (wp_compare _) fun right => ?_
  exact wp_countResult right

/-- What the search for a backup code leaves: an error leaves the copy as it is. -/
def Searched (t : Row) (answer : Option Bool) (γ : Phase) : Prop :=
  γ = if answer = some false then .counted t else .working t true

section
variable (start : List (Option ι))

theorem wp_useCode (c : Nat × BackupCode ι) :
    wp Inv oneAtATime i (useCode i start (some c)) (Searched t) (.working t true) := by
  refine wp_known (wp_aside each_clock) fun now => ?_
  refine wp_known (wp_aside (each_saveCode c.2 now _)) fun ok => ?_
  cases ok with
  | true | false => exact wp_pure rfl

theorem wp_compareCodes (found : Option (Nat × BackupCode ι)) :
    wp Inv oneAtATime i (compareCodes i start found) (Searched t) (.working t true) := by
  refine wp_bind (wp_atomically fun m g hinv hi hguard => ?_)
  obtain ⟨γ, hinv', hγ⟩ := wp_compare (fun _ => found.isSome) m g true hinv hi rfl hguard
  subst hγ
  refine ⟨_, hinv', ?_⟩
  cases found with
  | none => exact wp_pure rfl
  | some c => exact wp_useCode start c

theorem wp_validateBackupCode (code : String) :
    wp Inv oneAtATime i (validateBackupCode env i start code) (Searched t) (.working t true) := by
  rw [validateBackupCode]
  split
  · refine wp_bind (wp_query (fun m g _ _ => ?_) ?_)
    · exact wp_compareCodes start _
    · exact wp_pure rfl
  · exact wp_pure rfl

theorem wp_validateBackupCodeAndUpdateUsage (code : String) :
    wp Inv oneAtATime i (validateBackupCodeAndUpdateUsage env i start t code) Counted (.working t b) := by
  refine wp_checkLock (wp_pure ⟨b, rfl⟩) ?_
  refine wp_known (wp_validateBackupCode env start code) fun answer => ?_
  cases answer with
  | none => exact ⟨true, rfl⟩
  | some right =>
    have hcount := wp_countResult (i := i) (t := t) (b := true) right
    cases right with
    | true | false => exact hcount

end

/-- At its end an attempt has won, or has no failure left to count. -/
def Ended (right : Bool) (γ : Phase) : Prop := if right then γ = .won else ∃ t b, γ = .working t b

theorem Counted.ended {p : Row × Option Bool} {γ : Phase} (h : Counted p γ) : Ended (p.2 = some true) γ := by
  unfold Counted at h
  unfold Ended
  by_cases hright : p.2 = some true
  · rw [if_pos hright] at h
    rw [if_pos (decide_eq_true hright)]
    exact h
  · rw [if_neg hright] at h
    rw [if_neg (by simpa using hright)]
    exact ⟨p.1, h⟩

theorem wp_verifyEither (start : List (Option ι)) (code : String) :
    wp Inv oneAtATime i (verifyEither env i start t code) Ended (.working t b) := by
  rw [verifyEither]
  cases validateNumericCode code with
  | none => exact wp_seq (wp_validateBackupCodeAndUpdateUsage env start code) fun _ _ h => h.ended
  | some clean =>
    refine wp_seq (wp_validateTOTP env clean) fun r γ hγ => ?_
    unfold Counted at hγ
    by_cases hright : r.2 = some true
    · rw [if_pos hright] at hγ
      rw [if_pos hright]
      exact wp_pure hγ
    · rw [if_neg hright] at hγ
      rw [if_neg hright]
      obtain ⟨b', rfl⟩ := hγ
      exact wp_seq (wp_validateBackupCodeAndUpdateUsage env start code) fun _ _ h => h.ended

theorem wp_verifyTOTP (code : String) : wp Inv oneAtATime i (verifyTOTP env t code) Ended (.working t b) := by
  rw [verifyTOTP]
  cases validateNumericCode code with
  | none => exact wp_pure ⟨t, b, rfl⟩
  | some clean => exact wp_seq (wp_validateTOTP env clean) fun _ _ h => h.ended

theorem wp_verify (start : List (Option ι)) (code : String) (kind : Kind) :
    wp Inv oneAtATime i (kind.verify env i start t code) Ended (.working t b) := by
  cases kind with
  | regenerate codes => exact wp_verifyTOTP env code
  | login | disable | stepUp => exact wp_verifyEither env start code

def loaded : Option Row → Phase
  | none => .idle
  | some t => .working t false

/-- An attempt that may end: no failure is left to count. -/
def Phase.MayEnd : Phase → Prop
  | .out => False
  | .counted _ => False
  | _ => True

theorem wp_go (kind : Kind) (code : String) (start : List (Option ι)) (row : Option Row) :
    wp Inv oneAtATime i (kind.go env i code start row) (fun _ γ => γ.MayEnd) (loaded row) := by
  cases row with
  | none => exact wp_pure trivial
  | some t =>
    rw [Kind.go]
    split
    · exact wp_pure trivial
    refine wp_seq (wp_verify env start code kind) fun right γ hγ => ?_
    cases right with
    | true =>
      have hwon : γ = .won := hγ
      subst hwon
      exact wp_mono (fun _ γ' hγ' => hγ' ▸ trivial) (wp_won (each_afterwards env kind))
    | false =>
      obtain ⟨t', b', rfl⟩ := hγ
      exact wp_pure trivial

/-- No other attempt is running, so no other has a copy. -/
theorem wp_begin : wp Inv oneAtATime i (begin i) (fun found γ => γ = loaded found.1) .out := by
  intro m g ok hinv hi _ hguard
  have hrunning : m.running = [] := by
    have hlength : m.running.length + 1 ≤ 1 := of_decide_eq_true ((Bool.and_eq_true _ _).mp hguard).1
    exact List.length_eq_zero_iff.mp (by omega)
  have hout : ∀ j, g j = .out := by
    intro j
    by_contra hj
    have hmem := hinv.begun j hj
    rw [hrunning] at hmem
    cases hmem
  refine ⟨loaded (if ok then m.row else none), ?_, rfl⟩
  refine inv_of_others_out (fun j _ => hout j) (fun _ => List.mem_cons_self) ?_ hinv.late
  have hcounting := hinv.quiet hout
  cases hrow : (if ok then m.row else none) with
  | none => exact hcounting
  | some t =>
    refine ⟨?_, hcounting, fun hb => absurd hb Bool.false_ne_true⟩
    cases ok with
    | true => exact hrow
    | false => cases hrow

theorem wp_finish {γ : Phase} (hγ : γ.MayEnd) (answer : Bool) :
    wp Inv oneAtATime i (finish i answer) (fun _ _ => True) γ := by
  refine wp_atomically fun m g hinv hi _ => ⟨.out, ?_, trivial⟩
  have hin : g i ≠ .out := by
    rw [hi]
    rintro rfl
    exact hγ
  have hholds := hinv.holds i hin
  rw [hi] at hholds
  refine inv_of_others_out (hinv.others_out hin) (fun h => absurd rfl h) ?_ hinv.late
  cases γ with
  | out | counted t => exact hγ.elim
  | idle => exact hholds
  | working t b => exact hholds.2.1
  | won => exact .inl hholds

theorem wp_call (call : Call) : wp Inv oneAtATime i (call.prog env i) (fun _ _ => True) .out := by
  cases call with
  | attempt kind code =>
    refine wp_known wp_begin fun found => ?_
    exact wp_seq (wp_go env kind code found.2 found.1) fun answer γ hγ => wp_finish hγ answer
  | createBackupCodes codes => exact wp_mono (fun _ _ _ => trivial) (wp_aside (each_createBackupCodes env codes))
  | wait seconds =>
    refine wp_mono (fun _ _ _ => trivial) (wp_aside (each_atomically fun m => ⟨rfl, rfl, rfl, rfl, ?_⟩))
    exact Int.le_add_of_nonneg_right (Int.natCast_nonneg seconds)

/-- **Wrong codes are bounded.** As long as attempts do not overlap and the row is saved, in every
state that is reached at most `maxFailAttempts` wrong codes were compared since the account was last
locked or an attempt succeeded, and none was compared while it was locked. -/
theorem wrong_codes_bounded (row : Option Row) (codes : List (BackupCode ι)) (now : Int) (calls : ι → Call)
    (s : Sys ι (Mem ι) Bool) (hs : Reach oneAtATime ⟨Mem.start row codes now, fun i => (calls i).prog env i⟩ s) :
    s.mem.tries ≤ maxFailAttempts ∧ s.mem.late = 0 := by
  have hstart : Inv (Mem.start row codes now) (fun _ : ι => .out) :=
    ⟨fun _ _ h => absurd rfl h, fun _ h => absurd rfl h, fun _ h => absurd rfl h, fun _ => .inl rfl, rfl⟩
  obtain ⟨g, hgood⟩ := reach_sound hstart (fun i => wp_call env (calls i)) hs
  exact ⟨hgood.inv.bound, hgood.inv.late⟩

end

end

/-! Attempts with a wrong code. -/

section

def allWrong : Checks := ⟨fun _ _ _ => false, fun _ _ => false, id⟩

def enrolled : Row := { secret := "JBSWY3DP", isEnabled := true }

/-- As many logins as one likes, each with the same code. -/
def guesses : Sys Nat (Mem Nat) Bool :=
  ⟨Mem.start (some enrolled) [] 1000, fun i => (Call.attempt .login "000000").prog allWrong i⟩

/-- The first steps of an attempt: it reads the row, looks at the lock, and compares the code. -/
def compares (i : Nat) : List (Nat × Bool) := List.replicate 3 (i, true)

def fails (i : Nat) : List (Nat × Bool) := List.replicate 6 (i, true)

def lockedOut : List (Nat × Bool) := fails 0 ++ fails 1 ++ fails 2 ++ fails 3 ++ List.replicate 7 (4, true)

/-- Five attempts in turn lock the account. -/
theorem five_failures_lock :
    (after oneAtATime guesses lockedOut).mem.locked = true ∧
      (after oneAtATime guesses lockedOut).mem.tries ≤ maxFailAttempts ∧
      (after oneAtATime guesses lockedOut).mem.late = 0 := by
  have hrun : (run oneAtATime guesses lockedOut).isSome = true := by decide +kernel
  exact ⟨by decide +kernel, wrong_codes_bounded allWrong _ _ _ _ _ (reach_run .start (run_after hrun))⟩

/-- Attempts that overlap: six codes are compared and the account is not locked; one that has read the
row before the lock compares its code during it. -/
theorem attempts_overlap :
    (∃ s, Reach anyStep guesses s ∧ s.mem.unsaved = 0 ∧ s.mem.tries = maxFailAttempts + 1) ∧
      ∃ s, Reach anyStep guesses s ∧ s.mem.unsaved = 0 ∧ s.mem.locked = true ∧ s.mem.late = 1 := by
  refine ⟨?_, ?_⟩
  · exact exists_of_run ((List.range 6).flatMap compares) (by decide +kernel)
  · exact exists_of_run ([(5, true), (5, true)] ++ lockedOut ++ [(5, true)]) (by decide +kernel)

end

end AmuxApi.TwoFA
