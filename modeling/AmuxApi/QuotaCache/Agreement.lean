import Mathlib.Algebra.Ring.Int.Defs
import AmuxApi.Conc.Logic
import AmuxApi.QuotaCache.Model

/- The entry in Redis agrees with the row.

   A change has two halves: the UPDATE of the row and the task that adds to the entry. While one of them
   is done and the other is not, the entry is ahead of the row, or behind; when both are done they
   agree. This holds as long as an entry is written only when the row still is what was read and no
   change is half done, the entry that a task has found does not end before the task adds to it, an entry
   that ends within half a second is not asked for its TTL, and no command fails (`steady`): in every
   state reached, the entry is the row plus what the half done changes make up (`Inv.ahead`), so that it
   is the row once all calls and tasks have returned (`entry_agrees`).

   A task that finds no entry adds nothing. If the row was read before, the entry is written afterwards
   without the change (`refill_loses_change`). -/
namespace AmuxApi.QuotaCache
open Conc Function List

/-- Nothing that the conditions exclude happens in this step. -/
def steady {ι : Type} : Guard (Thread ι) (Mem ι) := fun _ m m' => m'.slips == m.slips

/-! What calls and tasks have done. -/

/-- `owes`, `did`: a change whose half of the work is still to be done, or is done. `read`: the row was
read, to fill the cache. -/
inductive Stage
  | idle
  | owes (delta : Int)
  | did (delta : Int)
  | read
  deriving DecidableEq

def Stage.Started : Stage → Option Task → Prop
  | .idle, task => task = none
  | .owes delta, task => task = some (.add delta)
  | .did delta, task => task = some (.add delta)
  | .read, task => ∃ quota, task = some (.refill quota)

def Stage.isDid : Stage → Bool
  | .did _ => true
  | _ => false

/-- What the entry is ahead of the row by, because of one change. -/
def share : Stage → Stage → Option Int
  | .did _, .did _ => none
  | .did delta, _ => some (-delta)
  | _, .did delta => some delta
  | _, _ => none

section
variable {ι : Type} [DecidableEq ι]

/-! Half done changes. -/

def total (half : List (ι × Int)) : Int := (half.map (·.2)).sum

variable {d ahead delta : Int} {t : Thread ι}

theorem total_filter {half : List (ι × Int)} {i : ι} (hkeys : (half.map (·.1)).Nodup) (h : (i, d) ∈ half) :
    total (half.filter (·.1 ≠ i)) + d = total half := by
  induction half with
  | nil => cases h
  | cons x rest ih =>
    obtain ⟨hx, hrest⟩ := nodup_cons.mp hkeys
    by_cases hi : x.1 = i
    · -- the others are all of other calls
      have hkept : rest.filter (·.1 ≠ i) = rest := by
        refine filter_eq_self.mpr fun y hy => decide_eq_true fun hyi => ?_
        exact hx (mem_map.mpr ⟨y, hy, hyi.trans hi.symm⟩)
      have hd : x = (i, d) :=
        ((mem_cons.mp h).resolve_right fun h => hx (mem_map.mpr ⟨(i, d), h, hi.symm⟩)).symm
      rw [filter_cons_of_neg (by simp [hi]), hkept, hd]
      simp [total, add_comm]
    · have hmem : (i, d) ∈ rest := (mem_cons.mp h).resolve_left fun h => hi (congrArg Prod.fst h).symm
      have := ih hrest hmem
      rw [filter_cons_of_pos (by simp [hi])]
      simp only [total, map_cons, sum_cons] at this ⊢
      omega

variable {m : Mem ι} {g : Thread ι → Stage} {i : ι}

structure Inv (m : Mem ι) (g : Thread ι → Stage) : Prop where
  ahead : ∀ e, m.entry = some e → e.quota = m.quota + total m.half
  keys : (m.half.map (·.1)).Nodup
  half : ∀ i d, (i, d) ∈ m.half ↔ share (g (.call i)) (g (.task i)) = some d
  call : ∀ i, (g (.call i)).Started (m.tasks i)
  task : ∀ i, g (.task i) ≠ .idle → (g (.task i)).Started (m.tasks i)

section
variable (h : Inv m g)
include h

theorem any_half_iff : m.half.any (·.1 = i) = true ↔ ∃ d, share (g (.call i)) (g (.task i)) = some d := by
  rw [any_eq_true]
  constructor
  · rintro ⟨⟨j, d⟩, hmem, hj⟩
    have hj : j = i := of_decide_eq_true hj
    exact ⟨d, (h.half i d).mp (hj ▸ hmem)⟩
  · rintro ⟨d, hd⟩
    exact ⟨(i, d), (h.half i d).mpr hd, decide_eq_true rfl⟩

theorem toggle_second (ahead : Int) (hshare : share (g (.call i)) (g (.task i)) = some d) :
    (m.toggle i ahead).half = m.half.filter (·.1 ≠ i) ∧ total (m.toggle i ahead).half + d = total m.half := by
  have hany := (any_half_iff h).mpr ⟨d, hshare⟩
  have hhalf : (m.toggle i ahead).half = m.half.filter (·.1 ≠ i) := if_pos hany
  exact ⟨hhalf, hhalf ▸ total_filter h.keys ((h.half i d).mpr hshare)⟩

theorem toggle_first (hshare : share (g (.call i)) (g (.task i)) = none) :
    (m.toggle i ahead).half = (i, ahead) :: m.half := by
  refine if_neg fun hany => ?_
  obtain ⟨d, hd⟩ := (any_half_iff h).mp hany
  rw [hshare] at hd
  cases hd

/-- One half of a change is done: the entry is `ahead` further ahead of the row. -/
theorem toggle_spec {g' : Thread ι → Stage}
    (hothers : ∀ j, j ≠ i → share (g' (.call j)) (g' (.task j)) = share (g (.call j)) (g (.task j)))
    (hi : share (g (.call i)) (g (.task i)) = none ∧ share (g' (.call i)) (g' (.task i)) = some ahead ∨
      share (g (.call i)) (g (.task i)) = some (-ahead) ∧ share (g' (.call i)) (g' (.task i)) = none) :
    ((m.toggle i ahead).half.map (·.1)).Nodup ∧
      (∀ j d, (j, d) ∈ (m.toggle i ahead).half ↔ share (g' (.call j)) (g' (.task j)) = some d) ∧
      total (m.toggle i ahead).half = total m.half + ahead := by
  rcases hi with ⟨hbefore, hafter⟩ | ⟨hbefore, hafter⟩
  · rw [toggle_first h hbefore]
    have hnot : ∀ d, (i, d) ∉ m.half := by
      intro d hd
      rw [h.half, hbefore] at hd
      cases hd
    refine ⟨?_, fun j d => ?_, ?_⟩
    · refine nodup_cons.mpr ⟨fun hmem => ?_, h.keys⟩
      obtain ⟨⟨j, d⟩, hjd, hj⟩ := mem_map.mp hmem
      have hj : j = i := hj
      exact hnot d (hj ▸ hjd)
    · by_cases hj : j = i
      · subst hj
        rw [hafter]
        simp [hnot, eq_comm]
      · rw [hothers j hj, ← h.half]
        simp [hj]
    · simp only [total, map_cons, sum_cons]
      omega
  · obtain ⟨hhalf, htotal⟩ := toggle_second h ahead hbefore
    rw [hhalf] at htotal ⊢
    refine ⟨?_, fun j d => ?_, by omega⟩
    · exact h.keys.sublist ((filter_sublist).map _)
    rw [mem_filter, h.half]
    by_cases hj : j = i
    · subst hj
      simp [hafter]
    · rw [hothers j hj]
      simp [hj]

/-! The steps. -/

theorem Inv.spawn {stage : Stage} {task : Task} (hi : g (.call i) = .idle)
    (hstage : stage.isDid = false) (hstarted : stage.Started (some task)) :
    Inv { m with tasks := update m.tasks i (some task) } (update g (.call i) stage) := by
  have hnone : m.tasks i = none := by
    have := h.call i
    rw [hi] at this
    exact this
  have htask : g (.task i) = .idle := by
    by_contra hne
    have := h.task i hne
    rw [hnone] at this
    cases hg : g (.task i) <;> simp [hg, Stage.Started] at this hne
  have hshare : ∀ j, share (update g (.call i) stage (.call j)) (update g (.call i) stage (.task j)) =
      share (g (.call j)) (g (.task j)) := by
    intro j
    by_cases hj : j = i
    · subst hj
      rw [update_self, update_of_ne (by simp), hi, htask]
      cases stage <;> simp [share, Stage.isDid] at hstage ⊢
    · rw [update_of_ne (by simpa using hj), update_of_ne (by simp)]
  refine ⟨h.ahead, h.keys, fun j d => (h.half j d).trans (by rw [hshare]), fun j => ?_, fun j hj => ?_⟩
  · by_cases hj : j = i
    · subst hj
      simpa using hstarted
    · have := h.call j
      simpa [hj] using this
  · by_cases hji : j = i
    · subst hji
      exact absurd htask hj
    · simpa [hji] using h.task j hj

omit [DecidableEq ι] in
theorem Inv.delta_eq {d' : Int} (hcall : g (.call i) = .owes d ∨ g (.call i) = .did d)
    (htask : g (.task i) = .owes d' ∨ g (.task i) = .did d') : d = d' := by
  have hadd : m.tasks i = some (.add d) := by
    have := h.call i
    rcases hcall with hcall | hcall <;> rwa [hcall] at this
  have hadd' : m.tasks i = some (.add d') := by
    have := h.task i (by rcases htask with htask | htask <;> simp [htask])
    rcases htask with htask | htask <;> rwa [htask] at this
  rw [hadd] at hadd'
  simpa using hadd'

omit [DecidableEq ι] in
theorem Inv.share_call (hi : g (.call i) = .owes delta) :
    share (g (.call i)) (g (.task i)) = none ∧ share (.did delta) (g (.task i)) = some (-delta) ∨
      share (g (.call i)) (g (.task i)) = some (- -delta) ∧ share (.did delta) (g (.task i)) = none := by
  cases htask : g (.task i) with
  | did d =>
    obtain rfl := h.delta_eq (.inl hi) (.inr htask)
    simp [hi, share]
  | _ => simp [hi, share]

omit [DecidableEq ι] in
theorem Inv.share_task (hi : g (.task i) = .owes delta) :
    share (g (.call i)) (g (.task i)) = none ∧ share (g (.call i)) (.did delta) = some delta ∨
      share (g (.call i)) (g (.task i)) = some (-delta) ∧ share (g (.call i)) (.did delta) = none := by
  cases hcall : g (.call i) with
  | did d =>
    obtain rfl := h.delta_eq (.inr hcall) (.inl hi)
    simp [hi, share]
  | _ => simp [hi, share]

/-- One half of a change is done, by the call or by its task. -/
theorem Inv.settle {m1 : Mem ι} {thread : Thread ι} (hi : g thread = .owes delta)
    (hthread : thread = .call i ∧ ahead = -delta ∨ thread = .task i ∧ ahead = delta) (hhalf : m1.half = m.half)
    (htasks : m1.tasks = m.tasks) (hentry : ∀ e, m1.entry = some e → e.quota = m1.quota + total m.half + ahead) :
    Inv (m1.toggle i ahead) (update g thread (.did delta)) := by
  have htoggle : (m1.toggle i ahead).half = (m.toggle i ahead).half := by
    simp only [Mem.toggle, hhalf]
  have hstarted : ∀ j, (update g thread (.did delta) (.call j)).Started (m.tasks j) ∧
      (update g thread (.did delta) (.task j) ≠ .idle →
        (update g thread (.did delta) (.task j)).Started (m.tasks j)) := by
    intro j
    refine ⟨?_, ?_⟩
    · by_cases hj : (.call j : Thread ι) = thread
      · have := h.call j
        rw [hj, hi] at this
        rw [hj, update_self]
        exact this
      · rw [update_of_ne hj]
        exact h.call j
    · by_cases hj : (.task j : Thread ι) = thread
      · have := h.task j
        rw [hj, hi] at this
        rw [hj, update_self]
        exact fun _ => this (by simp)
      · rw [update_of_ne hj]
        exact h.task j
  obtain ⟨hkeys, hmem, htotal⟩ : ((m.toggle i ahead).half.map (·.1)).Nodup ∧ (∀ j d, (j, d) ∈ (m.toggle i ahead).half ↔
      share (update g thread (.did delta) (.call j)) (update g thread (.did delta) (.task j)) = some d) ∧
      total (m.toggle i ahead).half = total m.half + ahead := by
    rcases hthread with ⟨rfl, rfl⟩ | ⟨rfl, rfl⟩
    · refine toggle_spec h (fun j hj => ?_) ?_
      · rw [update_of_ne (by simpa using hj), update_of_ne (by simp)]
      · rw [update_self, update_of_ne (by simp)]
        exact h.share_call hi
    · refine toggle_spec h (fun j hj => ?_) ?_
      · rw [update_of_ne (by simp), update_of_ne (by simpa using hj)]
      · rw [update_self, update_of_ne (by simp)]
        exact h.share_task hi
  refine ⟨fun e he => ?_, htoggle ▸ hkeys, fun j d => htoggle ▸ hmem j d, fun j => ?_, fun j => ?_⟩
  · rw [htoggle, htotal]
    have := hentry e he
    show e.quota = m1.quota + _
    omega
  · exact htasks ▸ (hstarted j).1
  · exact htasks ▸ (hstarted j).2

omit [DecidableEq ι] in
theorem Inv.setEntry {entry : Option Entry} {slips : Nat}
    (hentry : ∀ e, entry = some e → e.quota = m.quota + total m.half) : Inv { m with entry, slips } g :=
  ⟨hentry, h.keys, h.half, h.call, h.task⟩

theorem Inv.begin {stage : Stage} {task : Task} (hi : g (.task i) = .idle) (htask : m.tasks i = some task)
    (hdid : stage.isDid = false) (hstage : stage.Started (some task)) : Inv m (update g (.task i) stage) := by
  have hshare : ∀ c, share c stage = share c (g (.task i)) := by
    intro c
    rw [hi]
    cases c <;> cases stage <;> simp [share, Stage.isDid] at hdid ⊢
  refine ⟨h.ahead, h.keys, fun j d => ?_, fun j => ?_, fun j => ?_⟩
  · rw [update_of_ne (by simp), h.half]
    by_cases hj : j = i
    · subst hj
      rw [update_self, hshare]
    · rw [update_of_ne (by simpa using hj)]
  · exact h.call j
  · by_cases hj : j = i
    · subst hj
      rw [update_self, htask]
      exact fun _ => hstage
    · rw [update_of_ne (by simpa using hj)]
      exact h.task j

end

/-! Calls and tasks, step by step. -/

omit [DecidableEq ι] in
theorem not_steady_slip {m' : Mem ι} (hslips : m'.slips = m.slips + 1) (h : steady t m m' = true) : False := by
  have := eq_of_beq h
  omega

theorem wp_attempt {f : Mem ι → Mem ι} {Q : Bool → Stage → Prop} {γ : Stage}
    (h : ∀ m g, Inv m g → g t = γ → steady t m (f m) = true → ∃ γ', Inv (f m) (update g t γ') ∧ Q true γ') :
    wp Inv steady t (attempt f) Q γ := by
  intro m g ok hinv hi _ hguard
  cases ok with
  | true => exact h m g hinv hi hguard
  | false => exact absurd hguard (not_steady_slip rfl)

theorem wp_changeQuota : wp Inv steady (.call i) (changeQuota i delta) (fun _ γ => ∀ d, γ ≠ .owes d) .idle := by
  refine wp_bind (wp_atomically fun m g hinv hi _ => ⟨.owes delta, hinv.spawn hi rfl rfl, ?_⟩)
  refine wp_bind (wp_attempt fun m g hinv hi _ => ⟨.did delta, ?_, wp_pure nofun⟩)
  refine hinv.settle hi (.inl ⟨rfl, rfl⟩) rfl rfl fun e he => ?_
  have := hinv.ahead e he
  show e.quota = m.quota + delta + _ + _
  omega

theorem wp_cacheGetUserBase {γ : Stage} {Q : Option Entry → Stage → Prop} (h : ∀ found, Q found γ) :
    wp Inv steady t cacheGetUserBase Q γ :=
  wp_bind (wp_query (fun _ _ _ _ => h _) (h _))

theorem wp_getUserCache : wp Inv steady (.call i) (getUserCache i) (fun _ γ => ∀ d, γ ≠ .owes d) .idle := by
  refine wp_bind (wp_cacheGetUserBase fun cached => ?_)
  cases cached with
  | some entry => exact wp_pure nofun
  | none =>
    refine wp_bind (wp_query (fun m _ _ _ => ?_) (wp_pure nofun))
    exact wp_bind (wp_atomically fun m' g' hinv' hi' _ =>
      ⟨.read, hinv'.spawn hi' rfl ⟨m.quota, rfl⟩, wp_pure nofun⟩)

theorem quota_later {e e' : Entry} {ms : Nat} (h : e.later ms = some e') : e'.quota = e.quota := by
  unfold Entry.later at h
  split at h
  · cases h
    rfl
  · split_ifs at h
    cases h
    rfl

theorem wp_call (call : Call) : wp Inv steady (.call i) (call.prog i) (fun _ γ => ∀ d, γ ≠ .owes d) .idle := by
  cases call with
  | increaseUserQuota quota =>
    simp only [Call.prog, increaseUserQuota]
    split
    · exact wp_pure nofun
    · exact wp_changeQuota
  | decreaseUserQuota quota =>
    simp only [Call.prog, decreaseUserQuota]
    split
    · exact wp_pure nofun
    · exact wp_changeQuota
  | getUserCache => exact wp_getUserCache
  | wait ms =>
    refine wp_atomically fun m g hinv hi _ => ⟨.idle, inv_update_self (hinv.setEntry fun e' he' => ?_) hi, ?_⟩
    · obtain ⟨e, he, hlater⟩ := Option.bind_eq_some_iff.mp he'
      rw [quota_later hlater]
      exact hinv.ahead e he
    · exact nofun

/-- A task that finds no entry has nothing to add to. -/
theorem wp_readTtl {Q : Option Int → Stage → Prop} (hfound : ∀ ttl, ttl > 0 → Q (some ttl) (.owes delta))
    (hmissing : ∀ ttl, ¬ ttl > 0 → Q (some ttl) (.did delta)) :
    wp Inv steady (.task i) (readTtl i delta) Q (.owes delta) := by
  intro m g ok hinv hi _ hguard
  cases ok with
  | false => exact absurd hguard (not_steady_slip rfl)
  | true =>
    by_cases httl : ttlOf m.entry > 0
    · refine ⟨.owes delta, ?_, hfound _ httl⟩
      dsimp only
      rw [if_pos httl]
      exact inv_update_self hinv hi
    · refine ⟨.did delta, ?_, hmissing _ httl⟩
      dsimp only at hguard ⊢
      rw [if_neg httl] at hguard ⊢
      cases hentry : m.entry with
      | some e =>
        rw [hentry] at hguard
        exact absurd hguard (not_steady_slip rfl)
      | none =>
        exact hinv.settle hi (.inr ⟨rfl, rfl⟩) rfl rfl fun e he => by rw [hentry] at he; cases he

theorem wp_addToEntry {ttl : Int} {Q : Bool → Stage → Prop} (h : Q true (.did delta)) :
    wp Inv steady (.task i) (addToEntry i delta ttl) Q (.owes delta) := by
  refine wp_attempt fun m g hinv hi hguard => ⟨.did delta, ?_, h⟩
  cases hentry : m.entry with
  | none =>
    refine absurd hguard (not_steady_slip ?_)
    simp [Mem.toggle, hentry]
  | some e =>
    refine hinv.settle hi (.inr ⟨rfl, rfl⟩) rfl rfl fun e' he' => ?_
    cases he'
    have := hinv.ahead e hentry
    show e.quota + delta = m.quota + _ + _
    omega

/-- A task that has returned is one of a change that was made, or of a read. -/
def Stage.over : Stage → Bool
  | .did _ => true
  | .read => true
  | _ => false

theorem wp_cacheIncrUserQuota :
    wp Inv steady (.task i) (cacheIncrUserQuota i delta) (fun _ γ => γ.over = true) (.owes delta) := by
  refine wp_bind (wp_readTtl (fun ttl hpos => ?_) fun ttl hnot => ?_)
  · rw [if_pos (by simpa using hpos)]
    exact wp_bind (wp_addToEntry (wp_pure rfl))
  · rw [if_neg (by simpa using hnot)]
    exact wp_pure rfl

theorem wp_refillUserCache {cacheSeconds quota : Int} :
    wp Inv steady (.task i) (refillUserCache cacheSeconds quota) (fun _ γ => γ.over = true) .read := by
  refine wp_bind (wp_cacheGetUserBase fun existing => ?_)
  split
  · exact wp_pure rfl
  refine wp_bind (wp_statement (fun m g hinv hi hguard => ?_) (wp_pure rfl))
  have hcurrent : m.quota = quota ∧ m.half = [] := by
    by_contra hnot
    refine not_steady_slip ?_ hguard
    simp [hnot]
  refine ⟨.read, inv_update_self (hinv.setEntry fun e he => ?_) hi, wp_pure rfl⟩
  cases he
  simp [hSetObj, hcurrent, total]

theorem wp_background {cacheSeconds : Int} :
    wp Inv steady (.task i) (background i cacheSeconds) (fun _ γ => γ.over = true) .idle := by
  refine wp_bind fun m g ok hinv hi hready _ => ?_
  obtain ⟨task, htask⟩ := Option.isSome_iff_exists.mp hready
  replace htask : m.tasks i = some task := htask
  show ∃ γ', _ ∧ wp Inv steady (.task i) (runTask i cacheSeconds (m.tasks i)) _ γ'
  rw [htask]
  cases task with
  | add delta => exact ⟨.owes delta, hinv.begin hi htask rfl rfl, wp_cacheIncrUserQuota⟩
  | refill quota => exact ⟨.read, hinv.begin hi htask rfl ⟨quota, rfl⟩, wp_refillUserCache⟩

/-! Runs. -/

omit [DecidableEq ι] in
theorem inv_start {quota : Int} {entry : Option Entry} (h : ∀ e, entry = some e → e.quota = quota) :
    Inv ({ quota, entry } : Mem ι) fun _ => .idle where
  ahead := fun e he => by simpa [total] using h e he
  keys := nodup_nil
  half := fun i d => by simp [share]
  call := fun _ => rfl
  task := fun _ hne => absurd rfl hne

/-- What holds of a thread that has returned. -/
def Returned : Thread ι → Answer → Stage → Prop
  | .call _, _, γ => ∀ d, γ ≠ .owes d
  | .task _, _, γ => γ.over = true

/-- A change is not half done once its call has returned, and its task too if it was started. -/
theorem share_returned {task : Option Task} {call bg : Stage} (hcall : call.Started task)
    (hbg : bg ≠ .idle → bg.Started task) (hpaid : ∀ d, call ≠ .owes d) (hover : task.isSome = true → bg.over = true) :
    share call bg = none := by
  cases call with
  | owes d => exact absurd rfl (hpaid d)
  | idle =>
    obtain rfl : task = none := hcall
    cases bg <;> simp [Stage.Started, share] at hbg ⊢
  | did d =>
    obtain rfl : task = some (.add d) := hcall
    cases bg <;> simp [Stage.Started, Stage.over, share] at hbg hover ⊢
  | read =>
    obtain ⟨quota, rfl⟩ := hcall
    cases bg <;> simp [Stage.Started, share] at hbg ⊢

/-- **The cached quota.** In any run of any calls whose steps are all steady: once the calls and the tasks
that they have started have returned, an entry has the quota of the row. -/
theorem entry_agrees (cacheSeconds quota : Int) (entry : Option Entry)
    (hentry : ∀ e, entry = some e → e.quota = quota) (calls : ι → Call) {s : Sys (Thread ι) (Mem ι) Answer}
    (hs : Reach steady (system cacheSeconds quota entry calls) s)
    (hcalls : ∀ i, (s.prog (.call i)).result.isSome = true)
    (htasks : ∀ i task, s.mem.tasks i = some task → (s.prog (.task i)).result.isSome = true) :
    ∀ e, s.mem.entry = some e → e.quota = s.mem.quota := by
  have hprogs : ∀ t : Thread ι, wp Inv steady t ((system cacheSeconds quota entry calls).prog t)
      (Returned t) .idle := by
    intro t
    cases t with
    | call i => exact wp_call (calls i)
    | task i => exact wp_background
  obtain ⟨g, hgood⟩ := reach_sound (inv_start hentry) hprogs hs
  have hinv := hgood.inv
  have hnone : s.mem.half = [] := by
    refine eq_nil_iff_forall_not_mem.mpr fun ⟨i, d⟩ hmem => ?_
    have hshare := (hinv.half i d).mp hmem
    rw [share_returned (hinv.call i) (hinv.task i)] at hshare
    · cases hshare
    · obtain ⟨a, ha⟩ := Option.isSome_iff_exists.mp (hcalls i)
      exact hgood.returned (Prog.eq_ret_of_result ha)
    · intro hstarted
      obtain ⟨task, htask⟩ := Option.isSome_iff_exists.mp hstarted
      obtain ⟨a, ha⟩ := Option.isSome_iff_exists.mp (htasks i task htask)
      exact hgood.returned (Prog.eq_ret_of_result ha)
  intro e he
  have := hinv.ahead e he
  simpa [hnone, total] using this

end

/-! Runs of a read and a change. -/

def readAndIncrease : Sys (Thread Bool) (Mem Bool) Answer :=
  system 60 100 none fun i => if i then .increaseUserQuota 50 else .getUserCache

def oneByOne : List (Thread Bool × Bool) :=
  List.replicate 3 (.call false, true) ++ List.replicate 3 (.task false, true) ++ List.replicate 2 (.call true, true) ++
    List.replicate 3 (.task true, true)

def allReturned (s : Sys (Thread Bool) (Mem Bool) Answer) : Bool :=
  [Thread.call false, .call true, .task false, .task true].all fun t => (s.prog t).result.isSome

theorem result_of_allReturned {s : Sys (Thread Bool) (Mem Bool) Answer} (h : allReturned s = true) (t : Thread Bool) :
    (s.prog t).result.isSome = true := by
  refine all_eq_true.mp h t ?_
  rcases t with (_ | _) | (_ | _) <;> simp

theorem filled_then_increased :
    (after steady readAndIncrease oneByOne).mem.entry = some ⟨150, some 60000⟩ ∧
      ∀ e, (after steady readAndIncrease oneByOne).mem.entry = some e →
        e.quota = (after steady readAndIncrease oneByOne).mem.quota := by
  have hrun : (run steady readAndIncrease oneByOne).isSome = true := by decide +kernel
  have hreturned : allReturned (after steady readAndIncrease oneByOne) = true := by decide +kernel
  refine ⟨by decide +kernel, ?_⟩
  exact entry_agrees 60 100 none nofun _ (reach_run .start (run_after hrun))
    (fun _ => result_of_allReturned hreturned _) fun _ _ _ => result_of_allReturned hreturned _

/-- The row is read before the UPDATE, the task of the change finds no entry, and the entry is written at
the end. -/
def refillLast : List (Thread Bool × Bool) :=
  List.replicate 3 (.call false, true) ++ [(.call true, true)] ++ List.replicate 2 (.task true, true) ++
    [(.call true, true)] ++ List.replicate 3 (.task false, true)

/-- Everything has returned, and the entry is without the change. -/
theorem refill_loses_change :
    ∃ s, Reach anyStep readAndIncrease s ∧ (∀ t, (s.prog t).result.isSome = true) ∧
      s.mem.entry = some ⟨100, some 60000⟩ ∧ s.mem.quota = 150 := by
  obtain ⟨s, hs, hreturned, hentry, hquota⟩ : ∃ s, Reach anyStep readAndIncrease s ∧ allReturned s = true ∧
      s.mem.entry = some ⟨100, some 60000⟩ ∧ s.mem.quota = 150 :=
    exists_of_run refillLast (by decide +kernel)
  exact ⟨s, hs, result_of_allReturned hreturned, hentry, hquota⟩

end AmuxApi.QuotaCache
