import AmuxApi.AsyncTask.Polling
import AmuxApi.AsyncTask.Terminal

/- Whether the polling loop gives back what a failed task was charged. A task becomes
   FAILURE in the sweep, by the answer about a video, by an item of a Suno reply, or in a
   bulk update. The first three refund it; the bulk updates do not.

   `Fate` says what may become of one unfinished task, `Carried` says it of all tasks and
   composes, so every loop is an induction whose invariant is that the tasks still to do
   are in memory as they are stored (`Fresh`). In rounds without a bulk update and without
   a task reached twice (`Orderly`), a failed task is refunded once
   (`failed_refunded_once`); a task whose channel is gone is not (`channel_gone_unrefunded`). -/
namespace AmuxApi.AsyncTask
open Txn Function TaskStatus Round List

/-! What a refund moves. -/

/-- The key that `resolveTokenKey` finds. -/
def tokenKey (d : Tables) (tokenId : Int) : String := (d (.token tokenId)).getD ""

/-- What a refund moves for the token: nothing if the token is gone. -/
def tokenRefund (d : Tables) (t : Task) : List Movement :=
  if 0 < t.tokenId ∧ tokenKey d t.tokenId ≠ "" then [⟨.token t.tokenId, -t.quota⟩] else []

def refunds (d : Tables) (t : Task) : List Movement :=
  if t.quota = 0 then [] else ⟨t.fundingAccount, -t.quota⟩ :: tokenRefund d t

variable {t t' t0 : Task} {r : Round}

theorem SameCharge.refunds_eq {d d' : Tables} (h : SameCharge t t')
    (htokens : ∀ id, d' (.token id) = d (.token id)) : refunds d' t' = refunds d t := by
  have hkey : tokenKey d' = tokenKey d := by
    funext id
    simp only [tokenKey, htokens id]
  unfold refunds tokenRefund Task.fundingAccount taskIsSubscription
  rw [h.quota, h.userId, h.billingSource, h.subscriptionId, h.tokenId, hkey]

theorem Task.unfinished_status (h : t.unfinished = true) : t.status.terminal = false := by
  simp only [Task.unfinished, decide_eq_true_eq] at h
  simpa using h.2

theorem Task.unfinished_ne_failure (h : t.unfinished = true) : t.status ≠ .failure := by
  intro hf
  have hs := t.unfinished_status h
  simp [hf, terminal] at hs

theorem Task.finished_of_terminal (h : t.status.terminal = true) : t.unfinished = false := by
  simp [Task.unfinished, h]

theorem Task.finished_of_failure (h : t.status = .failure) : t.unfinished = false :=
  t.finished_of_terminal (by simp [h, terminal])

/-! What may become of a task. -/

/-- An unfinished task ends in FAILURE and is refunded, or does not end there; while it is
unfinished nothing is moved for it. -/
inductive Fate (id : Int) (t : Task) (d d' : Tables) : Prop
  | failed (t' : Task) (row : d' (.task id) = some t') (status : t'.status = .failure)
      (ledger : d' (.ledger id) = d (.ledger id) ++ refunds d t)
  | other (t' : Task) (row : d' (.task id) = some t') (status : t'.status ≠ .failure)
      (waiting : t'.unfinished = true → SameCharge t t' ∧ d' (.ledger id) = d (.ledger id))

/-- The tables of the tasks as the poller may leave them; only the tasks of `own` change. -/
structure Carried (own : Int → Prop) (d d' : Tables) : Prop where
  tokens : ∀ id, d' (.token id) = d (.token id)
  others : ∀ id, ¬ own id → d' (.task id) = d (.task id)
  waiting : ∀ id t, d (.task id) = some t → t.unfinished = true → Fate id t d d'
  finished : ∀ id t, d (.task id) = some t → t.unfinished = false →
    d' (.task id) = some t ∧ d' (.ledger id) = d (.ledger id)

variable {own : Int → Prop} {d d1 d2 d' : Tables} {id : Int} {t : Task}

theorem Fate.refl (hrow : d (.task id) = some t) (ht : t.unfinished = true) : Fate id t d d :=
  .other t hrow (t.unfinished_ne_failure ht) fun _ => ⟨SameCharge.refl t, rfl⟩

theorem Carried.refl (own : Int → Prop) (d : Tables) : Carried own d d where
  tokens _ := rfl
  others _ _ := rfl
  waiting _ _ hrow ht := Fate.refl hrow ht
  finished _ _ hrow _ := ⟨hrow, rfl⟩

/-- A task that has ended stays; one that has not goes on from where it is. -/
theorem Fate.trans (h : Fate id t d d1) (hc : Carried own d1 d2) (htokens : ∀ id, d1 (.token id) = d (.token id)) :
    Fate id t d d2 := by
  cases h with
  | failed t1 row status ledger =>
    obtain ⟨row', ledger'⟩ := hc.finished id t1 row (t1.finished_of_failure status)
    exact .failed t1 row' status (ledger'.trans ledger)
  | other t1 row status waiting =>
    cases hu : t1.unfinished with
    | false =>
      obtain ⟨row', _⟩ := hc.finished id t1 row hu
      exact .other t1 row' status fun h => absurd h (by simp [hu])
    | true =>
      obtain ⟨same, ledger⟩ := waiting hu
      cases hc.waiting id t1 row hu with
      | failed t2 row' status' ledger' =>
        refine .failed t2 row' status' ?_
        rw [ledger', ledger, same.refunds_eq htokens]
      | other t2 row' status' waiting' =>
        refine .other t2 row' status' fun h => ?_
        obtain ⟨same', ledger'⟩ := waiting' h
        exact ⟨same.trans same', ledger'.trans ledger⟩

theorem Carried.trans (h : Carried own d d1) (h' : Carried own d1 d2) : Carried own d d2 where
  tokens id := (h'.tokens id).trans (h.tokens id)
  others id hid := (h'.others id hid).trans (h.others id hid)
  waiting id t hrow ht := (h.waiting id t hrow ht).trans h' h.tokens
  finished id t hrow ht := by
    obtain ⟨row, ledger⟩ := h.finished id t hrow ht
    obtain ⟨row', ledger'⟩ := h'.finished id t row ht
    exact ⟨row', ledger'.trans ledger⟩

theorem Carried.mono {own' : Int → Prop} (h : Carried own d d') (hown : ∀ id, own id → own' id) :
    Carried own' d d' where
  tokens := h.tokens
  others id hid := h.others id fun ho => hid (hown id ho)
  waiting := h.waiting
  finished := h.finished

/-! One task at a time. -/

/-- Nothing but task `id` and its ledger changes. -/
def Frame (id : Int) (d d' : Tables) : Prop := ∀ k, k ≠ .task id → k ≠ .ledger id → d' k = d k

theorem Frame.refl (id : Int) (d : Tables) : Frame id d d := fun _ _ _ => rfl

theorem Frame.trans (h : Frame id d d1) (h' : Frame id d1 d2) : Frame id d d2 :=
  fun k hk hl => (h' k hk hl).trans (h k hk hl)

theorem frame_task (id : Int) (d : Tables) (v : Option Task) : Frame id d (update d (.task id) v) :=
  fun _ hk _ => update_of_ne hk _ _

theorem frame_ledger (id : Int) (d : Tables) (v : List Movement) : Frame id d (update d (.ledger id) v) :=
  fun _ _ hl => update_of_ne hl _ _

/-- The task `t`, stored as `id` and unfinished, was taken from `d` to `d'`. -/
structure Handled (id : Int) (t : Task) (d d' : Tables) : Prop where
  frame : Frame id d d'
  fate : Fate id t d d'

theorem Handled.task_of_ne {id' : Int} (h : Handled id t d d') (hne : id' ≠ id) : d' (.task id') = d (.task id') :=
  h.frame _ (fun e => hne (Key.task.inj e)) nofun

theorem Handled.ledger_of_ne {id' : Int} (h : Handled id t d d') (hne : id' ≠ id) :
    d' (.ledger id') = d (.ledger id') :=
  h.frame _ nofun (fun e => hne (Key.ledger.inj e))

theorem Handled.carried (h : Handled id t d d') (hrow : d (.task id) = some t) (ht : t.unfinished = true)
    (hown : own id) : Carried own d d' where
  tokens id' := h.frame _ nofun nofun
  others id' hid := h.task_of_ne fun e => hid (e ▸ hown)
  waiting id' t' hrow' ht' := by
    by_cases hid : id' = id
    · subst hid
      cases hrow.symm.trans hrow'
      exact h.fate
    · refine .other t' ((h.task_of_ne hid).trans hrow') (t'.unfinished_ne_failure ht') fun _ => ?_
      exact ⟨SameCharge.refl t', h.ledger_of_ne hid⟩
  finished id' t' hrow' ht' := by
    have hid : id' ≠ id := by
      intro e
      subst e
      cases hrow.symm.trans hrow'
      simp [ht] at ht'
    exact ⟨(h.task_of_ne hid).trans hrow', h.ledger_of_ne hid⟩

/-! The refund. -/

theorem runs_move (id : Int) (account : Account) (amount : Int) (d : Tables) :
    Runs (move id account amount) d (update d (.ledger id) (d (.ledger id) ++ [⟨account, amount⟩])) true :=
  runs_bind (runs_autocommit rfl) (runs_pure _ _)

theorem tokenKey_ledger (id tokenId : Int) (d : Tables) (v : List Movement) :
    tokenKey (update d (.ledger id) v) tokenId = tokenKey d tokenId := by
  simp [tokenKey]

theorem runs_taskAdjustTokenQuota (id : Int) (t : Task) {delta : Int} (hdelta : delta ≠ 0) (d : Tables) :
    Runs (taskAdjustTokenQuota id t delta) d (update d (.ledger id) (d (.ledger id) ++
      if 0 < t.tokenId ∧ tokenKey d t.tokenId ≠ "" then [⟨.token t.tokenId, delta⟩] else [])) () := by
  rw [taskAdjustTokenQuota]
  by_cases hid : t.tokenId ≤ 0
  · rw [if_pos (.inl hid), if_neg (by omega), append_nil, update_eq_self]
    exact runs_pure _ _
  rw [if_neg (by simp [hid, hdelta])]
  refine runs_bind (a := tokenKey d t.tokenId) (runs_bind (runs_select d) (runs_pure _ _)) ?_
  by_cases hkey : tokenKey d t.tokenId = ""
  · rw [if_pos hkey, if_neg (by simp [hkey]), append_nil, update_eq_self]
    exact runs_pure _ _
  · rw [if_neg hkey, if_pos ⟨by omega, hkey⟩]
    exact runs_bind (runs_move _ _ _ _) (runs_pure _ _)

/-- **A refund gives back the whole charge**, to the funding source and to the token. -/
theorem runs_refundTaskQuota (id : Int) (t : Task) (d : Tables) :
    Runs (refundTaskQuota (ledgerAccounts id) t) d
      (update d (.ledger id) (d (.ledger id) ++ refunds d t)) () := by
  rw [refundTaskQuota, refunds]
  split_ifs with hq
  · rw [append_nil, update_eq_self]
    exact runs_pure _ _
  refine runs_bind (runs_move id t.fundingAccount (-t.quota) d) ?_
  have hne : -t.quota ≠ 0 := by omega
  have h := runs_taskAdjustTokenQuota id t hne
    (update d (.ledger id) (d (.ledger id) ++ [⟨t.fundingAccount, -t.quota⟩]))
  simpa [tokenKey_ledger, tokenRefund, ledgerAccounts] using h

/-! The settlement. It may move anything on the task's account, but the row keeps its status. -/

/-- Task `id` alone was changed, and its status was not. -/
structure Settled (id : Int) (d d' : Tables) : Prop where
  frame : Frame id d d'
  status : ∀ t, d (.task id) = some t → ∃ t', d' (.task id) = some t' ∧ t'.status = t.status

theorem Settled.refl (id : Int) (d : Tables) : Settled id d d := ⟨Frame.refl id d, fun t h => ⟨t, h, rfl⟩⟩

theorem Settled.trans (h : Settled id d d1) (h' : Settled id d1 d2) : Settled id d d2 := by
  refine ⟨h.frame.trans h'.frame, fun t hrow => ?_⟩
  obtain ⟨t1, row1, status1⟩ := h.status t hrow
  obtain ⟨t2, row2, status2⟩ := h'.status t1 row1
  exact ⟨t2, row2, status2.trans status1⟩

theorem settled_ledger (id : Int) (d : Tables) (v : List Movement) : Settled id d (update d (.ledger id) v) :=
  ⟨frame_ledger id d v, fun t h => ⟨t, by simpa using h, rfl⟩⟩

theorem does_setTask {f : Task → Task} (hf : ∀ t, (f t).status = t.status) (hrow : d (.task id) = some t) :
    Does (do let _ ← autocommit (.task id) (setTask f); return () : SQL _) d fun _ => Settled id d := by
  refine ⟨_, _, runs_bind (runs_autocommit (by rw [hrow]; rfl)) (runs_pure _ _), frame_task id d _, fun t' hrow' => ?_⟩
  cases hrow.symm.trans hrow'
  exact ⟨f t, update_self _ _ _, hf t⟩

section
variable (hrow : d (.task id) = some t)
include hrow

theorem does_noteTokens (info : TaskInfo) : Does (noteTokens (ledgerAccounts id) t0 info) d fun _ => Settled id d := by
  rw [noteTokens]
  split
  · exact (does_setTask
      (f := fun t => { t with completionTokens := info.completionTokens, totalTokens := info.totalTokens })
      (fun _ => rfl) hrow).bind fun _ _ hs => does_pure hs
  · exact does_pure (Settled.refl id d)

theorem does_recalculateTaskQuota (actualQuota : Int) :
    Does (recalculateTaskQuota (ledgerAccounts id) t0 actualQuota) d fun _ => Settled id d := by
  rw [recalculateTaskQuota]
  split
  · exact does_pure (Settled.refl id d)
  next h =>
  -- the funding source, the token, the column
  have hdelta : actualQuota - t0.quota ≠ 0 := by omega
  refine (runs_move id t0.fundingAccount (actualQuota - t0.quota) d).bind ?_
  refine Does.bind (P := fun _ => Settled id d) ⟨_, _, runs_taskAdjustTokenQuota id t0 hdelta _,
    (settled_ledger id d _).trans (settled_ledger id _ _)⟩ fun _ d2 h2 => ?_
  obtain ⟨t2, row2, _⟩ := h2.status t hrow
  exact (does_setTask (f := fun t => { t with quota := actualQuota }) (fun _ => rfl) row2).bind fun _ _ hs =>
    does_pure (h2.trans hs)

theorem does_settleTaskBillingOnComplete (host : Host) (info : TaskInfo) :
    Does (settleTaskBillingOnComplete (ledgerAccounts id) host t0 info) d fun _ => Settled id d := by
  refine (does_noteTokens hrow info).bind fun t1 d1 h1 => ?_
  obtain ⟨t', row', _⟩ := h1.status t hrow
  cases settledQuota host t1 info with
  | none => exact does_pure h1
  | some actualQuota =>
    exact (does_recalculateTaskQuota row' actualQuota).mono fun _ _ => h1.trans

/-! The sweep of one task. -/

/-- The row is written under its own status, so the write goes through. -/
theorem runs_updateWithStatus (t' : Task) :
    Runs (updateWithStatus id t.status t') d (update d (.task id) (some t')) (some true) :=
  runs_autocommit (by rw [hrow]; exact if_pos rfl)

end

/-- The row written, and what a refund of it moves. -/
def refunded (id : Int) (t : Task) (d : Tables) : Tables :=
  update (update d (.task id) (some t)) (.ledger id) (d (.ledger id) ++ refunds d t)

theorem refunded_task (id : Int) (t : Task) (d : Tables) : refunded id t d (.task id) = some t := by
  simp [refunded]

theorem refunded_free (hq : t.quota = 0) : refunded id t d = update d (.task id) (some t) := by
  funext k
  by_cases hk : k = .ledger id
  · subst hk
    simp [refunded, refunds, hq]
  · simp [refunded, hk]

theorem runs_refund_written (id : Int) (t : Task) (d : Tables) :
    Runs (refundTaskQuota (ledgerAccounts id) t) (update d (.task id) (some t)) (refunded id t d) () := by
  have h := runs_refundTaskQuota id t (update d (.task id) (some t))
  exact h

theorem handled_refunded (hstatus : t'.status = .failure) (hsame : SameCharge t t') :
    Handled id t d (refunded id t' d) := by
  refine ⟨(frame_task id d _).trans (frame_ledger id _ _), .failed t' (refunded_task id t' d) hstatus ?_⟩
  rw [refunded, update_self, hsame.refunds_eq fun _ => rfl]

theorem runs_sweepTask {now timeoutMinutes : Int} (hrow : d (.task id) = some t) (hlegacy : t.isLegacy = false) :
    ∃ a, Runs (sweepTask now timeoutMinutes id t) d (refunded id (t.swept now timeoutMinutes) d) a := by
  have hwon := runs_updateWithStatus hrow (t.swept now timeoutMinutes)
  by_cases hq : t.quota = 0
  · refine ⟨none, runs_bind hwon ?_⟩
    rw [refunded_free (show (t.swept now timeoutMinutes).quota = 0 from hq)]
    simp only [hq, ne_eq, not_true_eq_false, and_false]
    exact runs_pure _ _
  · refine ⟨some .refund, runs_bind hwon ?_⟩
    simp only [hlegacy, hq, ne_eq, not_false_eq_true, Bool.false_eq_true, and_self]
    exact runs_bind (runs_refund_written id _ d) (runs_pure _ _)

/-! The poll of one video. -/

theorem Handled.refl (hrow : d (.task id) = some t) (ht : t.unfinished = true) : Handled id t d d :=
  ⟨Frame.refl id d, Fate.refl hrow ht⟩

theorem handled_waiting (hsame : SameCharge t t') (hstatus : t'.status ≠ .failure) :
    Handled id t d (update d (.task id) (some t')) :=
  ⟨frame_task id d _, .other t' (update_self _ _ _) hstatus fun _ =>
    ⟨hsame, update_of_ne (by simp) _ _⟩⟩

theorem handled_settled (hstatus : t'.status = .success)
    (h : Settled id (update d (.task id) (some t')) d') : Handled id t d d' := by
  obtain ⟨t1, row, status⟩ := h.status t' (update_self _ _ _)
  rw [hstatus] at status
  refine ⟨(frame_task id d _).trans h.frame, .other t1 row (by simp [status]) fun hu => ?_⟩
  have hterm : t1.status.terminal = true := by simp [status, terminal]
  simp [t1.finished_of_terminal hterm] at hu

theorem Task.ends (t' : Task) (ht : t.unfinished = true) (hs : t'.status.terminal = true) :
    t'.status.terminal = true ∧ t.status ≠ t'.status := by
  refine ⟨hs, fun h => ?_⟩
  have hopen := t.unfinished_status ht
  simp [h, hs] at hopen

theorem does_updateVideoSingleTask (host : Host) (now : Int) (amux : Bool) (reply : Reply)
    (hrow : d (.task id) = some t) (ht : t.unfinished = true) :
    Does (updateVideoSingleTask host now amux reply id t) d fun _ => Handled id t d := by
  rw [updateVideoSingleTask]
  cases hu : videoUpdate host now amux t reply with
  | error t' => exact does_pure (Handled.refl hrow ht)
  | ok u =>
    have hcas := runs_updateWithStatus hrow u.task
    cases videoUpdate_polled hu with
    | goesOn same open_ settle refund =>
      have hne : u.task.status ≠ .failure := fun h => by simp [h, terminal] at open_
      have hbill : billVideo host id u = pure (u.task, none) := by simp [billVideo, settle, refund]
      simp only [open_, Bool.false_eq_true, false_and, if_false, hbill]
      split
      · exact hcas.bind (does_pure (handled_waiting same hne))
      · exact does_pure (Handled.refl hrow ht)
    | success status settle =>
      have hends := Task.ends u.task ht (by simp [status, terminal])
      simp only [if_pos hends]
      refine hcas.bind ?_
      simp only [billVideo, settle, if_true]
      exact (does_settleTaskBillingOnComplete (update_self (Key.task id) (some u.task) d) host u.info).bind
        fun _ _ hs => does_pure (handled_settled status hs)
    | failure same status settle refund =>
      have hends := Task.ends u.task ht (by simp [status, terminal])
      have hfate : Handled id t d (refunded id u.task d) := handled_refunded status same
      simp only [if_pos hends]
      refine hcas.bind ?_
      by_cases hq : u.task.quota = 0
      · rw [refunded_free hq] at hfate
        simp only [billVideo, settle, refund, hq]
        exact does_pure hfate
      · have hbill : billVideo host id u =
            (do refundTaskQuota (ledgerAccounts id) u.task; return (u.task, some .refund)) := by
          simp [billVideo, settle, refund, hq]
        simp only [hbill]
        exact (runs_refund_written id u.task d).bind (does_pure hfate)

/-! One item of a Suno reply. -/

theorem runs_saveTask (id : Int) (t : Task) (d : Tables) :
    Runs (saveTask id t) d (update d (.task id) (some t)) () :=
  runs_bind (runs_autocommit rfl) (runs_pure _ _)

/-- An item that fails a task refunds it; if the status it gives is not FAILURE, the progress
still ends the task. -/
theorem handled_item {item : SunoItem} (hfailed : item.failed t = true) :
    Handled id t d (refunded id (item.apply t) d) := by
  have hsame : SameCharge t (item.apply t) := ⟨rfl, rfl, rfl, rfl, rfl⟩
  by_cases hstatus : (item.apply t).status = .failure
  · exact handled_refunded hstatus hsame
  · refine ⟨(frame_task id d _).trans (frame_ledger id _ _), .other _ (refunded_task id _ d) hstatus fun hu => ?_⟩
    have hprogress : (item.apply t).progress = "100%" := by simp [SunoItem.apply, hfailed]
    simp [Task.unfinished, hprogress] at hu

theorem does_updateSunoTask (r : Round) (item : SunoItem) (hrow : d (.task id) = some t) (ht : t.unfinished = true) :
    Does (updateSunoTask r item (id, t)) d fun c d' => c.1 = id ∧ Handled id t d d' := by
  rw [updateSunoTask]
  split
  · exact does_pure ⟨rfl, Handled.refl hrow ht⟩
  cases hfailed : item.failed t with
  | true =>
    have hfate : Handled id t d (refunded id (item.apply t) d) := handled_item hfailed
    rw [refunded, update_comm (by simp)] at hfate
    exact (runs_refundTaskQuota id (item.apply t) d).bind ((runs_saveTask id _ _).bind (does_pure ⟨rfl, hfate⟩))
  | false =>
    have hne : (item.apply t).status ≠ .failure := by
      intro h
      have : item.newStatus t = .failure := h
      simp [SunoItem.failed, this] at hfailed
    have hsame : SameCharge t (item.apply t) := ⟨rfl, rfl, rfl, rfl, rfl⟩
    exact (runs_saveTask id (item.apply t) d).bind (does_pure ⟨rfl, handled_waiting hsame hne⟩)

/-! The loops over a platform's tasks. -/

/-- The tasks of `todo` are in memory as they are stored, and no task is there under two
upstream ids. -/
structure Fresh (own : Int → Prop) (m : TaskM) (d : Tables) (todo : List String) : Prop where
  nodup : todo.Nodup
  mine : ∀ u c, m u = some c → own c.1
  stored : ∀ u ∈ todo, ∀ c, m u = some c → d (.task c.1) = some c.2 ∧ c.2.unfinished = true
  apart : ∀ u u' c c', m u = some c → m u' = some c' → c.1 = c'.1 → u = u'

variable {m : TaskM} {todo : List String}

theorem Fresh.drop (us : List String) (h : Fresh own m d (us ++ todo)) : Fresh own m d todo where
  nodup := h.nodup.of_append_right
  mine := h.mine
  stored u hu := h.stored u (mem_append_right us hu)
  apart := h.apart

/-- The program carries its tasks, and the map it returns is fresh for what is left. -/
def Carries (own : Int → Prop) (x : SQL (Option TaskM)) (d : Tables) (todo : List String) : Prop :=
  ∃ d' res, Runs x d d' res ∧ Carried own d d' ∧ ∀ m', res = some m' → Fresh own m' d' todo

theorem Fresh.carries (h : Fresh own m d todo) : Carries own (pure (some m)) d todo := by
  refine does_pure ⟨Carried.refl own d, fun m' hm => ?_⟩
  cases hm
  exact h

variable {u : String} {c : Loaded}

/-- The step of every loop: the task under `u` was handled, the others are as they were. -/
theorem Fresh.next (h : Fresh own m d (u :: todo)) (hc : m u = some c)
    (hd : Handled c.1 c.2 d d') (t' : Task) : Fresh own (update m u (some (c.1, t'))) d' todo := by
  -- the map has the same ids under the same keys
  have hids : ∀ v c', update m u (some (c.1, t')) v = some c' → ∃ c0, m v = some c0 ∧ c0.1 = c'.1 := by
    intro v c' hv
    by_cases hvu : v = u
    · subst hvu
      rw [update_self] at hv
      cases hv
      exact ⟨c, hc, rfl⟩
    · rw [update_of_ne hvu] at hv
      exact ⟨c', hv, rfl⟩
  refine ⟨(nodup_cons.mp h.nodup).2, ?_, ?_, ?_⟩
  · intro v c' hv
    obtain ⟨c0, hm, hid⟩ := hids v c' hv
    exact hid ▸ h.mine v c0 hm
  · intro v hv c' hm
    have hvu : v ≠ u := fun e => (nodup_cons.mp h.nodup).1 (e ▸ hv)
    rw [update_of_ne hvu] at hm
    obtain ⟨row, hu⟩ := h.stored v (mem_cons_of_mem u hv) c' hm
    have hid : c'.1 ≠ c.1 := fun e => hvu (h.apart v u c' c hm hc e)
    exact ⟨(hd.task_of_ne hid).trans row, hu⟩
  · intro v v' c1 c2 h1 h2 hid
    obtain ⟨e1, hm1, hid1⟩ := hids v c1 h1
    obtain ⟨e2, hm2, hid2⟩ := hids v' c2 h2
    exact h.apart v v' e1 e2 hm1 hm2 (by rw [hid1, hid2, hid])

theorem does_updateVideos (host : Host) (r : Round) (channelId : Int) (amux : Bool) (us : List String)
    (h : Fresh own m d (us ++ todo)) :
    Does (updateVideos host r channelId amux us m) d fun m' d' => Carried own d d' ∧ Fresh own m' d' todo := by
  induction us generalizing m d with
  | nil => exact does_pure ⟨Carried.refl own d, h⟩
  | cons u us ih =>
    rw [updateVideos]
    cases hc : m u with
    | none => exact ih (h.drop [u])
    | some c =>
      obtain ⟨row, hu⟩ := h.stored u (by simp) c hc
      refine (does_updateVideoSingleTask host _ amux _ row hu).bind fun res d1 hh => ?_
      exact (ih (h.next hc hh res.1)).mono fun _ _ => .imp_left (hh.carried row hu (h.mine u c hc)).trans

/-- An item about a task that is not in the map ends the loop there. -/
theorem runs_updateSunoItems (r : Round) (items : List SunoItem) (h : Fresh own m d (items.map (·.taskID) ++ todo)) :
    Carries own (updateSunoItems r items m) d todo := by
  induction items generalizing m d with
  | nil => exact h.carries
  | cons item items ih =>
    rw [updateSunoItems]
    cases hc : m item.taskID with
    | none => exact does_pure ⟨Carried.refl own d, nofun⟩
    | some c =>
      obtain ⟨row, hu⟩ := h.stored item.taskID (by simp) c hc
      refine (does_updateSunoTask r item row hu).bind ?_
      rintro ⟨_, t1⟩ d1 ⟨rfl, hh⟩
      exact Does.mono (ih (h.next hc hh t1)) fun _ _ => .imp_left (hh.carried row hu (h.mine _ c hc)).trans

/-! The channels of a platform. -/

def Round.itemIDs (r : Round) (channelId : Int) : List String :=
  (r.sunoReply channelId).elim [] (·.map (·.taskID))

/-- The tasks that a channel's turn is about. -/
def Round.due (r : Round) (platform : String) (live : List Loaded) (channelId : Int) : List String :=
  if platform = "suno" then r.itemIDs channelId else ofChannel live channelId

variable {channelId : Int}

theorem runs_updateSunoTasks (r : Round) (upstreamIDs : List String)
    (hchannel : (r.channel channelId).isSome) (h : Fresh own m d (r.itemIDs channelId ++ todo)) :
    Carries own (updateSunoTasks r channelId upstreamIDs m) d todo := by
  obtain ⟨amux, hamux⟩ := Option.isSome_iff_exists.mp hchannel
  rw [updateSunoTasks, hamux]
  dsimp only
  split
  · exact (h.drop _).carries
  split
  · exact (h.drop _).carries
  split
  · exact does_pure ⟨Carried.refl own d, nofun⟩
  cases hreply : r.sunoReply channelId with
  | none => exact (h.drop _).carries
  | some items =>
    refine runs_updateSunoItems r items ?_
    simpa [itemIDs, hreply] using h

theorem runs_updateVideoTasks (host : Host) (r : Round) (platform : String) {us : List String}
    (hchannel : (r.channel channelId).isSome) (h : Fresh own m d (us ++ todo)) :
    Carries own (updateVideoTasks host r platform channelId us m) d todo := by
  obtain ⟨amux, hamux⟩ := Option.isSome_iff_exists.mp hchannel
  rw [updateVideoTasks, hamux]
  dsimp only
  split
  · exact (h.drop us).carries
  · refine (does_updateVideos host r channelId amux us h).bind fun m1 d1 hdone => does_pure ⟨hdone.1, fun m' hm => ?_⟩
    cases hm
    exact hdone.2

theorem does_updateChannels (host : Host) (r : Round) (platform : String) (live : List Loaded) (channels : List Int)
    (hchannels : ∀ channelId ∈ channels, (r.channel channelId).isSome)
    (h : Fresh own m d (channels.flatMap (r.due platform live))) :
    Does (updateChannels host r platform live channels m) d fun _ => Carried own d := by
  induction channels generalizing m d with
  | nil => exact does_pure (Carried.refl own d)
  | cons channelId rest ih =>
    have hchannel := hchannels channelId (by simp)
    have hturn : Carries own (if platform = "suno" then updateSunoTasks r channelId (ofChannel live channelId) m
        else updateVideoTasks host r platform channelId (ofChannel live channelId) m) d
        (rest.flatMap (r.due platform live)) := by
      split_ifs with hp
      · exact runs_updateSunoTasks r _ hchannel (by simpa [due, hp] using h)
      · exact runs_updateVideoTasks host r platform hchannel (by simpa [due, hp] using h)
    refine Does.bind hturn fun res d1 hdone => ?_
    cases res with
    | none => exact does_pure hdone.1
    | some m1 =>
      exact (ih (fun ch hch => hchannels ch (by simp [hch])) (hdone.2 m1 rfl)).mono fun _ _ => hdone.1.trans

/-! The platforms. -/

/-- No task of `tasks` is failed by a bulk update or reached twice: each has an upstream id of
its own on its platform, and a channel that loads. -/
structure Clear (r : Round) (tasks : List Loaded) : Prop where
  upstream : ∀ c ∈ tasks, c.2.getUpstreamTaskID ≠ ""
  apart : ∀ c ∈ tasks, ∀ c' ∈ tasks, c.2.platform = c'.2.platform →
    c.2.getUpstreamTaskID = c'.2.getUpstreamTaskID → c = c'
  channel : ∀ c ∈ tasks, c.2.platform ≠ "mj" → (r.channel c.2.channelId).isSome

theorem Clear.subset {tasks tasks' : List Loaded} (h : Clear r tasks) (hsub : tasks' ⊆ tasks) :
    Clear r tasks' where
  upstream c hc := h.upstream c (hsub hc)
  apart c hc c' hc' := h.apart c (hsub hc) c' (hsub hc')
  channel c hc := h.channel c (hsub hc)

/-- A Suno reply names a task once, and replies of two channels name different tasks. -/
structure OnceNamed (r : Round) : Prop where
  nodup : ∀ channelId, (r.itemIDs channelId).Nodup
  disjoint : ∀ channelId channelId', channelId ≠ channelId' →
    List.Disjoint (r.itemIDs channelId) (r.itemIDs channelId')

def idsOf (tasks : List Loaded) (platform : String) (id : Int) : Prop := ∃ t, (id, t) ∈ tasks ∧ t.platform = platform

section
variable {r : Round} {platform : String} {tasks live : List Loaded}

theorem mem_ofChannel :
    u ∈ ofChannel live channelId ↔ ∃ c ∈ live, c.2.channelId = channelId ∧ c.2.getUpstreamTaskID = u := by
  simp [ofChannel, and_assoc]

theorem taskM_some (h : taskM live u = some c) : c ∈ live ∧ c.2.getUpstreamTaskID = u := by
  simpa using mem_filter.mp (mem_of_getLast? h)

theorem nodup_due (platform : String) (hitems : OnceNamed r) (hnodup : live.Nodup)
    (hapart : ∀ c ∈ live, ∀ c' ∈ live, c.2.getUpstreamTaskID = c'.2.getUpstreamTaskID → c = c') {channels : List Int}
    (hchannels : channels.Nodup) : (channels.flatMap (r.due platform live)).Nodup := by
  refine nodup_flatMap.mpr ⟨fun channelId _ => ?_, hchannels.imp fun {a b} hne => ?_⟩
  · by_cases hp : platform = "suno"
    · simpa [due, hp] using hitems.nodup channelId
    · simp only [due, hp]
      refine List.Nodup.map_on ?_ (hnodup.filter _)
      intro c hc c' hc' hu
      exact hapart c (mem_of_mem_filter hc) c' (mem_of_mem_filter hc') hu
  · by_cases hp : platform = "suno"
    · simpa [onFun, due, hp] using hitems.disjoint a b hne
    · simp only [onFun, due, hp]
      intro u hu hu'
      obtain ⟨c, hc, hca, hcu⟩ := mem_ofChannel.mp hu
      obtain ⟨c', hc', hcb, hcu'⟩ := mem_ofChannel.mp hu'
      have heq := hapart c hc c' hc' (hcu.trans hcu'.symm)
      exact hne (by rw [← hca, ← hcb, heq])

section
variable (hstored : ∀ c ∈ live, d (.task c.1) = some c.2 ∧ c.2.unfinished = true)
include hstored

theorem fresh_taskM (hnodup : todo.Nodup) (hown : ∀ c ∈ live, own c.1) : Fresh own (taskM live) d todo where
  nodup := hnodup
  mine u c hc := hown c (taskM_some hc).1
  stored u _ c hc := hstored c (taskM_some hc).1
  apart u u' c c' hc hc' hid := by
    obtain ⟨hmem, hu⟩ := taskM_some hc
    obtain ⟨hmem', hu'⟩ := taskM_some hc'
    -- one id has one row
    have hrow : some c.2 = some c'.2 := by rw [← (hstored c hmem).1, ← (hstored c' hmem').1, hid]
    rw [← hu, ← hu', Option.some.inj hrow]

theorem does_dispatchPlatformUpdate (host : Host) (hclear : Clear r live) (hitems : OnceNamed r) (hnodup : live.Nodup)
    (hplatform : ∀ c ∈ live, c.2.platform = platform) (hown : ∀ c ∈ live, own c.1) :
    Does (dispatchPlatformUpdate host r platform live) d fun _ => Carried own d := by
  rw [dispatchPlatformUpdate]
  split_ifs with hmj
  · exact does_pure (Carried.refl own d)
  have hperm := r.channels_perm (live.map (·.2.channelId)).dedup
  have hloads : ∀ channelId ∈ r.channels (live.map (·.2.channelId)).dedup, (r.channel channelId).isSome := by
    intro channelId hch
    obtain ⟨c, hc, rfl⟩ := mem_map.mp (mem_dedup.mp (hperm.mem_iff.mp hch))
    exact hclear.channel c hc (by rw [hplatform c hc]; exact hmj)
  have hapart : ∀ c ∈ live, ∀ c' ∈ live, c.2.getUpstreamTaskID = c'.2.getUpstreamTaskID → c = c' := by
    intro c hc c' hc' hu
    exact hclear.apart c hc c' hc' ((hplatform c hc).trans (hplatform c' hc').symm) hu
  have hdue := nodup_due platform hitems hnodup hapart (hperm.nodup_iff.mpr (nodup_dedup _))
  exact does_updateChannels host r platform live _ hloads (fresh_taskM hstored hdue hown)

end

theorem does_pollPlatform (platform : String) (host : Host) (hclear : Clear r tasks) (hitems : OnceNamed r)
    (hnodup : tasks.Nodup)
    (hstored : ∀ c ∈ tasks, c.2.platform = platform → d (.task c.1) = some c.2 ∧ c.2.unfinished = true) :
    Does (pollPlatform host r tasks platform) d fun _ => Carried (idsOf tasks platform) d := by
  have hmem : ∀ c ∈ (tasks.filter (·.2.platform = platform)).filter (·.2.getUpstreamTaskID ≠ ""),
      c ∈ tasks ∧ c.2.platform = platform := fun c hc => by simpa using mem_filter.mp (mem_of_mem_filter hc)
  have hnull : (tasks.filter (·.2.platform = platform)).filter (·.2.getUpstreamTaskID = "") = [] := by
    refine filter_eq_nil_iff.mpr fun c hc => ?_
    simpa using hclear.upstream c (mem_of_mem_filter hc)
  -- there is no task without an upstream id to fail
  simp only [pollPlatform, hnull, map_nil, taskBulkUpdateByID, if_true]
  refine (runs_pure _ _).bind (does_dispatchPlatformUpdate (fun c hc => hstored c (hmem c hc).1 (hmem c hc).2) host
    (hclear.subset fun c hc => (hmem c hc).1) hitems ((hnodup.filter _).filter _) (fun c hc => (hmem c hc).2) ?_)
  exact fun c hc => ⟨c.2, hmem c hc⟩

/-- A platform's turn leaves the tasks of the others as they were read. -/
theorem does_pollPlatforms (host : Host) (hclear : Clear r tasks) (hitems : OnceNamed r) (hnodup : tasks.Nodup)
    (hrows : ∀ c ∈ tasks, ∀ c' ∈ tasks, c.1 = c'.1 → c = c') (platforms : List String) (hplatforms : platforms.Nodup)
    (hstored : ∀ c ∈ tasks, c.2.platform ∈ platforms → d (.task c.1) = some c.2 ∧ c.2.unfinished = true) :
    Does (pollPlatforms host r tasks platforms) d fun _ => Carried (fun _ => True) d := by
  induction platforms generalizing d with
  | nil => exact does_pure (Carried.refl _ d)
  | cons platform rest ih =>
    obtain ⟨hnew, hrest⟩ := nodup_cons.mp hplatforms
    refine (does_pollPlatform platform host hclear hitems hnodup
      (fun c hc hp => hstored c hc (by simp [hp]))).bind fun res d1 hcar => ?_
    have hcar' : Carried (fun _ => True) d d1 := hcar.mono fun _ _ => trivial
    cases res with
    | none => exact does_pure hcar'
    | some m1 =>
      have hstored' : ∀ c ∈ tasks, c.2.platform ∈ rest → d1 (.task c.1) = some c.2 ∧ c.2.unfinished = true := by
        intro c hc hp
        obtain ⟨row, hu⟩ := hstored c hc (mem_cons_of_mem platform hp)
        refine ⟨(hcar.others c.1 ?_).trans row, hu⟩
        rintro ⟨t, ht, hplatform⟩
        have heq := hrows _ ht c hc rfl
        exact hnew (by rw [← hplatform, show t = c.2 from congrArg Prod.snd heq]; exact hp)
      exact (ih hrest hstored').mono fun _ _ => hcar'.trans

end

/-! The sweep. -/

section
variable (env : Env) (r : Round)

variable {c : Loaded}

theorem mem_rows : c ∈ rows env d ↔ c.1 ∈ env.ids ∧ d (.task c.1) = some c.2 := by
  obtain ⟨id, t⟩ := c
  simp only [rows, mem_filterMap, Option.map_eq_some_iff, Prod.mk.injEq]
  constructor
  · rintro ⟨id', hid, t', hrow, rfl, rfl⟩
    exact ⟨hid, hrow⟩
  · rintro ⟨hid, hrow⟩
    exact ⟨id, hid, t, hrow, rfl, rfl⟩

theorem rows_unique {c' : Loaded} (h : c ∈ rows env d) (h' : c' ∈ rows env d) (hid : c.1 = c'.1) : c = c' := by
  have hrow : some c.2 = some c'.2 := by rw [← ((mem_rows env).mp h).2, ← ((mem_rows env).mp h').2, hid]
  exact Prod.ext hid (Option.some.inj hrow)

theorem nodup_rows (d : Tables) : (rows env d).Nodup := by
  refine List.Nodup.filterMap ?_ (env.sorted.imp fun {a b} h => by omega)
  intro id id' c hc hc'
  simp only [Option.mem_def, Option.map_eq_some_iff] at hc hc'
  obtain ⟨t, _, rfl⟩ := hc
  obtain ⟨t', _, heq⟩ := hc'
  exact (Prod.mk.inj heq).1.symm

theorem mem_timedOut (h : c ∈ getTimedOutUnfinishedTasks env r d) : c ∈ rows env d ∧ c.2.timedOut r.cutoff = true :=
  mem_filter.mp ((mem_insertionSort _).mp (mem_of_mem_take h))

/-- The sweep fails tasks and refunds them; a task that is unfinished afterwards was not
touched. -/
structure Swept (d d' : Tables) : Prop where
  carried : Carried (fun _ => True) d d'
  untouched : ∀ id t, d' (.task id) = some t → t.unfinished = true → d (.task id) = some t

theorem does_sweepTasks (cs : List Loaded) (hids : (cs.map (·.1)).Nodup)
    (hstored : ∀ c ∈ cs, d (.task c.1) = some c.2 ∧ c.2.unfinished = true ∧ c.2.isLegacy = false) :
    Does (sweepTasks r cs) d fun _ => Swept d := by
  induction cs generalizing d with
  | nil => exact does_pure ⟨Carried.refl _ d, fun _ _ h _ => h⟩
  | cons c cs ih =>
    obtain ⟨hnew, hrest⟩ := nodup_cons.mp hids
    obtain ⟨row, hu, hlegacy⟩ := hstored c (by simp)
    obtain ⟨a, hrun⟩ := runs_sweepTask row hlegacy
    have hh : Handled c.1 c.2 d (refunded c.1 (c.2.swept r.sweepNow r.timeoutMinutes) d) :=
      handled_refunded rfl ⟨rfl, rfl, rfl, rfl, rfl⟩
    obtain ⟨d', _, hd', hswept⟩ := ih hrest (by
      intro c' hc'
      obtain ⟨row', rest'⟩ := hstored c' (by simp [hc'])
      have hne : c'.1 ≠ c.1 := fun e => hnew (mem_map.mpr ⟨c', hc', e⟩)
      exact ⟨(hh.task_of_ne hne).trans row', rest'⟩)
    refine hrun.bind ⟨d', _, hd', (hh.carried row hu trivial).trans hswept.carried, fun id t hrow ht => ?_⟩
    have hrow1 := hswept.untouched id t hrow ht
    by_cases hid : id = c.1
    · -- the row just written is a FAILURE
      subst hid
      rw [refunded_task] at hrow1
      cases hrow1
      simp [Task.finished_of_failure (t := c.2.swept r.sweepNow r.timeoutMinutes) rfl] at ht
    · exact (hh.task_of_ne hid).symm.trans hrow1

theorem does_sweepTimedOutTasks (hlegacy : 0 < r.timeoutMinutes → ∀ c ∈ rows env d, c.2.timedOut r.cutoff = true →
    c.2.isLegacy = false) : Does (sweepTimedOutTasks env r) d fun _ => Swept d := by
  rw [sweepTimedOutTasks]
  split
  · exact does_pure ⟨Carried.refl _ d, fun _ _ h _ => h⟩
  next hon =>
  refine (runs_select d).bind (does_sweepTasks r (getTimedOutUnfinishedTasks env r d)
    (List.Nodup.map_on (fun c hc c' hc' => rows_unique env (mem_timedOut env r hc).1 (mem_timedOut env r hc').1)
      (List.Nodup.sublist (take_sublist _ _)
        ((perm_insertionSort _ _).nodup_iff.mpr ((nodup_rows env d).filter _))))
    (by
      intro c hc
      obtain ⟨hrow, hout⟩ := mem_timedOut env r hc
      exact ⟨((mem_rows env).mp hrow).2, (of_decide_eq_true hout).1, hlegacy (by omega) c hrow hout⟩))

end

/-! The round and the loop. -/

/-- **What a round needs**, of the tables it starts with and of what it meets: no unfinished
task is failed by a bulk update or reached twice, and no old task times out. -/
structure Orderly (env : Env) (r : Round) (d : Tables) : Prop where
  clear : Clear r ((rows env d).filter (·.2.unfinished))
  items : OnceNamed r
  legacy : 0 < r.timeoutMinutes → ∀ c ∈ rows env d, c.2.timedOut r.cutoff = true → c.2.isLegacy = false

theorem mem_unfinished {env : Env} (h : c ∈ getAllUnFinishSyncTasks env r d) : c ∈ rows env d ∧ c.2.unfinished = true :=
  mem_filter.mp (mem_of_mem_take h)

theorem does_taskPollingRound (host : Host) {env : Env} (h : Orderly env r d) :
    Does (taskPollingRound host env r) d fun _ => Carried (fun _ => True) d := by
  refine (does_sweepTimedOutTasks env r h.legacy).bind fun _ d1 hswept => ?_
  -- what is unfinished after the sweep was there before it
  have hsub : getAllUnFinishSyncTasks env r d1 ⊆ (rows env d).filter (·.2.unfinished) := by
    intro c hc
    obtain ⟨hrow, hu⟩ := mem_unfinished hc
    obtain ⟨hid, hrow⟩ := (mem_rows env).mp hrow
    exact mem_filter.mpr ⟨(mem_rows env).mpr ⟨hid, hswept.untouched c.1 c.2 hrow hu⟩, hu⟩
  have hnodup : (getAllUnFinishSyncTasks env r d1).Nodup :=
    List.Nodup.sublist (take_sublist _ _) ((nodup_rows env d1).filter _)
  have hperm := r.platforms_perm ((getAllUnFinishSyncTasks env r d1).map (·.2.platform)).dedup
  have hpolled := does_pollPlatforms host (h.clear.subset hsub) h.items hnodup
    (fun c hc c' hc' => rows_unique env (mem_unfinished hc).1 (mem_unfinished hc').1) _
    (hperm.nodup_iff.mpr (nodup_dedup _))
    (fun c hc _ => ⟨((mem_rows env).mp (mem_unfinished hc).1).2, (mem_unfinished hc).2⟩)
  exact (runs_select d1).bind (hpolled.mono fun _ _ => hswept.carried.trans)

def OrderlyRounds (host : Host) (env : Env) : List Round → Tables → Prop
  | [], _ => True
  | r :: rest, d => Orderly env r d ∧
      ∀ d', Runs (taskPollingRound host env r) d d' (some ()) → OrderlyRounds host env rest d'

theorem does_taskPollingLoop (host : Host) (env : Env) (rounds : List Round) (h : OrderlyRounds host env rounds d) :
    Does (taskPollingLoop host env rounds) d fun _ => Carried (fun _ => True) d := by
  induction rounds generalizing d with
  | nil => exact does_pure (Carried.refl _ d)
  | cons r rest ih =>
    obtain ⟨d1, res, hd1, hcar⟩ := does_taskPollingRound host h.1
    refine hd1.bind ?_
    cases res with
    | none => exact does_pure hcar
    | some _ => exact (ih (h.2 d1 hd1)).mono fun _ _ => hcar.trans

/-- **A failed task is refunded once.** However many rounds the poller makes, if they are
orderly and the database answers, a task that was unfinished and is FAILURE in the end has had
its charge given back to its funding source and to its token, and nothing else was moved. -/
theorem failed_refunded_once (host : Host) (env : Env) (rounds : List Round) (d : Tables)
    (horderly : OrderlyRounds host env rounds d) (id : Int) (t t' : Task) (hrow : d (.task id) = some t)
    (hunfinished : t.unfinished = true) (hquota : 0 < t.quota)
    (hrow' : (solo (taskPollingLoop host env rounds) [] d).1 (.task id) = some t') (hfailed : t'.status = .failure) :
    (solo (taskPollingLoop host env rounds) [] d).1 (.ledger id) =
      d (.ledger id) ++ ⟨t.fundingAccount, -t.quota⟩ :: tokenRefund d t := by
  obtain ⟨d', res, hrun, hcar⟩ := does_taskPollingLoop host env rounds horderly
  rw [hrun.solo] at hrow' ⊢
  dsimp only at hrow' ⊢
  cases hcar.waiting id t hrow hunfinished with
  | failed t₁ row status ledger =>
    rw [ledger, refunds, if_neg (by omega)]
  | other t₁ row status waiting =>
    cases row.symm.trans hrow'
    exact absurd hfailed status

def exampleEnv : Env := ⟨[1], pairwise_singleton _ _⟩

/-- The provider reports a failure; `channel` says which channels can be loaded. -/
def exampleRound (channel : Int → Option Bool) : Round where
  sweepStart := 1800000090
  sweepNow := 1800000090
  videoNow _ _ := 1800000100
  timeoutMinutes := 1440
  limit := 1000
  channel := channel
  baseURL _ := true
  adaptor _ := true
  sunoReply _ := none
  videoReply _ _ := .parsed { status := some .failure, reason := "blocked" } "failed" .unrecognized
  sameData := (· == ·)
  platforms keys := keys
  platforms_perm := List.Perm.refl
  channels keys := keys
  channels_perm := List.Perm.refl

theorem orderly_exampleRound : Orderly exampleEnv (exampleRound fun _ => some false) exampleTables := by
  refine ⟨⟨?_, ?_, ?_⟩, ⟨?_, ?_⟩, ?_⟩
  · intro c hc
    obtain rfl := mem_singleton.mp (mem_of_mem_filter hc)
    decide
  · intro c hc c' hc' _ _
    rw [mem_singleton.mp (mem_of_mem_filter hc), mem_singleton.mp (mem_of_mem_filter hc')]
  · intro c _ _
    rfl
  · intro channelId
    exact nodup_nil
  · intro channelId channelId' _
    exact disjoint_nil_left _
  · intro _ c hc _
    obtain rfl := mem_singleton.mp hc
    decide

/-- One round over one task whose channel is there: the task fails and is refunded. -/
theorem failed_video_refunded :
    OrderlyRounds exampleHost exampleEnv [exampleRound fun _ => some false] exampleTables ∧
      statusOf (solo (taskPollingLoop exampleHost exampleEnv [exampleRound fun _ => some false]) [] exampleTables).1 1 =
        some .failure ∧
      (solo (taskPollingLoop exampleHost exampleEnv [exampleRound fun _ => some false]) [] exampleTables).1
        (.ledger 1) =
        exampleTables (.ledger 1) ++ ⟨exampleTask.fundingAccount, -exampleTask.quota⟩ ::
          tokenRefund exampleTables exampleTask := by
  have horderly : OrderlyRounds exampleHost exampleEnv [exampleRound fun _ => some false] exampleTables :=
    ⟨orderly_exampleRound, fun _ _ => trivial⟩
  have hstatus : statusOf (solo (taskPollingLoop exampleHost exampleEnv [exampleRound fun _ => some false]) []
      exampleTables).1 1 = some .failure := by decide +kernel
  obtain ⟨t', hrow', hfailed⟩ := Option.map_eq_some_iff.mp hstatus
  exact ⟨horderly, hstatus, failed_refunded_once exampleHost exampleEnv _ exampleTables horderly 1 exampleTask t' rfl
    (by decide) (by decide) hrow' hfailed⟩

/-- The channel is gone: the same task becomes FAILURE and nothing is given back. -/
theorem channel_gone_unrefunded :
    exampleTables (.task 1) = some exampleTask ∧ exampleTask.unfinished = true ∧ 0 < exampleTask.quota ∧
      statusOf (solo (taskPollingLoop exampleHost exampleEnv [exampleRound fun _ => none]) [] exampleTables).1 1 =
        some .failure ∧
      (solo (taskPollingLoop exampleHost exampleEnv [exampleRound fun _ => none]) [] exampleTables).1 (.ledger 1) =
        exampleTables (.ledger 1) := by
  decide +kernel

end AmuxApi.AsyncTask
