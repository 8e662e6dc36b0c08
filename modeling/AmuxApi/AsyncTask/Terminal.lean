import AmuxApi.AsyncTask.Model
import AmuxApi.Txn.Once

/- One video task and everything that takes it forward: the poller, the realtime fetch,
   the sweeper and the archive worker, any number of each, interleaved statement by
   statement. Each works on a copy of the row it has read and writes it back under the
   condition that the status has not changed.

   The poller and the sweeper read unfinished tasks only, and the archive worker writes
   over IN_PROGRESS only, so none of them takes a task out of SUCCESS or FAILURE. The
   realtime fetch does, on all channels but one. Without that (`keepsEnd`), a task ends
   once, and the call that has ended it is the only one to bill it
   (`ended_once_billed_once`); with it a settled task is refunded (`settled_then_refunded`). -/
namespace AmuxApi.AsyncTask
open Txn Function

inductive Call
  | poll (now : Int) (amux : Bool) (reply : Reply)
  | realtime (now : Int) (channel : Option ChannelType) (reply : Option (TaskInfo × String))
  | sweep (cutoff now timeoutMinutes : Int)
  | archive (now : Int) (job : ArchiveJob) (archived : Option String)

/-- The call with its read of the task; the result is the billing it has called. -/
def Call.prog (host : Host) (id : Int) : Call → SQL (Option Action)
  | .poll now amux reply => do
    match ((← select).bind (· (.task id))).filter (·.unfinished) with
    | none => return none
    | some t => return (← updateVideoSingleTask host now amux reply id t).2
  | .realtime now channel reply => do
    match (← select).bind (· (.task id)) with
    | none => return none
    | some t => tryRealtimeFetch host now channel reply id t
  | .sweep cutoff now timeoutMinutes => do
    match ((← select).bind (· (.task id))).filter (·.timedOut cutoff) with
    | none => return none
    | some t => sweepTask now timeoutMinutes id t
  | .archive now job archived => processArchiveJob host now job archived id

def Call.isRealtime : Call → Bool
  | .realtime _ _ _ => true
  | _ => false

/-- An UPDATE that finds the task in SUCCESS or FAILURE leaves it there. -/
def leavesEnd : (k : Key) → (Row k → Option (Row k)) → Row k → Bool
  | .task _, f, some t =>
    match f (some t) with
    | some (some t') => t.status.terminal → t'.status = t.status
    | _ => true
  | _, _, _ => true

/-- The condition on runs: the UPDATEs of the realtime path leave a task that has ended as
it is. -/
def keepsEnd {ι : Type} (calls : ι → Call) : Guard ι Row := fun i k f v _ =>
  (calls i).isRealtime → leavesEnd k f v

/-- What was moved on the task's funding source. -/
def fundings (ledger : List Movement) : List Movement :=
  ledger.filter fun m => match m.account with | .token _ => false | _ => true

/-! What the calls may do. -/

section
variable {id : Int}

def statusOf (d : Tables) (id : Int) : Option TaskStatus := (d (.task id)).map (·.status)

def ended (id : Int) (d : Tables) : Bool := (statusOf d id).any (·.terminal)

def funded (id : Int) (d : Tables) : List Movement := fundings (d (.ledger id))

abbrev Ended (id : Int) : List (Change Row) → Prop := Raised (ended id)

abbrev Unmoved (id : Int) : List (Change Row) → Prop := Untouched (funded id)

/-- The call has ended the task and has moved nothing yet. -/
structure Ready (id : Int) (own : List (Change Row)) : Prop where
  ended : Ended id own
  unmoved : Unmoved id own

/-- What a commit does: a task that has ended keeps its status, and its funding source is
moved only by the call that has ended it, once. -/
structure Effect (id : Int) (own : List (Change Row)) (d d' : Tables) : Prop where
  absorbing : ∀ s, statusOf d id = some s → s.terminal = true → statusOf d' id = some s
  moved : funded id d' ≠ funded id d → Ready id own ∧ (funded id d').length = (funded id d).length + 1

variable {own : List (Change Row)} {d : Tables} {α : Type} {t : Task}

theorem Effect.of_quiet {d' : Tables}
    (hstatus : ∀ s, statusOf d id = some s → s.terminal = true → statusOf d' id = some s)
    (hledger : d' (.ledger id) = d (.ledger id)) : Effect id own d d' :=
  ⟨hstatus, fun h => absurd (congrArg fundings hledger) h⟩

/-- The calls rely on nothing. -/
def taskProto {ι : Type} (calls : ι → Call) (id : Int) : Proto ι Row Empty where
  rely := fun _ _ => True
  guar := fun _ own d d' => Effect id own d d'
  prot := fun l _ => l.elim
  guard := keepsEnd calls

instance taskProto_sound {ι : Type} (calls : ι → Call) (id : Int) : (taskProto calls id).Sound :=
  { refl := fun _ => trivial, trans := fun _ _ _ _ _ => trivial, guar := fun _ _ _ _ _ => trivial }

variable {ι : Type} {calls : ι → Call} {i : ι} {σ : Local Row Empty}

/-- Nothing is pending, and `I` holds of the call's own commits. -/
structure Holds (I : List (Change Row) → Prop) (σ : Local Row Empty) : Prop where
  clean : σ.pend = clean
  own : I σ.own

/-- The call runs on from `σ`, and if it returns, then with `I` of its own commits. -/
abbrev Returns (calls : ι → Call) (id : Int) (i : ι) {α : Type} (x : SQL α) (I : α → List (Change Row) → Prop)
    (σ : Local Row Empty) : Prop :=
  wp (taskProto calls id) i x (fun a σ' => Holds (I a) σ') σ

theorem stable_holds (I : α → List (Change Row) → Prop) : (taskProto calls id).Stable fun a σ => Holds (I a) σ :=
  fun _ _ _ h _ => ⟨h.clean, h.own⟩

theorem wp_done {a : α} {I : α → List (Change Row) → Prop} (h : Holds (I a) σ) : Returns calls id i (pure a) I σ :=
  wp_pure (stable_holds I) h

variable {I : List (Change Row) → Prop}

theorem wp_read {β : Type} {g : Option Tables → SQL β} {Q : β → Local Row Empty → Prop} (h : Holds I σ)
    (hg : ∀ r σ', Holds I σ' → wp (taskProto calls id) i (g r) Q σ') : wp (taskProto calls id) i (select >>= g) Q σ :=
  wp_select (fun _ _ => hg _ _ ⟨h.clean, h.own⟩) (fun _ _ => hg _ _ ⟨h.clean, h.own⟩)

/-- A property of the own commits that a commit which moves nothing cannot break. -/
def Quiet (id : Int) (I : List (Change Row) → Prop) : Prop :=
  ∀ c own, funded id c.2 = funded id c.1 → I own → I (c :: own)

theorem quiet_unmoved : Quiet id (Unmoved id) := fun _ _ hc hown => hown.cons hc

theorem quiet_ended : Quiet id (Ended id) := fun c _ _ hown => hown.cons c

theorem quiet_ready : Quiet id (Ready id) := fun c _ hc hown => ⟨hown.ended.cons c, hown.unmoved.cons hc⟩

theorem funded_task (v : Option Task) : funded id (update d (.task id) v) = funded id d := by
  simp [funded]

/-- The rule for an UPDATE of the task: what it does to a task that has ended, and what the
own commits say after it. -/
theorem wp_task {J : Option Bool → List (Change Row) → Prop} {f : Option Task → Option (Option Task)}
    (hσ : Holds I σ) (hI : Quiet id I) (hkeep : ∀ v v', keepsEnd calls i (.task id) f v true = true → f v = some v' →
      ∃ t t', v = some t ∧ v' = some t' ∧ (t.status.terminal = true → t'.status = t.status))
        (hwrite : ∀ d t t', f (some t) = some (some t') → (t.status.terminal = true → t'.status = t.status) →
      d (.task id) = some t → I σ.own → J (some true) ((d, update d (.task id) (some t')) :: σ.own))
    (hskip : ∀ own, I own → J (some false) own) (hfail : ∀ own, I own → J none own) :
    Returns calls id i (autocommit (.task id) f) J σ := by
  refine wp_autocommit (stable_holds J) hσ.clean nofun
    (fun d v hd hg hf => ?_) (fun d d' _ _ _ => ?_) (fun d _ => ⟨hσ.clean, hfail _ hσ.own⟩)
  · obtain ⟨t, t', hrow, rfl, hend⟩ := hkeep _ v hg hf
    refine ⟨.of_quiet (fun s hs hterm => ?_) (by simp), hσ.clean, ?_⟩
    · rw [statusOf, update_self, Option.map_some]
      rw [statusOf, hrow, Option.map_some, Option.some.injEq] at hs
      subst hs
      rw [hend hterm]
    · exact hwrite d t t' (hrow ▸ hf) hend hrow hσ.own
  · exact ⟨.of_quiet (fun _ hs _ => hs) rfl, hσ.clean, hskip _ (hI (d', d') _ rfl hσ.own)⟩

theorem wp_saveColumn {f : Task → Task} (hf : ∀ t, (f t).status = t.status) (hI : Quiet id I) (hσ : Holds I σ) :
    Returns calls id i (do let _ ← autocommit (.task id) (setTask f); return ()) (fun _ => I) σ := by
  refine wp_then (wp_task (J := fun _ => I) hσ hI (fun v v' _ hv => ?_) (fun d t t' _ _ _ hown => ?_) (fun _ h => h)
    fun _ h => h) fun _ _ h => wp_done h
  · cases v with
    | none => cases hv
    | some t => exact ⟨t, f t, rfl, (Option.some.inj hv).symm, fun _ => hf t⟩
  · exact hI _ _ (funded_task _) hown

/-- The UPDATE under the condition on the status. Where the call's copy had not ended, the
commit that ends the task is the call's own. -/
theorem wp_cas {fromStatus : TaskStatus} (hσ : Holds (Unmoved id) σ)
    (hkeep : fromStatus.terminal = true → (calls i).isRealtime = true) :
    Returns calls id i (updateWithStatus id fromStatus t)
      (fun r => fun own => Unmoved id own ∧
        (r = some true → (fromStatus.terminal = true → t.status = fromStatus) ∧
          (fromStatus.terminal = false → t.status.terminal = true → Ended id own))) σ := by
  have hcas : ∀ stored v', casTask fromStatus t (some stored) = some v' → stored.status = fromStatus ∧ v' = some t := by
    intro stored v' h
    simp only [casTask] at h
    split_ifs at h
    exact ⟨‹_›, (Option.some.inj h).symm⟩
  -- where the copy had ended, the condition on runs says that the status stays
  have hend : ∀ stored v', keepsEnd calls i (.task id) (casTask fromStatus t) (some stored) true = true →
      casTask fromStatus t (some stored) = some v' → stored.status.terminal = true → t.status = stored.status := by
    intro stored v' hg h hterm
    obtain ⟨hstatus, rfl⟩ := hcas stored v' h
    rw [hstatus] at hterm
    have hleaves := of_decide_eq_true hg (hkeep hterm)
    simp only [leavesEnd, h] at hleaves
    exact of_decide_eq_true hleaves (by rw [hstatus]; exact hterm)
  refine wp_task hσ quiet_unmoved (fun v v' hg hv => ?_)
    (fun d stored t' hf hstays hrow hown => ⟨?_, fun _ => ⟨?_, ?_⟩⟩)
    (fun own h => ⟨h, by simp⟩) (fun own h => ⟨h, by simp⟩)
  · cases v with
    | none => cases hv
    | some stored => exact ⟨stored, t, rfl, (hcas stored v' hv).2, hend stored v' hg hv⟩
  · exact quiet_unmoved _ _ (funded_task _) hown
  · intro hterm
    obtain ⟨hstatus, heq⟩ := hcas stored _ hf
    cases heq
    rw [← hstatus] at hterm ⊢
    exact hstays hterm
  · intro hopen hterm
    obtain ⟨hstatus, heq⟩ := hcas stored _ hf
    cases heq
    refine ⟨_, List.mem_cons_self, ?_⟩
    simp [raises, ended, statusOf, hrow, hstatus, hopen, hterm]

/-! Billing. -/

/-- The rule for an entry in the ledger: the call is ready for it, or it is about the token. -/
theorem wp_move {I J : List (Change Row) → Prop} {account : Account} {amount : Int} (hσ : Holds I σ) (hI : Quiet id I)
    (hready : (∀ tokenId, account ≠ .token tokenId) → I σ.own → Ready id σ.own)
    (hmove : ∀ c, I σ.own → J (c :: σ.own)) (hJ : ∀ own, I own → J own) :
    Returns calls id i (move id account amount) (fun _ => J) σ := by
  refine wp_autocommit (stable_holds fun _ => J) hσ.clean nofun
    (fun d v hd _ hf => ⟨⟨fun s hs _ => ?_, fun hm => ?_⟩, hσ.clean, hmove _ hσ.own⟩) (fun d d' _ _ _ => ?_)
    (fun d _ => ⟨hσ.clean, hJ _ hσ.own⟩)
  · exact hs
  · have hfund : funded id (update d (.ledger id) v) = funded id d ++ fundings [⟨account, amount⟩] := by
      simp [← Option.some.inj hf, funded, fundings]
    rw [hfund] at hm ⊢
    refine ⟨hready (fun tokenId htoken => hm ?_) hσ.own, ?_⟩
    · rw [htoken]
      simp [fundings]
    cases account with
    | token tokenId => simp [fundings] at hm
    | wallet userId | subscription subId => simp [fundings]
  · exact ⟨.of_quiet (fun _ hs _ => hs) rfl, hσ.clean, hJ _ (hI (d', d') _ rfl hσ.own)⟩

theorem wp_token {delta : Int} (hσ : Holds (Ended id) σ) :
    Returns calls id i (taskAdjustTokenQuota id t delta) (fun _ => Ended id) σ := by
  unfold taskAdjustTokenQuota
  split
  · exact wp_done hσ
  have hkey : Returns calls id i (resolveTokenKey t.tokenId) (fun _ => Ended id) σ :=
    wp_read hσ fun _ _ h => wp_done h
  apply wp_then hkey
  intro key σ' h
  split
  · exact wp_done h
  · refine wp_then ?_ fun _ _ h' => wp_done h'
    exact wp_move h quiet_ended (fun hne => absurd rfl (hne t.tokenId)) (fun c hown => hown.cons c) (fun _ h => h)

theorem wp_funding {delta : Int} (hσ : Holds (Ready id) σ) :
    Returns calls id i ((ledgerAccounts id).taskAdjustFunding t delta) (fun _ => Ended id) σ :=
  wp_move hσ quiet_ready (fun _ h => h) (fun c hown => hown.ended.cons c) (fun _ h => h.ended)

theorem wp_refund (t : Task) (hσ : Holds (Ready id) σ) :
    Returns calls id i (refundTaskQuota (ledgerAccounts id) t) (fun _ => Ended id) σ := by
  unfold refundTaskQuota
  split
  · exact wp_done ⟨hσ.clean, hσ.own.ended⟩
  apply wp_then (wp_funding hσ)
  intro ok σ' h
  split
  · exact wp_token h
  · exact wp_done h

theorem wp_recalculate (t : Task) (actualQuota : Int) (hσ : Holds (Ready id) σ) :
    Returns calls id i (recalculateTaskQuota (ledgerAccounts id) t actualQuota)
      (fun _ => Ended id) σ := by
  unfold recalculateTaskQuota
  split
  · exact wp_done ⟨hσ.clean, hσ.own.ended⟩
  apply wp_then (wp_funding hσ)
  intro ok σ' h
  split
  · apply wp_then (wp_token h)
    intro _ σ1 h1
    exact wp_then (wp_saveColumn (fun _ => rfl) quiet_ended h1) fun _ _ h2 => wp_done h2
  · exact wp_done h

theorem wp_settle (host : Host) (t : Task) (info : TaskInfo) (hσ : Holds (Ready id) σ) :
    Returns calls id i (settleTaskBillingOnComplete (ledgerAccounts id) host t info)
      (fun _ => Ended id) σ := by
  have hnote : Returns calls id i (noteTokens (ledgerAccounts id) t info) (fun _ => Ready id) σ := by
    unfold noteTokens
    split
    · exact wp_then (wp_saveColumn (fun _ => rfl) quiet_ready hσ) fun _ _ h => wp_done h
    · exact wp_done hσ
  apply wp_then hnote
  intro t' σ' h
  split
  · exact wp_done ⟨h.clean, h.own.ended⟩
  · exact wp_recalculate t' _ h

/-! The four calls. -/

/-- What a call that has returned has to show for the billing it has called. -/
def Billed (id : Int) (action : Option Action) (own : List (Change Row)) : Prop := action.isSome → Ended id own

/-- A video update is only billed if it ends the task. -/
theorem videoUpdate_bills {host : Host} {now : Int} {amux : Bool} {reply : Reply} {u : VideoUpdate}
    (h : videoUpdate host now amux t reply = .ok u) (hbill : u.shouldSettle = true ∨ u.shouldRefund = true) :
    u.task.status.terminal = true := by
  cases videoUpdate_polled h with
  | goesOn _ _ settle refund => simp [settle, refund] at hbill
  | success status _ | failure _ status _ _ => rw [status]; rfl

theorem wp_billVideo (host : Host) (u : VideoUpdate) (hσ : Holds (Unmoved id) σ)
    (hready : u.shouldSettle = true ∨ u.shouldRefund = true → Ended id σ.own) :
    Returns calls id i (billVideo host id u) (fun r => Billed id r.2) σ := by
  unfold billVideo
  split
  · rename_i hsettle
    apply wp_then (wp_settle host u.task u.info ⟨hσ.clean, hready (.inl hsettle), hσ.own⟩)
    intro t σ' h
    exact wp_done ⟨h.clean, fun _ => h.own⟩
  split_ifs with hrefund
  · apply wp_then (wp_refund u.task ⟨hσ.clean, hready (.inr hrefund), hσ.own⟩)
    intro _ σ' h
    exact wp_done ⟨h.clean, fun _ => h.own⟩
  · exact wp_done ⟨hσ.clean, nofun⟩

theorem wp_unbilled (hσ : Holds I σ) : Returns calls id i (pure none : SQL (Option Action)) (Billed id) σ :=
  wp_done ⟨hσ.clean, nofun⟩

/-- The poller, on a copy that had not ended. -/
theorem wp_updateVideo (host : Host) (now : Int) (amux : Bool) (reply : Reply) (hopen : t.status.terminal = false)
    (hσ : Holds (Unmoved id) σ) :
    Returns calls id i (updateVideoSingleTask host now amux reply id t)
      (fun r => Billed id r.2) σ := by
  have hnone : ∀ {t : Task} {I : List (Change Row) → Prop} {σ' : Local Row Empty}, Holds I σ' →
      Returns calls id i (pure (t, none) : SQL (Task × Option Action)) (fun r => Billed id r.2) σ' :=
    fun h => wp_done ⟨h.clean, nofun⟩
  have hkeep : t.status.terminal = true → (calls i).isRealtime = true := fun h => by rw [hopen] at h; cases h
  unfold updateVideoSingleTask
  split
  · exact hnone hσ
  rename_i u hu
  split
  · rename_i hend
    apply wp_then (wp_cas hσ hkeep)
    intro r σ' h
    split
    · exact wp_billVideo host u ⟨h.clean, h.own.1⟩ fun _ => (h.own.2 rfl).2 hopen hend.1
    · exact hnone h
  -- the task goes on, so there is nothing to bill
  rename_i hgoes
  have hquiet : ∀ own, u.shouldSettle = true ∨ u.shouldRefund = true → Ended id own := by
    intro own hbill
    have hterm := videoUpdate_bills hu hbill
    refine absurd ⟨hterm, fun heq => ?_⟩ hgoes
    rw [heq, hterm] at hopen
    cases hopen
  split
  · apply wp_then (wp_cas hσ hkeep)
    intro r σ' h
    exact wp_billVideo host u ⟨h.clean, h.own.1⟩ (hquiet _)
  · exact wp_billVideo host u hσ (hquiet _)

theorem realtimeAction_some {before after : Task} {action : Action} (h : realtimeAction before after = some action) :
    after.status.terminal = true ∧ after.status ≠ before.status := by
  simp only [realtimeAction] at h
  split at h
  · rename_i hs
    exact ⟨by rw [hs.1]; rfl, by rw [hs.1]; exact Ne.symm hs.2⟩
  split_ifs at h with hs
  exact ⟨by rw [hs.1]; rfl, by rw [hs.1]; exact Ne.symm hs.2⟩

theorem wp_backfill (hI : Quiet id I) (t : Task) (info : TaskInfo) (hσ : Holds I σ) :
    Returns calls id i (backfillTokens id t info) (fun _ => I) σ := by
  unfold backfillTokens
  split
  · exact wp_saveColumn (fun _ => rfl) hI hσ
  · exact wp_done hσ

section
variable (hσ : Holds (Unmoved id) σ)
include hσ

/-- The realtime path, after its UPDATE: it bills what it has ended. -/
theorem wp_afterRealtime (host : Host) {t' : Task} (info : TaskInfo)
    (hstays : t.status.terminal = true → t'.status = t.status)
    (hends : t.status.terminal = false → t'.status.terminal = true → Ended id σ.own) :
    Returns calls id i (do
      let billed ← billRealtime host id t' info (realtimeAction t t')
      backfillTokens id billed info
      return realtimeAction t t') (Billed id) σ := by
  have hready : ∀ action, realtimeAction t t' = some action → Holds (Ready id) σ := by
    intro action haction
    obtain ⟨hterm, hne⟩ := realtimeAction_some haction
    refine ⟨hσ.clean, hends ?_ hterm, hσ.own⟩
    by_contra h
    exact hne (hstays (by simpa using h))
  have hbill : Returns calls id i (billRealtime host id t' info (realtimeAction t t'))
      (fun _ => Billed id (realtimeAction t t')) σ := by
    cases haction : realtimeAction t t' with
    | none => exact wp_done ⟨hσ.clean, nofun⟩
    | some action =>
      cases action with
      | settle =>
        refine wp_mono (fun _ σ' h => ⟨h.clean, fun _ => h.own⟩) (wp_settle host t' info (hready _ haction))
      | refund =>
        apply wp_then (wp_refund t' (hready _ haction))
        intro _ σ' h
        exact wp_done ⟨h.clean, fun _ => h.own⟩
  have hquiet : Quiet id (Billed id (realtimeAction t t')) := fun c own _ h hsome => (h hsome).cons c
  apply wp_then hbill
  intro billed σ1 h1
  apply wp_then (wp_backfill hquiet billed info h1)
  intro _ σ2 h2
  exact wp_done h2

theorem wp_realtime (host : Host) (now : Int) (channel : Option ChannelType) (reply : Option (TaskInfo × String))
    (t : Task) (hcall : (calls i).isRealtime = true) :
    Returns calls id i (tryRealtimeFetch host now channel reply id t) (Billed id) σ := by
  unfold tryRealtimeFetch
  split
  · exact wp_unbilled hσ
  · exact wp_unbilled hσ
  · exact wp_unbilled hσ
  rename_i channel info body _
  split
  · exact wp_unbilled hσ
  dsimp only
  split
  · apply wp_then (wp_backfill quiet_unmoved _ info hσ)
    intro _ σ' h
    exact wp_unbilled h
  · apply wp_then (wp_cas hσ fun _ => hcall)
    intro r σ' h
    split
    · obtain ⟨hstays, hends⟩ := h.own.2 rfl
      exact wp_afterRealtime ⟨h.clean, h.own.1⟩ host info hstays hends
    · exact wp_unbilled h

theorem wp_sweep (now timeoutMinutes : Int) (hopen : t.status.terminal = false) :
    Returns calls id i (sweepTask now timeoutMinutes id t) (Billed id) σ := by
  apply wp_then
    (wp_cas hσ fun h => by rw [hopen] at h; cases h)
  intro r σ' h
  split
  · have hends := (h.own.2 rfl).2 hopen rfl
    split
    · apply wp_then (wp_refund _ ⟨h.clean, hends, h.own.1⟩)
      intro _ σ'' h'
      exact wp_done ⟨h'.clean, fun _ => h'.own⟩
    · exact wp_unbilled h
  · exact wp_unbilled h

theorem wp_archive (host : Host) (now : Int) (job : ArchiveJob) (archived : Option String) :
    Returns calls id i (processArchiveJob host now job archived id) (Billed id) σ := by
  apply wp_read hσ
  intro found σ1 h1
  split
  · exact wp_unbilled h1
  split
  · exact wp_unbilled h1
  -- the second read, after the download
  apply wp_read h1
  intro found σ2 h2
  split
  · exact wp_unbilled h2
  split
  · exact wp_unbilled h2
  apply wp_then (wp_cas h2 fun h => by cases h)
  intro r σ3 h3
  split
  · have hends := (h3.own.2 rfl).2 rfl rfl
    split
    · apply wp_then (wp_settle host _ job.taskResult ⟨h3.clean, hends, h3.own.1⟩)
      intro _ σ4 h4
      exact wp_done ⟨h4.clean, fun _ => h4.own⟩
    · exact wp_unbilled h3
  · exact wp_unbilled h3

end

theorem wp_call (host : Host) (i : ι) (d : Tables) :
    Returns calls id i ((calls i).prog host id) (Billed id) (Local.fresh d) := by
  have hfresh : Holds (Unmoved id) (Local.fresh d) := ⟨rfl, nofun⟩
  cases hcall : calls i with
  | poll now amux reply =>
    apply wp_read hfresh
    intro found σ h
    split
    · exact wp_unbilled h
    rename_i t ht
    obtain ⟨-, hopen⟩ := of_decide_eq_true (Option.filter_eq_some_iff.mp ht).2
    apply wp_then (wp_updateVideo host now amux reply (by simpa using hopen) h)
    intro r σ' h'
    exact wp_done h'
  | realtime now channel reply =>
    apply wp_read hfresh
    intro found σ h
    split
    · exact wp_unbilled h
    · exact wp_realtime h host now channel reply _ (by rw [hcall]; rfl)
  | sweep cutoff now timeoutMinutes =>
    apply wp_read hfresh
    intro found σ h
    split
    · exact wp_unbilled h
    · rename_i t ht
      obtain ⟨hunfinished, -⟩ := of_decide_eq_true (Option.filter_eq_some_iff.mp ht).2
      obtain ⟨-, hopen⟩ := of_decide_eq_true hunfinished
      exact wp_sweep h now timeoutMinutes (by simpa using hopen)
  | archive now job archived => exact wp_archive hfresh host now job archived

/-! Every interleaving. -/

variable [DecidableEq ι]

/-- A task ends once, and its funding source is moved by the call that has ended it. -/
theorem Effect.claimed {d' : Tables} (h : Effect id own d d') : Claimed (ended id) (funded id) own d d' where
  stays hd := by
    obtain ⟨s, hs, hterm⟩ := (Option.any_eq_true ..).mp hd
    exact (Option.any_eq_true ..).mpr ⟨s, h.absorbing s hs hterm, hterm⟩
  owner hmoved := ⟨(h.moved hmoved).1.ended, (h.moved hmoved).1.unmoved⟩

theorem moved_once {d0 : Tables} {hist : List (Commit ι Row)} (hchain : Chain d0 hist d)
    (hkept : Kept (taskProto calls id) hist) :
    funded id d = funded id d0 ∨ (funded id d).length = (funded id d0).length + 1 := by
  refine (hkept.claimed_once (fun _ _ _ _ hg => Effect.claimed hg) hchain).imp (·.1) ?_
  rintro ⟨c, hc, hbefore, hafter, hmoved, -⟩
  obtain ⟨own, hg⟩ := hkept.mem hc
  rw [← hbefore, ← hafter]
  exact (hg.moved hmoved).2

end

/-- An adaptor that settles every success for 80. -/
def exampleHost : Host where
  redactVideoResponseBody := id
  applyTaskURLRewrite := id
  buildProxyURL := id
  archiveOn := false
  adjustBillingOnComplete _ _ := 80
  resolveVideoPricing _ _ := false
  getModelRatio _ := none
  getGroupGroupRatio _ _ := none
  getGroupRatio _ := 1
  userGroup _ := "default"

def exampleTask : Task where
  taskID := "task_a"
  platform := "41"
  userId := 7
  group := "default"
  channelId := 3
  quota := 100
  completionTokens := 0
  totalTokens := 0
  status := .inProgress
  failReason := ""
  submitTime := 1800000000
  startTime := 1800000001
  finishTime := 0
  progress := "30%"
  upstreamModelName := "veo"
  originModelName := "veo"
  upstreamTaskID := "op-1"
  resultURL := ""
  billingSource := some .wallet
  subscriptionId := 0
  tokenId := 5
  billingContext := none
  data := ""

def exampleTables : Tables
  | .task id => if id = 1 then some exampleTask else none
  | .ledger id => if id = 1 then [⟨.wallet 7, 100⟩, ⟨.token 5, 100⟩] else []
  | .token id => if id = 5 then some "sk-a" else none

/-- The poller hears of a success, and later a user's query gets `answer`. -/
def pollThenFetch (answer : TaskStatus) : Bool → Call
  | true => .poll 1800000100 false (.parsed { status := some .success, url := "https://v/1" } "done" .unrecognized)
  | false => .realtime 1800000200 (some .vertexAi) (some ({ status := some answer }, "later"))

end AmuxApi.AsyncTask
