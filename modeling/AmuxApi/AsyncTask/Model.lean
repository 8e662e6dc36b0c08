import AmuxApi.Billing.Model

/- Asynchronous tasks: a request is handed to a provider, and the task's row follows what
   the provider reports until it ends in SUCCESS or FAILURE. A success is settled (the
   charge becomes what was really used), a failure refunded.

   Correspondence (Go ↔ Lean), where the names differ:
     `taskSnapshot` (`model/task.go`) ↔ `Snapshot`
     `RecalculateTaskQuotaByTokens` (`service/task_billing.go`) ↔ `quotaByTokens`
     `updateVideoSingleTask` (`service/task_polling.go`) ↔ `videoUpdate`, `updateVideoSingleTask`
     `sweepTimedOutTasks`, one task of it ↔ `timedOut`, `sweepTask`
     `tryRealtimeFetch` (`relay/relay_task.go`) ↔ `realtimeUpdate`, `tryRealtimeFetch`
     `processArchiveJob` is that of `service/video_archive_worker.go`
   What a provider answers is an input. The accounts a task was paid from are a ledger: each
   entry is one amount taken for the task, negative if it was given back. Log lines,
   statistics, callbacks and the queue of the archive worker are left out. Prices are exact
   rationals. -/
namespace AmuxApi.AsyncTask
open Txn

/-! The row. -/

inductive TaskStatus
  | notStart | submitted | queued | inProgress | failure | success | unknown
  | other (text : String)
  deriving DecidableEq, Repr

def TaskStatus.terminal (s : TaskStatus) : Bool := s = .success ∨ s = .failure

structure TaskBillingContext where
  groupRatio : Rat
  otherRatios : List Rat
  originModelName : String
  perCallBilling : Bool
  deriving DecidableEq, Repr

/-- A row of `tasks`, less its id. The columns `properties` and `private_data` are given by
their fields. -/
structure Task where
  taskID : String
  platform : String
  userId : Int
  group : String
  channelId : Int
  quota : Int
  completionTokens : Int
  totalTokens : Int
  status : TaskStatus
  failReason : String
  submitTime : Int
  startTime : Int
  finishTime : Int
  progress : String
  upstreamModelName : String
  originModelName : String
  upstreamTaskID : String
  resultURL : String
  billingSource : Option Billing.Source
  subscriptionId : Int
  tokenId : Int
  billingContext : Option TaskBillingContext
  data : String
  deriving DecidableEq, Repr

structure Snapshot where
  status : TaskStatus
  progress : String
  startTime : Int
  finishTime : Int
  failReason : String
  resultURL : String
  data : String
  deriving DecidableEq, Repr

def Task.snapshot (t : Task) : Snapshot :=
  ⟨t.status, t.progress, t.startTime, t.finishTime, t.failReason, t.resultURL, t.data⟩

def Task.getUpstreamTaskID (t : Task) : String := if t.upstreamTaskID ≠ "" then t.upstreamTaskID else t.taskID

/-- What a provider says of a task. A status that is not given is `none`. -/
structure TaskInfo where
  status : Option TaskStatus
  reason : String := ""
  url : String := ""
  progress : String := ""
  completionTokens : Int := 0
  totalTokens : Int := 0
  deriving DecidableEq, Repr

def failTaskInfo (reason : String) : TaskInfo := { status := some .failure, reason }

inductive Account
  | wallet (userId : Int)
  | subscription (id : Int)
  | token (id : Int)
  deriving DecidableEq, Repr

/-- An amount taken from an account for a task; a negative one was given back. -/
structure Movement where
  account : Account
  amount : Int
  deriving DecidableEq, Repr

inductive Key
  | task (id : Int)
  | ledger (id : Int)
  | token (id : Int)
  deriving DecidableEq

/-- A task, what was moved on its account, and the key of a token. -/
abbrev Row : Key → Type
  | .task _ => Option Task
  | .ledger _ => List Movement
  | .token _ => Option String

abbrev Tables := DB Row

abbrev SQL := Prog Row Empty

/-! The settings, and what an adaptor computes. -/

structure Host where
  redactVideoResponseBody : String → String
  applyTaskURLRewrite : String → String
  buildProxyURL : String → String
  /-- The storage is set up and the archive of videos is on. -/
  archiveOn : Bool
  adjustBillingOnComplete : Task → TaskInfo → Int
  resolveVideoPricing : String → String → Bool
  getModelRatio : String → Option Rat
  getGroupGroupRatio : String → String → Option Rat
  getGroupRatio : String → Rat
  /-- `""` if the user is not found. -/
  userGroup : Int → String

def hasStart (start s : String) : Bool := start.toList.isPrefixOf s.toList

def Host.shouldArchiveVideo (host : Host) (url : String) : Bool :=
  (hasStart "http://" url || hasStart "https://" url) && host.archiveOn

def taskModelName (t : Task) : String :=
  match t.billingContext with
  | some bc => if bc.originModelName ≠ "" then bc.originModelName else t.originModelName
  | none => t.originModelName

def finalGroupRatio (host : Host) (t : Task) : Option Rat :=
  match t.billingContext.filter (0 < ·.groupRatio) with
  | some bc => some bc.groupRatio
  | none =>
    let userGroup := host.userGroup t.userId
    let usingGroup := if t.group = "" then userGroup else t.group
    if usingGroup = "" then none
    else some ((host.getGroupGroupRatio userGroup usingGroup).getD (host.getGroupRatio usingGroup))

def otherMultiplier (t : Task) : Rat :=
  ((t.billingContext.elim [] (·.otherRatios)).filter fun r => r ≠ 1 ∧ 0 < r).foldl (· * ·) 1

/-- The quota that `RecalculateTaskQuotaByTokens` settles for, if it settles. -/
def quotaByTokens (host : Host) (t : Task) (totalTokens : Int) : Option Int :=
  if totalTokens ≤ 0 then none
  else
    match (host.getModelRatio (taskModelName t)).filter (0 < ·) with
    | none => none
    | some modelRatio =>
      (finalGroupRatio host t).map fun groupRatio =>
        Payment.intPart (totalTokens * modelRatio * groupRatio * otherMultiplier t)

/-! Billing. The functions are given for any way to reach the accounts. -/

def taskIsSubscription (t : Task) : Bool := t.billingSource = some .subscription ∧ 0 < t.subscriptionId

def Task.fundingAccount (t : Task) : Account :=
  if taskIsSubscription t then .subscription t.subscriptionId else .wallet t.userId

/-- The columns that a refund reads. -/
structure SameCharge (t t' : Task) : Prop where
  quota : t'.quota = t.quota
  userId : t'.userId = t.userId
  billingSource : t'.billingSource = t.billingSource
  subscriptionId : t'.subscriptionId = t.subscriptionId
  tokenId : t'.tokenId = t.tokenId

theorem SameCharge.refl (t : Task) : SameCharge t t := ⟨rfl, rfl, rfl, rfl, rfl⟩

variable {t : Task}

theorem SameCharge.trans {t' t'' : Task} (h : SameCharge t t') (h' : SameCharge t' t'') : SameCharge t t'' :=
  ⟨h'.quota.trans h.quota, h'.userId.trans h.userId, h'.billingSource.trans h.billingSource,
    h'.subscriptionId.trans h.subscriptionId, h'.tokenId.trans h.tokenId⟩

/-- `taskAdjustFunding` says whether it succeeded; `taskAdjustTokenQuota` and the two
UPDATEs only log a failure. -/
structure Accounts (m : Type → Type) where
  taskAdjustFunding : Task → Int → m Bool
  taskAdjustTokenQuota : Task → Int → m Unit
  saveTokens : Int → Int → m Unit
  saveQuota : Int → m Unit

section
variable {m : Type → Type} [Monad m] (accounts : Accounts m)

def refundTaskQuota (t : Task) : m Unit := do
  if t.quota = 0 then return ()
  else if ← accounts.taskAdjustFunding t (-t.quota) then accounts.taskAdjustTokenQuota t (-t.quota)

/-- The task as it is in memory afterwards. -/
def recalculateTaskQuota (t : Task) (actualQuota : Int) : m Task := do
  if actualQuota ≤ 0 ∨ actualQuota = t.quota then return t
  else if ← accounts.taskAdjustFunding t (actualQuota - t.quota) then do
    accounts.taskAdjustTokenQuota t (actualQuota - t.quota)
    accounts.saveQuota actualQuota
    return { t with quota := actualQuota }
  else return t

/-- The quota a finished task is settled for; `none` keeps what was charged. -/
def settledQuota (host : Host) (t : Task) (info : TaskInfo) : Option Int :=
  if t.billingContext.any (·.perCallBilling) then none
  else if 0 < host.adjustBillingOnComplete t info then some (host.adjustBillingOnComplete t info)
  else if info.totalTokens ≤ 0 ∨ host.resolveVideoPricing (taskModelName t) t.upstreamModelName then none
  else quotaByTokens host t info.totalTokens

/-- The usage, if it was reported. -/
def noteTokens (t : Task) (info : TaskInfo) : m Task := do
  if 0 < info.totalTokens then do
    accounts.saveTokens info.completionTokens info.totalTokens
    return { t with completionTokens := info.completionTokens, totalTokens := info.totalTokens }
  else return t

def settleTaskBillingOnComplete (host : Host) (t : Task) (info : TaskInfo) : m Task := do
  let t ← noteTokens accounts t info
  match settledQuota host t info with
  | none => return t
  | some actualQuota => recalculateTaskQuota accounts t actualQuota

end

/-! The statements. -/

/-- The whole row, `WHERE status = ?`. -/
def casTask (fromStatus : TaskStatus) (t : Task) : Option Task → Option (Option Task)
  | some stored => if stored.status = fromStatus then some (some t) else none
  | none => none

def setTask (f : Task → Task) : Option Task → Option (Option Task)
  | some stored => some (some (f stored))
  | none => none

def updateWithStatus (id : Int) (fromStatus : TaskStatus) (t : Task) : SQL (Option Bool) :=
  autocommit (.task id) (casTask fromStatus t)

def move (id : Int) (account : Account) (amount : Int) : SQL Bool := do
  return (← autocommit (.ledger id) fun ledger => some (ledger ++ [⟨account, amount⟩])).isSome

/-- `""` if the token is not found. -/
def resolveTokenKey (tokenId : Int) : SQL String := do
  return ((← select).bind (· (.token tokenId))).getD ""

def taskAdjustTokenQuota (id : Int) (t : Task) (delta : Int) : SQL Unit :=
  if t.tokenId ≤ 0 ∨ delta = 0 then return ()
  else do
    if (← resolveTokenKey t.tokenId) = "" then return ()
    else do
      let _ ← move id (.token t.tokenId) delta
      return ()

def ledgerAccounts (id : Int) : Accounts SQL where
  taskAdjustFunding t delta := move id t.fundingAccount delta
  taskAdjustTokenQuota := taskAdjustTokenQuota id
  saveTokens completion total := do
    let _ ← autocommit (.task id) (setTask fun t => { t with completionTokens := completion, totalTokens := total })
    return ()
  saveQuota quota := do
    let _ ← autocommit (.task id) (setTask fun t => { t with quota })
    return ()

/-! The functions that take a task forward. -/

/-- The billing that a function has called for the task. -/
inductive Action
  | settle | refund
  deriving DecidableEq, Repr

/-- The text the error body of an answer without a status amounts to. -/
inductive ErrorBody
  | unreadable | rateLimited | openaiError | unrecognized
  deriving DecidableEq, Repr

/-- The answer to a poll: none that can be used, the format of this server itself, or what
the adaptor has parsed. -/
inductive Reply
  | failed
  | newApi (status : Option TaskStatus) (url progress failReason body : String) (error : ErrorBody)
  | parsed (info : TaskInfo) (body : String) (error : ErrorBody)

/-- A poll that goes on to the database: the task as it is in memory, what the provider has
said, and what is to be billed. -/
structure VideoUpdate where
  task : Task
  info : TaskInfo
  shouldSettle : Bool := false
  shouldRefund : Bool := false

/-- A time is noted once. -/
def orNow (stamp now : Int) : Int := if stamp = 0 then now else stamp

/-- The URL of a success that is not archived; `amux` is the channel whose results are not
media. -/
def Host.resultURL (host : Host) (amux : Bool) (t : Task) (url : String) : String :=
  if hasStart "data:" url then host.buildProxyURL t.taskID
  else if url ≠ "" then host.applyTaskURLRewrite url
  else if ¬ amux then host.buildProxyURL t.taskID
  else t.resultURL

/-- The task as a reported status leaves it, `t` having the answer's body as its data. An
error is the task of a poll that ends here. -/
def applyStatus (host : Host) (now : Int) (amux : Bool) (t : Task) (info : TaskInfo) : Except Task VideoUpdate :=
  let reported (progress : String) := if info.progress ≠ "" then info.progress else progress
  match info.status with
  | some .submitted => .ok { task := { t with status := .submitted, progress := reported "10%" }, info }
  | some .queued => .ok { task := { t with status := .queued, progress := reported "20%" }, info }
  | some .inProgress =>
    .ok { task := { t with
            status := .inProgress, progress := reported "30%", startTime := orNow t.startTime now }
          info }
  | some .success =>
    if host.shouldArchiveVideo info.url then
      -- kept in progress: the archive worker ends the task
      .ok { task := { t with
              status := .inProgress, progress := "99%", startTime := orNow t.startTime now, finishTime := 0 }
            info }
    else
      .ok { task := { t with
              status := .success, progress := reported "100%", finishTime := orNow t.finishTime now
              resultURL := host.resultURL amux t info.url }
            info, shouldSettle := true }
  | some .failure =>
    .ok { task := { t with
            status := .failure, progress := "100%", finishTime := orNow t.finishTime now, failReason := info.reason }
          info := { info with progress := "100%" }, shouldRefund := t.quota ≠ 0 }
  | some s => .error { t with status := s }
  | none => .error { t with status := .other "" }

/-- An answer without a status is a failure, unless it asks to come back later. -/
def videoUpdate (host : Host) (now : Int) (amux : Bool) (t : Task) : Reply → Except Task VideoUpdate
  | .failed => .error t
  | .newApi status url progress failReason body error =>
    answered { status, reason := failReason, url, progress } body error
  | .parsed info body error => answered info body error
where
  answered (info : TaskInfo) (body : String) (error : ErrorBody) : Except Task VideoUpdate :=
    let t := { t with data := host.redactVideoResponseBody body }
    match info.status, error with
    | none, .rateLimited => .error t
    | none, .openaiError => applyStatus host now amux t (failTaskInfo "upstream returned error")
    | none, .unrecognized => applyStatus host now amux t (failTaskInfo "upstream returned unrecognized message")
    | _, _ => applyStatus host now amux t info

/-- What a poll makes of a task: it goes on, or it becomes a success to settle, or a failure to
refund. -/
inductive Polled (t : Task) (u : VideoUpdate) : Prop
  | goesOn (same : SameCharge t u.task) (open_ : u.task.status.terminal = false) (settle : u.shouldSettle = false)
      (refund : u.shouldRefund = false)
  | success (status : u.task.status = .success) (settle : u.shouldSettle = true)
  | failure (same : SameCharge t u.task) (status : u.task.status = .failure) (settle : u.shouldSettle = false)
      (refund : u.shouldRefund = decide (u.task.quota ≠ 0))

theorem applyStatus_polled {host : Host} {now : Int} {amux : Bool} {info : TaskInfo} {u : VideoUpdate}
    (h : applyStatus host now amux t info = .ok u) : Polled t u := by
  simp only [applyStatus] at h
  split at h
  · cases h; exact .goesOn ⟨rfl, rfl, rfl, rfl, rfl⟩ rfl rfl rfl
  · cases h; exact .goesOn ⟨rfl, rfl, rfl, rfl, rfl⟩ rfl rfl rfl
  · cases h; exact .goesOn ⟨rfl, rfl, rfl, rfl, rfl⟩ rfl rfl rfl
  · split at h
    · cases h; exact .goesOn ⟨rfl, rfl, rfl, rfl, rfl⟩ rfl rfl rfl
    · cases h; exact .success rfl rfl
  · cases h; exact .failure ⟨rfl, rfl, rfl, rfl, rfl⟩ rfl rfl rfl
  · cases h
  · cases h

theorem videoUpdate_polled {host : Host} {now : Int} {amux : Bool} {reply : Reply} {u : VideoUpdate}
    (h : videoUpdate host now amux t reply = .ok u) : Polled t u := by
  have answered : ∀ info body error, videoUpdate.answered host now amux t info body error = .ok u → Polled t u := by
    intro info body error h
    -- the body of the answer is not a column that a refund reads
    have hdata : ∀ {info}, applyStatus host now amux { t with data := host.redactVideoResponseBody body } info = .ok u →
        Polled t u := by
      intro info h
      cases applyStatus_polled h with
      | goesOn same open_ settle refund => exact .goesOn ⟨same.1, same.2, same.3, same.4, same.5⟩ open_ settle refund
      | success status settle => exact .success status settle
      | failure same status settle refund =>
        exact .failure ⟨same.1, same.2, same.3, same.4, same.5⟩ status settle refund
    simp only [videoUpdate.answered] at h
    split at h
    · cases h
    · exact hdata h
    · exact hdata h
    · exact hdata h
  cases reply with
  | failed => cases h
  | newApi status url progress failReason body error | parsed info body error => exact answered _ _ _ h

def billVideo (host : Host) (id : Int) (u : VideoUpdate) : SQL (Task × Option Action) := do
  if u.shouldSettle then
    return (← settleTaskBillingOnComplete (ledgerAccounts id) host u.task u.info, some .settle)
  else if u.shouldRefund then do
    refundTaskQuota (ledgerAccounts id) u.task
    return (u.task, some .refund)
  else return (u.task, none)

/-- `t` is the task as it is in memory; so is the one in the result. A task that moves to its
end is billed by the call that has moved it. -/
def updateVideoSingleTask (host : Host) (now : Int) (amux : Bool) (reply : Reply) (id : Int) (t : Task) :
    SQL (Task × Option Action) :=
  match videoUpdate host now amux t reply with
  | .error t => return (t, none)
  | .ok u =>
    if u.task.status.terminal ∧ t.status ≠ u.task.status then do
      match ← updateWithStatus id t.status u.task with
      | some true => billVideo host id u
      | _ => return (u.task, none)
    else if t.snapshot ≠ u.task.snapshot then do
      let _ ← updateWithStatus id t.status u.task
      billVideo host id u
    else billVideo host id u

inductive ChannelType
  | vertexAi | gemini | doubaoVideo | ali | other
  deriving DecidableEq, Repr

/-- The task with the status, the progress and the reason of the provider's answer. -/
def Task.answered (t : Task) (info : TaskInfo) : Task :=
  { t with
    status := info.status.getD t.status
    progress := if info.progress ≠ "" then info.progress else t.progress
    failReason := if info.reason ≠ "" then info.reason else t.failReason }

def freshSuccess (before after : Task) : Bool := after.status = .success ∧ before.status ≠ .success

/-- The task with the provider's latest answer. The URL of a result and the archive are only
looked at when the task becomes a success. -/
def realtimeUpdate (host : Host) (now : Int) (t : Task) (info : TaskInfo) (body : String) : Task :=
  let t₁ := t.answered info
  let t₂ :=
    if freshSuccess t t₁ ∧ host.shouldArchiveVideo info.url then { t₁ with status := .inProgress, progress := "99%" }
    else if freshSuccess t t₁ ∧ ¬ hasStart "data:" info.url then
      { t₁ with resultURL :=
          if info.url ≠ "" then host.applyTaskURLRewrite info.url else host.buildProxyURL t.taskID }
    else t₁
  { t₂ with
    data := if body ≠ "" then body else t.data
    startTime := if t₂.status = .inProgress then orNow t.startTime now else t.startTime
    finishTime := if t₂.status.terminal then orNow t.finishTime now else t.finishTime }

/-- What an update of the realtime path is billed as: a task that became a success or a
failure. -/
def realtimeAction (before after : Task) : Option Action :=
  if after.status = .success ∧ before.status ≠ .success then some .settle
  else if after.status = .failure ∧ before.status ≠ .failure then some .refund
  else none

def billRealtime (host : Host) (id : Int) (t : Task) (info : TaskInfo) : Option Action → SQL Task
  | some .settle => settleTaskBillingOnComplete (ledgerAccounts id) host t info
  | some .refund => do
    refundTaskQuota (ledgerAccounts id) t
    return t
  | none => return t

/-- A usage that came too late for the settlement is noted in the row. -/
def backfillTokens (id : Int) (t : Task) (info : TaskInfo) : SQL Unit :=
  if 0 < info.totalTokens ∧ t.totalTokens = 0 then
    (ledgerAccounts id).saveTokens info.completionTokens info.totalTokens
  else return ()

/-- `t` is the task the caller has read; `channel` is `none` if it is not found, `reply` if
nothing usable was fetched. -/
def tryRealtimeFetch (host : Host) (now : Int) (channel : Option ChannelType) (reply : Option (TaskInfo × String))
    (id : Int) (t : Task) : SQL (Option Action) :=
  match channel, reply with
  | none, _ | some .other, _ | _, none => return none
  | some channel, some (info, body) =>
    -- only this kind of channel stops at a task that has ended
    if channel = .ali ∧ t.status.terminal then return none
    else
      let t' := realtimeUpdate host now t info body
      if t.snapshot = t'.snapshot then do
        backfillTokens id t' info
        return none
      else do
        match ← updateWithStatus id t.status t' with
        | some true =>
          let billed ← billRealtime host id t' info (realtimeAction t t')
          backfillTokens id billed info
          return realtimeAction t t'
        | _ => return none

/-- `progress != '100%' AND status NOT IN ('FAILURE', 'SUCCESS')`. -/
def Task.unfinished (t : Task) : Bool := t.progress ≠ "100%" ∧ ¬ t.status.terminal

def Task.timedOut (cutoff : Int) (t : Task) : Bool := t.unfinished ∧ t.submitTime < cutoff

/-- 2025-02-22 00:00:00 UTC; the comment in the source says 2026. -/
def legacyTaskCutoff : Int := 1740182400

def Task.isLegacy (t : Task) : Bool := 0 < t.submitTime ∧ t.submitTime < legacyTaskCutoff

def timeoutReason (timeoutMinutes : Int) : String := "任务超时（" ++ toString timeoutMinutes ++ "分钟）"

def legacyReason : String := "任务超时（旧系统遗留任务，不进行退款，请联系管理员）"

/-- A task that has timed out. -/
def Task.swept (now timeoutMinutes : Int) (t : Task) : Task :=
  { t with
    status := .failure, progress := "100%", finishTime := now
    failReason := if t.isLegacy then legacyReason else timeoutReason timeoutMinutes }

def sweepTask (now timeoutMinutes : Int) (id : Int) (t : Task) : SQL (Option Action) := do
  match ← updateWithStatus id t.status (t.swept now timeoutMinutes) with
  | some true =>
    if ¬ t.isLegacy ∧ t.quota ≠ 0 then do
      refundTaskQuota (ledgerAccounts id) (t.swept now timeoutMinutes)
      return some .refund
    else return none
  | _ => return none

/-- `adaptor` says whether there is one for the platform; `archived` is the URL in the
archive, `none` if every attempt failed. -/
structure ArchiveJob where
  taskResult : TaskInfo
  upstreamURL : String
  adaptor : Bool

/-- The task is read twice, before the download and after it. -/
def processArchiveJob (host : Host) (now : Int) (job : ArchiveJob) (archived : Option String) (id : Int) :
    SQL (Option Action) := do
  match (← select).bind (· (.task id)) with
  | none => return none
  | some t =>
    if t.status.terminal then return none
    else
      match (← select).bind (· (.task id)) with
      | none => return none
      | some t =>
        if t.status.terminal then return none
        else
          let t := { t with
            status := .success, progress := "100%", finishTime := orNow t.finishTime now
            resultURL := archived.getD (host.applyTaskURLRewrite job.upstreamURL) }
          match ← updateWithStatus id .inProgress t with
          | some true =>
            if job.adaptor then do
              let _ ← settleTaskBillingOnComplete (ledgerAccounts id) host t job.taskResult
              return some .settle
            else return none
          | _ => return none

end AmuxApi.AsyncTask
