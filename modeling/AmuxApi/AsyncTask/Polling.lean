import AmuxApi.AsyncTask.Model

/- The polling loop. Each round sweeps the tasks that have timed out, reads the unfinished
   ones, and asks the providers about them, platform by platform and channel by channel.

   Correspondence (Go ↔ Lean): the functions of `service/task_polling.go` and
   `TaskBulkUpdateByID` of `model/task.go` have the source's names; `taskPollingRound` is one
   round of `TaskPollingLoop`.
   A loaded task is a pointer that the functions share through the map of a platform, so
   the map goes through the loops with the tasks as they are in memory. `none` in a result
   is a panic: an item about a task the map does not have, or a channel without a base URL. -/
namespace AmuxApi.AsyncTask
open Txn

/-- The ids of the table, in order. -/
structure Env where
  ids : List Int
  sorted : ids.Pairwise (· < ·)

/-- A task in memory, with its id. -/
abbrev Loaded := Int × Task

/-- The tasks of a platform by their upstream id. -/
abbrev TaskM := String → Option Loaded

/-- What a provider says of one task; an empty status is `other ""`. -/
structure SunoItem where
  taskID : String
  status : TaskStatus
  failReason : String
  submitTime : Int
  startTime : Int
  finishTime : Int
  data : String
  deriving DecidableEq, Repr

/-- What a round meets: the clock at each place that reads it, the settings, the channels it
can load (whether one is Amux, and whether its base URL is set), the adaptors there are, the providers' answers, and the
order in which Go ranges over a map. `sameData` compares two texts up to the order of their
bytes. -/
structure Round where
  sweepStart : Int
  sweepNow : Int
  videoNow : Int → String → Int
  timeoutMinutes : Int
  limit : Nat
  channel : Int → Option Bool
  baseURL : Int → Bool
  adaptor : String → Bool
  sunoReply : Int → Option (List SunoItem)
  videoReply : Int → String → Reply
  sameData : String → String → Bool
  platforms : List String → List String
  platforms_perm : ∀ keys, (platforms keys).Perm keys
  channels : List Int → List Int
  channels_perm : ∀ keys, (channels keys).Perm keys

section
variable (host : Host) (env : Env) (r : Round)

def Round.cutoff (r : Round) : Int := r.sweepStart - r.timeoutMinutes * 60

def rows (d : Tables) : List Loaded := env.ids.filterMap fun id => (d (.task id)).map (id, ·)

/-- `ORDER BY submit_time LIMIT 100`. -/
def getTimedOutUnfinishedTasks (d : Tables) : List Loaded :=
  (((rows env d).filter (·.2.timedOut r.cutoff)).insertionSort fun a b => a.2.submitTime ≤ b.2.submitTime).take 100

/-- `ORDER BY id LIMIT ?`. -/
def getAllUnFinishSyncTasks (d : Tables) : List Loaded := ((rows env d).filter (·.2.unfinished)).take r.limit

/-! The sweep. -/

def sweepTasks : List Loaded → SQL Unit
  | [] => return ()
  | c :: rest => do
    let _ ← sweepTask r.sweepNow r.timeoutMinutes c.1 c.2
    sweepTasks rest

def sweepTimedOutTasks : SQL Unit :=
  if r.timeoutMinutes ≤ 0 then return ()
  else do
    match ← select with
    | none => return ()
    | some d => sweepTasks r (getTimedOutUnfinishedTasks env r d)

/-! Bulk updates. -/

def updateTasks (f : Task → Task) : List Int → SQL (Except Unit Unit)
  | [] => return .ok ()
  | id :: rest => do
    match ← update (.task id) (setTask f) with
    | none => return .error ()
    | some _ => updateTasks f rest

/-- One UPDATE, `WHERE id IN ?`; whatever the status is. -/
def taskBulkUpdateByID (ids : List Int) (f : Task → Task) : SQL Unit :=
  if ids = [] then return ()
  else do
    let _ ← transaction () (updateTasks f ids)
    return ()

def failedIDs (m : TaskM) (upstreamIDs : List String) : List Int := upstreamIDs.filterMap fun u => (m u).map (·.1)

/-! Suno. -/

def taskNeedsUpdate (t : Task) (item : SunoItem) : Bool :=
  t.submitTime ≠ item.submitTime ∨ t.startTime ≠ item.startTime ∨ t.finishTime ≠ item.finishTime ∨
    t.status ≠ item.status ∨ t.failReason ≠ item.failReason ∨ (t.status.terminal ∧ t.progress ≠ "100%") ∨
    ¬ r.sameData t.data item.data

def SunoItem.newStatus (item : SunoItem) (t : Task) : TaskStatus :=
  if item.status ≠ .other "" then item.status else t.status

def SunoItem.failed (item : SunoItem) (t : Task) : Bool := item.failReason ≠ "" ∨ item.newStatus t = .failure

def SunoItem.apply (item : SunoItem) (t : Task) : Task :=
  { t with
    status := item.newStatus t
    failReason := if item.failReason ≠ "" then item.failReason else t.failReason
    submitTime := if item.submitTime ≠ 0 then item.submitTime else t.submitTime
    startTime := if item.startTime ≠ 0 then item.startTime else t.startTime
    finishTime := if item.finishTime ≠ 0 then item.finishTime else t.finishTime
    progress := if item.failed t ∨ item.status = .success then "100%" else t.progress
    data := item.data }

/-- `DB.Save`: the whole row, whatever it was. -/
def saveTask (id : Int) (t : Task) : SQL Unit := do
  let _ ← autocommit (.task id) fun _ => some (some t)
  return ()

/-- The refund comes first, then the row. -/
def updateSunoTask (item : SunoItem) (c : Loaded) : SQL Loaded :=
  if ¬ taskNeedsUpdate r c.2 item then return c
  else do
    if item.failed c.2 then refundTaskQuota (ledgerAccounts c.1) (item.apply c.2)
    saveTask c.1 (item.apply c.2)
    return (c.1, item.apply c.2)

def updateSunoItems : List SunoItem → TaskM → SQL (Option TaskM)
  | [], m => return some m
  | item :: rest, m =>
    match m item.taskID with
    | none => return none
    | some c => do
      let c' ← updateSunoTask r item c
      updateSunoItems rest (Function.update m item.taskID (some c'))

def updateSunoTasks (channelId : Int) (upstreamIDs : List String) (m : TaskM) : SQL (Option TaskM) :=
  if upstreamIDs = [] then return some m
  else
    match r.channel channelId with
    | none => do
      taskBulkUpdateByID (failedIDs m upstreamIDs) fun t =>
        { t with
          failReason := "获取渠道信息失败，请联系管理员，渠道ID：" ++ toString channelId
          status := .failure, progress := "100%" }
      return some m
    | some _ =>
      if ¬ r.adaptor "suno" then return some m
      else if ¬ r.baseURL channelId then return none
      else
        match r.sunoReply channelId with
        | none => return some m
        | some items => updateSunoItems r items m

/-! Videos. -/

def updateVideos (channelId : Int) (amux : Bool) : List String → TaskM → SQL TaskM
  | [], m => return m
  | u :: rest, m =>
    match m u with
    | none => updateVideos channelId amux rest m
    | some c => do
      let res ← updateVideoSingleTask host (r.videoNow channelId u) amux (r.videoReply channelId u) c.1 c.2
      updateVideos channelId amux rest (Function.update m u (some (c.1, res.1)))

def updateVideoTasks (platform : String) (channelId : Int) (upstreamIDs : List String) (m : TaskM) :
    SQL (Option TaskM) :=
  match r.channel channelId with
  | none => do
    taskBulkUpdateByID (failedIDs m upstreamIDs) fun t =>
      { t with
        failReason := "Failed to get channel info, channel ID: " ++ toString channelId
        status := .failure, progress := "100%" }
    return some m
  | some amux => do
    if ¬ r.adaptor platform then return some m
    else return some (← updateVideos host r channelId amux upstreamIDs m)

/-! The round. -/

/-- `taskChannelM`: the upstream ids of a channel. -/
def ofChannel (live : List Loaded) (channelId : Int) : List String :=
  (live.filter (·.2.channelId = channelId)).map (·.2.getUpstreamTaskID)

/-- `taskM`: of two tasks with one upstream id the later one stays. -/
def taskM (live : List Loaded) : TaskM := fun u => (live.filter (·.2.getUpstreamTaskID = u)).getLast?

/-- `UpdateSunoTasks` or `UpdateVideoTasks`, channel by channel. -/
def updateChannels (platform : String) (live : List Loaded) : List Int → TaskM → SQL (Option TaskM)
  | [], m => return some m
  | channelId :: rest, m => do
    match ← (if platform = "suno" then updateSunoTasks r channelId (ofChannel live channelId) m
        else updateVideoTasks host r platform channelId (ofChannel live channelId) m) with
    | none => return none
    | some m => updateChannels platform live rest m

def dispatchPlatformUpdate (platform : String) (live : List Loaded) : SQL (Option TaskM) :=
  if platform = "mj" then return some (taskM live)
  else updateChannels host r platform live (r.channels (live.map (·.2.channelId)).dedup) (taskM live)

/-- A task without an upstream id is failed as it is. -/
def pollPlatform (tasks : List Loaded) (platform : String) : SQL (Option TaskM) := do
  let mine := tasks.filter (·.2.platform = platform)
  let live := mine.filter (·.2.getUpstreamTaskID ≠ "")
  taskBulkUpdateByID ((mine.filter (·.2.getUpstreamTaskID = "")).map (·.1)) fun t =>
    { t with status := .failure, progress := "100%" }
  dispatchPlatformUpdate host r platform live

def pollPlatforms (tasks : List Loaded) : List String → SQL (Option Unit)
  | [] => return some ()
  | platform :: rest => do
    match ← pollPlatform host r tasks platform with
    | none => return none
    | some _ => pollPlatforms tasks rest

def taskPollingRound : SQL (Option Unit) := do
  sweepTimedOutTasks env r
  match ← select with
  | none => return some ()
  | some d =>
    let tasks := getAllUnFinishSyncTasks env r d
    pollPlatforms host r tasks (r.platforms (tasks.map (·.2.platform)).dedup)

end

/-- Round after round; a panic ends the loop. -/
def taskPollingLoop (host : Host) (env : Env) : List Round → SQL (Option Unit)
  | [] => return some ()
  | r :: rest => do
    match ← taskPollingRound host env r with
    | none => return none
    | some _ => taskPollingLoop host env rest

end AmuxApi.AsyncTask
