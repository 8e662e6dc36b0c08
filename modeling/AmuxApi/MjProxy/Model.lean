import AmuxApi.Txn.Program
import Mathlib.Data.List.Dedup

/- Midjourney tasks. A submission is sent upstream, recorded as a row and charged in a
   deferred closure; a poller in every process copies what upstream reports into the rows
   and gives a failed task's quota back.

   Correspondence (Go ↔ Lean):
     `model/midjourney.go`: `Midjourney`, `UpdateWithStatus`,
       `MjBulkUpdate`, `MjBulkUpdateByTaskIds` ↔ `Midjourney`, `updateWithStatus`,
                                                       `mjBulkUpdate`, `mjBulkUpdateByTaskIds`
     `relay/mjproxy_handler.go`: `RelayMidjourneySubmit` ↔ `changeTask`, `prepare`, `Submission.task`,
                                                       `relayMidjourneySubmit`
     `service/quota.go`: `PostConsumeQuota` ↔ `postConsumeQuota`
     `controller/midjourney.go`: `UpdateMidjourneyTaskBulk`, one round of it
                                                     ↔ `updateMidjourneyTaskBulk`
       `checkMjTaskNeedUpdate` ↔ `checkMjTaskNeedUpdate`
   What upstream answers, the clock and the channels are inputs. A task's ledger has an entry
   for each amount that was taken or given back on its account. Texts that are JSON columns
   (`buttons`, `properties`, `video_urls`) come marshalled. No pre-consumption is made for
   these requests, so the funding source is the wallet. Log lines, statistics, the body that
   is sent back to the client and the disabling of a channel are left out. -/
namespace AmuxApi.MjProxy
open Txn

/-! The rows. -/

inductive Status
  | success | failure
  | other (text : String)
  deriving DecidableEq, Repr

inductive Action
  | imagine | describe | blend | inPaint | modal | customZoom | shorten | upload | video | edits
  | other (text : String)
  deriving DecidableEq, Repr

/-- A row of `midjourneys`, less its id. -/
structure Midjourney where
  code : Int
  userId : Int
  action : Action
  mjId : String
  prompt : String
  promptEn : String
  description : String
  state : String
  submitTime : Int
  startTime : Int
  finishTime : Int
  imageUrl : String
  videoUrl : String
  videoUrls : String
  status : Status
  progress : String
  failReason : String
  channelId : Int
  quota : Int
  buttons : String
  properties : String
  deriving DecidableEq, Repr

inductive Account
  | user (id : Int)
  | token (id : Int)
  deriving DecidableEq, Repr

inductive Entry
  | charge (account : Account) (amount : Int)
  | refund (account : Account) (amount : Int)
  deriving DecidableEq, Repr

inductive Key
  | task (id : Int)
  | ledger (id : Int)
  deriving DecidableEq

abbrev Row : Key → Type
  | .task _ => Option Midjourney
  | .ledger _ => List Entry

abbrev Tables := DB Row

abbrev SQL := Prog Row Empty

abbrev Loaded := Int × Midjourney

def rows (ids : List Int) (d : Tables) : List Loaded := ids.filterMap fun id => (d (.task id)).map (id, ·)

/-- An entry of a task's ledger; whether the database has made it. -/
def move (id : Int) (e : Entry) : SQL Bool := do
  return (← autocommit (.ledger id) fun l => some (l ++ [e])) = some true

/-! The submission. -/

inductive RelayMode
  | imagine | describe | edits | shorten | blend | upload | change | simpleChange | action | modal | video | unknown
  deriving DecidableEq, Repr

structure Request where
  prompt : String
  action : Action
  index : Int
  taskId : String
  content : String

structure Properties where
  imageUrl : Option String
  status : Option Status
  deriving DecidableEq, Repr

structure Response where
  code : Int
  description : String
  properties : Option Properties := none
  result : String := ""
  deriving DecidableEq, Repr

def errorWrapper (description : String) : Response := { code := 4, description }

/-- `channel` is `GetChannelById`, and whether the channel is enabled. -/
structure Host where
  coverPlusActionToNormalAction : Request → Except Response Request
  convertSimpleChangeParams : String → Option (String × Action)
  mjActionCheckSuccessEnabled : Bool
  channel : Int → Option Bool

/-- A submission and what it meets. `http` is the status code and the response, or the
response that stands for an error. -/
structure Submission where
  userId : Int
  tokenId : Int
  isPlayground : Bool
  channelId : Int
  relayMode : RelayMode
  request : Request
  price : Except String Int
  userQuota : Except String Int
  http : Except Response (Int × Response)
  submitTime : Int
  startTime : Int
  finishTime : Int

inductive Result
  /-- No row and no charge. -/
  | rejected (response : Response)
  /-- The deferred charge: `none` if there is none, else whether it was carried out. -/
  | submitted (response : Option Response) (charge : Option Bool)
  /-- A round, with the tasks whose refund the database has refused. -/
  | polled (refused : List Int)
  deriving DecidableEq, Repr

section
variable (ids : List Int) (host : Host) (sub : Submission)

/-- `GetByMJId`. -/
def getByMJId (userId : Int) (mjId : String) (d : Tables) : Option Midjourney :=
  ((rows ids d).find? fun c => c.2.userId = userId ∧ c.2.mjId = mjId).map (·.2)

/-- The task that a request is about, and the request's action. -/
def changeTask (mode : RelayMode) (req : Request) : Except Response (String × Action) :=
  match mode with
  | .change =>
    if req.action = .other "" then .error (errorWrapper "action_is_required")
    else if req.index = 0 then .error (errorWrapper "index_is_required")
    else .ok (req.taskId, req.action)
  | .simpleChange =>
    if req.content = "" then .error (errorWrapper "content_is_required")
    else
      match host.convertSimpleChangeParams req.content with
      | none => .error (errorWrapper "content_parse_failed")
      | some params => .ok params
  | .modal => .ok (req.taskId, .modal)
  | .video => .ok (req.taskId, .video)
  | _ => .ok ("", req.action)

/-- The channel of the task that a request is about. -/
def checkOrigin (mode : RelayMode) (origin : Option Midjourney) : Except Response Midjourney :=
  match origin with
  | none => .error (errorWrapper "task_not_found")
  | some t =>
    if host.mjActionCheckSuccessEnabled ∧ t.status ≠ .success ∧ mode ≠ .modal then
      .error (errorWrapper "task_status_not_success")
    else
      match host.channel t.channelId with
      | none => .error (errorWrapper "get_channel_info_failed")
      | some false => .error (errorWrapper "该任务所属渠道已被禁用")
      | some true => .ok t

/-- What is sent: the action, the prompt and the channel. -/
structure Prepared where
  action : Action
  prompt : String
  channelId : Int

def prepareChange (mode : RelayMode) (req : Request) : SQL (Except Response Prepared) :=
  match changeTask host mode req with
  | .error e => return .error e
  | .ok (mjId, action) => do
    match checkOrigin host mode ((← select).bind (getByMJId ids sub.userId mjId)) with
    | .error e => return .error e
    | .ok t => return .ok ⟨action, t.prompt, t.channelId⟩

/-- The modes that say the action. -/
def modeAction : RelayMode → Option Action
  | .imagine => some .imagine
  | .describe => some .describe
  | .edits => some .edits
  | .shorten => some .shorten
  | .blend => some .blend
  | .upload => some .upload
  | _ => none

def prepare (mode : RelayMode) (req : Request) : SQL (Except Response Prepared) :=
  match modeAction mode with
  | some action =>
    if mode = .imagine ∧ req.prompt = "" then return .error (errorWrapper "prompt_is_required")
    else return .ok ⟨action, req.prompt, sub.channelId⟩
  | none =>
    if req.taskId ≠ "" then prepareChange ids host sub mode req
    else return .ok ⟨req.action, req.prompt, sub.channelId⟩

/-- A request of Midjourney Plus names its action by a custom id. -/
def normalRequest : Except Response (RelayMode × Request) :=
  match sub.relayMode with
  | .action => (host.coverPlusActionToNormalAction sub.request).map (.change, ·)
  | .video => .ok (.video, { sub.request with action := .video })
  | mode => .ok (mode, sub.request)

def consumes (action : Action) : Bool := action ≠ .inPaint ∧ action ≠ .customZoom

def accepted (code : Int) : Bool := code = 1 ∨ code = 21 ∨ code = 22

def Submission.blank (p : Prepared) (quota : Int) (response : Response) : Midjourney where
  code := response.code
  userId := sub.userId
  action := p.action
  mjId := response.result
  prompt := p.prompt
  promptEn := ""
  description := response.description
  state := ""
  submitTime := sub.submitTime
  startTime := 0
  finishTime := 0
  imageUrl := ""
  videoUrl := ""
  videoUrls := ""
  status := .other ""
  progress := "0%"
  failReason := if accepted response.code then "" else response.description
  channelId := p.channelId
  quota := quota
  buttons := ""
  properties := ""

/-- A task that exists already may come with its image and status; a success makes the
response's code 1. -/
def Submission.existing (t : Midjourney) (response : Response) : Midjourney × Int :=
  match response.code, response.properties with
  | 21, some ⟨some imageUrl, some status⟩ =>
    if status = .success then
      ({ t with imageUrl, status, progress := "100%", startTime := sub.startTime, finishTime := sub.finishTime }, 1)
    else ({ t with imageUrl, status }, 21)
  | code, _ => (t, code)

def Submission.task (p : Prepared) (quota : Int) (response : Response) : Midjourney :=
  let (t, code) := sub.existing (sub.blank p quota response) response
  if code = 1 ∧ p.action = .upload then { t with progress := "100%", status := .success } else t

def insert (id : Int) (t : Midjourney) : SQL Bool := do
  return (← autocommit (.task id) fun | none => some (some t) | some _ => none) = some true

def postConsumeQuota (id : Int) (quota : Int) : SQL Bool := do
  if ¬ (← move id (.charge (.user sub.userId) quota)) then return false
  else if sub.isPlayground then return true
  else move id (.charge (.token sub.tokenId) quota)

def deferredCharge (id : Int) (consumeQuota : Bool) (statusCode quota : Int) : SQL (Option Bool) :=
  if consumeQuota ∧ statusCode = 200 then return some (← postConsumeQuota sub id quota)
  else return none

/-- From the response on. Code 3 looks at the channel, and panics if there is none: the
closure runs, with `consumeQuota` as it is there. -/
def record (id : Int) (p : Prepared) (quota statusCode : Int) (response : Response) : SQL Result := do
  if response.code = 3 ∧ host.channel p.channelId = none then
    return .submitted none (← deferredCharge sub id (consumes p.action) statusCode quota)
  else
    let inserted ← insert id (sub.task p quota response)
    let charge ← deferredCharge sub id (consumes p.action ∧ accepted response.code) statusCode quota
    return .submitted (if inserted then none else some (errorWrapper "insert_midjourney_task_failed")) charge

def priced (id : Int) (p : Prepared) : SQL Result :=
  match sub.price, sub.userQuota with
  | .error e, _ => return .rejected (errorWrapper e)
  | .ok _, .error e => return .rejected (errorWrapper e)
  | .ok quota, .ok userQuota =>
    if consumes p.action ∧ userQuota - quota < 0 then return .rejected (errorWrapper "quota_not_enough")
    else
      match sub.http with
      | .error response => return .rejected response
      | .ok (statusCode, response) => record host sub id p quota statusCode response

def relayMidjourneySubmit (id : Int) : SQL Result :=
  match normalRequest host sub with
  | .error e => return .rejected e
  | .ok (mode, req) => do
    match ← prepare ids host sub mode req with
    | .error e => return .rejected e
    | .ok p => priced host sub id p

end

/-! The poller. -/

/-- What upstream says of a task. -/
structure MidjourneyDto where
  mjId : String
  promptEn : String
  state : String
  submitTime : Int
  startTime : Int
  finishTime : Int
  imageUrl : String
  videoUrl : String
  /-- The marshalled list, `none` if it is empty. -/
  videoUrls : Option String
  status : Status
  progress : String
  failReason : String
  buttons : Option String
  properties : Option String
  deriving DecidableEq, Repr

/-- An item of an answer, and the time (ms) at which the round comes to it. -/
structure Report where
  now : Int
  item : MidjourneyDto

/-- What a round meets: the channels it can load, those whose base URL is set, the answers of the upstream
(`none` for any failure), and the order in which the rows and the map of channels come. -/
structure Round where
  channel : Int → Bool
  baseURL : Int → Bool
  answer : Int → List String → Option (List Report)
  scan : List Int → List Int
  scan_perm : ∀ ids, (scan ids).Perm ids
  channels : List Int → List Int
  channels_perm : ∀ keys, (channels keys).Perm keys

/-- The tasks of a round by their upstream id. -/
abbrev TaskM := String → Option Loaded

/-- The round so far: the tasks in memory, the refunds that were refused, and whether an item
about an unknown task, or a channel without a base URL, has ended the process. -/
structure Poll where
  taskM : TaskM
  refused : List Int
  panicked : Bool := false

/-- A task that is open for more than an hour has failed. -/
def timeoutRule (now : Int) (t : Midjourney) (item : MidjourneyDto) : MidjourneyDto :=
  if 3600000 < now - t.submitTime ∧ t.progress ≠ "100%" then
    { item with failReason := "上游任务超时（超过1小时）", status := .failure }
  else item

def checkMjTaskNeedUpdate (old : Midjourney) (new : MidjourneyDto) : Bool :=
  old.code ≠ 1 ∨ old.progress ≠ new.progress ∨ old.promptEn ≠ new.promptEn ∨ old.state ≠ new.state ∨
    old.submitTime ≠ new.submitTime ∨ old.startTime ≠ new.startTime ∨ old.finishTime ≠ new.finishTime ∨
    old.imageUrl ≠ new.imageUrl ∨ old.status ≠ new.status ∨ old.failReason ≠ new.failReason ∨
    (old.progress ≠ "100%" ∧ new.failReason ≠ "") ∨ old.videoUrl ≠ new.videoUrl ∨
    old.videoUrls ≠ new.videoUrls.getD ""

def MidjourneyDto.copyTo (item : MidjourneyDto) (t : Midjourney) : Midjourney :=
  { t with
    code := 1, progress := item.progress, promptEn := item.promptEn, state := item.state
    submitTime := item.submitTime, startTime := item.startTime, finishTime := item.finishTime
    imageUrl := item.imageUrl, status := item.status, failReason := item.failReason
    properties := item.properties.getD t.properties, buttons := item.buttons.getD t.buttons
    videoUrl := item.videoUrl, videoUrls := item.videoUrls.getD "" }

def MidjourneyDto.failed (item : MidjourneyDto) : Bool :=
  (item.progress ≠ "100%" ∧ item.failReason ≠ "") ∨ (item.progress = "100%" ∧ item.status = .failure)

def MidjourneyDto.apply (item : MidjourneyDto) (t : Midjourney) : Midjourney :=
  if item.failed then { item.copyTo t with progress := "100%" } else item.copyTo t

def casTask (fromStatus : Status) (t : Midjourney) : Option Midjourney → Option (Option Midjourney)
  | some stored => if stored.status = fromStatus then some (some t) else none
  | none => none

/-- The whole row, if the status is still `fromStatus`. -/
def updateWithStatus (id : Int) (fromStatus : Status) (t : Midjourney) : SQL (Option Bool) :=
  autocommit (.task id) (casTask fromStatus t)

def increaseUserQuota (id : Int) (userId quota : Int) : SQL Bool :=
  if quota < 0 then return false else move id (.refund (.user userId) quota)

/-- The UPDATE, and the refund if it was won; the result is whether the refund was refused. -/
def updateTask (c : Loaded) (item : MidjourneyDto) : SQL Bool := do
  let won ← updateWithStatus c.1 c.2.status (item.apply c.2)
  if won = some true ∧ item.failed ∧ c.2.quota ≠ 0 then return ! (← increaseUserQuota c.1 c.2.userId c.2.quota)
  else return false

def updateItem (now : Int) (item : MidjourneyDto) (c : Loaded) (p : Poll) : SQL Poll :=
  let item := timeoutRule now c.2 item
  if ¬ checkMjTaskNeedUpdate c.2 item then return p
  else do
    let refused ← updateTask c item
    return { p with
      taskM := Function.update p.taskM item.mjId (some (c.1, item.apply c.2))
      refused := if refused then c.1 :: p.refused else p.refused }

def updateItems : List Report → Poll → SQL Poll
  | [], p => return p
  | report :: rest, p =>
    match p.taskM report.item.mjId with
    | none => return { p with panicked := true }
    | some c => do
      let p ← updateItem report.now report.item c p
      updateItems rest p

def updateRows (f : Midjourney → Option Midjourney) : List Int → SQL (Except Unit Unit)
  | [] => return .ok ()
  | id :: rest => do
    match ← update (.task id) (fun v => (v.bind f).map some) with
    | none => return .error ()
    | some _ => updateRows f rest

/-- `WHERE id IN ?`. -/
def mjBulkUpdateByTaskIds (ids : List Int) (f : Midjourney → Midjourney) : SQL Unit := do
  let _ ← transaction () (updateRows (fun t => some (f t)) ids)
  return ()

/-- `WHERE mj_id IN ?`. -/
def mjBulkUpdate (ids : List Int) (mjIds : List String) (f : Midjourney → Midjourney) : SQL Unit := do
  let _ ← transaction () (updateRows (fun t => if t.mjId ∈ mjIds then some (f t) else none) ids)
  return ()

section
variable (ids : List Int) (r : Round)

def updateChannel (channelId : Int) (mjIds : List String) (p : Poll) : SQL Poll :=
  if r.channel channelId then
    if ¬ r.baseURL channelId then return { p with panicked := true }
    else
      match r.answer channelId mjIds with
      | none => return p
      | some reports => updateItems reports p
  else do
    mjBulkUpdate ids mjIds fun t =>
      { t with
        failReason := "获取渠道信息失败，请联系管理员，渠道ID：" ++ toString channelId
        status := .failure, progress := "100%" }
    return p

def ofChannel (live : List Loaded) (channelId : Int) : List String :=
  (live.filter (·.2.channelId = channelId)).map (·.2.mjId)

/-- `taskM`: of two tasks with one upstream id the later one stays. -/
def taskM (live : List Loaded) : TaskM := fun mjId => (live.filter (·.2.mjId = mjId)).getLast?

def updateChannels (live : List Loaded) : List Int → Poll → SQL Poll
  | [], p => return p
  | channelId :: rest, p => do
    let p ← updateChannel ids r channelId (ofChannel live channelId) p
    if p.panicked then return p else updateChannels live rest p

def fixNullTasks (tasks : List Loaded) : SQL Unit :=
  if tasks = [] then return ()
  else mjBulkUpdateByTaskIds (tasks.map (·.1)) fun t => { t with status := .failure, progress := "100%" }

def getAllUnFinishTasks (d : Tables) : List Loaded := (rows (r.scan ids) d).filter (·.2.progress ≠ "100%")

def pollTasks (tasks : List Loaded) : SQL Poll := do
  let live := tasks.filter (·.2.mjId ≠ "")
  fixNullTasks (tasks.filter (·.2.mjId = ""))
  updateChannels ids r live (r.channels (live.map (·.2.channelId)).dedup) { taskM := taskM live, refused := [] }

def updateMidjourneyTaskBulk : SQL Result := do
  match ← select with
  | none => return .polled []
  | some d =>
    let p ← pollTasks ids r (getAllUnFinishTasks ids r d)
    return .polled p.refused

end

end AmuxApi.MjProxy
