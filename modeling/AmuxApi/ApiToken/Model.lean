import AmuxApi.Txn.Program

/- API tokens: the quota that requests take from a token and give back to it, and the edit of
   a token by its owner.

   Correspondence (Go ↔ Lean): the functions of `model/token.go` and `controller/token.go`
   have the source's names.
   Batch updating is off, so a change of the quota is one UPDATE. The Redis cache, which is
   written in the background, and deleted rows are left out. -/
namespace AmuxApi.ApiToken
open Txn

inductive Status
  | enabled | disabled | expired | exhausted
  | other (code : Int)
  deriving DecidableEq, Repr

/-- A row of `tokens`, less its id. -/
structure Token where
  userId : Int
  key : String
  status : Status
  name : String
  createdTime : Int
  accessedTime : Int
  expiredTime : Int
  remainQuota : Int
  unlimitedQuota : Bool
  modelLimitsEnabled : Bool
  modelLimits : String
  allowIps : Option String
  usedQuota : Int
  group : String
  groupsJSON : String
  crossGroupRetry : Bool
  maxConcurrency : Int
  deriving DecidableEq, Repr

/-- The tokens by their id. -/
abbrev Row (_ : Int) := Option Token

abbrev Tables := DB Row

abbrev SQL := Prog Row Empty

inductive TokenError
  | nameTooLong
  | quotaNegative
  | quotaExceedMax (maxQuotaValue : Int)
  | expiredCannotEnable
  | exhaustedCannotEnable
  | database
  | message (text : String)
  deriving DecidableEq, Repr

/-! The quota. -/

/-- `UPDATE tokens SET .. WHERE id = ?`; no error if there is no row. -/
def setToken (f : Token → Token) : Option Token → Option (Option Token) := Option.map fun t => some (f t)

def runUpdate (id : Int) (f : Token → Token) : SQL (Except TokenError Unit) := do
  match ← autocommit id (setToken f) with
  | none => return .error .database
  | some _ => return .ok ()

def increaseTokenQuota (id quota now : Int) : SQL (Except TokenError Unit) :=
  if quota < 0 then return .error (.message "quota 不能为负数！")
  else runUpdate id fun t =>
    { t with remainQuota := t.remainQuota + quota, usedQuota := t.usedQuota - quota, accessedTime := now }

def decreaseTokenQuota (id quota now : Int) : SQL (Except TokenError Unit) :=
  if quota < 0 then return .error (.message "quota 不能为负数！")
  else runUpdate id fun t =>
    { t with remainQuota := t.remainQuota - quota, usedQuota := t.usedQuota + quota, accessedTime := now }

/-! The edit. -/

/-- The columns that `Update` selects, from `new`. -/
def Token.select (new stored : Token) : Token :=
  { stored with
    name := new.name, status := new.status, expiredTime := new.expiredTime, remainQuota := new.remainQuota
    unlimitedQuota := new.unlimitedQuota, modelLimitsEnabled := new.modelLimitsEnabled
    modelLimits := new.modelLimits, allowIps := new.allowIps, group := new.group, groupsJSON := new.groupsJSON
    crossGroupRetry := new.crossGroupRetry, maxConcurrency := new.maxConcurrency }

def Token.update (id : Int) (t : Token) : SQL (Except TokenError Unit) := runUpdate id t.select

def getTokenByIds (id userId : Int) : SQL (Except TokenError Token) :=
  if id = 0 ∨ userId = 0 then return .error (.message "id 或 userId 为空！")
  else do
    match ((← select).bind (· id)).filter (·.userId = userId) with
    | none => return .error .database
    | some t => return .ok t

/-- A request: the fields of a token, and the groups if they are given. -/
structure Request where
  id : Int
  token : Token
  groups : Option (List String)

/-- The settings, and what is known of the user. -/
structure Host where
  maxQuotaValue : Int
  resolveTokenMaxConcurrency : Int → Int
  getGroups : String → List String
  setGroups : List String → Except TokenError String
  normalizeGroupChainInput : List String → List String
  userGroup : Except TokenError String
  validateGroupChain : List String → String → Except TokenError Unit

section
variable (host : Host)

/-- Without groups in the request, a chain that does not start with the token's group is
cleared. -/
def applyGroupChain (t : Token) : Option (List String) → Except TokenError Token
  | none =>
    match host.getGroups t.groupsJSON with
    | first :: _ => .ok (if t.group ≠ first then { t with groupsJSON := "" } else t)
    | [] => .ok t
  | some groups => do
    match host.normalizeGroupChainInput groups with
    | [] => return { t with groupsJSON := "" }
    | first :: rest =>
      host.validateGroupChain (first :: rest) (← host.userGroup)
      return { t with groupsJSON := ← host.setGroups (first :: rest), group := first }

def checkRequest (token : Token) : Except TokenError Unit :=
  if 50 < token.name.utf8ByteSize then .error .nameTooLong
  else if token.unlimitedQuota then .ok ()
  else if token.remainQuota < 0 then .error .quotaNegative
  else if host.maxQuotaValue < token.remainQuota then .error (.quotaExceedMax host.maxQuotaValue)
  else .ok ()

/-- A token that has expired or is exhausted is not enabled. -/
def checkEnable (token cleanToken : Token) (now : Int) : Except TokenError Unit :=
  if token.status ≠ .enabled then .ok ()
  else if cleanToken.status = .expired ∧ cleanToken.expiredTime ≤ now ∧ cleanToken.expiredTime ≠ -1 then
    .error .expiredCannotEnable
  else if cleanToken.status = .exhausted ∧ cleanToken.remainQuota ≤ 0 ∧ ¬ cleanToken.unlimitedQuota then
    .error .exhaustedCannotEnable
  else .ok ()

def editToken (req : Request) (statusOnly : Bool) (cleanToken : Token) : Except TokenError Token :=
  if statusOnly then .ok { cleanToken with status := req.token.status }
  else applyGroupChain host
    { cleanToken with
      name := req.token.name, expiredTime := req.token.expiredTime, remainQuota := req.token.remainQuota
      unlimitedQuota := req.token.unlimitedQuota, modelLimitsEnabled := req.token.modelLimitsEnabled
      modelLimits := req.token.modelLimits, allowIps := req.token.allowIps, group := req.token.group
      crossGroupRetry := req.token.crossGroupRetry
      maxConcurrency := host.resolveTokenMaxConcurrency req.token.maxConcurrency } req.groups

/-- The row is read whole, and written back with its remaining quota. -/
def updateToken (userId now : Int) (statusOnly : Bool) (req : Request) : SQL (Except TokenError Unit) :=
  match checkRequest host req.token with
  | .error e => return .error e
  | .ok _ => do
    match ← getTokenByIds req.id userId with
    | .error e => return .error e
    | .ok cleanToken =>
      match checkEnable req.token cleanToken now, editToken host req statusOnly cleanToken with
      | .error e, _ => return .error e
      | .ok _, .error e => return .error e
      | .ok _, .ok edited => edited.update req.id

end

end AmuxApi.ApiToken
