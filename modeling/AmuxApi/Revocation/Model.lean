import AmuxApi.Account.User
import AmuxApi.Conc.System

/- Tokens and users in the database and in the Redis caches: requests that read them and fill the
   caches, and operations that delete or disable a token or disable a user.

   A read that misses the cache goes to the database, and what it has found is put in the cache by
   a task in the background. `Token.Delete`, `BatchDeleteTokens` and `Token.Update` leave their
   change of the cache to such tasks too; an administrator who disables users clears the caches
   before the answer. The tasks are in `jobs`, in the order in which they were started, and each
   runs when it likes. An entry of a cache may expire at any time.

   Correspondence (Go ↔ Lean): the functions of `model/token.go`, `model/token_cache.go`,
   `model/user_cache.go`, `middleware/auth.go`, `controller/token.go` (`UpdateToken`, less its
   checks of groups) and `controller/user.go` (both for `disable`) have the source's names.
   Every SQL statement and every Redis command is one step, and a transaction takes effect when it
   commits. A statement may fail, and so may a read of a cache; what is written to a cache or
   deleted there arrives. Redis is enabled. Names, model limits, quotas in use and events are left
   out, and so is how a request carries its key. -/
namespace AmuxApi.Revocation
open Conc
open Account

/-! Rows, and what is cached of them. -/

def tokenStatusEnabled : Int := 1
def tokenStatusDisabled : Int := 2
def tokenStatusExpired : Int := 3
def tokenStatusExhausted : Int := 4

structure Token where
  id : Int
  userId : Int
  key : String
  status : Int
  expiredTime : Int := -1
  remainQuota : Int := 0
  unlimitedQuota : Bool := false
  allowIps : Option String := none
  group : String := ""
  groupsJSON : String := ""
  deleted : Bool := false
  deriving DecidableEq

/-- What is left to a task in the background. -/
inductive Job
  | setToken (token : Token)
  | deleteTokens (keys : List String)
  | setUser (user : User)
  deriving DecidableEq

/-- The tables are in the order of their primary keys. -/
structure Store where
  tokens : List Token
  users : List User
  tokenCache : String → Option Token := fun _ => none
  userCache : Int → Option UserBase := fun _ => none
  jobs : List Job := []

def Store.updateTokens (p : Token → Bool) (f : Token → Token) (m : Store) : Store :=
  { m with tokens := m.tokens.map fun t => if p t then f t else t }

def Store.updateUsers (p : User → Bool) (f : User → User) (m : Store) : Store :=
  { m with users := m.users.map fun u => if p u then f u else u }

def Store.setTokenCache (key : String) (token : Option Token) (m : Store) : Store :=
  { m with tokenCache := Function.update m.tokenCache key token }

def Store.setUserCache (id : Int) (user : Option UserBase) (m : Store) : Store :=
  { m with userCache := Function.update m.userCache id user }

def Store.start (job : Job) (m : Store) : Store := { m with jobs := m.jobs ++ [job] }

/-- Tokens and users, as an operation takes their access. -/
inductive Subject
  | token (key : String)
  | user (id : Int)
  deriving DecidableEq

inductive Msg
  | databaseError | tokenInvalid | authUserBanned
  | text (message : String)
  deriving DecidableEq

inductive Err
  | database | recordNotFound
  | idEmpty | idsEmpty | invalidParams
  | tokenNameTooLong | tokenQuotaNegative | tokenQuotaExceedMax | tokenExpiredCannotEnable | tokenExhaustedCannotEnable
  | groupChain (message : String)
  | userNotExists
  | refused (why : Refused)
  deriving DecidableEq

/-- What a call ends with. An operation that has succeeded says whose access it has taken. -/
inductive Answer
  | next
  | aborted (status : Nat) (msg : Msg)
  | success (revoked : List Subject)
  | failed (err : Err)
  | finished
  deriving DecidableEq

def Answer.rejected : Answer → Bool
  | .aborted _ _ => true
  | _ => false

abbrev Run := Prog Store

/-! The caches. -/

def spawn (job : Job) : Run Unit := modify (·.start job)

def cacheSetToken (token : Token) : Run Unit := modify (·.setTokenCache token.key (some { token with key := "" }))

def cacheDeleteToken (key : String) : Run Unit := modify (·.setTokenCache key none)

def cacheGetTokenByKey (key : String) : Run (Option Token) := do
  return (← query fun m => (m.tokenCache key).map fun t => { t with key := key }).join

def cacheGetUserBase (userId : Int) : Run (Option UserBase) := do
  return (← query fun m => m.userCache userId).join

def updateUserCache (user : User) : Run Unit := modify (·.setUserCache user.id (some user.toBaseUser))

/-- The fields are written only when the key has a time to live, which is a command of its own. -/
def cacheUpdateUserProfileFields (user : User) : Run Unit := do
  if ← Conc.get fun m => (m.userCache user.id).isSome then updateUserCache user else return ()

def invalidateUserCache (userId : Int) : Run Unit := modify (·.setUserCache userId none)

/-- Errors are logged by the callers. -/
def invalidateUserTokensCache (userId : Int) : Run Unit :=
  if userId ≤ 0 then return ()
  else do
    match ← query fun m => (m.tokens.filter fun t => t.userId == userId).map (·.key) with
    | none => return ()
    | some keys => forEach (fun key => if key = "" then return () else cacheDeleteToken key) keys

/-! Requests. -/

def firstToken (p : Token → Bool) : Run (Except Err Token) := do
  match ← query fun m => m.tokens.find? fun t => !t.deleted && p t with
  | none => return .error .database
  | some none => return .error .recordNotFound
  | some (some token) => return .ok token

/-- With `fromDB` false. -/
def getTokenByKey (key : String) : Run (Except Err Token) := do
  match ← cacheGetTokenByKey key with
  | some token => return .ok token
  | none =>
    match ← firstToken fun t => t.key == key with
    | .error err => return .error err
    | .ok token =>
      spawn (.setToken token)
      return .ok token

/-- The errors of `ValidateUserToken`. -/
inductive AuthErr
  | tokenNotProvided | tokenInvalid | database
  deriving DecidableEq

def Token.validate (token : Token) (now : Int) : Except AuthErr Token :=
  if token.status = tokenStatusExhausted ∨ token.status = tokenStatusExpired ∨ token.status ≠ tokenStatusEnabled then
    .error .tokenInvalid
  else if token.expiredTime ≠ -1 ∧ token.expiredTime < now then .error .tokenInvalid
  else if !token.unlimitedQuota ∧ token.remainQuota ≤ 0 then .error .tokenInvalid
  else .ok token

def validateUserToken (key : String) (now : Int) : Run (Except AuthErr Token) :=
  if key = "" then return .error .tokenNotProvided
  else do
    match ← getTokenByKey key with
    | .ok token => return token.validate now
    | .error .recordNotFound => return .error .tokenInvalid
    | .error _ => return .error .database

def getUserById (id : Int) : Run (Except Err User) :=
  if id = 0 then return .error .idEmpty
  else do
    match ← query fun m => m.users.find? fun u => !u.deleted && u.id == id with
    | none => return .error .database
    | some none => return .error .recordNotFound
    | some (some user) => return .ok user

def getUserCache (userId : Int) : Run (Except Err UserBase) := do
  match ← cacheGetUserBase userId with
  | some user => return .ok user
  | none =>
    match ← getUserById userId with
    | .error err => return .error err
    | .ok user =>
      spawn (.setUser user)
      return .ok user.toBaseUser

/-- A request with its key, the time of its check, and the checks that do not read the caches:
of the client's address, and of the groups of the token and the user. -/
structure Request where
  key : String
  now : Int
  checkIp : Option String → Option String
  checkGroup : Token → UserBase → Option String

def tokenAuth (req : Request) : Run Answer := do
  match ← validateUserToken req.key req.now with
  | .error .database => return .aborted 500 .databaseError
  | .error _ => return .aborted 401 .tokenInvalid
  | .ok token =>
    match req.checkIp token.allowIps with
    | some message => return .aborted 403 (.text message)
    | none =>
      match ← getUserCache token.userId with
      | .error _ => return .aborted 500 .databaseError
      | .ok user =>
        if user.status ≠ userStatusEnabled then return .aborted 403 .authUserBanned
        else
          match req.checkGroup token user with
          | some message => return .aborted 403 (.text message)
          | none => return .next

/-! Operations on tokens. -/

/-- Rows of tokens are changed, and the cache is left to a task. -/
def changeTokens (p : Token → Bool) (f : Token → Token) (job : Job) (revoked : List Subject) : Run Answer := do
  if ← statement (·.updateTokens p f) then
    spawn job
    return .success revoked
  else return .failed .database

def Token.delete (token : Token) : Run Answer :=
  changeTokens (fun t => !t.deleted && t.id == token.id) (fun t => { t with deleted := true })
    (.deleteTokens [token.key]) [.token token.key]

def deleteTokenById (id userId : Int) : Run Answer :=
  if id = 0 ∨ userId = 0 then return .failed .idEmpty
  else do
    match ← firstToken fun t => t.id == id && t.userId == userId with
    | .error err => return .failed err
    | .ok token => token.delete

def batchDeleteTokens (ids : List Int) (userId : Int) : Run Answer :=
  if ids = [] then return .failed .idsEmpty
  else do
    match ← query fun m => m.tokens.filter fun t => !t.deleted && (t.userId == userId && ids.contains t.id) with
    | none => return .failed .database
    | some tokens =>
      changeTokens (fun t => !t.deleted && (t.userId == userId && ids.contains t.id))
        (fun t => { t with deleted := true }) (.deleteTokens (tokens.map (·.key))) (tokens.map fun t => .token t.key)

def Token.update (token : Token) : Run Answer :=
  changeTokens (fun t => !t.deleted && t.id == token.id)
    (fun t =>
      { t with
        status := token.status, expiredTime := token.expiredTime, remainQuota := token.remainQuota,
        unlimitedQuota := token.unlimitedQuota, allowIps := token.allowIps, group := token.group,
        groupsJSON := token.groupsJSON })
    (.setToken token) [.token token.key]

/-- What is sent for a token. `applyGroupChain` is what the check of the groups makes of the token. -/
structure TokenRequest where
  id : Int
  statusOnly : Bool := false
  nameLength : Nat := 0
  status : Int := 0
  expiredTime : Int := 0
  remainQuota : Int := 0
  unlimitedQuota : Bool := false
  allowIps : Option String := none
  group : String := ""
  applyGroupChain : Token → Except Err Token := .ok

def getTokenByIds (id userId : Int) : Run (Except Err Token) :=
  if id = 0 ∨ userId = 0 then return .error .idEmpty
  else firstToken fun t => t.id == id && t.userId == userId

/-- The token that is changed, with the checks before it is enabled. -/
def TokenRequest.apply (req : TokenRequest) (now : Int) (cleanToken : Token) : Except Err Token :=
  if req.status = tokenStatusEnabled ∧ cleanToken.status = tokenStatusExpired ∧ cleanToken.expiredTime ≤ now ∧
      cleanToken.expiredTime ≠ -1 then .error .tokenExpiredCannotEnable
  else if req.status = tokenStatusEnabled ∧ cleanToken.status = tokenStatusExhausted ∧ cleanToken.remainQuota ≤ 0 ∧
      !cleanToken.unlimitedQuota then .error .tokenExhaustedCannotEnable
  else if req.statusOnly then .ok { cleanToken with status := req.status }
  else
    req.applyGroupChain
      { cleanToken with
        expiredTime := req.expiredTime, remainQuota := req.remainQuota, unlimitedQuota := req.unlimitedQuota,
        allowIps := req.allowIps, group := req.group }

/-- `maxQuotaValue` is the largest quota that may be sent. -/
def updateToken (maxQuotaValue userId now : Int) (req : TokenRequest) : Run Answer :=
  if 50 < req.nameLength then return .failed .tokenNameTooLong
  else if !req.unlimitedQuota ∧ req.remainQuota < 0 then return .failed .tokenQuotaNegative
  else if !req.unlimitedQuota ∧ maxQuotaValue < req.remainQuota then return .failed .tokenQuotaExceedMax
  else do
    match ← getTokenByIds req.id userId with
    | .error err => return .failed err
    | .ok cleanToken =>
      match req.apply now cleanToken with
      | .error err => return .failed err
      | .ok token => token.update

/-! Operations on users. -/

/-- Without a new password. -/
def User.update (newUser : User) : Run Bool := do
  let user := (← query fun m => m.users.find? fun u => !u.deleted && u.id == newUser.id).join.getD newUser
  if ← statement (·.updateUsers (fun u => !u.deleted && u.id == newUser.id) newUser.nonZero) then
    cacheUpdateUserProfileFields (newUser.nonZero user)
    return true
  else return false

/-- A user that is not found has the id of the request, and no role. -/
def manageUser (id myRole : Int) : Run Answer := do
  let user := (← query fun m => managed m.users id).join.getD { id := id }
  if user.id = 0 then return .failed .userNotExists
  else
    match Action.check myRole user .disable with
    | some why => return .failed (.refused why)
    | none =>
      if ← User.update (Action.disable.change user) then
        invalidateUserCache user.id
        invalidateUserTokensCache user.id
        return .success [.user user.id]
      else return .failed .database

def batchManageUsers (ids : List Int) (myRole : Int) : Run Answer :=
  if invalidIDs ids then return .failed .invalidParams
  else do
    match ← query fun m => m.users.filter fun u => !u.deleted && ids.eraseDups.contains u.id with
    | none => return .failed .database
    | some users =>
      if users.length ≠ ids.eraseDups.length then return .failed .userNotExists
      else
        match users.findSome? (Action.check myRole · .disable) with
        | some why => return .failed (.refused why)
        | none =>
          if ← statement (·.updateUsers (fun u => !u.deleted && ids.eraseDups.contains u.id) Action.disable.change) then
            forEach (fun user => do
              invalidateUserCache user.id
              invalidateUserTokensCache user.id) users
            return .success (ids.eraseDups.map .user)
          else return .failed .database

/-! Tasks in the background, and the system. -/

def Job.run : Job → Run Unit
  | .setToken token => cacheSetToken token
  | .deleteTokens keys => forEach cacheDeleteToken keys
  | .setUser user => do
    -- Only an empty cache is filled; what is looked at may have changed when the fields are written.
    match ← cacheGetUserBase user.id with
    | some _ => return ()
    | none => updateUserCache user

/-- The task that was started as number `n`. -/
def background (n : Nat) : Run Answer := do
  match ← await fun m => m.jobs[n]? with
  | some job =>
    job.run
    return .finished
  | none => return .finished

inductive Call
  | request (req : Request)
  | deleteToken (id userId : Int)
  | batchDelete (ids : List Int) (userId : Int)
  | updateToken (userId now : Int) (req : TokenRequest)
  | manageUser (id myRole : Int)
  | batchManageUsers (ids : List Int) (myRole : Int)
  | expireToken (key : String)
  | expireUser (id : Int)

def Call.run (maxQuotaValue : Int) : Call → Run Answer
  | .request req => tokenAuth req
  | .deleteToken id userId => deleteTokenById id userId
  | .batchDelete ids userId => batchDeleteTokens ids userId
  | .updateToken userId now req => Revocation.updateToken maxQuotaValue userId now req
  | .manageUser id myRole => Revocation.manageUser id myRole
  | .batchManageUsers ids myRole => Revocation.batchManageUsers ids myRole
  | .expireToken key => do
    cacheDeleteToken key
    return .finished
  | .expireUser id => do
    invalidateUserCache id
    return .finished

/-- `UpdateToken` may enable a token as well, and without `status_only` it writes the status that it
has read. -/
def Call.Disables : Call → Prop
  | .updateToken _ _ req => req.statusOnly = true ∧ req.status ≠ tokenStatusEnabled
  | _ => True

inductive Thread (ι : Type)
  | call (i : ι)
  | job (n : Nat)
  deriving DecidableEq

def system {ι : Type} (maxQuotaValue : Int) (m : Store) (calls : ι → Call) : Sys (Thread ι) Store Answer where
  mem := m
  prog
    | .call i => (calls i).run maxQuotaValue
    | .job n => background n

end AmuxApi.Revocation
