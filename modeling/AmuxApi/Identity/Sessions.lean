import AmuxApi.Identity.AccessTokens

/- Logging in, the session in the cookie, and who a request is from.

   The session store is the cookie itself, signed by the server: what a handler saves goes to the
   browser, and whatever cookie comes back within its time is taken as it is. A login copies the
   user's name, role and status into the session.

   Correspondence (Go ↔ Lean), where the names differ:
     `middleware/auth.go`: `authHelper` ↔ `identify`, then `allows`
     `controller/user.go`: `Login`; `model/user.go`: `Edit`, `Insert` ↔ `passwordLogin`; `editUser`, `insertUser`
     `controller/oauth.go`, `wechat.go`, `passkey.go`: the end of each login ↔ `loginEnabled`
     `main.go`: the cookie store and its 30 days ↔ `cookieMaxAge`
   Passwords, codes and what providers say are taken to be right: a login is given the user it is
   for. The keys `id`, `username`, `role`, `status` and `group` of a session are set together and
   only cleared together, and are one value here. -/
namespace AmuxApi.Identity
open Account

/-! The session. -/

/-- What `setupLogin` copies. -/
structure Login where
  id : Int
  username : String
  role : Int
  status : Int
  group : String
  deriving DecidableEq, Repr

/-- How a step-up verification was made. -/
inductive Method
  | twoFA | passkey
  deriving DecidableEq, Repr

/-- The keys of a session: the login, the user who still has to give a second factor, the marks of
the step-up verification, and the user of the WebAuthn challenge that is open. -/
structure Session where
  login : Option Login := none
  pendingUserId : Option Int := none
  secureVerifiedAt : Option Int := none
  secureVerifiedMethod : Option Method := none
  passkeyReadyAt : Option Int := none
  verifyChallenge : Option Int := none
  deriving DecidableEq, Repr

def cookieMaxAge : Int := 2592000

def setupLogin (user : User) (session : Session) : Session :=
  { session with login := some ⟨user.id, user.username, user.role, user.status, user.group⟩ }

def logout (_ : Session) : Session := {}

/-- `none`: the login is refused, and nothing is saved. -/
def loginEnabled (s : Tables) (userId : Int) (session : Session) : Option Session := do
  let user ← firstUser s.users (·.id = userId)
  if user.status ≠ userStatusEnabled then none else some (setupLogin user session)

/-- With a second factor, the session only says who is to give it. -/
def passwordLogin (s : Tables) (userId : Int) (twoFAEnabled : Bool) (session : Session) : Option Session := do
  let user ← firstUser s.users (·.id = userId)
  if user.status ≠ userStatusEnabled then none
  else if twoFAEnabled then some { session with pendingUserId := some user.id }
  else some (setupLogin user session)

def verify2FALogin (s : Tables) (session : Session) : Option Session := do
  let userId ← session.pendingUserId
  let user ← firstUser s.users (·.id = userId)
  return setupLogin user { session with pendingUserId := none }

def telegramLogin (s : Tables) (userId : Int) (session : Session) : Option Session := do
  let user ← firstUser s.users (·.id = userId)
  return setupLogin user session

/-! Who a request is from. -/

structure Request where
  session : Session
  authorization : String
  newApiUser : String

inductive Refusal
  | authNotLoggedIn | authAccessTokenInvalid | authUserInfoInvalid
  | authUserIdNotProvided | authUserIdFormatError | authUserIdMismatch
  | authUserBanned | authInsufficientPrivilege
  deriving DecidableEq, Repr

/-- What is set in the context of a request that passes. -/
structure Context where
  id : Int
  username : String
  role : Int
  group : String
  useAccessToken : Bool
  deriving DecidableEq, Repr

def isValidateRole (role : Int) : Bool :=
  role = roleGuestUser || role = roleCommonUser || role = roleAdminUser || role = roleRootUser

def validUserInfo (username : String) (role : Int) : Bool := Go.trimSpace username ≠ "" && isValidateRole role

section
variable (hash : String → String)

/-- The login that a request stands for, and whether it came with an access token. A session with a
login is taken as it is. -/
def identify (s : Tables) (now : Int) (r : Request) : Except Refusal (Login × Bool) :=
  match r.session.login with
  | some login => .ok (login, false)
  | none =>
    if r.authorization = "" then .error .authNotLoggedIn
    else match validateAccessTokenWithIP hash s now r.authorization with
      | none => .error .authAccessTokenInvalid
      | some ⟨user, _⟩ =>
        if user.username = "" then .error .authAccessTokenInvalid
        else if validUserInfo user.username user.role = false then .error .authUserInfoInvalid
        else .ok (⟨user.id, user.username, user.role, user.status, ""⟩, true)

def allows (minRole : Int) (newApiUser : String) (login : Login) : Except Refusal Unit :=
  if newApiUser = "" then .error .authUserIdNotProvided
  else match Go.atoi newApiUser with
    | none => .error .authUserIdFormatError
    | some apiUserId =>
      if login.id ≠ apiUserId then .error .authUserIdMismatch
      else if login.status = userStatusDisabled then .error .authUserBanned
      else if login.role < minRole then .error .authInsufficientPrivilege
      else if validUserInfo login.username login.role = false then .error .authUserInfoInvalid
      else .ok ()

/-- `cachedGroup` is what `GetUserCache` answers. -/
def authHelper (cachedGroup : Int → Option String) (s : Tables) (now minRole : Int) (r : Request) :
    Except Refusal Context := do
  let who ← identify hash s now r
  allows minRole r.newApiUser who.1
  let group := match cachedGroup who.1.id with
    | some group => if who.1.id > 0 ∧ group ≠ "" then group else who.1.group
    | none => who.1.group
  return ⟨who.1.id, who.1.username, who.1.role, group, who.2⟩

end

/-! What administrators and users do to the rows of `users`. -/

/-- `UPDATE users .. WHERE id = ?`. -/
def setUser (id : Int) (f : User → User) (s : Tables) : Tables :=
  { s with users := s.users.map fun u => if u.id = id ∧ u.deleted = false then f u else u }

def softDelete (id : Int) (s : Tables) : Tables := setUser id (fun u => { u with deleted := true }) s

def manageUser (myRole id : Int) (action : Action) (s : Tables) : Tables :=
  match managed s.users id with
  | none => s
  | some user => if user.id = 0 ∨ (action.check myRole user).isSome then s else setUser user.id action.change s

def batchManageUsers (myRole : Int) (ids : List Int) (action : Action) (s : Tables) : Tables :=
  let users := s.users.filter fun u => u.id ∈ ids ∧ u.deleted = false
  if invalidIDs ids ∨ action.forMany = false then s
  else if users.length ≠ ids.eraseDups.length then s
  else if users.any fun u => (action.check myRole u).isSome then s
  else { s with users := s.users.map fun u => if u.id ∈ ids ∧ u.deleted = false then action.change u else u }

/-- The row is gone for good. -/
def deleteUser (myRole id : Int) (s : Tables) : Tables :=
  match firstUser s.users (·.id = id) with
  | none => s
  | some user => if myRole ≤ user.role then s else { s with users := s.users.filter (·.id ≠ id) }

def deleteSelf (id : Int) (s : Tables) : Tables :=
  match firstUser s.users (·.id = id) with
  | none => s
  | some user => if user.role = roleRootUser then s else softDelete id s

def editUser (id : Int) (username group : String) (s : Tables) : Tables :=
  setUser id (fun u => { u with username, group }) s

/-- A new row, with an id that no row has. -/
def insertUser (user : User) (s : Tables) : Tables :=
  if s.users.any (·.id = user.id) then s else { s with users := s.users ++ [user] }

end AmuxApi.Identity
