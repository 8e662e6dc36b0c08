import AmuxApi.Conc.System
import AmuxApi.Identity.AccessTokens

/- The device authorization grant: an application creates a session, a user approves or rejects it in
   the browser, the application polls for the token, and a job cleans up.

   An approval issues a token first and then writes it into the session, by an UPDATE that asks for a
   session that is pending and not expired; if no row was met, it revokes the token. A poll reads the
   session, and if it is authorized takes the token by another such UPDATE, a SELECT and an UPDATE that
   clears it. The clean-up reads the time once, and then makes three statements.

   Correspondence (Go ↔ Lean): the functions of `model/desktop_auth_session.go` and
   `controller/oauth_device.go` have the source's names; those of
   `model/user_access_token.go` are in `Identity.AccessTokens`.
   The rows are those of one session id. Each statement is one step, and any of them may fail; the time
   that an approval asks for, and that of a clean-up, is read in a step before. The text of a token is
   random, and only its creation returns it: it is not told apart from the place of the token in the
   table. The client and its name are what a call comes with.

   Not in the code, and only there to say what has happened: the approvals that were written, whether
   the session was rejected or expired before there was one (`lapsed`), the tokens that a running call
   has in hand, the polls that have taken the session and still run (`claims`), the tokens that a poll
   has answered with (`delivered`), and `slips`. -/
namespace AmuxApi.DeviceAuth
open Conc
open Identity (Tables)

inductive Status
  | pending | authorized | used | expired
  deriving DecidableEq, Repr

/-- `accessToken`: the place of the token in the table; none, for the empty text. -/
structure Session where
  userId : Int := 0
  accessToken : Option Nat := none
  status : Status := .pending
  createdAt : Int
  expiresAt : Int
  deriving DecidableEq, Repr

structure Approval (ι : Type) where
  call : ι
  userId : Int
  token : Nat
  time : Int
  deriving DecidableEq, Repr

structure Mem (ι : Type) where
  session : Option Session
  tables : Tables
  now : Int
  approvals : List (Approval ι) := []
  lapsed : Bool := false
  inHand : List (ι × Nat) := []
  claims : List ι := []
  delivered : List Nat := []
  slips : Nat := 0

inductive Answer
  | success | failure | pending | expired
  | authorized (userId : Int) (accessToken : Option Nat)
  deriving DecidableEq, Repr

section
variable {ι : Type}

/-- What an approval asks of the session. -/
def Session.awaits (x : Session) (now : Int) : Bool := x.status = .pending && now < x.expiresAt

def Mem.awaits (m : Mem ι) (now : Int) : Bool := m.session.any (·.awaits now)

def Mem.hasStatus (m : Mem ι) (status : Status) : Bool := m.session.any (·.status = status)

def Mem.mapSession (m : Mem ι) (f : Session → Session) : Mem ι := { m with session := m.session.map f }

/-- It is over for the session, before any approval. -/
def Mem.lapse (m : Mem ι) : Mem ι := { m with lapsed := m.lapsed || m.approvals.isEmpty }

/-- The state before any call: a session that was just created, or none. -/
def Mem.start (session : Option (Int × Int)) (tables : Tables) (now : Int) : Mem ι where
  session := session.map fun x => { createdAt := x.1, expiresAt := x.2 }
  tables := tables
  now := now
  lapsed := session.any fun x => x.2 ≤ now

/-! Time. -/

def clock : Prog (Mem ι) Int := get (·.now)

def Mem.wait (m : Mem ι) (seconds : Nat) : Mem ι :=
  let later := { m with now := m.now + seconds }
  if m.hasStatus .pending = true ∧ later.awaits later.now = false then later.lapse else later

/-! Creating a session. -/

def getDesktopAuthSession : Prog (Mem ι) (Option (Option Session)) := query (·.session)

/-- The INSERT fails if there is a session with the id. -/
def insertSession (expiresAt : Int) : Prog (Mem ι) Answer :=
  .act (fun _ => true)
    (fun ok m =>
      if ok = true ∧ m.session = none then { m with session := some { createdAt := m.now, expiresAt } } else m)
    fun ok m => .ret (if ok = true ∧ m.session = none then .success else .failure)

/-- The count of pending sessions is about other ids: it is below the limit, or not. -/
def createDesktopAuthSession (expiresAt : Int) : Prog (Mem ι) Answer :=
  query (fun _ => ()) >>= fun below => if below.isSome then insertSession expiresAt else pure .failure

/-- An error of the first query is taken for no session. -/
def oauthDeviceAuthorize : Prog (Mem ι) Answer :=
  getDesktopAuthSession >>= fun existing =>
    if existing.join.isSome then pure .failure
    else clock >>= fun now => createDesktopAuthSession (now + 5 * 60)

/-! Rejecting. -/

def Session.expire (x : Session) : Session := { x with status := .expired }

def expireDesktopSession : Prog (Mem ι) Bool :=
  statement fun m => if m.hasStatus .pending then (m.mapSession Session.expire).lapse else m

/-! Approving. -/

section
variable [DecidableEq ι] (i : ι)

/-- What a call comes with: the user, the name of the client, and what is random. -/
structure Request where
  userId : Int
  name : String
  sourceMeta : String
  body : String

def Mem.release (m : Mem ι) (token : Nat) : Mem ι := { m with inHand := m.inHand.erase (i, token) }

/-- The answer is the new token. -/
def createUserAccessToken (hash : String → String) (r : Request) : Prog (Mem ι) (Option Nat) :=
  .act (fun _ => true)
    (fun ok m =>
      if ok then
        { m with
          tables := Identity.createDeviceToken hash m.now r.userId r.name r.sourceMeta r.body m.tables
          inHand := (i, m.tables.tokens.length) :: m.inHand }
      else m)
    fun ok m => .ret (if ok then some m.tables.tokens.length else none)

def Session.authorize (userId : Int) (token : Nat) (x : Session) : Session :=
  { x with status := .authorized, userId, accessToken := some token }

def Mem.authorize (m : Mem ι) (userId : Int) (token : Nat) : Mem ι :=
  { (m.mapSession (Session.authorize userId token)).release i token with
    approvals := ⟨i, userId, token, m.now⟩ :: m.approvals }

/-- The UPDATE, for the time that was read. -/
def authorizeAt (userId : Int) (token : Nat) (now : Int) : Prog (Mem ι) Bool :=
  .act (fun _ => true)
    (fun ok m => if ok = true ∧ m.awaits now = true then m.authorize i userId token else m)
    fun ok m => .ret (ok && m.awaits now)

def authorizeDesktopSession (userId : Int) (token : Nat) : Prog (Mem ι) Bool :=
  clock >>= authorizeAt i userId token

/-- The error is ignored. -/
def revokeUserAccessToken (token : Nat) : Prog (Mem ι) Unit :=
  .act (fun _ => true)
    (fun ok m =>
      if ok then
        Mem.release i
          { m with tables := Identity.revokeUserAccessToken m.now token "session-authorize-failed" m.tables } token
      else { m.release i token with slips := m.slips + 1 })
    fun _ _ => .ret ()

def approveWith (userId : Int) : Option Nat → Prog (Mem ι) Answer
  | none => pure .failure
  | some token =>
    authorizeDesktopSession i userId token >>= fun ok =>
      if ok then pure .success else revokeUserAccessToken i token >>= fun _ => pure .failure

inductive Action
  | approve (r : Request)
  | reject

def oauthDeviceConfirm (hash : String → String) : Action → Prog (Mem ι) Answer
  | .approve r => createUserAccessToken i hash r >>= approveWith i r.userId
  | .reject => expireDesktopSession >>= fun _ => pure .success

/-! Polling. -/

def Mem.held (m : Mem ι) : Option Nat := m.session.bind (·.accessToken)

/-- The poll is over: it has nothing in hand. -/
def Mem.endPoll (m : Mem ι) : Mem ι :=
  { m with inHand := m.inHand.filter (·.1 ≠ i), claims := m.claims.erase i }

/-- The UPDATE that only one poll wins. -/
def claimSession : Prog (Mem ι) Bool :=
  .act (fun _ => true)
    (fun ok m =>
      if ok = true ∧ m.hasStatus .authorized = true then
        { m.mapSession ({ · with status := .used }) with
          inHand := m.held.toList.map (i, ·) ++ m.inHand
          claims := i :: m.claims }
      else m)
    fun ok m => .ret (ok && m.hasStatus .authorized)

def Mem.usedSession (m : Mem ι) : Option Session := m.session.filter (·.status = .used)

def readSession : Prog (Mem ι) (Option Session) :=
  .act (fun _ => true)
    (fun ok m => if ok = true ∧ m.usedSession.isSome = true then m else { m.endPoll i with slips := m.slips + 1 })
    fun ok m => .ret (if ok then m.usedSession else none)

/-- The error is ignored, and the poll answers. -/
def clearToken (session : Session) : Prog (Mem ι) Answer :=
  .act (fun _ => true)
    (fun ok m =>
      let m := if ok then m.mapSession ({ · with accessToken := none }) else m
      { m.endPoll i with delivered := session.accessToken.toList ++ m.delivered })
    fun _ _ => .ret (.authorized session.userId session.accessToken)

def deliver : Option Session → Prog (Mem ι) Answer
  | none => pure .expired
  | some session => clearToken i session

def consumeDesktopSession : Prog (Mem ι) Answer :=
  claimSession i >>= fun won => if won then readSession i >>= deliver i else pure .expired

def checkStatus (session : Session) : Prog (Mem ι) Answer :=
  match session.status with
  | .pending => clock >>= fun now => pure (if session.expiresAt ≤ now then .expired else .pending)
  | .authorized => consumeDesktopSession i
  | _ => pure .expired

def checkFound : Option (Option Session) → Prog (Mem ι) Answer
  | some (some session) => checkStatus i session
  | _ => pure .expired

def oauthDeviceCheck : Prog (Mem ι) Answer := getDesktopAuthSession >>= checkFound i

end

/-! Cleaning up. -/

def deletePending (now : Int) : Prog (Mem ι) Bool :=
  statement fun m =>
    if m.session.any fun x => x.expiresAt < now && x.status = .pending then { m with session := none }.lapse else m

/-- A token that was never polled for is given up. -/
def expireAuthorized (now : Int) : Prog (Mem ι) Bool :=
  statement fun m =>
    if m.session.any fun x => x.createdAt < now - 600 && x.status = .authorized then
      { m.mapSession fun x => { x.expire with accessToken := none } with slips := m.slips + 1 }
    else m

def deleteOld (now : Int) : Prog (Mem ι) Bool :=
  statement fun m =>
    if m.session.any fun x => x.createdAt < now - 3600 && (x.status = .used || x.status = .expired) then
      { m with session := none, slips := if m.claims = [] then m.slips else m.slips + 1 }
    else m

def cleanupExpiredDesktopSessions : Prog (Mem ι) Answer :=
  clock >>= fun now =>
    deletePending now >>= fun ok =>
      if ok then
        expireAuthorized now >>= fun ok =>
          if ok then deleteOld now >>= fun ok => pure (if ok then .success else .failure) else pure .failure
      else pure .failure

/-! Calls. -/

/-- `wait`: time passes. -/
inductive Call
  | authorize
  | confirm (action : Action)
  | check
  | cleanup
  | wait (seconds : Nat)

def Call.prog [DecidableEq ι] (hash : String → String) (i : ι) : Call → Prog (Mem ι) Answer
  | .authorize => oauthDeviceAuthorize
  | .confirm action => oauthDeviceConfirm i hash action
  | .check => oauthDeviceCheck i
  | .cleanup => cleanupExpiredDesktopSessions
  | .wait seconds => atomically (Mem.wait · seconds) fun _ => .success

end

def exampleRequest : Request := { userId := 7, name := "Amux Desktop Client", sourceMeta := "", body := "x" }

end AmuxApi.DeviceAuth
