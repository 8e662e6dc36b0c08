import AmuxApi.Conc.System

/- Codes that are sent by email, and what they are for: a registration, an email for a user, a new
   password.

   The codes are in a map of the process, one for each purpose and email, for ten minutes. That an
   email is not taken is looked at when the code is sent, and again by a registration; binding an email
   relies on the code. A registration and a binding leave the code in the map, a new password takes it
   out at its end.

   Correspondence (Go ↔ Lean): the functions of `common/verification.go`,
   `controller/misc.go`, `controller/user.go` and `model/user.go` have the source's names.
   Each statement, and each operation on the map under its mutex, is one step; any statement may fail.
   Codes are random texts: here they are numbered in the order in which they are sent, and a text that
   was never sent is a number that is not in the map. Of a user there are the columns that these
   requests read and write; the id is the place in the table. Validation by tags is a parameter.

   Not in the code, and only there to say what has happened: for what each code was sent, the requests
   that have passed the check of their code and still run (`busy`), the codes that have authorised
   something (`authorised`), and `slips`. -/
namespace AmuxApi.EmailCode
open Conc

/-! The map of codes. -/

inductive Purpose
  | emailVerification | passwordReset
  deriving DecidableEq, Repr

structure Key where
  purpose : Purpose
  email : String
  deriving DecidableEq, Repr

structure VerificationValue where
  code : Nat
  time : Int
  deriving DecidableEq, Repr

abbrev Codes := List (Key × VerificationValue)

def verificationMapMaxSize : Nat := 10
def verificationValidMinutes : Int := 10

def VerificationValue.expired (v : VerificationValue) (now : Int) : Bool := now - v.time ≥ verificationValidMinutes * 60

namespace Codes

def find (codes : Codes) (key : Key) : Option VerificationValue := (codes.find? (·.1 = key)).map (·.2)

def deleteKey (codes : Codes) (key : Key) : Codes := codes.filter (·.1 ≠ key)

def removeExpiredPairs (codes : Codes) (now : Int) : Codes := codes.filter fun p => !p.2.expired now

def registerCode (codes : Codes) (key : Key) (code : Nat) (now : Int) : Codes :=
  let stored : Codes := (key, ⟨code, now⟩) :: codes.deleteKey key
  if stored.length > verificationMapMaxSize then stored.removeExpiredPairs now else stored

def verifyCode (codes : Codes) (key : Key) (code : Nat) (now : Int) : Bool :=
  (codes.find key).any fun v => !v.expired now && v.code = code

/-- There is a code for the key, and it is still valid. -/
def anyValid (codes : Codes) (key : Key) (now : Int) : Bool := codes.any fun p => p.1 = key && !p.2.expired now

end Codes

/-! Rows, and what is set. -/

structure User where
  username : String
  password : String
  email : String := ""
  deleted : Bool := false
  deriving DecidableEq, Repr

structure Settings where
  registerEnabled : Bool := true
  passwordRegisterEnabled : Bool := true
  emailVerificationEnabled : Bool := true
  emailDomainBlacklistEnabled : Bool := false
  emailDomainBlacklist : List String := []
  emailDomainRestrictionEnabled : Bool := false
  emailDomainWhitelist : List String := []
  emailAliasRestrictionEnabled : Bool := false
  /-- The validator's tag `email`, and the tags of a user. -/
  isEmail : String → Bool := fun _ => true
  isUser : User → Bool := fun _ => true

def requiredEmail (env : Settings) (email : String) : Bool := email ≠ "" && env.isEmail email

/-- The restrictions on the two parts of an address. -/
def partsAllowed (env : Settings) (localPart domainPart : List Char) : Bool :=
  !(env.emailDomainBlacklistEnabled && env.emailDomainBlacklist.any fun d => d ≠ "" && d.toList = domainPart) &&
    !(env.emailDomainRestrictionEnabled && !env.emailDomainWhitelist.any fun d => d.toList = domainPart) &&
    !(env.emailAliasRestrictionEnabled && (localPart.contains '+' || localPart.contains '.'))

def emailAllowed (env : Settings) (email : String) : Bool :=
  requiredEmail env email &&
    match email.toList.splitOn '@' with
    | [localPart, domainPart] => partsAllowed env localPart domainPart
    | _ => false

structure Mem (ι : Type) where
  users : List User
  codes : Codes
  now : Int
  sentFor : List Key := []
  busy : List (ι × Key) := []
  authorised : List Nat := []
  slips : Nat := 0

section
variable {ι : Type}

def Mem.start (users : List User) (now : Int) : Mem ι := { users, codes := [], now }

/-- A row, deleted or not, has the email. -/
def Mem.taken (m : Mem ι) (email : String) : Bool := m.users.any (·.email = email)

/-! Sending. -/

/-- An error is read as no row. -/
def isEmailAlreadyTaken (email : String) : Prog (Mem ι) Bool :=
  query (fun m => (m.users.filter (·.email = email)).length == 1) >>= fun answer => pure (answer.getD false)

def registerVerificationCodeWithKey (key : Key) : Prog (Mem ι) Unit :=
  modify fun m =>
    { m with codes := m.codes.registerCode key m.sentFor.length m.now, sentFor := m.sentFor ++ [key] }

section
variable (env : Settings)

def sendEmailVerification (email : String) : Prog (Mem ι) Bool :=
  if emailAllowed env email then
    isEmailAlreadyTaken email >>= fun taken =>
      if taken then pure false
      else registerVerificationCodeWithKey ⟨.emailVerification, email⟩ >>= fun _ => pure true
  else pure false

def sendPasswordResetEmail (email : String) : Prog (Mem ι) Bool :=
  if requiredEmail env email then
    isEmailAlreadyTaken email >>= fun taken =>
      if taken then registerVerificationCodeWithKey ⟨.passwordReset, email⟩ >>= fun _ => pure true else pure true
  else pure false

/-! Checking a code. -/

variable (i : ι)

def Mem.isBusy (m : Mem ι) (key : Key) : Bool := m.busy.any (·.2 = key)

/-- `careless`: something that should be looked at is not. -/
def verifyCodeWithKey (key : Key) (code : Nat) (careless : Mem ι → Bool) : Prog (Mem ι) Bool :=
  atomically
    (fun m =>
      if m.codes.verifyCode key code m.now then
        { m with
          busy := (i, key) :: m.busy
          slips := if m.isBusy key || careless m then m.slips + 1 else m.slips }
      else m)
    fun m => m.codes.verifyCode key code m.now

def finish [DecidableEq ι] (key : Key) (answer : Bool) : Prog (Mem ι) Bool :=
  atomically (fun m => { m with busy := m.busy.erase (i, key) }) fun _ => answer

/-- What a request does once its code was checked. -/
def withCode [DecidableEq ι] (key : Key) (code : Nat) (careless : Mem ι → Bool) (rest : Prog (Mem ι) Bool) :
    Prog (Mem ι) Bool :=
  verifyCodeWithKey i key code careless >>= fun valid => if valid then rest >>= finish i key else pure false

/-! Registering. -/

structure Registration where
  username : String
  password : String
  email : String
  code : Nat

def Registration.user (r : Registration) : User := { username := r.username, password := r.password, email := r.email }

def Mem.userExistOrDeleted (m : Mem ι) (username email : String) : Bool :=
  m.users.any fun u => u.username = username || (email ≠ "" && u.email = email)

def checkUserExistOrDeleted (username email : String) : Prog (Mem ι) (Option Bool) :=
  query (·.userExistOrDeleted username email)

def insertUser (r : Registration) : Prog (Mem ι) Bool :=
  statement fun m =>
    if env.emailVerificationEnabled then { m with users := m.users ++ [r.user], authorised := r.code :: m.authorised }
    else { m with users := m.users ++ [{ r.user with email := "" }] }

def registerUser (r : Registration) : Prog (Mem ι) Bool :=
  checkUserExistOrDeleted r.username r.email >>= fun exist =>
    if exist = some false then insertUser env r else pure false

def register [DecidableEq ι] (r : Registration) : Prog (Mem ι) Bool :=
  if env.registerEnabled && env.passwordRegisterEnabled && env.isUser r.user then
    if env.emailVerificationEnabled then
      if r.email = "" then pure false
      else withCode i ⟨.emailVerification, r.email⟩ r.code (fun _ => false) (registerUser env r)
    else registerUser env r
  else pure false

/-! Binding an email. -/

/-- gorm's `Updates` with a struct: the columns that are not empty. -/
def orOld (new old : String) : String := if new = "" then old else new

def User.write (snapshot : Option User) (email : String) (u : User) : User :=
  { u with
    username := orOld ((snapshot.map (·.username)).getD "") u.username
    password := orOld ((snapshot.map (·.password)).getD "") u.password
    email := orOld email u.email }

def Mem.existing (m : Mem ι) (userId : Nat) : Option User := m.users[userId]?.filter (!·.deleted)

/-- An error, or no row, leaves the user empty. -/
def fillUserById (userId : Nat) : Prog (Mem ι) (Option User) :=
  query (·.existing userId) >>= fun found => pure found.join

/-- The user gives up an email for which there is still a code, or a request that has shown one. -/
def Mem.givesUp (m : Mem ι) (old new : String) : Bool :=
  new ≠ "" && old ≠ new &&
    (m.codes.anyValid ⟨.emailVerification, old⟩ m.now || m.isBusy ⟨.emailVerification, old⟩)

def updateUser (userId : Nat) (snapshot : Option User) (email : String) (code : Nat) : Prog (Mem ι) Bool :=
  statement fun m =>
    if (m.existing userId).isSome then
      { m with
        users := m.users.modify userId (User.write snapshot email)
        authorised := code :: m.authorised
        slips := if (m.existing userId).any fun u => m.givesUp u.email email then m.slips + 1 else m.slips }
    else m

/-- Redis may fail, and then the request does, with the row already written. -/
def cacheUpdateUserProfileFields : Prog (Mem ι) Bool := statement id

def emailBind [DecidableEq ι] (userId : Nat) (email : String) (code : Nat) : Prog (Mem ι) Bool :=
  withCode i ⟨.emailVerification, email⟩ code (·.taken email)
    (fillUserById userId >>= fun snapshot => updateUser userId snapshot email code >>= fun ok =>
      if ok then cacheUpdateUserProfileFields else pure false)

/-! A new password. -/

def updatePassword (email password : String) (code : Nat) : Prog (Mem ι) Bool :=
  statement fun m =>
    { m with
      users := m.users.map fun u => if u.email = email && !u.deleted then { u with password } else u
      authorised := code :: m.authorised }

def deleteKey (key : Key) : Prog (Mem ι) Bool :=
  atomically (fun m => { m with codes := m.codes.deleteKey key }) fun _ => true

def resetPassword [DecidableEq ι] (email password : String) (code : Nat) : Prog (Mem ι) Bool :=
  if email = "" then pure false
  else withCode i ⟨.passwordReset, email⟩ code (fun _ => false)
    (updatePassword email password code >>= fun ok => if ok then deleteKey ⟨.passwordReset, email⟩ else pure false)

/-! Calls. -/

/-- `wait`: time passes. -/
inductive Call
  | sendEmailVerification (email : String)
  | sendPasswordResetEmail (email : String)
  | register (r : Registration)
  | emailBind (userId : Nat) (email : String) (code : Nat)
  | resetPassword (email password : String) (code : Nat)
  | wait (seconds : Nat)

def Call.prog [DecidableEq ι] : Call → Prog (Mem ι) Bool
  | .sendEmailVerification email => EmailCode.sendEmailVerification env email
  | .sendPasswordResetEmail email => EmailCode.sendPasswordResetEmail env email
  | .register r => EmailCode.register env i r
  | .emailBind userId email code => EmailCode.emailBind i userId email code
  | .resetPassword email password code => EmailCode.resetPassword i email password code
  | .wait seconds => atomically (fun m => { m with now := m.now + seconds }) fun _ => true

end

end

end AmuxApi.EmailCode
