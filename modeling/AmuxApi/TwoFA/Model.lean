import AmuxApi.Conc.Table
import AmuxApi.Go.Library

/- Two-factor authentication of one user: attempts to verify a code, and sets of backup codes.

   An attempt reads the row of the user once, and works on this copy: it looks at the lock, compares
   the code, counts a failure, and saves the copy as a whole row. Backup codes are rows of their own;
   a new set is made in a transaction that deletes the codes that are there and inserts new ones.

   Correspondence (Go ↔ Lean): the functions of `model/twofa.go` and `common/totp.go` have
   the source's names, except
     `ValidateBackupCode` (`common/totp.go`) ↔ `backupCodeFormat`
     `Verify2FALogin`, `Disable2FA`, `RegenerateBackupCodes` (`controller/twofa.go`),
       `validateTwoFactorAuth` (`controller/channel.go`) ↔ `Kind`, `attempt`
     gorm's `Save` of a backup code (UPDATE, then an upsert if no row was met) ↔ `saveCode`
   The rows are those of one user. Each statement and each look at the clock is one step. A deleted
   code is one that no SELECT finds: the hard deletion by `Delete` is not told apart. Any statement
   may fail.

   Not in the code, and only there to say what has happened: `running` (attempts that have begun and
   not ended), `tries` (wrong codes compared since the account was last locked or an attempt succeeded),
   `late` (codes compared while it was locked), `unsaved` (saves of the row of the user that have
   failed), the sets that are being made (`making`) and those that were committed (`commits`, newest
   first), the codes that were accepted, and `slips` (a code marked as used that was used already, a
   set begun while another is being made). -/
namespace AmuxApi.TwoFA
open Conc

/-! Codes. -/

def maxFailAttempts : Nat := 5
def lockoutDuration : Int := 300
def backupCodeLength : Nat := 8

def without (c : Char) (code : String) : String := String.ofList (code.toList.filter (· ≠ c))

def validateNumericCode (code : String) : Option String :=
  let clean := without ' ' code
  if clean.length ≠ 6 then none
  else (Go.atoi clean).map fun _ => clean

/-- `unicode.ToUpper`, for the letters that it makes one of ASCII: the dotless i and the long s are among them. -/
def toUpper (c : Char) : Char := if c = 'ı' then 'I' else if c = 'ſ' then 'S' else c.toUpper

def cleanBackupCode (code : String) : String := String.ofList ((without '-' code).toList.map toUpper)

/-- The length is in bytes, as many as there are characters in what is accepted. -/
def backupCodeFormat (code : String) : Bool :=
  (cleanBackupCode code).utf8ByteSize = backupCodeLength &&
    (cleanBackupCode code).toList.all fun c => ('A' ≤ c && c ≤ 'Z') || ('0' ≤ c && c ≤ '9')

def normalizeBackupCode (code : String) : String :=
  let clean := cleanBackupCode code
  if clean.utf8ByteSize = backupCodeLength then
    String.ofList (clean.toList.take 4) ++ "-" ++ String.ofList (clean.toList.drop 4)
  else code

/-- What is taken from libraries: whether a code is the TOTP of a secret at a time, whether a text has
a bcrypt hash, and such a hash. -/
structure Checks where
  totp : String → String → Int → Bool
  verify : String → String → Bool
  hash : String → String

/-! Rows. -/

structure Row where
  secret : String
  isEnabled : Bool
  failedAttempts : Nat := 0
  lockedUntil : Option Int := none
  lastUsedAt : Option Int := none
  deriving DecidableEq, Repr

/-- `maker` is the call that has made the set of the code; none, for those that were there. -/
structure BackupCode (ι : Type) where
  codeHash : String
  isUsed : Bool := false
  usedAt : Option Int := none
  deleted : Bool := false
  maker : Option ι := none
  deriving DecidableEq, Repr

/-- A code that was accepted: its row, who made its set, and the sets that were committed when the
attempt began. -/
structure Acceptance (ι : Type) where
  row : Nat
  maker : Option ι
  start : List (Option ι)

structure Mem (ι : Type) where
  row : Option Row
  codes : Table ι (BackupCode ι)
  now : Int
  running : List ι := []
  tries : Nat := 0
  late : Nat := 0
  unsaved : Nat := 0
  making : List ι := []
  commits : List (Option ι) := [none]
  accepted : List (Acceptance ι) := []
  slips : Nat := 0

def Row.isLocked (t : Row) (now : Int) : Bool := t.lockedUntil.any (now < ·)

section
variable {ι : Type}

/-- Before any call: the codes that are there are of no set that a call has made. -/
def Mem.start (row : Option Row) (codes : List (BackupCode ι)) (now : Int) : Mem ι where
  row := row
  codes := Table.stored (codes.map fun code => { code with maker := none })
  now := now

def Mem.locked (m : Mem ι) : Bool := m.row.any (·.isLocked m.now)

def Mem.compared (m : Mem ι) (right : Bool) : Mem ι :=
  { m with
    tries := if right then m.tries else m.tries + 1
    late := if m.locked then m.late + 1 else m.late }

/-! Steps. -/

def clock : Prog (Mem ι) Int := get (·.now)

def compareCode (right : Mem ι → Bool) : Prog (Mem ι) Bool := atomically (fun m => m.compared (right m)) right

/-- `DB.Save`: the whole row, as it is in the copy. `locks`: the copy has a new lock. An error is
only logged. -/
def update (t : Row) (locks : Bool) : Prog (Mem ι) Unit :=
  .act (fun _ => true)
    (fun ok m =>
      if ok then { m with row := some t, tries := if locks then 0 else m.tries }
      else { m with unsaved := m.unsaved + 1 })
    fun _ _ => .ret ()

def incrementFailedAttempts (t : Row) : Prog (Mem ι) Row :=
  let t := { t with failedAttempts := t.failedAttempts + 1 }
  if t.failedAttempts ≥ maxFailAttempts then
    clock >>= fun now =>
      update { t with lockedUntil := some (now + lockoutDuration) } true >>= fun _ =>
        pure { t with lockedUntil := some (now + lockoutDuration) }
  else update t false >>= fun _ => pure t

/-- The attempt succeeds, at this time. -/
def succeed : Prog (Mem ι) Int := atomically (fun m => { m with tries := 0 }) (·.now)

def resetAfterSuccess (t : Row) : Prog (Mem ι) Row :=
  succeed >>= fun now =>
    update { t with failedAttempts := 0, lockedUntil := none, lastUsedAt := some now } false >>= fun _ =>
      pure { t with failedAttempts := 0, lockedUntil := none, lastUsedAt := some now }

/-- What follows a comparison: the copy, and whether the code was right. -/
def countResult (t : Row) (right : Bool) : Prog (Mem ι) (Row × Option Bool) :=
  if right then resetAfterSuccess t >>= fun t => pure (t, some true)
  else incrementFailedAttempts t >>= fun t => pure (t, some false)

/-- An error is not counted. -/
def countAnswer (t : Row) : Option Bool → Prog (Mem ι) (Row × Option Bool)
  | none => pure (t, none)
  | some right => countResult t right

variable (env : Checks)

/-- The answer is none if the account is locked. -/
def validateTOTPAndUpdateUsage (t : Row) (code : String) : Prog (Mem ι) (Row × Option Bool) :=
  clock >>= fun now =>
    if t.isLocked now then pure (t, none)
    else compareCode (fun m => env.totp t.secret code m.now) >>= countResult t

section
variable [DecidableEq ι] (i : ι)

def Mem.unused (m : Mem ι) : List (Nat × BackupCode ι) :=
  (List.range m.codes.length).filterMap fun k =>
    (m.codes.committed k).bind fun x => if x.isUsed = false ∧ x.deleted = false then some (k, x) else none

/-- The columns of the copy are written over the row. -/
def BackupCode.use (code : BackupCode ι) (now : Int) (x : BackupCode ι) : BackupCode ι :=
  { x with codeHash := code.codeHash, isUsed := true, usedAt := some now, deleted := false }

def Mem.mark (m : Mem ι) (p : Nat → BackupCode ι → Bool) (code : BackupCode ι) (now : Int) (e : Acceptance ι) : Mem ι :=
  { m with
    codes := m.codes.autocommit i p (code.use now)
    accepted := e :: m.accepted
    slips := if (m.codes.committed e.row).any (·.isUsed) then m.slips + 1 else m.slips }

def whereRow (k k' : Nat) (_ : BackupCode ι) : Bool := k' = k

def whereLiveRow (k k' : Nat) (x : BackupCode ι) : Bool := k' = k && !x.deleted

/-- `INSERT .. ON CONFLICT DO UPDATE`. -/
def upsertCode (code : BackupCode ι) (now : Int) (e : Acceptance ι) : Prog (Mem ι) Bool :=
  .act (fun m => m.codes.free i (whereRow e.row))
    (fun ok m => if ok then m.mark i (whereRow e.row) code now e else m)
    fun ok _ => .ret ok

def saveCode (code : BackupCode ι) (now : Int) (e : Acceptance ι) : Prog (Mem ι) Bool :=
  .act (fun m => m.codes.free i (whereLiveRow e.row))
    (fun ok m =>
      if ok = true ∧ m.codes.hits i (whereLiveRow e.row) ≠ [] then m.mark i (whereLiveRow e.row) code now e else m)
    fun ok m =>
      if ok then if m.codes.hits i (whereLiveRow e.row) = [] then upsertCode i code now e else .ret true
      else .ret false

/-- The first code that matches is used. -/
def useCode (start : List (Option ι)) : Option (Nat × BackupCode ι) → Prog (Mem ι) (Option Bool)
  | none => pure (some false)
  | some (k, code) =>
    clock >>= fun now =>
      saveCode i code now ⟨k, code.maker, start⟩ >>= fun ok => pure (if ok then some true else none)

def compareCodes (start : List (Option ι)) (found : Option (Nat × BackupCode ι)) : Prog (Mem ι) (Option Bool) :=
  compareCode (fun _ => found.isSome) >>= fun _ => useCode i start found

def searchCodes (start : List (Option ι)) (code : String) :
    Option (List (Nat × BackupCode ι)) → Prog (Mem ι) (Option Bool)
  | none => pure none
  | some candidates =>
    compareCodes i start (candidates.find? fun c => env.verify (normalizeBackupCode code) c.2.codeHash)

/-- The answer is none on an error. -/
def validateBackupCode (start : List (Option ι)) (code : String) : Prog (Mem ι) (Option Bool) :=
  if backupCodeFormat code then query Mem.unused >>= searchCodes env i start code else pure none

def validateBackupCodeAndUpdateUsage (start : List (Option ι)) (t : Row) (code : String) :
    Prog (Mem ι) (Row × Option Bool) :=
  clock >>= fun now =>
    if t.isLocked now then pure (t, none)
    else validateBackupCode env i start code >>= countAnswer t

/-! Sets of backup codes. -/

def whereLive (_ : Nat) (x : BackupCode ι) : Bool := !x.deleted

def whereAny (_ : Nat) (_ : BackupCode ι) : Bool := true

def BackupCode.delete (x : BackupCode ι) : BackupCode ι := { x with deleted := true }

def Mem.undo (m : Mem ι) : Mem ι := { m with codes := m.codes.drop i, making := m.making.erase i }

def rollback : Prog (Mem ι) Bool := atomically (Mem.undo i) fun _ => false

/-- The first statement of the transaction. -/
def deleteOld : Prog (Mem ι) Bool :=
  .act (fun m => m.codes.free i whereLive)
    (fun ok m =>
      if ok then
        { m with
          codes := m.codes.updateWhere i whereLive BackupCode.delete
          making := i :: m.making
          slips := if m.making = [] then m.slips else m.slips + 1 }
      else m)
    fun ok _ => .ret ok

def insertCode (codeHash : String) : Prog (Mem ι) Bool :=
  statement fun m => { m with codes := m.codes.insert i { codeHash, maker := some i } }

def commitSet : Prog (Mem ι) Bool :=
  .act (fun _ => true)
    (fun ok m =>
      if ok then { m with codes := m.codes.publish i, making := m.making.erase i, commits := some i :: m.commits }
      else m.undo i)
    fun ok _ => .ret ok

def insertCodes : List String → Prog (Mem ι) Bool
  | [] => commitSet i
  | code :: codes =>
    insertCode i (env.hash (normalizeBackupCode code)) >>= fun ok => if ok then insertCodes codes else rollback i

def createBackupCodes (codes : List String) : Prog (Mem ι) Bool :=
  deleteOld i >>= fun ok => if ok then insertCodes env i codes else rollback i

def deleteCodes : Prog (Mem ι) Bool :=
  .act (fun m => m.codes.free i whereAny)
    (fun ok m => if ok then { m with codes := m.codes.updateWhere i whereAny BackupCode.delete } else m)
    fun ok _ => .ret ok

def commitDelete : Prog (Mem ι) Bool :=
  .act (fun _ => true)
    (fun ok m =>
      if ok then { m with codes := m.codes.publish i, row := none } else m.undo i)
    fun ok _ => .ret ok

def disableTwoFA : Prog (Mem ι) Bool :=
  get (·.row.isSome) >>= fun found =>
    if found then deleteCodes i >>= fun ok => if ok then commitDelete i else rollback i
    else pure false

/-! Attempts. -/

/-- Where a code is asked for: on login, to switch two-factor authentication off, to make new backup
codes, and for a step-up verification. -/
inductive Kind
  | login | disable | regenerate (codes : List String) | stepUp

/-- First as a TOTP, if it looks like one, then as a backup code. -/
def verifyEither (start : List (Option ι)) (t : Row) (code : String) : Prog (Mem ι) Bool :=
  match validateNumericCode code with
  | some clean =>
    validateTOTPAndUpdateUsage env t clean >>= fun r =>
      if r.2 = some true then pure true
      else validateBackupCodeAndUpdateUsage env i start r.1 code >>= fun r => pure (r.2 = some true)
  | none => validateBackupCodeAndUpdateUsage env i start t code >>= fun r => pure (r.2 = some true)

def verifyTOTP (t : Row) (code : String) : Prog (Mem ι) Bool :=
  match validateNumericCode code with
  | some clean => validateTOTPAndUpdateUsage env t clean >>= fun r => pure (r.2 = some true)
  | none => pure false

def Kind.verify (start : List (Option ι)) (t : Row) (code : String) : Kind → Prog (Mem ι) Bool
  | .regenerate _ => verifyTOTP env t code
  | _ => verifyEither env i start t code

/-- What a right code is asked for. -/
def Kind.afterwards : Kind → Prog (Mem ι) Bool
  | .disable => disableTwoFA i
  | .regenerate codes => createBackupCodes env i codes
  | _ => pure true

def begin : Prog (Mem ι) (Option Row × List (Option ι)) :=
  .act (fun _ => true) (fun _ m => { m with running := i :: m.running })
    fun ok m => .ret (if ok then m.row else none, m.commits)

def finish (answer : Bool) : Prog (Mem ι) Bool :=
  atomically (fun m => { m with running := m.running.erase i }) fun _ => answer

/-- What an attempt does with the row that it has read. -/
def Kind.go (kind : Kind) (code : String) (start : List (Option ι)) : Option Row → Prog (Mem ι) Bool
  | none => pure false
  | some t =>
    if t.isEnabled = false then pure false
    else kind.verify env i start t code >>= fun right => if right then kind.afterwards env i else pure false

def attempt (kind : Kind) (code : String) : Prog (Mem ι) Bool :=
  begin i >>= fun found => kind.go env i code found.2 found.1 >>= finish i

/-- `wait`: time passes. -/
inductive Call
  | attempt (kind : Kind) (code : String)
  | createBackupCodes (codes : List String)
  | wait (seconds : Nat)

def Call.prog : Call → Prog (Mem ι) Bool
  | .attempt kind code => TwoFA.attempt env i kind code
  | .createBackupCodes codes => TwoFA.createBackupCodes env i codes
  | .wait seconds => atomically (fun m => { m with now := m.now + seconds }) fun _ => true

end

end

end AmuxApi.TwoFA
