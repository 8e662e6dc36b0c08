import AmuxApi.Account.User
import AmuxApi.Go.Library

/- Access tokens of users: how they are issued, checked and taken back.

   A token is a row of `user_access_tokens` that holds the hash of its text. Older tokens stand as
   they are in the column `access_token` of `users`; at start-up they are copied into the table,
   and a text without one of the two prefixes is still looked up in the column.

   Correspondence (Go ↔ Lean): the functions of `model/user_access_token.go`,
   `model/user.go` and `controller/access_token.go` have the source's names, those of the
   controller less `User`.
   The tables are lists in the order of their ids, and the id of a token is its place: rows are
   never deleted from that table. The hash is any function; the random part of a token is given
   with the request. Texts are ASCII. Failures of the database are left out, and so are passwords
   and the texts of refusals. -/
namespace AmuxApi.Identity
open Account

/-! Rows. -/

inductive TokenStatus
  | active | revoked | expired
  deriving DecidableEq, Repr

inductive TokenSource
  | manual | deviceFlow | legacy | admin
  deriving DecidableEq, Repr

structure UserAccessToken where
  userId : Int
  name : String
  description : String := ""
  tokenPrefix : String := ""
  tokenHash : String := ""
  source : TokenSource := .manual
  sourceMeta : String := ""
  scopes : String := "full"
  status : TokenStatus := .active
  expiresAt : Option Int := none
  lastUsedAt : Option Int := none
  lastUsedIP : String := ""
  createdAt : Int := 0
  revokedAt : Option Int := none
  revokeReason : String := ""
  deriving DecidableEq, Repr

structure Tables where
  users : List User
  tokens : List UserAccessToken
  deriving DecidableEq, Repr

def userAccessTokenPrefixPAT : String := "amux_api_pat_"
def userAccessTokenPrefixOAT : String := "amux_api_oat_"
def userAccessTokenPrefixStoreLen : Nat := 16
def userAccessTokenMinValidLen : Nat := userAccessTokenPrefixStoreLen + 10
def userAccessTokenIdleExpireSeconds : Int := 90 * 24 * 3600
def userAccessTokenLastUsedThrottleSec : Int := 60
def userAccessTokenMaxPerUser : Nat := 1000
def userAccessTokenDefaultExpireDays : Int := 90

def userAccessTokenRevokeUser : String := "user"
def userAccessTokenRevokeRotate : String := "rotate"
def userAccessTokenRevokeIdleExpired : String := "idle-expired"
def userAccessTokenRevokeAdmin : String := "admin"
def userAccessTokenRevokePasswordReset : String := "password-reset"

/-- The status is active, and the time has not run out. -/
def UserAccessToken.isActive (t : UserAccessToken) (now : Int) : Bool :=
  t.status = .active && !(t.expiresAt.any fun e => decide (e > 0 ∧ e ≤ now))

def hasPrefix (s start : String) : Bool := (Go.after start s).isSome

def trimPrefix (s start : String) : String := (Go.after start s).getD s

def storedPrefixOf (plaintext : String) : String := String.ofList (plaintext.toList.take userAccessTokenPrefixStoreLen)

/-! Checking. -/

section
variable (hash : String → String)

/-- The user of a token, and its row if it has one. -/
structure Accepted where
  user : User
  token : Option Nat
  deriving DecidableEq, Repr

def bearer (token : String) : String := Go.trimSpace (trimPrefix token "Bearer ")

/-- The last of the rows with this prefix and this hash that are active. -/
def matching (tokens : List UserAccessToken) (now : Int) (plaintext : String) : Option (UserAccessToken × Nat) :=
  let candidates := tokens.zipIdx.filter fun c => c.1.tokenPrefix = storedPrefixOf plaintext ∧ c.1.status = .active
  (candidates.filter fun c => c.1.tokenHash = hash plaintext ∧ c.1.isActive now).getLast?

def firstUser (users : List User) (p : User → Bool) : Option User := users.find? fun u => !u.deleted && p u

def validateUserAccessToken (s : Tables) (now : Int) (plaintext : String) : Option Accepted :=
  if plaintext = "" then none
  else
    let text := bearer plaintext
    if !hasPrefix text userAccessTokenPrefixPAT && !hasPrefix text userAccessTokenPrefixOAT then none
    else if text.length < userAccessTokenMinValidLen then none
    else do
      let (row, id) ← matching hash s.tokens now text
      let user ← firstUser s.users (·.id = row.userId)
      return ⟨user, some id⟩

def validateAccessTokenWithIP (s : Tables) (now : Int) (token : String) : Option Accepted :=
  if token = "" then none
  else
    let text := bearer token
    if hasPrefix text userAccessTokenPrefixPAT || hasPrefix text userAccessTokenPrefixOAT then
      validateUserAccessToken hash s now text
    else do
      let user ← firstUser s.users (·.accessToken = some text)
      return ⟨user, none⟩

end

def touch (now : Int) (ip : String) (t : UserAccessToken) : UserAccessToken :=
  if t.lastUsedAt.any fun prev => decide (now - prev < userAccessTokenLastUsedThrottleSec) then t
  else { t with lastUsedAt := some now, lastUsedIP := if ip = "" then t.lastUsedIP else ip }

def touchLastUsed (now : Int) (ip : String) (id : Nat) (s : Tables) : Tables :=
  { s with tokens := s.tokens.modify id (touch now ip) }

/-! Issuing. -/

section
variable (hash : String → String)

def countActiveUserAccessTokens (s : Tables) (userId : Int) : Nat :=
  (s.tokens.filter fun t => t.userId = userId ∧ t.status = .active).length

/-- `CreateUserAccessToken` of `model`: the text of the token is the prefix and the random part. -/
def insertAccessToken (now : Int) (t : UserAccessToken) (start body : String) (s : Tables) : Tables :=
  let plaintext := start ++ body
  { s with tokens := s.tokens ++ [{ t with
      tokenPrefix := storedPrefixOf plaintext
      tokenHash := hash plaintext
      status := .active
      createdAt := now }] }

def computeExpiresAt (now : Int) (days : Option Int) : Option Int :=
  let days := days.getD userAccessTokenDefaultExpireDays
  if days ≤ 0 then none else some (now + days * 86400)

def createAccessToken (now userId : Int) (name description : String) (expiresInDays : Option Int) (body : String)
    (s : Tables) : Tables :=
  let name := Go.trimSpace name
  if name = "" ∨ name.length > 64 then s
  else if countActiveUserAccessTokens s userId ≥ userAccessTokenMaxPerUser then s
  else insertAccessToken hash now
    { userId, name
      description := String.ofList (description.toList.take 255)
      source := .manual
      expiresAt := computeExpiresAt now expiresInDays } userAccessTokenPrefixPAT body s

/-- The token that `OAuthDeviceConfirm` issues. -/
def createDeviceToken (now userId : Int) (name sourceMeta body : String) (s : Tables) : Tables :=
  insertAccessToken hash now { userId, name, source := .deviceFlow, sourceMeta } userAccessTokenPrefixOAT body s

def legacyToken (now userId : Int) (plaintext : String) : UserAccessToken :=
  { userId, name := "Imported", tokenPrefix := storedPrefixOf plaintext, tokenHash := hash plaintext
    source := .legacy, createdAt := now }

/-- One turn of the loop over the users. -/
def migrateUser (now : Int) (tokens : List UserAccessToken) (u : User) : List UserAccessToken :=
  if u.deleted then tokens
  else match u.accessToken with
    | none => tokens
    | some plaintext =>
      if plaintext = "" then tokens
      else if tokens.any fun t => t.userId = u.id ∧ t.source = .legacy ∧ t.tokenHash = hash plaintext then tokens
      else tokens ++ [legacyToken hash now u.id plaintext]

/-- The pages of users are in the order of their ids: together they are one loop. -/
def migrateLegacyAccessTokens (now : Int) (s : Tables) : Tables :=
  { s with tokens := s.users.foldl (migrateUser hash now) s.tokens }

end

/-! Taking back. -/

def UserAccessToken.retire (status : TokenStatus) (now : Int) (reason : String) (t : UserAccessToken) :
    UserAccessToken :=
  { t with status, revokedAt := some now, revokeReason := reason }

/-- `UPDATE .. SET status, revoked_at, revoke_reason WHERE ..`. -/
def retireWhere (p : UserAccessToken → Bool) (status : TokenStatus) (now : Int) (reason : String)
    (s : Tables) : Tables :=
  { s with tokens := s.tokens.map fun t => if p t then t.retire status now reason else t }

def revokeUserAccessToken (now : Int) (id : Nat) (reason : String) (s : Tables) : Tables :=
  { s with tokens := s.tokens.modify id fun t =>
      if t.status = .active ∨ t.status = .expired then t.retire .revoked now reason else t }

def revokeAllUserAccessTokens (now userId : Int) (reason : String) (sourceFilter : Option TokenSource) (s : Tables) :
    Tables :=
  retireWhere (fun t => t.userId = userId && t.status = .active && sourceFilter.all (t.source = ·)) .revoked
    now reason s

/-- `UPDATE users SET access_token = ? WHERE id = ?`. -/
def setColumn (userId : Int) (text : Option String) (s : Tables) : Tables :=
  { s with users := s.users.map fun u =>
      if u.id = userId ∧ u.deleted = false then { u with accessToken := text } else u }

def revokePasswordResetTokens (now userId : Int) (s : Tables) : Tables :=
  if userId ≤ 0 then s
  else setColumn userId none (revokeAllUserAccessTokens now userId userAccessTokenRevokePasswordReset none s)

def resetUserPasswordByEmail (now : Int) (email : String) (s : Tables) : Tables :=
  if email = "" then s
  else match firstUser s.users (·.email = email) with
    | some u => if u.id > 0 then revokePasswordResetTokens now u.id s else s
    | none => s

def mustOwnAccessToken (userId : Int) (id : Nat) (s : Tables) : Option UserAccessToken :=
  s.tokens[id]?.filter (·.userId = userId)

def deleteAccessToken (now userId : Int) (id : Nat) (s : Tables) : Tables :=
  match mustOwnAccessToken userId id s with
  | some _ => revokeUserAccessToken now id userAccessTokenRevokeUser s
  | none => s

def adminRevokeAccessToken (now : Int) (id : Nat) (reason : String) (s : Tables) : Tables :=
  let reason := Go.trimSpace reason
  revokeUserAccessToken now id (if reason = "" then userAccessTokenRevokeAdmin else reason) s

section
variable (hash : String → String)

/-- The old token is revoked and its successor is inserted, in one transaction. -/
def rotateUserAccessToken (now : Int) (id : Nat) (body : String) (s : Tables) : Tables :=
  match s.tokens[id]? with
  | none => s
  | some old =>
    if old.status ≠ .active then s
    else
      let start := if hasPrefix old.tokenPrefix userAccessTokenPrefixOAT then userAccessTokenPrefixOAT
        else userAccessTokenPrefixPAT
      let revoked := { s with tokens := s.tokens.modify id fun t =>
        if t.status = .active then t.retire .revoked now userAccessTokenRevokeRotate else t }
      insertAccessToken hash now
        { userId := old.userId, name := old.name, description := old.description, source := old.source
          sourceMeta := old.sourceMeta, scopes := old.scopes, expiresAt := old.expiresAt } start body revoked

def rotateAccessToken (now userId : Int) (id : Nat) (body : String) (s : Tables) : Tables :=
  match mustOwnAccessToken userId id s with
  | some t => if t.status = .active then rotateUserAccessToken hash now id body s else s
  | none => s

def generateAccessTokenLegacy (now userId : Int) (plaintext : String) (s : Tables) : Tables :=
  let s := revokeAllUserAccessTokens now userId userAccessTokenRevokeRotate (some .legacy) s
  setColumn userId (some plaintext) { s with tokens := s.tokens ++ [legacyToken hash now userId plaintext] }

end

def hardExpired (now : Int) (t : UserAccessToken) : Bool :=
  t.status = .active && t.expiresAt.any fun e => decide (e > 0 ∧ e ≤ now)

def idleUsed (now : Int) (t : UserAccessToken) : Bool :=
  t.status = .active && t.lastUsedAt.any fun at_ => decide (at_ < now - userAccessTokenIdleExpireSeconds)

def idleUnused (now : Int) (t : UserAccessToken) : Bool :=
  t.status = .active && t.lastUsedAt.isNone && decide (t.createdAt < now - userAccessTokenIdleExpireSeconds)

def cleanupExpiredUserAccessTokens (now : Int) (s : Tables) : Tables :=
  let expire := fun p => retireWhere p .expired now userAccessTokenRevokeIdleExpired
  expire (idleUnused now) (expire (idleUsed now) (expire (hardExpired now) s))

end AmuxApi.Identity
