import AmuxApi.Conc.System

/- How many requests of one user, and of one token, are served at the same time.

   Without Redis, the slots that are taken are counted in 32 maps, each with a lock of its own.
   A request takes a slot of the user and then one of the token, and gives the first back if
   there is none of the second. Every section under a lock is one step.

   Correspondence (Go ↔ Lean): the functions of `common/limiter/concurrency.go`,
   `service/concurrency_limit.go` and `middleware/token-concurrency.go` have the source's
   names.
   The handlers behind the middleware are one step, `next`. The counters of the administration
   page and the log of rejected requests are left out. -/
namespace AmuxApi.Limiter
open Conc

/-! The maps. -/

def concurrencyShardCount : Nat := 32

/-- FNV-1a with 32 bits. -/
def fnv32a (key : String) : UInt32 :=
  (key.toList.flatMap String.utf8EncodeChar).foldl (fun h b => (h ^^^ b.toUInt32) * 16777619) 2166136261

abbrev Shards := Fin 32 → String → Option Nat

def shardFor (key : String) : Fin 32 := Fin.ofNat 32 (fnv32a key).toNat

/-- `sh.inUse[key]`: 0 if there is no entry. -/
def Shards.inUse (m : Shards) (key : String) : Nat := (m (shardFor key) key).getD 0

def Shards.set (m : Shards) (key : String) (entry : Option Nat) : Shards :=
  Function.update m (shardFor key) (Function.update (m (shardFor key)) key entry)

def Shards.take (m : Shards) (key : String) : Shards := m.set key (some (m.inUse key + 1))

/-- The entry goes with the last slot. -/
def Shards.release (m : Shards) (key : String) : Shards :=
  m.set key (if m.inUse key ≤ 1 then none else some (m.inUse key - 1))

def acquireMemorySlot (key : String) (limit : Int) : Prog Shards Bool :=
  atomically (fun m => if limit ≤ m.inUse key then m else m.take key) fun m => !decide (limit ≤ m.inUse key)

def releaseMemorySlot (key : String) : Prog Shards Unit := modify (·.release key)

/-! The two levels. -/

inductive AcquireOutcome
  | ok | userExceeded | tokenExceeded
  deriving DecidableEq, Repr

/-- The second level of `AcquireMemoryConcurrencySlots`. -/
def acquireTokenSlot (userTaken : Bool) (userKey tokenKey : String) (tokenLimit : Int) : Prog Shards AcquireOutcome :=
  if tokenKey ≠ "" ∧ 0 < tokenLimit then do
    if ← acquireMemorySlot tokenKey tokenLimit then return .ok
    else do
      if userTaken then releaseMemorySlot userKey
      return .tokenExceeded
  else return .ok

def acquireMemoryConcurrencySlots (userKey : String) (userLimit : Int) (tokenKey : String) (tokenLimit : Int) :
    Prog Shards AcquireOutcome :=
  if userKey ≠ "" ∧ 0 < userLimit then do
    if ← acquireMemorySlot userKey userLimit then acquireTokenSlot true userKey tokenKey tokenLimit
    else return .userExceeded
  else acquireTokenSlot false userKey tokenKey tokenLimit

def releaseMemoryConcurrencySlots (userKey tokenKey : String) : Prog Shards Unit := do
  if userKey ≠ "" then releaseMemorySlot userKey
  if tokenKey ≠ "" then releaseMemorySlot tokenKey

/-! The middleware. -/

def userConcurrencyKey (userId : Int) : String := "concurrency:user:" ++ toString userId

def tokenConcurrencyKey (tokenId : Int) : String := "concurrency:token:" ++ toString tokenId

/-- What is asked for: at each level a key and a limit. The keys of users and of tokens differ. -/
structure Slots where
  userKey : String
  userLimit : Int
  tokenKey : String
  tokenLimit : Int
  apart : userKey ≠ "" → userKey ≠ tokenKey

/-- The limit of the account, as it is set for the user or else for all users. -/
def resolveUserMaxConcurrency (maxConcurrency : Option Int) (defaultUserMaxConcurrency : Int) : Int :=
  match maxConcurrency with
  | some limit => if limit < 0 then 0 else limit
  | none => if defaultUserMaxConcurrency < 0 then 0 else defaultUserMaxConcurrency

def clampTokenMaxConcurrency (tokenLimit userLimit : Int) : Int :=
  if tokenLimit < 0 then 0
  else if 0 < userLimit ∧ userLimit < tokenLimit then userLimit
  else tokenLimit

/-- What the middleware reads of a request and of the settings. -/
structure Request where
  userId : Int
  tokenId : Int
  tokenLimit : Int
  maxConcurrency : Option Int
  defaultUserMaxConcurrency : Int
  requestId : String

def Request.userLimit (req : Request) : Int :=
  resolveUserMaxConcurrency req.maxConcurrency req.defaultUserMaxConcurrency

def Request.clampedLimit (req : Request) : Int := clampTokenMaxConcurrency req.tokenLimit req.userLimit

def Request.userKey (req : Request) : String :=
  if 0 < req.userLimit ∧ 0 < req.userId then userConcurrencyKey req.userId else ""

def Request.tokenKey (req : Request) : String :=
  if 0 < req.clampedLimit ∧ 0 < req.tokenId then tokenConcurrencyKey req.tokenId else ""

theorem userConcurrencyKey_char (userId : Int) : (userConcurrencyKey userId).toList[12]? = some 'u' := by
  unfold userConcurrencyKey
  simp

theorem tokenConcurrencyKey_char (tokenId : Int) : (tokenConcurrencyKey tokenId).toList[12]? = some 't' := by
  unfold tokenConcurrencyKey
  simp

theorem userConcurrencyKey_ne (userId tokenId : Int) : userConcurrencyKey userId ≠ tokenConcurrencyKey tokenId := by
  intro h
  have hchar := userConcurrencyKey_char userId
  rw [h, tokenConcurrencyKey_char] at hchar
  cases hchar

theorem userConcurrencyKey_ne_empty (userId : Int) : userConcurrencyKey userId ≠ "" := by
  intro h
  have hchar := userConcurrencyKey_char userId
  rw [h] at hchar
  cases hchar

theorem Request.keys_apart (req : Request) (h : req.userKey ≠ "") : req.userKey ≠ req.tokenKey := by
  unfold Request.userKey at h ⊢
  split at h
  · rw [if_pos ‹_›]
    unfold Request.tokenKey
    split
    · exact userConcurrencyKey_ne _ _
    · exact userConcurrencyKey_ne_empty _
  · exact absurd rfl h

def Request.slots (req : Request) : Slots where
  userKey := req.userKey
  userLimit := req.userLimit
  tokenKey := req.tokenKey
  tokenLimit := req.clampedLimit
  apart := req.keys_apart

inductive Reply
  | passed
  | tooManyRequests (code message : String)
  deriving DecidableEq, Repr

def messageWithRequestId (message id : String) : String := message ++ " (request id: " ++ id ++ ")"

def abortWithConcurrencyExceeded (req : Request) (outcome : AcquireOutcome) : Reply :=
  if outcome = .userExceeded then
    .tooManyRequests "user_concurrency_exceeded"
      (messageWithRequestId ("当前账户并发数已达上限 " ++ toString req.userLimit ++ "，请降低并发或稍后重试") req.requestId)
  else
    .tooManyRequests "token_concurrency_exceeded"
      (messageWithRequestId ("当前令牌并发数已达上限 " ++ toString req.clampedLimit ++ "，请降低并发或稍后重试") req.requestId)

/-- The handlers that come after the middleware. -/
def next : Prog Shards Unit := get fun _ => ()

def afterAcquire (req : Request) : AcquireOutcome → Prog Shards Reply
  | .ok => do
    next
    releaseMemoryConcurrencySlots req.userKey req.tokenKey
    return .passed
  | outcome => return abortWithConcurrencyExceeded req outcome

def tokenConcurrencyLimit (req : Request) : Prog Shards Reply :=
  if req.tokenLimit ≤ 0 ∧ req.userLimit ≤ 0 then do
    next
    return .passed
  else if req.userKey = "" ∧ req.tokenKey = "" then do
    next
    return .passed
  else do
    afterAcquire req (← acquireMemoryConcurrencySlots req.userKey req.userLimit req.tokenKey req.clampedLimit)

end AmuxApi.Limiter
