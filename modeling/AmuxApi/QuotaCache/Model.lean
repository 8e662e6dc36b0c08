import AmuxApi.Conc.System

/- The quota of a user in the database and in Redis.

   The quota is changed in the database by an UPDATE, and in the entry of the user in Redis by a task in
   the background. A read that finds no entry reads the row, and leaves it to another such task to write
   the entry, unless there is one by then.

   Correspondence (Go ↔ Lean): the functions of `model/user.go` and `model/user_cache.go`
   have the source's names; those of `common/redis.go` are the steps of the tasks.
   The row and the entry are those of one user, who exists; Redis is enabled, and batch updating is not.
   Each SQL statement, each Redis command and each MULTI is one step, and may fail. Of an entry there is
   the field `Quota` and its time to live, which Redis keeps in milliseconds and TTL rounds to seconds.

   Not in the code, and only there to say what has happened: the changes of which one half is done, the
   UPDATE or the task, with what the entry is ahead of the row because of them (`half`); and `slips`. -/
namespace AmuxApi.QuotaCache
open Conc

/-! The entry in Redis. -/

/-- `ttl`: what is left of its time, in milliseconds; `none` if it has no end. -/
structure Entry where
  quota : Int
  ttl : Option Nat
  deriving DecidableEq, Repr

/-- The answer of `TTL`, in seconds. -/
def ttlOf : Option Entry → Int
  | none => -2
  | some ⟨_, none⟩ => -1
  | some ⟨_, some ms⟩ => ((ms + 500) / 1000 : Nat)

/-- `HINCRBY`, which makes the hash if there is none, and `EXPIRE`. -/
def hIncrBy (delta ttl : Int) (entry : Option Entry) : Entry :=
  ⟨(entry.map (·.quota)).getD 0 + delta, some (ttl.toNat * 1000)⟩

/-- `HSET`, and `EXPIRE` if the entries have an end. -/
def hSetObj (cacheSeconds quota : Int) (entry : Option Entry) : Entry :=
  ⟨quota, if cacheSeconds > 0 then some (cacheSeconds.toNat * 1000) else entry.bind (·.ttl)⟩

/-- Time passes, and an entry may come to its end. -/
def Entry.later (ms : Nat) (entry : Entry) : Option Entry :=
  match entry.ttl with
  | none => some entry
  | some left => if left ≤ ms then none else some { entry with ttl := some (left - ms) }

/-! The state. -/

inductive Task
  | add (delta : Int)
  | refill (quota : Int)
  deriving DecidableEq, Repr

structure Mem (ι : Type) where
  quota : Int
  entry : Option Entry
  tasks : ι → Option Task := fun _ => none
  half : List (ι × Int) := []
  slips : Nat := 0

inductive Thread (ι : Type)
  | call (i : ι)
  | task (i : ι)
  deriving DecidableEq

inductive Answer
  | ok | failed
  | quota (quota : Int)
  deriving DecidableEq, Repr

section
variable {ι : Type} [DecidableEq ι] (i : ι)

def Mem.slip (m : Mem ι) : Mem ι := { m with slips := m.slips + 1 }

/-- One half of the change is done. The other half, if it is not done yet, leaves the entry ahead of the
row by `ahead`. -/
def Mem.toggle (ahead : Int) (m : Mem ι) : Mem ι :=
  { m with
    half := if m.half.any (·.1 = i) then m.half.filter (·.1 ≠ i) else (i, ahead) :: m.half }

/-- A command that should not fail. -/
def attempt (f : Mem ι → Mem ι) : Prog (Mem ι) Bool :=
  .act (fun _ => true) (fun ok m => if ok then f m else m.slip) fun ok _ => .ret ok

def spawn (task : Task) : Prog (Mem ι) Unit := modify fun m => { m with tasks := Function.update m.tasks i (some task) }

/-! Changing the quota. -/

/-- `UPDATE users SET quota = quota + ?`. -/
def updateQuota (delta : Int) : Prog (Mem ι) Bool :=
  attempt fun m => { m with quota := m.quota + delta }.toggle i (-delta)

def changeQuota (delta : Int) : Prog (Mem ι) Answer :=
  spawn i (.add delta) >>= fun _ => updateQuota i delta >>= fun ok => pure (if ok then .ok else .failed)

def increaseUserQuota (quota : Int) : Prog (Mem ι) Answer :=
  if quota < 0 then pure .failed else changeQuota i quota

def decreaseUserQuota (quota : Int) : Prog (Mem ι) Answer :=
  if quota < 0 then pure .failed else changeQuota i (-quota)

/-- `TTL`. With no time left there is nothing to add to, and the task is over. -/
def readTtl (delta : Int) : Prog (Mem ι) (Option Int) :=
  .act (fun _ => true)
    (fun ok m =>
      if ok then
        if ttlOf m.entry > 0 then m
        else if m.entry.isSome then (m.toggle i delta).slip else m.toggle i delta
      else m.slip)
    fun ok m => .ret (if ok then some (ttlOf m.entry) else none)

/-- `HINCRBY` and `EXPIRE` in one MULTI. -/
def addToEntry (delta ttl : Int) : Prog (Mem ι) Bool :=
  attempt fun m =>
    { m with
      entry := some (hIncrBy delta ttl m.entry)
      slips := if m.entry.isSome then m.slips else m.slips + 1 }.toggle i delta

def cacheIncrUserQuota (delta : Int) : Prog (Mem ι) Answer :=
  readTtl i delta >>= fun ttl =>
    if ttl.any (· > 0) then addToEntry i delta (ttl.getD 0) >>= fun ok => pure (if ok then .ok else .failed)
    else pure (if ttl.isSome then .ok else .failed)

/-! Reading, and filling the cache. -/

omit [DecidableEq ι] in
/-- A failed command is read as no entry. -/
def cacheGetUserBase : Prog (Mem ι) (Option Entry) := query (·.entry) >>= fun found => pure found.join

/-- `careless`: the row has changed since it was read, or a change is half done. -/
def updateUserCache (cacheSeconds quota : Int) : Prog (Mem ι) Bool :=
  statement fun m =>
    { m with
      entry := some (hSetObj cacheSeconds quota m.entry)
      slips := if m.quota = quota ∧ m.half = [] then m.slips else m.slips + 1 }

def refillUserCache (cacheSeconds quota : Int) : Prog (Mem ι) Answer :=
  cacheGetUserBase >>= fun existing =>
    if existing.isSome then pure .ok
    else updateUserCache cacheSeconds quota >>= fun ok => pure (if ok then .ok else .failed)

def readRow : Prog (Mem ι) (Option Int) := query (·.quota)

def fromDB (row : Option Int) : Prog (Mem ι) Answer :=
  match row with
  | none => pure .failed
  | some quota => spawn i (.refill quota) >>= fun _ => pure (.quota quota)

def getUserCache : Prog (Mem ι) Answer :=
  cacheGetUserBase >>= fun cached =>
    match cached with
    | some entry => pure (.quota entry.quota)
    | none => readRow >>= fromDB i

/-! Calls and tasks. -/

inductive Call
  | increaseUserQuota (quota : Int)
  | decreaseUserQuota (quota : Int)
  | getUserCache
  | wait (ms : Nat)

def Call.prog : Call → Prog (Mem ι) Answer
  | .increaseUserQuota quota => QuotaCache.increaseUserQuota i quota
  | .decreaseUserQuota quota => QuotaCache.decreaseUserQuota i quota
  | .getUserCache => QuotaCache.getUserCache i
  | .wait ms => atomically (fun m => { m with entry := m.entry.bind (·.later ms) }) fun _ => .ok

def Task.prog (cacheSeconds : Int) : Task → Prog (Mem ι) Answer
  | .add delta => cacheIncrUserQuota i delta
  | .refill quota => refillUserCache cacheSeconds quota

def runTask (cacheSeconds : Int) (task : Option Task) : Prog (Mem ι) Answer :=
  match task with
  | none => pure .ok
  | some task => task.prog i cacheSeconds

def background (cacheSeconds : Int) : Prog (Mem ι) Answer := await (·.tasks i) >>= runTask i cacheSeconds

def system (cacheSeconds quota : Int) (entry : Option Entry) (calls : ι → Call) : Sys (Thread ι) (Mem ι) Answer where
  mem := { quota, entry }
  prog
    | .call i => (calls i).prog i
    | .task i => background i cacheSeconds

end

end AmuxApi.QuotaCache
