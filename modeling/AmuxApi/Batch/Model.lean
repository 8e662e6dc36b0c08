import Mathlib.Data.Finset.Card
import AmuxApi.Conc.System

/- Quotas that are collected in memory and written in batches.

   With batch updating on, a change of a quota is added to a map: there are five of them, each
   with a lock of its own. From time to time `batchUpdate` takes the maps away one by one and
   writes what is in them. Every section under a lock is one step, and so is every UPDATE.

   Correspondence (Go ↔ Lean): the functions of `model/utils.go`, `model/user.go`,
   `model/token.go` and `model/channel.go` have the source's names.
   A map is ranged over in any order (`RangeOrder`). Statements succeed; the caches, the time of
   the last access and the log are left out. -/
namespace AmuxApi.Batch
open Conc Function

/-! The tables. -/

structure User where
  quota : Int
  usedQuota : Int
  requestCount : Int
  deriving DecidableEq, Repr

structure Token where
  remainQuota : Int
  usedQuota : Int
  deriving DecidableEq, Repr

structure DB where
  users : Int → Option User
  tokens : Int → Option Token
  /-- the used quota of the channels -/
  channels : Int → Option Int

/-- `UPDATE users .. WHERE id = ?`. -/
def DB.updateUser (id : Int) (f : User → User) (d : DB) : DB :=
  { d with users := update d.users id ((d.users id).map f) }

def DB.updateToken (id : Int) (f : Token → Token) (d : DB) : DB :=
  { d with tokens := update d.tokens id ((d.tokens id).map f) }

def DB.updateChannel (id : Int) (f : Int → Int) (d : DB) : DB :=
  { d with channels := update d.channels id ((d.channels id).map f) }

/-! The maps. -/

inductive BatchUpdateType
  | userQuota | tokenQuota | usedQuota | channelUsedQuota | requestCount
  deriving DecidableEq, Repr

def batchUpdateTypes : List BatchUpdateType := [.userQuota, .tokenQuota, .usedQuota, .channelUsedQuota, .requestCount]

/-- A map: what it has an entry for, and the entries. -/
structure Store where
  keys : Finset Int
  entry : Int → Int

def Store.empty : Store := ⟨∅, fun _ => 0⟩

/-- `store[id]`: 0 if there is no entry. -/
def Store.get (store : Store) (id : Int) : Int := if id ∈ store.keys then store.entry id else 0

def Store.add (store : Store) (id value : Int) : Store :=
  if id ∉ store.keys then ⟨insert id store.keys, update store.entry id value⟩
  else { store with entry := update store.entry id (store.entry id + value) }

structure Mem where
  db : DB
  stores : BatchUpdateType → Store

def addNewRecord (type : BatchUpdateType) (id value : Int) : Prog Mem Unit :=
  modify fun m => { m with stores := update m.stores type ((m.stores type).add id value) }

def exec (f : DB → DB) : Prog Mem Unit := modify fun m => { m with db := f m.db }

/-! Statements. -/

def increaseUserQuota (id quota : Int) : Prog Mem Unit :=
  exec (.updateUser id fun u => { u with quota := u.quota + quota })

def decreaseUserQuota (id quota : Int) : Prog Mem Unit :=
  exec (.updateUser id fun u => { u with quota := u.quota - quota })

def updateUserUsedQuotaAndRequestCount (id quota count : Int) : Prog Mem Unit :=
  exec (.updateUser id fun u => { u with usedQuota := u.usedQuota + quota, requestCount := u.requestCount + count })

def updateUserQuotaUsedQuotaAndRequestCount (id quota usedQuota requestCount : Int) : Prog Mem Unit :=
  if quota = 0 ∧ usedQuota = 0 ∧ requestCount = 0 then return ()
  else exec (.updateUser id fun u =>
    ⟨u.quota + quota, u.usedQuota + usedQuota, u.requestCount + requestCount⟩)

def increaseTokenQuota (id quota : Int) : Prog Mem Unit :=
  exec (.updateToken id fun t => ⟨t.remainQuota + quota, t.usedQuota - quota⟩)

def decreaseTokenQuota (id quota : Int) : Prog Mem Unit :=
  exec (.updateToken id fun t => ⟨t.remainQuota - quota, t.usedQuota + quota⟩)

def updateChannelUsedQuota (id quota : Int) : Prog Mem Unit := exec (.updateChannel id (· + quota))

/-! The calls. -/

inductive Call
  | increaseUserQuota (id quota : Int) (db : Bool)
  | decreaseUserQuota (id quota : Int) (db : Bool)
  | increaseTokenQuota (tokenId quota : Int)
  | decreaseTokenQuota (tokenId quota : Int)
  | updateUserUsedQuotaAndRequestCount (id quota : Int)
  | updateChannelUsedQuota (id quota : Int)
  deriving DecidableEq, Repr

def negativeQuota : String := "quota 不能为负数！"

def orError (quota : Int) (x : Prog Mem Unit) : Prog Mem (Except String Unit) :=
  if quota < 0 then return .error negativeQuota
  else do
    x
    return .ok ()

def Call.prog (batchUpdateEnabled : Bool) : Call → Prog Mem (Except String Unit)
  | .increaseUserQuota id quota db => orError quota
    (if !db && batchUpdateEnabled then addNewRecord .userQuota id quota else Batch.increaseUserQuota id quota)
  | .decreaseUserQuota id quota db => orError quota
    (if !db && batchUpdateEnabled then addNewRecord .userQuota id (-quota) else Batch.decreaseUserQuota id quota)
  | .increaseTokenQuota tokenId quota => orError quota
    (if batchUpdateEnabled then addNewRecord .tokenQuota tokenId quota else Batch.increaseTokenQuota tokenId quota)
  | .decreaseTokenQuota tokenId quota => orError quota
    (if batchUpdateEnabled then addNewRecord .tokenQuota tokenId (-quota) else Batch.decreaseTokenQuota tokenId quota)
  | .updateUserUsedQuotaAndRequestCount id quota => do
    if batchUpdateEnabled then
      addNewRecord .usedQuota id quota
      addNewRecord .requestCount id 1
    else Batch.updateUserUsedQuotaAndRequestCount id quota 1
    return .ok ()
  | .updateChannelUsedQuota id quota => do
    if batchUpdateEnabled then addNewRecord .channelUsedQuota id quota else Batch.updateChannelUsedQuota id quota
    return .ok ()

/-! The batches. -/

/-- The order in which the keys of a map come. -/
structure RangeOrder where
  order : Finset Int → List Int
  nodup : ∀ keys, (order keys).Nodup
  mem_order : ∀ keys id, id ∈ order keys ↔ id ∈ keys

def hasData : List BatchUpdateType → Prog Mem Bool
  | [] => return false
  | type :: types => do
    if ← Conc.get fun m => decide (0 < (m.stores type).keys.card) then return true else hasData types

def takeStores : List BatchUpdateType → (BatchUpdateType → Store) → Prog Mem (BatchUpdateType → Store)
  | [], stores => return stores
  | type :: types, stores => do
    let store ← atomically (fun m => { m with stores := update m.stores type .empty }) fun m => m.stores type
    takeStores types (update stores type store)

def flushTokens (range : RangeOrder) (store : Store) : Prog Mem Unit :=
  forEach (fun id => increaseTokenQuota id (store.get id)) (range.order store.keys)

def flushChannels (range : RangeOrder) (store : Store) : Prog Mem Unit :=
  forEach (fun id => updateChannelUsedQuota id (store.get id)) (range.order store.keys)

def userIDs (stores : BatchUpdateType → Store) : Finset Int :=
  (stores .userQuota).keys ∪ (stores .usedQuota).keys ∪ (stores .requestCount).keys

def flushUsers (range : RangeOrder) (stores : BatchUpdateType → Store) : Prog Mem Unit :=
  forEach (fun id =>
    updateUserQuotaUsedQuotaAndRequestCount id ((stores .userQuota).get id) ((stores .usedQuota).get id)
    ((stores .requestCount).get id)) (range.order (userIDs stores))

def batchUpdate (range : RangeOrder) : Prog Mem Unit := do
  if ← hasData batchUpdateTypes then
    let stores ← takeStores batchUpdateTypes fun _ => .empty
    flushTokens range (stores .tokenQuota)
    flushChannels range (stores .channelUsedQuota)
    flushUsers range stores

end AmuxApi.Batch
