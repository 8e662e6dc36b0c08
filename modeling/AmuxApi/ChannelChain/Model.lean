import Mathlib.Algebra.Group.Nat.Defs
import Mathlib.Algebra.Ring.Int.Defs
import Mathlib.Data.List.Dedup
import Mathlib.Data.List.Sort

/- Which channel a request goes to. A token has an ordered chain of groups; in a group the
   channels that serve the model are in levels by priority. A cursor walks the levels, and a
   failed request is tried again on a channel that it has not been tried on.

   Correspondence (Go ↔ Lean):
     `model/channel_chain.go`: `GetPriorityLevelCount`, `PickChannelAtLevel`
       in memory ↔ `Cache.getPriorityLevelCount`, `Cache.pickChannelAtLevel`
       `getPriorityLevelsDB`, `pickChannelAtLevelDB` ↔ `Abilities.getPriorityLevels`, `Abilities.pickChannelAtLevel`
       `pickChannelByWeight` ↔ `pickChannelByWeight`
     `model/channel_satisfy.go`: `IsChannelEnabledForGroupModel` ↔ `Env.isChannelEnabledForGroupModel`
     `service/channel_health.go`: `IsChannelCooling` ↔ `Health.isChannelCooling`
     `service/channel_select.go`: `selectFromChain` ↔ `scanLevels`, `scanGroup`, `scanGroups`, `selectFromChain`
       `CacheGetRandomSatisfiedChannel`, `Budget` ↔ `cacheGetRandomSatisfiedChannel`, `Env.budget`
       `SeedChainCursorForChannel` ↔ `seedChainCursorForChannel`
     `controller/relay.go`: the loop of `Relay` ↔ `Env.continues`, `relay`, `request`
   The channels are fixed during a request (in `relayOver` and `requestOver` they change between
   its attempts); who is cooling may change from one attempt to the next, since other requests
   fail and succeed too. Queries of the database do not fail. Sums of weights wrap around, as an
   `int` does. -/
namespace AmuxApi.ChannelChain

/-! Channels. -/

structure Channel where
  id : Int
  priority : Option Int
  weight : Option Nat
  deriving DecidableEq, Repr

def Channel.getPriority (c : Channel) : Int := c.priority.getD 0

/-- A weight is a `uint`, and is read as an `int`. -/
def Channel.getWeight (c : Channel) : Int := Int.bmod (c.weight.getD 0) (2 ^ 64)

/-- The first channel at which the running weight falls below 0. -/
def walkWeights (factor adjustment : Int) : Int → List Channel → Option Channel
  | _, [] => none
  | randomWeight, c :: rest =>
    let left := Int.bmod (randomWeight - (c.getWeight * factor + adjustment)) (2 ^ 64)
    if left < 0 then some c else walkWeights factor adjustment left rest

structure Smoothing where
  factor : Int
  adjustment : Int
  totalWeight : Int

/-- Where all weights are 0 they count as 100 each; where they are small on average they are
multiplied by 100. -/
def smoothing (candidates : List Channel) : Smoothing :=
  let sumWeight := Int.bmod (candidates.map (·.getWeight)).sum (2 ^ 64)
  if sumWeight = 0 then { factor := 1, adjustment := 100, totalWeight := Int.bmod (candidates.length * 100) (2 ^ 64) }
  else if sumWeight.tdiv candidates.length < 10 then
    { factor := 100, adjustment := 0, totalWeight := Int.bmod (sumWeight * 100) (2 ^ 64) }
  else { factor := 1, adjustment := 0, totalWeight := sumWeight }

/-- `rand` is the random number, taken modulo the total weight. -/
def pickChannelByWeight (rand : Nat) : List Channel → Option Channel
  | [] => none
  | [c] => some c
  | c :: c' :: rest =>
    let candidates := c :: c' :: rest
    let s := smoothing candidates
    if s.totalWeight ≤ 0 then some c
    else (walkWeights s.factor s.adjustment (rand % s.totalWeight) candidates).or candidates.getLast?

def sortPrioritiesDesc (priorities : List Int) : List Int := priorities.dedup.insertionSort (· ≥ ·)

/-- The index in memory: the enabled channels of a group and a model, and the channels by
their id. Every channel of the index is known. -/
structure Cache where
  group2model2channels : String → String → List Int
  channelsIDM : Int → Option Channel
  known : ∀ group model, ∀ id ∈ group2model2channels group model, 0 < id ∧ ∃ c, channelsIDM id = some c ∧ c.id = id

structure Ability where
  group : String
  model : String
  channelId : Int
  priority : Int
  enabled : Bool
  deriving DecidableEq, Repr

/-- The tables, where the index is not kept in memory. -/
structure Abilities where
  rows : List Ability
  channels : Int → Option Channel
  known : ∀ a ∈ rows, 0 < a.channelId ∧ ∃ c, channels a.channelId = some c ∧ c.id = a.channelId

section
variable (normalize : String → String) (model : String)

/-- The list under the model's name, or under its normalized name if that one is empty. -/
def orNormalized {α : Type} (find : String → List α) : List α :=
  if find model ≠ [] then find model
  else if normalize model ≠ "" ∧ normalize model ≠ model then find (normalize model)
  else []

namespace Cache
variable (cache : Cache)

def lookupGroupModelChannels (group : String) : List Int :=
  orNormalized normalize model (cache.group2model2channels group)

def getPriorityLevelCount (group : String) : Nat :=
  if group = "" ∨ model = "" then 0
  else (((cache.lookupGroupModelChannels normalize model group).filterMap cache.channelsIDM).map
    (·.getPriority)).dedup.length

def pickChannelAtLevel (group : String) (level : Nat) (skip : Int → Bool) (rand : Nat) :
    Except String (Option Channel) :=
  if group = "" ∨ model = "" then .ok none
  else
    let channelIds := cache.lookupGroupModelChannels normalize model group
    match channelIds.find? (fun id => (cache.channelsIDM id).isNone) with
    | some id => .error ("数据库一致性错误，渠道# " ++ toString id ++ " 不存在，请联系管理员修复")
    | none =>
      match (sortPrioritiesDesc ((channelIds.filterMap cache.channelsIDM).map (·.getPriority)))[level]? with
      | none => .ok none
      | some targetPriority =>
        .ok (pickChannelByWeight rand
          (((channelIds.filter (! skip ·)).filterMap cache.channelsIDM).filter (·.getPriority = targetPriority)))

end Cache

namespace Abilities
variable (tables : Abilities)

def enabledFor (group model : String) : List Ability :=
  tables.rows.filter fun a => a.group = group ∧ a.model = model ∧ a.enabled

def getPriorityLevels (group : String) : List Int :=
  orNormalized normalize model fun model => sortPrioritiesDesc ((tables.enabledFor group model).map (·.priority))

def getPriorityLevelCount (group : String) : Nat :=
  if group = "" ∨ model = "" then 0 else (tables.getPriorityLevels normalize model group).length

def pickChannelAtLevel (group : String) (level : Nat) (skip : Int → Bool) (rand : Nat) : Option Channel :=
  if group = "" ∨ model = "" then none
  else
    match (tables.getPriorityLevels normalize model group)[level]? with
    | none => none
    | some targetPriority =>
      let abilities := orNormalized normalize model fun model =>
        (tables.enabledFor group model).filter (·.priority = targetPriority)
      let channelIds := (abilities.map (·.channelId)).filter (! skip ·)
      pickChannelByWeight rand (channelIds.filterMap tables.channels)

end Abilities

end

/-! Who is cooling. -/

/-- The setting, and the failures that are counted and have not expired. -/
structure Health where
  enabled : Bool
  threshold : Int
  failures : Int → Option Int

def Health.channelHealthThreshold (h : Health) : Int := if h.threshold ≤ 0 then 3 else h.threshold

def Health.isChannelCooling (h : Health) (channelId : Int) : Bool :=
  if channelId ≤ 0 ∨ h.enabled = false then false
  else (h.failures channelId).any (h.channelHealthThreshold ≤ ·)

/-! The selection. -/

inductive Store
  | memory (cache : Cache)
  | database (tables : Abilities)

/-- What a request has: the channels, its model, and the chain of its token. -/
structure Env where
  store : Store
  normalize : String → String
  model : String
  groups : List String
  crossGroup : Bool
  retryTimes : Int

structure Cursor where
  groupIdx : Nat
  levelIdx : Nat
  deriving DecidableEq, Repr

/-- The part of the request's context that the selection uses. -/
structure Ctx where
  cursor : Cursor := ⟨0, 0⟩
  tried : List Int := []
  blocked : Bool := false
  groupSwitches : Nat := 0
  deriving DecidableEq, Repr

def Ctx.markChannelTried (ctx : Ctx) (channelId : Int) : Ctx :=
  if channelId ≤ 0 then ctx else { ctx with tried := channelId :: ctx.tried }

section
variable (env : Env)

def Env.getPriorityLevelCount (group : String) : Nat :=
  match env.store with
  | .memory cache => cache.getPriorityLevelCount env.normalize env.model group
  | .database tables => tables.getPriorityLevelCount env.normalize env.model group

/-- An error is logged, and the level passed over. -/
def Env.pickChannelAtLevel (group : String) (level : Nat) (skip : Int → Bool) (rand : Nat) : Option Channel :=
  match env.store with
  | .memory cache =>
    match cache.pickChannelAtLevel env.normalize env.model group level skip rand with
    | .ok channel => channel
    | .error _ => none
  | .database tables => tables.pickChannelAtLevel env.normalize env.model group level skip rand

def Env.isChannelEnabledForGroupModel (group : String) (channelId : Int) : Bool :=
  if group = "" ∨ env.model = "" ∨ channelId ≤ 0 then false
  else
    let listed : String → Bool := match env.store with
      | .memory cache => fun model => channelId ∈ cache.group2model2channels group model
      | .database tables => fun model => channelId ∈ (tables.enabledFor group model).map (·.channelId)
    listed env.model ∨
      (env.normalize env.model ≠ "" ∧ env.normalize env.model ≠ env.model ∧ listed (env.normalize env.model))

/-- The first of the levels that has a channel which is not skipped. -/
def scanLevels (group : String) (rand : Nat) (skip : Int → Bool) : List Nat → Option (Nat × Channel)
  | [] => none
  | level :: rest =>
    match env.pickChannelAtLevel group level skip rand with
    | some channel => some (level, channel)
    | none => scanLevels group rand skip rest

/-- A group, from the cursor's level on if it is the cursor's, once for each way to skip. -/
def scanGroup (cursor : Cursor) (rand : Nat) (skips : List (Int → Bool)) (groupIdx : Nat) (group : String) :
    Option (Nat × Channel) :=
  let startLevel := if groupIdx = cursor.groupIdx then cursor.levelIdx else 0
  skips.findSome? fun skip =>
    scanLevels env group rand skip (List.range' startLevel (env.getPriorityLevelCount group - startLevel))

/-- The groups from `groupIdx` on. -/
def scanGroups (cursor : Cursor) (rand : Nat) (allowGroupAdvance : Bool) (skips : List (Int → Bool)) :
    Nat → List String → Option (Cursor × Channel)
  | _, [] => none
  | groupIdx, group :: rest =>
    if cursor.groupIdx < groupIdx ∧ ¬ allowGroupAdvance then none
    else
      match scanGroup env cursor rand skips groupIdx group with
      | some (level, channel) => some (⟨groupIdx, level⟩, channel)
      | none => scanGroups cursor rand allowGroupAdvance skips (groupIdx + 1) rest

def Ctx.allowGroupAdvance (ctx : Ctx) : Bool := ctx.tried = [] ∨ (env.crossGroup ∧ ¬ ctx.blocked)

def skipTried (ctx : Ctx) (channelId : Int) : Bool := channelId ∈ ctx.tried

def skipTriedOrCooling (ctx : Ctx) (health : Health) (channelId : Int) : Bool :=
  skipTried ctx channelId || health.isChannelCooling channelId

/-- The first pass passes over the channels that were tried; the second one over none. -/
def findInChain (health : Health) (rand : Nat) (ctx : Ctx) : Option (Cursor × Channel) :=
  let scan := fun skips => scanGroups env ctx.cursor rand (ctx.allowGroupAdvance env) skips ctx.cursor.groupIdx
    (env.groups.drop ctx.cursor.groupIdx)
  (scan [skipTriedOrCooling ctx health, skipTried ctx]).or (scan [fun _ => false])

/-- A selection: who was cooling, the context before, the channel, and the context after. -/
structure Pick where
  health : Health
  before : Ctx
  channel : Channel
  after : Ctx

def selectFromChain (health : Health) (rand : Nat) (ctx : Ctx) : Option Pick :=
  (findInChain env health rand ctx).map fun (cursor, channel) =>
    let switched := ctx.cursor.groupIdx < cursor.groupIdx ∧ ctx.tried ≠ []
    { health, before := ctx, channel
      after := { ctx.markChannelTried channel.id with
        cursor, groupSwitches := if switched then ctx.groupSwitches + 1 else ctx.groupSwitches } }

def cacheGetRandomSatisfiedChannel (health : Health) (rand : Nat) (ctx : Ctx) : Option Pick :=
  if env.groups = [] then none else selectFromChain env health rand ctx

/-- The first group of the chain that has the channel. -/
def seedChainCursorForChannel (channelId : Int) : Option Ctx :=
  (env.groups.findIdx? (env.isChannelEnabledForGroupModel · channelId)).map fun groupIdx =>
    ({ cursor := ⟨groupIdx, 0⟩ } : Ctx).markChannelTried channelId

/-! The loop. -/

def Env.pendingSwitchAllowance (ctx : Ctx) : Int :=
  if ¬ env.crossGroup ∨ env.groups.length ≤ 1 ∨ ctx.blocked ∨ env.groups.length - 1 ≤ ctx.groupSwitches then 0 else 1

def Env.budget (ctx : Ctx) : Int := env.retryTimes + ctx.groupSwitches + env.pendingSwitchAllowance ctx

/-- An attempt that fails: what the selection meets, whether the channel is to blame, and
whether it may be tried again with so many retries left. -/
structure Attempt where
  health : Health
  rand : Nat
  channelAtFault : Bool
  shouldRetry : Int → Bool

/-- The context for the next attempt, if there is one. -/
def Env.continues (a : Attempt) (retry : Nat) (ctx : Ctx) : Option Ctx :=
  let ctx := { ctx with blocked := ! a.channelAtFault }
  if a.shouldRetry (env.budget ctx - retry) ∧ retry + 1 ≤ env.budget ctx then some ctx else none

/-- The selections of the attempts, from the one that is number `retry`. -/
def relay (retry : Nat) : List Attempt → Ctx → List Pick
  | [], _ => []
  | a :: rest, ctx =>
    match cacheGetRandomSatisfiedChannel env a.health a.rand ctx with
    | none => []
    | some pick =>
      match env.continues a retry pick.after with
      | none => [pick]
      | some ctx => pick :: relay (retry + 1) rest ctx

/-- A request. Where the affinity cache prefers a channel of the chain, the first attempt goes
there without a selection. -/
def request (preferred : Option Int) (attempts : List Attempt) : List Pick :=
  match preferred.bind (seedChainCursorForChannel env), attempts with
  | some ctx, a :: rest =>
    match env.continues a 0 ctx with
    | none => []
    | some ctx => relay env 1 rest ctx
  | some _, [] => []
  | none, attempts => relay env 0 attempts {}

end

/-! The same where the channels may change from one attempt to the next. -/

def Env.withStore (env : Env) (store : Store) : Env := { env with store }

def relayOver (env : Env) (retry : Nat) : List (Store × Attempt) → Ctx → List (Store × Pick)
  | [], _ => []
  | (store, a) :: rest, ctx =>
    match cacheGetRandomSatisfiedChannel (env.withStore store) a.health a.rand ctx with
    | none => []
    | some pick =>
      match env.continues a retry pick.after with
      | none => [(store, pick)]
      | some ctx => (store, pick) :: relayOver env (retry + 1) rest ctx

/-- The attempts of a request: the one that goes to the preferred channel, if there is one, with
the context it leaves, and the selections. -/
structure Attempts where
  seeded : Option (Store × Ctx)
  picks : List (Store × Pick)

def requestOver (env : Env) (preferred : Option Int) : List (Store × Attempt) → Attempts
  | [] => ⟨none, []⟩
  | (store, a) :: rest =>
    match preferred.bind (seedChainCursorForChannel (env.withStore store)) with
    | some ctx =>
      match env.continues a 0 ctx with
      | none => ⟨some (store, ctx), []⟩
      | some ctx' => ⟨some (store, ctx), relayOver env 1 rest ctx'⟩
    | none => ⟨none, relayOver env 0 ((store, a) :: rest) {}⟩

end AmuxApi.ChannelChain
