import Mathlib.Logic.Function.Basic
import AmuxApi.Machine.Run

/- The status of a channel with several keys, in the cache and in the table.

   `UpdateChannelStatus` first changes the cached channel. It then loads the row, and leaves it alone
   if it has the status of the call already: a key that was disabled in an enabled channel is enabled
   again in the cache only (`key_stays_disabled`). Where no call leaves a row alone that it would have
   changed (`Effective`), cache and table agree after every call (`statuses_agree`).

   Correspondence (Go ↔ Lean):
     `model/channel.go`: `hasEnabledMultiKey`, `handlerMultiKeyUpdate`, `UpdateChannelStatus` ↔ the same
       names, with the memory cache on and a database that carries out what it is asked
     `model/channel_cache.go`: `CacheUpdateChannelStatus` ↔ the status of the cached channel; the
       index and the abilities, which neither status is read from, are left out -/
namespace AmuxApi.KeyStatus
open Machine Function

inductive Status
  | unknown | enabled | manuallyDisabled | autoDisabled
  deriving DecidableEq, Repr

/-- `keys` is what `GetKeys` finds; `otherInfo` has `status_reason` and `status_time`. -/
structure Channel where
  keys : List String
  isMultiKey : Bool
  status : Status
  multiKeyStatusList : Nat → Option Status
  multiKeyDisabledReason : Nat → Option String
  multiKeyDisabledTime : Nat → Option Int
  otherInfo : Option (String × Int)

structure Call where
  usingKey : String
  status : Status
  reason : String
  now : Int

def hasEnabledMultiKey (keys : List String) (statusList : Nat → Option Status) : Bool :=
  (List.range keys.length).any fun i => (statusList i).getD .enabled = .enabled

/-- The entry of one key: an enabled key has none. -/
def Channel.setKey (call : Call) (i : Nat) (c : Channel) : Channel :=
  if call.status = .enabled then { c with multiKeyStatusList := update c.multiKeyStatusList i none }
  else { c with
    multiKeyStatusList := update c.multiKeyStatusList i (some call.status)
    multiKeyDisabledReason := update c.multiKeyDisabledReason i (some call.reason)
    multiKeyDisabledTime := update c.multiKeyDisabledTime i (some call.now) }

def handlerMultiKeyUpdate (call : Call) (c : Channel) : Channel :=
  if c.keys = [] then { c with status := call.status }
  else
    match c.keys.idxOf? call.usingKey with
    | none =>
      if call.usingKey ≠ "" then c
      else { c with status := call.status, otherInfo := some (call.reason, call.now) }
    | some i =>
      let c := c.setKey call i
      if hasEnabledMultiKey c.keys c.multiKeyStatusList = false then
        { c with status := .autoDisabled, otherInfo := some ("All keys are disabled", call.now) }
      else if call.status = .enabled then { c with status := .enabled }
      else c

/-- One channel: the copy in the cache, and the row. -/
structure Server where
  cached : Option Channel
  stored : Option Channel

/-- The second half: the row is loaded, changed and saved. -/
def Channel.updateRow (call : Call) (row : Channel) : Channel × Bool :=
  if row.status = call.status then (row, false)
  else if row.isMultiKey then (handlerMultiKeyUpdate call row, true)
  else ({ row with status := call.status, otherInfo := some (call.reason, call.now) }, true)

def updateChannelStatus (s : Server) (call : Call) : Server × Bool :=
  match s.cached with
  | none => (s, false)
  | some c =>
    if c.isMultiKey = false ∧ c.status = call.status then (s, false)
    else
      let cached := if c.isMultiKey then handlerMultiKeyUpdate call c else { c with status := call.status }
      (⟨some cached, s.stored.map fun row => (row.updateRow call).1⟩, s.stored.any fun row => (row.updateRow call).2)

/-- What the two statuses of a channel depend on. -/
def Channel.core (c : Channel) : Channel :=
  { c with multiKeyDisabledReason := fun _ => none, multiKeyDisabledTime := fun _ => none, otherInfo := none }

/-- A call for the status that the row has would not have changed it. -/
def Effective (s : Server) (call : Call) : Prop :=
  ∀ row, s.stored = some row → row.status = call.status → (handlerMultiKeyUpdate call row).core = row.core

/-- A channel with several keys is cached as it is stored. -/
def Agrees (s : Server) : Prop :=
  ∃ c row, s.cached = some c ∧ s.stored = some row ∧ c.isMultiKey = true ∧ c.core = row.core

theorem handlerMultiKeyUpdate_core (call : Call) (c : Channel) :
    (handlerMultiKeyUpdate call c).isMultiKey = c.isMultiKey ∧
      (handlerMultiKeyUpdate call c).core = (handlerMultiKeyUpdate call c.core).core := by
  unfold handlerMultiKeyUpdate Channel.setKey
  rw [show c.core.keys = c.keys from rfl]
  split
  · exact ⟨rfl, rfl⟩
  cases c.keys.idxOf? call.usingKey with
  | none =>
    dsimp only
    split <;> exact ⟨rfl, rfl⟩
  | some i =>
    by_cases henabled : call.status = .enabled
    · simp only [if_pos henabled, Channel.core]
      split <;> exact ⟨rfl, rfl⟩
    · simp only [if_neg henabled, Channel.core]
      split <;> exact ⟨rfl, rfl⟩

theorem Agrees.updateChannelStatus {s : Server} {call : Call} (h : Agrees s) (heffective : Effective s call) :
    Agrees (updateChannelStatus s call).1 := by
  obtain ⟨c, row, hc, hrow, hmulti, hsame⟩ := h
  obtain ⟨hmulti', hcore⟩ := handlerMultiKeyUpdate_core call c
  rw [hsame, ← (handlerMultiKeyUpdate_core call row).2] at hcore
  refine ⟨handlerMultiKeyUpdate call c, (row.updateRow call).1, ?_, ?_, ?_, ?_⟩
  · simp [KeyStatus.updateChannelStatus, hc, hmulti]
  · simp [KeyStatus.updateChannelStatus, hc, hmulti, hrow]
  · exact hmulti'.trans hmulti
  · unfold Channel.updateRow
    split
    · next hstatus => exact hcore.trans (heffective row hrow hstatus)
    · have hmultiRow : row.isMultiKey = true := (congrArg Channel.isMultiKey hsame).symm.trans hmulti
      rw [if_pos hmultiRow]
      exact hcore

/-- **Cache and table agree** after any calls for a channel with several keys, as long as no call
that finds its status in the table would have changed the row. -/
theorem statuses_agree (c row : Channel) (hmulti : c.isMultiKey = true) (hsame : c.core = row.core) (s : Server)
    (hs : Reach Effective (fun s call => (updateChannelStatus s call).1) ⟨some c, some row⟩ s) :
    ∃ c' row', s.cached = some c' ∧ s.stored = some row' ∧ c'.status = row'.status ∧
      c'.multiKeyStatusList = row'.multiKeyStatusList := by
  obtain ⟨c', row', hc', hrow', -, hcore⟩ : Agrees s :=
    hs.keeps ⟨c, row, rfl, rfl, hmulti, hsame⟩ fun _ _ h heffective => h.updateChannelStatus heffective
  have hstatus := congrArg Channel.status hcore
  exact ⟨c', row', hc', hrow', hstatus, congrArg (·.multiKeyStatusList) hcore⟩

def twoKeys : Channel := ⟨["k1", "k2"], true, .enabled, fun _ => none, fun _ => none, fun _ => none, none⟩

def setFirst (status : Status) : Call := ⟨"k1", status, "", 0⟩

def firstDisabled : Server := (updateChannelStatus ⟨some twoKeys, some twoKeys⟩ (setFirst .autoDisabled)).1

theorem statuses_agree_one : ∃ c row, firstDisabled.cached = some c ∧ firstDisabled.stored = some row ∧
    c.status = row.status ∧ c.multiKeyStatusList = row.multiKeyStatusList := by
  refine statuses_agree twoKeys twoKeys rfl rfl firstDisabled (.step (setFirst .autoDisabled) .start ?_)
  rintro row ⟨⟩ hstatus
  cases hstatus

/-- The key is enabled again: the channel is enabled in the table, so nothing is stored. -/
theorem key_stays_disabled :
    ((updateChannelStatus firstDisabled (setFirst .enabled)).1.cached.map (·.multiKeyStatusList 0)) = some none ∧
      ((updateChannelStatus firstDisabled (setFirst .enabled)).1.stored.map (·.multiKeyStatusList 0)) =
        some (some .autoDisabled) :=
  ⟨rfl, rfl⟩

end AmuxApi.KeyStatus
