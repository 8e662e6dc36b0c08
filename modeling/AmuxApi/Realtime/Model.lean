import AmuxApi.Billing.Model
import Mathlib.Data.Rat.Floor

/- A realtime session over websockets: what is counted and what is charged, from the charge in
   advance to the settlement.

   Correspondence (Go ↔ Lean), where the names differ:
     `OpenaiRealtimeHandler` (`relay/channel/openai/relay-openai.go`) ↔ `handleEvents`, `close`
     `WssHelper` (`relay/websocket.go`), with `PreConsumeBilling` ↔ `realtime`
   An event comes with the tokens that `CountTokenRealtime` counts for it. Two goroutines read
   from the client and from the provider; what they do to the counters is in one list, in any
   order. An event that cannot be read or counted, a connection that closes and a charge that
   fails all end the list. Prices are exact rationals. Log texts, statistics and what is
   forwarded are left out. -/
namespace AmuxApi.Realtime
open Txn
open Billing (Service Relay Session)

structure Usage where
  totalTokens : Int := 0
  inputTokens : Int := 0
  outputTokens : Int := 0
  inputCached : Int := 0
  inputText : Int := 0
  inputAudio : Int := 0
  outputText : Int := 0
  outputAudio : Int := 0
  deriving DecidableEq, Repr

def Usage.add (u v : Usage) : Usage where
  totalTokens := u.totalTokens + v.totalTokens
  inputTokens := u.inputTokens + v.inputTokens
  outputTokens := u.outputTokens + v.outputTokens
  inputCached := u.inputCached + v.inputCached
  inputText := u.inputText + v.inputText
  inputAudio := u.inputAudio + v.inputAudio
  outputText := u.outputText + v.outputText
  outputAudio := u.outputAudio + v.outputAudio

/-- Tokens counted here, of something sent to the provider. -/
def inputUsage (text audio : Int) : Usage :=
  { totalTokens := text + audio, inputTokens := text + audio, inputText := text, inputAudio := audio }

/-- Tokens counted here, of something the provider has sent. -/
def outputUsage (text audio : Int) : Usage :=
  { totalTokens := text + audio, outputTokens := text + audio, outputText := text, outputAudio := audio }

/-! Prices. -/

structure Setting where
  completionRatio : String → Rat
  audioRatio : String → Rat
  audioCompletionRatio : String → Rat
  modelRatio : String → Rat
  groupRatio : String → Rat
  groupGroupRatio : String → String → Option Rat
  quotaPerUnit : Rat

structure QuotaInfo where
  inputText : Int
  inputAudio : Int
  outputText : Int
  outputAudio : Int
  modelName : String
  usePrice : Bool
  modelPrice : Rat
  modelRatio : Rat
  groupRatio : Rat

/-- `decimal.Round(0)`: a half goes away from 0. -/
def roundHalf (x : Rat) : Int := if 0 ≤ x then ⌊x + 1 / 2⌋ else -⌊-x + 1 / 2⌋

def calculateAudioQuota (st : Setting) (info : QuotaInfo) : Int :=
  if info.usePrice then Payment.intPart (info.modelPrice * st.quotaPerUnit * info.groupRatio)
  else
    let ratio := info.groupRatio * info.modelRatio
    let quota := (info.inputText + info.outputText * st.completionRatio info.modelName +
      info.inputAudio * st.audioRatio info.modelName +
      info.outputAudio * st.audioRatio info.modelName * st.audioCompletionRatio info.modelName) * ratio
    if ratio ≠ 0 ∧ quota ≤ 0 then 1 else roundHalf quota

/-- The request, with the prices that were found for it. `tiered` is the quota of a model
with tiered prices. -/
structure Call where
  originModelName : String
  upstreamModelName : String
  usingGroup : String
  userGroup : String
  autoGroup : Option String
  usePrice : Bool
  freeModel : Bool
  quotaToPreConsume : Int
  priceUsePrice : Bool
  priceModelPrice : Rat
  priceModelRatio : Rat
  priceGroupRatio : Rat
  tiered : Option (Usage → Int)

section
variable (st : Setting) (call : Call)

/-- What `PreWssConsumeQuota` charges: the ratios are those of now. -/
def turnQuota (u : Usage) : Int :=
  let group := call.autoGroup.getD call.usingGroup
  calculateAudioQuota st
    { inputText := u.inputText, inputAudio := u.inputAudio, outputText := u.outputText, outputAudio := u.outputAudio
      modelName := call.originModelName, usePrice := call.usePrice, modelPrice := 0
      modelRatio := st.modelRatio call.originModelName
      groupRatio := (st.groupGroupRatio call.userGroup group).getD (st.groupRatio group) }

/-- What `PostWssConsumeQuota` settles for and logs: the ratios are those of the request. -/
def finalQuota (u : Usage) : Int :=
  if u.totalTokens = 0 then 0
  else
    match call.tiered with
    | some quota => quota u
    | none =>
      calculateAudioQuota st
        { inputText := u.inputText, inputAudio := u.inputAudio, outputText := u.outputText, outputAudio := u.outputAudio
          modelName := call.upstreamModelName, usePrice := call.priceUsePrice, modelPrice := 0
          modelRatio := call.priceModelRatio, groupRatio := call.priceGroupRatio }

/-! The charge of one turn. -/

variable (host : Billing.Host) (relay : Relay)

def preWssConsumeQuota (u : Usage) : Service (Except String Unit) :=
  if call.usePrice then return .ok ()
  else do
    match ← Billing.getUserQuota with
    | .error e => return .error e
    | .ok userQuota =>
      match ← Billing.getTokenByKey with
      | .error e => return .error e
      | .ok remain =>
        let quota := turnQuota st call u
        if userQuota < quota then
          return .error ("user quota is not enough, user quota: " ++ host.formatQuota userQuota ++ ", need quota: " ++
            host.formatQuota quota)
        else if ¬ relay.tokenUnlimited ∧ remain < quota then
          return .error ("token quota is not enough, token remain quota: " ++ host.formatQuota remain ++
            ", need quota: " ++ host.formatQuota quota)
        else Billing.postConsumeQuota relay quota

/-! The handler. -/

/-- `done` is `response.done` with the provider's usage, `doneLocal` is one without it. -/
inductive Event
  | client (text audio : Int)
  | done (usage : Usage)
  | doneLocal (text audio : Int)
  | session
  | upstream (text audio : Int)
  deriving DecidableEq, Repr

/-- The counters, and whether every charge so far has succeeded. -/
structure Counters where
  usage : Usage := {}
  localUsage : Usage := {}
  sumUsage : Usage := {}
  charged : Bool := true
  deriving DecidableEq, Repr

/-- An event is counted, … -/
def Counters.count (c : Counters) : Event → Counters
  | .client text audio => { c with localUsage := c.localUsage.add (inputUsage text audio) }
  | .done usage => { c with usage := c.usage.add usage }
  | .doneLocal text audio => { c with localUsage := c.localUsage.add (inputUsage text audio) }
  | .session => c
  | .upstream text audio => { c with localUsage := c.localUsage.add (outputUsage text audio) }

/-- … what was counted is charged at the end of a turn, … -/
def Counters.due (c : Counters) : Event → Option Usage
  | .done _ => some c.usage
  | .doneLocal _ _ => some c.localUsage
  | _ => none

/-- … and then cleared. The provider's usage covers what was counted here too. -/
def Counters.clear (c : Counters) : Event → Counters
  | .done _ => { c with usage := {}, localUsage := {} }
  | .doneLocal _ _ => { c with localUsage := {} }
  | _ => c

/-- The usage counts for the session whether or not it can be charged. -/
def preConsumeUsage (u : Usage) (c : Counters) : Service Counters := do
  let res ← preWssConsumeQuota st call host relay u
  return { c with sumUsage := c.sumUsage.add u, charged := c.charged && res.isOk }

/-- A charge that fails ends the session. -/
def handleEvents : List Event → Counters → Service Counters
  | [], c => return c
  | e :: rest, c =>
    match (c.count e).due e with
    | none => handleEvents rest (c.count e)
    | some u => do
      let c' ← preConsumeUsage st call host relay u (c.count e)
      if c'.charged then handleEvents rest (c'.clear e) else return c'

def chargeRest (u : Usage) (c : Counters) : Service Counters :=
  if u.totalTokens ≠ 0 then preConsumeUsage st call host relay u c else return c

/-- What is still counted is charged when the session closes. -/
def close (c : Counters) : Service Counters := do
  let c₁ ← chargeRest st call host relay c.usage c
  chargeRest st call host relay c.localUsage c₁

/-! The session. -/

/-- The quota in the consume log, and whether every charge and the settlement succeeded. -/
def postWssConsumeQuota (billing : Option Session) (c : Counters) : Service (Int × Bool) := do
  let res ← Billing.settleBilling relay billing (finalQuota st call c.sumUsage)
  return (finalQuota st call c.sumUsage, c.charged && res.2.isOk)

def serve (events : List Event) (billing : Option Session) : Service (Int × Bool) := do
  let c ← handleEvents st call host relay events {}
  let c ← close st call host relay c
  postWssConsumeQuota st call relay billing c

/-- `none`: the charge in advance was refused. -/
def realtime (events : List Event) : Service (Option (Int × Bool)) :=
  if call.freeModel then do return some (← serve st call host relay events none)
  else do
    match ← Billing.newBillingSession host (some relay) call.quotaToPreConsume with
    | .error _ => return none
    | .ok s => return some (← serve st call host relay events (some s))

end

end AmuxApi.Realtime
