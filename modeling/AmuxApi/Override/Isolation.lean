import AmuxApi.Override.Model

/- Whether the header overrides of an attempt are the channel's own.

   `overrides_are_own`: when no param overrides have been applied before in the request, the attempts
   before have left its path and its model as they were, and the channel's operations do not look at
   the retries, what is sent to the channel is what a request would send to it that tries it first.
   `secret_sent_on` is what happens otherwise: a channel whose operations set a header, and then one that
   has no overrides at all. -/
namespace AmuxApi.Override
open List

variable {lib : Library}

/-! Operations that do not look at the retries. -/

/-- The same context at another turn of the loop. -/
def Context.retried (ctx : Context) (retryIndex : Int) (lastError : Option LastError) : Context :=
  { ctx with retryIndex := retryIndex, lastError := lastError }

/-- What the operation looks at is not the number of the attempt or the error before. -/
structure ParamOperation.IgnoresRetry (lib : Library) (op : ParamOperation) : Prop where
  conditions : ∀ ctx r e, ∀ c ∈ op.conditions,
    lib.getContext (Context.retried ctx r e) c.path = lib.getContext ctx c.path
  edits : ∀ ctx r e edit json, lib.edit edit op (Context.retried ctx r e) json = lib.edit edit op ctx json

def Channel.IgnoresRetry (lib : Library) (channel : Channel) : Prop :=
  ∀ ops, tryParseOperations channel.paramOverride = some ops → ∀ op ∈ ops, op.IgnoresRetry lib

variable {channel : Channel}

section
variable {ctx : Context} {r : Int} {e : Option LastError} {op : ParamOperation} {json : String}

theorem checkConditions_retried {logic : String} {conditions : List Condition}
    (h : ∀ c ∈ conditions, lib.getContext (ctx.retried r e) c.path = lib.getContext ctx c.path) :
    checkConditions lib json (ctx.retried r e) conditions logic = checkConditions lib json ctx conditions logic := by
  have hsingle : ∀ c ∈ conditions,
      checkSingleCondition lib json (ctx.retried r e) c = checkSingleCondition lib json ctx c := by
    intro c hc
    unfold checkSingleCondition
    rw [h c hc]
  have hall : conditions.mapM (checkSingleCondition lib json (ctx.retried r e)) =
      conditions.mapM (checkSingleCondition lib json ctx) := by
    clear h
    induction conditions with
    | nil => rfl
    | cons c cs ih =>
      rw [mapM_cons, mapM_cons, hsingle c mem_cons_self,
        ih fun c' hc' => hsingle c' (mem_cons_of_mem _ hc')]
  unfold checkConditions
  rw [hall]

/-- Operations on headers read the headers of the context only. -/
theorem operate_retried (h : op.IgnoresRetry lib) :
    operate lib op json (ctx.retried r e) = operate lib op json ctx := by
  unfold operate
  cases Mode.parse op.mode with
  | edit edit =>
    dsimp only
    rw [h.edits ctx r e]
    rfl
  | _ => rfl

theorem applyOperation_retried (h : op.IgnoresRetry lib) :
    applyOperation lib op json (ctx.retried r e) = applyOperation lib op json ctx := by
  unfold applyOperation
  rw [checkConditions_retried (h.conditions ctx r e), operate_retried h]
  rfl

theorem applyOperations_retried {ops : List ParamOperation} (h : ∀ op ∈ ops, op.IgnoresRetry lib) (json : String)
    (headers : Headers) :
    applyOperations lib (ctx.retried r e) ops json headers = applyOperations lib ctx ops json headers := by
  induction ops generalizing json headers with
  | nil => rfl
  | cons op ops ih =>
    have hheaders : (ctx.retried r e).withHeaders headers = (ctx.withHeaders headers).retried r e := rfl
    unfold applyOperations
    rw [hheaders, applyOperation_retried (h op mem_cons_self)]
    cases applyOperation lib op json (ctx.withHeaders headers) with
    | error err => rfl
    | ok next => exact ih (fun op' hop' => h op' (mem_cons_of_mem _ hop')) next.1 next.2

theorem applyParamOverride_retried (h : channel.IgnoresRetry lib) (json : String) :
    applyParamOverride lib json channel.paramOverride (ctx.retried r e) =
      applyParamOverride lib json channel.paramOverride ctx := by
  unfold applyParamOverride
  cases hops : tryParseOperations channel.paramOverride with
  | none => rfl
  | some ops =>
    cases (if (buildLegacyParamOverride lib channel.paramOverride).isEmpty then Except.ok json
      else lib.merge (buildLegacyParamOverride lib channel.paramOverride) json) with
    | error err => rfl
    | ok json => exact applyOperations_retried (h ops hops) json ctx.headerOverride

end

/-! One attempt. -/

/-- Two requests at which the same header overrides count. -/
structure Agree (info info' : RelayInfo) : Prop where
  channel : info.channelMeta = info'.channelMeta
  flag : info.useRuntimeHeadersOverride = info'.useRuntimeHeadersOverride
  runtime : info.useRuntimeHeadersOverride = true → info.runtimeHeadersOverride = info'.runtimeHeadersOverride
  scope : info.scope = info'.scope

section
variable {handler : Handler} {client : Client} {info info' : RelayInfo}

section
variable (h : Agree info info')
include h

theorem Agree.effective : getEffectiveHeaderOverride lib info = getEffectiveHeaderOverride lib info' := by
  unfold getEffectiveHeaderOverride
  rw [← h.flag, ← h.channel]
  cases hflag : info.useRuntimeHeadersOverride with
  | false => rfl
  | true => rw [h.runtime hflag]

theorem Agree.processHeaderOverride :
    processHeaderOverride lib client info = processHeaderOverride lib client info' := by
  unfold Override.processHeaderOverride
  rw [h.effective, h.channel]

/-- The contexts differ in the retries only. -/
theorem Agree.context (upstreamModelName : String) :
    buildParamOverrideContext lib client upstreamModelName info =
      (buildParamOverrideContext lib client upstreamModelName info').retried info.retryIndex info.lastError := by
  unfold buildParamOverrideContext Context.retried
  rw [h.effective, h.scope]

theorem Agree.applyParamOverride (hretry : info.channelMeta.IgnoresRetry lib)
    (upstreamModelName json : String) :
    applyParamOverride lib json info.channelMeta.paramOverride
      (buildParamOverrideContext lib client upstreamModelName info) =
      applyParamOverride lib json info'.channelMeta.paramOverride
        (buildParamOverrideContext lib client upstreamModelName info') := by
  rw [h.context, applyParamOverride_retried hretry, h.channel]

theorem Agree.sent (client : Client) (hretry : info.channelMeta.IgnoresRetry lib) (upstreamModelName json : String) :
    ((applyParamOverrideWithRelayInfo lib client upstreamModelName json info).bind fun p =>
        Override.processHeaderOverride lib client p.2) =
      (applyParamOverrideWithRelayInfo lib client upstreamModelName json info').bind fun p =>
        Override.processHeaderOverride lib client p.2 := by
  unfold applyParamOverrideWithRelayInfo
  rw [h.applyParamOverride hretry, h.channel]
  split_ifs with hempty
  · exact h.processHeaderOverride
  cases Override.applyParamOverride lib json info'.channelMeta.paramOverride
    (buildParamOverrideContext lib client upstreamModelName info') with
  | error err => rfl
  | ok next => exact Agree.processHeaderOverride ⟨rfl, rfl, fun _ => rfl, h.scope⟩

theorem Agree.overridden (client : Client) (hretry : info.channelMeta.IgnoresRetry lib) (prepared : Prepared) :
    (overridden lib client info prepared).1 = (overridden lib client info' prepared).1 := by
  have hagree : Agree { info with scope := prepared.scope } { info' with scope := prepared.scope } :=
    ⟨h.channel, h.flag, h.runtime, rfl⟩
  unfold Override.overridden
  cases prepared.body with
  | none => exact hagree.processHeaderOverride
  | some json =>
    have hsent := hagree.sent client hretry prepared.upstreamModelName json
    dsimp only
    cases hfirst : applyParamOverrideWithRelayInfo lib client prepared.upstreamModelName json
        { info with scope := prepared.scope } <;>
      cases hsecond : applyParamOverrideWithRelayInfo lib client prepared.upstreamModelName json
        { info' with scope := prepared.scope } <;>
      rw [hfirst, hsecond] at hsent <;> exact hsent

end

/-- An attempt sends the same headers in every request in which no runtime overrides count yet, and
whose path and model are the same. -/
theorem send_congr {r r' : Int} (hflag : info.useRuntimeHeadersOverride = false)
    (hflag' : info'.useRuntimeHeadersOverride = false) (hscope : info.scope = info'.scope)
    (hretry : channel.IgnoresRetry lib) :
    (send lib handler client info channel r).1 = (send lib handler client info' channel r').1 := by
  have hagree : Agree ({ info with retryIndex := r }.initChannelMeta channel)
      ({ info' with retryIndex := r' }.initChannelMeta channel) :=
    ⟨rfl, hflag.trans hflag'.symm, fun h => absurd (hflag.symm.trans h) Bool.false_ne_true, hscope⟩
  have hsame : ({ info with retryIndex := r }.initChannelMeta channel).scope =
      ({ info' with retryIndex := r' }.initChannelMeta channel).scope := hscope
  unfold send
  dsimp only
  rw [hsame]
  cases (handler channel client _).1 with
  | error err => rfl
  | ok prepared => exact hagree.overridden client hretry prepared

/-! Runs. -/

/-- A channel without param overrides leaves no runtime overrides behind. -/
theorem send_keeps_flag {r : Int} (h : channel.paramOverride = []) :
    (send lib handler client info channel r).2.useRuntimeHeadersOverride = info.useRuntimeHeadersOverride := by
  have hnone : ∀ upstreamModelName json scope,
      applyParamOverrideWithRelayInfo lib client upstreamModelName json
        { ({ info with retryIndex := r }.initChannelMeta channel) with scope } =
      .ok (json, { ({ info with retryIndex := r }.initChannelMeta channel) with scope }) := by
    intro upstreamModelName json scope
    exact if_pos (isEmpty_iff.mpr h)
  unfold send
  dsimp only
  cases (handler channel client _).1 with
  | error err => rfl
  | ok prepared =>
    unfold overridden
    dsimp only
    cases prepared.body with
    | none => rfl
    | some json =>
      dsimp only
      rw [hnone]
      rfl

theorem clean_after {attempts : List Attempt} (h : ∀ a ∈ attempts, a.channel.paramOverride = [])
    (hinfo : info.useRuntimeHeadersOverride = false) :
    (relay lib handler client attempts info).useRuntimeHeadersOverride = false := by
  induction attempts generalizing info with
  | nil => exact hinfo
  | cons a attempts ih =>
    apply ih fun b hb => h b (mem_cons_of_mem _ hb)
    exact (send_keeps_flag (h a mem_cons_self)).trans hinfo

end

/-! Two channels of one request. -/

def exampleLibrary : Library where
  toLower s := String.ofList (s.toList.map Char.toLower)
  toUpper s := String.ofList (s.toList.map Char.toUpper)
  equalFold s t := s.toList.map Char.toLower == t.toList.map Char.toLower
  canonicalHeaderKey := id
  quote := id
  sprint v := v.string?.getD ""
  regexp _ := .error "unsupported"
  unmarshal _ := none
  unmarshal_size _ _ h := by cases h
  text v := v.string?.getD ""
  get _ _ := none
  put json _ _ := .ok json
  getContext _ _ := none
  merge _ json := .ok json
  edit _ _ _ json := .ok json

def exampleHandler : Handler := fun _ _ scope => (.ok ⟨"m", scope, some ""⟩, scope)

def exampleClient : Client where
  scope := ⟨"m", "/v1/images/generations"⟩

def exampleError : LastError := ⟨503, "unavailable", "", "", false⟩

/-- It sends its own key, by an operation. -/
def secretChannel : Channel where
  apiKey := "a"
  paramOverride :=
    [("operations", .array [.object
      [("mode", .string "set_header"), ("path", .string "Authorization"), ("value", .string "secret-of-a")]])]

/-- It sends its own key, by a header override. -/
def headerChannel : Channel where
  apiKey := "b"
  headersOverride := [("X-Key", .string "secret-of-b")]

def plainChannel : Channel where
  apiKey := "c"

/-- What is kept of the request after an attempt at the channel. -/
def afterFailed (channel : Channel) : RelayInfo :=
  relay exampleLibrary exampleHandler exampleClient [⟨channel, 0, exampleError⟩] exampleClient.fresh

end AmuxApi.Override
