import AmuxApi.Go.Library

/- The overrides of a channel: what it makes of the body and of the headers that are sent upstream.

   A channel has header overrides, and param overrides: keys that are set in the body, and
   operations. Operations change the body, or the header overrides; conditions look at the body
   first, and then at a context that has the request, the header overrides and the retries so far.
   The header overrides that the operations leave are kept in the `RelayInfo`, which is one for
   all attempts of a request, and `UseRuntimeHeadersOverride` says that they count from then on.

   Correspondence (Go ↔ Lean): the functions of `relay/common/override.go`,
   `relay/common/relay_info.go` and `relay/channel/api_request.go` have the source's names;
   `send` is one turn of the loop over channels of `controller/relay.go`, `relay` the loop.
   Go's strings, `fmt`, `regexp` and JSON are a `Library`, and with them the operations that change
   the body only. A map is the list of its entries, in the order in which it is ranged over: the
   header overrides of a channel are ranged over once in an attempt. The audit of overrides is left
   out. -/
namespace AmuxApi.Override

/-! Values, and what is used of Go. -/

/-- What JSON is unmarshalled to. -/
inductive Value
  | nil
  | bool (b : Bool)
  | number (n : Rat)
  | string (s : String)
  | array (items : List Value)
  | object (fields : List (String × Value))

mutual

/-- No text is shorter than the size of what it is unmarshalled to. -/
def Value.size : Value → Nat
  | .nil => 1
  | .bool _ => 1
  | .number _ => 1
  | .string s => s.length + 1
  | .array items => Value.sizes items + 1
  | .object fields => Value.fieldSizes fields + 1

def Value.sizes : List Value → Nat
  | [] => 0
  | v :: vs => v.size + Value.sizes vs

def Value.fieldSize : String × Value → Nat
  | (_, v) => v.size

def Value.fieldSizes : List (String × Value) → Nat
  | [] => 0
  | f :: fs => Value.fieldSize f + Value.fieldSizes fs

end

theorem size_lookup {fields : List (String × Value)} {key : String} {v : Value} (h : fields.lookup key = some v) :
    v.size < (Value.object fields).size := by
  have hle : ∀ fs : List (String × Value), fs.lookup key = some v → v.size ≤ Value.fieldSizes fs := by
    intro fs
    induction fs with
    | nil => intro h; cases h
    | cons f fs ih =>
      intro h
      rw [List.lookup_cons] at h
      rw [Value.fieldSizes]
      cases hkey : key == f.1 with
      | true =>
        rw [hkey] at h
        cases h
        have : Value.fieldSize f = f.2.size := by rw [Value.fieldSize]
        omega
      | false =>
        rw [hkey] at h
        have := ih h
        omega
  rw [Value.size]
  have := hle fields h
  omega

def Value.string? : Value → Option String
  | .string s => some s
  | _ => none

def Value.bool? : Value → Option Bool
  | .bool b => some b
  | _ => none

abbrev Headers := List (String × String)

def Headers.set (h : Headers) (key value : String) : Headers := h.filter (fun e => e.1 != key) ++ [(key, value)]

def Headers.delete (h : Headers) (key : String) : Headers := h.filter fun e => e.1 != key

structure Condition where
  path : String
  mode : String
  value : Value := .nil
  invert : Bool := false
  passMissingKey : Bool := false

structure ParamOperation where
  path : String := ""
  mode : String
  value : Value := .nil
  keepOrigin : Bool := false
  fromSpec : String := ""
  toSpec : String := ""
  conditions : List Condition := []
  logic : String := "OR"

structure LastError where
  statusCode : Int
  message : String
  code : String
  type : String
  skipRetry : Bool

/-- What conditions look at after the body. -/
structure Context where
  upstreamModel : String
  originalModel : String
  requestPath : String
  requestHeaders : Headers
  headerOverride : Headers
  retryIndex : Int
  lastError : Option LastError
  isChannelTest : Bool

def Context.withHeaders (ctx : Context) (headers : Headers) : Context := { ctx with headerOverride := headers }

inductive Err
  | text (message : String)
  | sourceHeaderNotFound (header : String)
  | returnError (value : Value)
  | operation (mode : String) (err : Err)
  | headerOverrideInvalid (message : String)

/-- The modes that change the body only. -/
inductive Edit
  | delete | set | move | copy | prepend | append | trimStart | trimEnd | ensureStart | ensureEnd
  | trimSpace | toLower | toUpper | replace | regexReplace | pruneObjects
  deriving DecidableEq

/-- Go, with `gjson` and `sjson`: `get` and `put` are by paths in a JSON text whose negative indices
are resolved first, and `getContext` is by paths in the marshalled context. -/
structure Library where
  toLower : String → String
  toUpper : String → String
  equalFold : String → String → Bool
  canonicalHeaderKey : String → String
  quote : String → String
  sprint : Value → String
  regexp : String → Except String (String → Bool)
  unmarshal : String → Option Value
  unmarshal_size : ∀ s v, unmarshal s = some v → v.size ≤ s.length
  text : Value → String
  get : String → String → Option Value
  put : String → String → Value → Except Err String
  getContext : Context → String → Option Value
  merge : List (String × Value) → String → Except Err String
  edit : Edit → ParamOperation → Context → String → Except Err String

/-! The configuration. -/

/-- The first kind of conditions is an object of paths and values. -/
def parseConditionOperations : Value → Option (List Condition)
  | .object fields =>
    let conditions : List Condition := fields.filterMap fun f =>
      if Go.trimSpace f.1 = "" then none else some { path := Go.trimSpace f.1, mode := "full", value := f.2 }
    if conditions.isEmpty then none else some conditions
  | .array items => items.mapM fun item =>
    match item with
    | .object fields =>
      let path := ((fields.lookup "path").bind Value.string?).getD ""
      let mode := ((fields.lookup "mode").bind Value.string?).getD ""
      if Go.trimSpace path = "" ∨ Go.trimSpace mode = "" then none
      else
        some
          { path, mode
            value := (fields.lookup "value").getD .nil
            invert := ((fields.lookup "invert").bind Value.bool?).getD false
            passMissingKey := ((fields.lookup "pass_missing_key").bind Value.bool?).getD false }
    | _ => none
  | _ => none

def parseOperation : Value → Option ParamOperation
  | .object fields =>
    match (fields.lookup "mode").bind Value.string? with
    | none => none
    | some mode =>
      let operation : ParamOperation :=
        { path := ((fields.lookup "path").bind Value.string?).getD ""
          mode
          value := (fields.lookup "value").getD .nil
          keepOrigin := ((fields.lookup "keep_origin").bind Value.bool?).getD false
          fromSpec := ((fields.lookup "from").bind Value.string?).getD ""
          toSpec := ((fields.lookup "to").bind Value.string?).getD ""
          logic := ((fields.lookup "logic").bind Value.string?).getD "OR" }
      match fields.lookup "conditions" with
      | none => some operation
      | some conditions => (parseConditionOperations conditions).map fun cs => { operation with conditions := cs }
  | _ => none

def tryParseOperations (paramOverride : List (String × Value)) : Option (List ParamOperation) :=
  match paramOverride.lookup "operations" with
  | some (.array ops) => ops.mapM parseOperation
  | _ => none

section
variable (lib : Library)

def buildLegacyParamOverride (paramOverride : List (String × Value)) : List (String × Value) :=
  paramOverride.filter fun e => !lib.equalFold (Go.trimSpace e.1) "operations"

/-! Header names and values. -/

def nonEmpty (s : String) : Option String := if s = "" then none else some s

def normalizeHeaderContextKey (key : String) : String := Go.trimSpace (lib.toLower key)

/-- What stands for the names of more than one header. -/
def isHeaderPassthroughRuleKeyForOverride (key : String) : Bool :=
  let key := Go.trimSpace (lib.toLower key)
  key == "*" || (Go.after "re:" key).isSome || (Go.after "regex:" key).isSome

def sanitizeEntry (target : Headers) (e : String × Value) : Headers :=
  let key := normalizeHeaderContextKey lib e.1
  let value := Go.trimSpace (lib.sprint e.2)
  if key = "" then target
  else if value = "" then if isHeaderPassthroughRuleKeyForOverride lib key then target.set key "" else target
  else target.set key value

def sanitizeHeaderOverrideMap (source : List (String × Value)) : Headers := source.foldl (sanitizeEntry lib) []

/-- A map whose values are texts already. -/
def Headers.values (h : Headers) : List (String × Value) := h.map fun e => (e.1, .string e.2)

def buildRequestHeadersContext (headers : Headers) : Headers :=
  (headers.filterMap fun e =>
    if normalizeHeaderContextKey lib e.1 = "" ∨ Go.trimSpace e.2 = "" then none
    else some (normalizeHeaderContextKey lib e.1, Go.trimSpace e.2)).foldl (fun h e => h.set e.1 e.2) []

/-- The override first, and then what the client has sent. -/
def getHeaderValueFromContext (ctx : Context) (headerName : String) : Option String :=
  let name := normalizeHeaderContextKey lib headerName
  if name = "" then none
  else
    [ctx.headerOverride, ctx.requestHeaders].findSome? fun source =>
      (source.lookup name).bind fun raw => nonEmpty (Go.trimSpace raw)

def splitHeaderListValue (raw : String) : List String :=
  (raw.splitOn ",").filterMap fun item => nonEmpty (Go.trimSpace item)

mutual

def parseHeaderReplacementTokens : Value → Except Err (List String)
  | .nil => .ok []
  | .string raw => .ok (splitHeaderListValue raw)
  | .array items =>
    match replacementTokens items with
    | .error err => .error err
    | .ok tokens => .ok tokens.eraseDups
  | .object _ => .error (.text "header replacement value must be string, array or null")
  | .bool b => .ok (nonEmpty (Go.trimSpace (lib.sprint (.bool b)))).toList
  | .number n => .ok (nonEmpty (Go.trimSpace (lib.sprint (.number n)))).toList

def replacementTokens : List Value → Except Err (List String)
  | [] => .ok []
  | item :: items =>
    match parseHeaderReplacementTokens item with
    | .error err => .error err
    | .ok tokens =>
      match replacementTokens items with
      | .error err => .error err
      | .ok rest => .ok (tokens ++ rest)

end

/-- The tokens of a header, each replaced as the mapping says. -/
def replaceTokens (mapping : List (String × Value)) (keepOnlyDeclared : Bool) : List String → Except Err (List String)
  | [] => .ok []
  | token :: tokens => do
    let replaced ←
      match mapping.lookup token with
      | some replacement => parseHeaderReplacementTokens lib replacement
      | none =>
        if keepOnlyDeclared then .ok []
        else
          match mapping.lookup "*" with
          | some replacement => parseHeaderReplacementTokens lib replacement
          | none => .ok [token]
    return replaced ++ (← replaceTokens mapping keepOnlyDeclared tokens)

/-- No value: the header is deleted. -/
def resolveHeaderOverrideValueByMapping (ctx : Context) (headerName : String) (mapping : List (String × Value)) :
    Except Err (Option String) :=
  if mapping.isEmpty then .error (.text "header value mapping cannot be empty")
  else do
    let appendTokens ←
      match mapping.lookup "$append" with
      | some raw => parseHeaderReplacementTokens lib raw
      | none => .ok []
    let keepOnlyDeclared := ((mapping.lookup "$keep_only_declared").bind Value.bool?).getD false
    let sourceTokens := ((getHeaderValueFromContext lib ctx headerName).map splitHeaderListValue).getD []
    let tokens := ((← replaceTokens lib mapping keepOnlyDeclared sourceTokens) ++ appendTokens).eraseDups
    return if tokens.isEmpty then none else some (",".intercalate tokens)

def resolveHeaderOverrideValue (ctx : Context) (headerName : String) (value : Value) : Except Err (Option String) :=
  match value with
  | .nil => .error (.text "header value is required")
  | .object mapping => resolveHeaderOverrideValueByMapping lib ctx headerName mapping
  | value => .ok (nonEmpty (Go.trimSpace (lib.sprint value)))

/-! Operations on the header overrides. They answer with the new ones. -/

def setHeaderOverrideInContext (ctx : Context) (headerName : String) (value : Value) (keepOrigin : Bool) :
    Except Err Headers :=
  let name := normalizeHeaderContextKey lib headerName
  if name = "" then .error (.text "header name is required")
  else if keepOrigin ∧ Go.trimSpace ((ctx.headerOverride.lookup name).getD "") ≠ "" then .ok ctx.headerOverride
  else
    match resolveHeaderOverrideValue lib ctx name value with
    | .error err => .error err
    | .ok none => .ok (ctx.headerOverride.delete name)
    | .ok (some headerValue) => .ok (ctx.headerOverride.set name headerValue)

def deleteHeaderOverrideInContext (headers : Headers) (headerName : String) : Except Err Headers :=
  let name := normalizeHeaderContextKey lib headerName
  if name = "" then .error (.text "header name is required") else .ok (headers.delete name)

def copyHeaderInContext (ctx : Context) (fromHeader toHeader : String) (keepOrigin : Bool) : Except Err Headers :=
  let fromHeader := normalizeHeaderContextKey lib fromHeader
  let toHeader := normalizeHeaderContextKey lib toHeader
  if fromHeader = "" ∨ toHeader = "" then .error (.text "copy_header from/to is required")
  else
    match getHeaderValueFromContext lib ctx fromHeader with
    | none => .error (.sourceHeaderNotFound fromHeader)
    | some value => setHeaderOverrideInContext lib ctx toHeader (.string value) keepOrigin

def moveHeaderInContext (ctx : Context) (fromHeader toHeader : String) (keepOrigin : Bool) : Except Err Headers :=
  let fromHeader := normalizeHeaderContextKey lib fromHeader
  let toHeader := normalizeHeaderContextKey lib toHeader
  if fromHeader = "" ∨ toHeader = "" then .error (.text "move_header from/to is required")
  else
    match copyHeaderInContext lib ctx fromHeader toHeader keepOrigin with
    | .error err => .error err
    | .ok headers =>
      if lib.equalFold fromHeader toHeader then .ok headers else deleteHeaderOverrideInContext lib headers fromHeader

/-- A source that is missing is skipped. -/
def orMissing (headers : Headers) : Except Err Headers → Except Err Headers
  | .error (.sourceHeaderNotFound _) => .ok headers
  | result => result

def normalizeNames (names : List String) : Except Err (List String) :=
  let names := ((names.map (normalizeHeaderContextKey lib)).filter fun name => name != "").eraseDups
  if names.isEmpty then .error (.text "pass_headers value is invalid") else .ok names

theorem size_unmarshal {raw : String} {v : Value} (h : lib.unmarshal (Go.trimSpace raw) = some v) :
    v.size < (Value.string raw).size := by
  calc v.size ≤ (Go.trimSpace raw).length := lib.unmarshal_size _ _ h
    _ ≤ raw.length := Go.length_trimSpace_le raw
    _ < raw.length + 1 := Nat.lt_succ_self _

/-- A text that is JSON is unmarshalled first. -/
def parseHeaderPassThroughNames (value : Value) : Except Err (List String) :=
  match value with
  | .nil => .error (.text "pass_headers value is required")
  | .string raw =>
    if Go.trimSpace raw = "" then .error (.text "pass_headers value is required")
    else if (Go.after "[" (Go.trimSpace raw)).isSome || (Go.after "\x7b" (Go.trimSpace raw)).isSome then
      match _hparsed : lib.unmarshal (Go.trimSpace raw) with
      | some parsed => parseHeaderPassThroughNames parsed
      | none => normalizeNames lib ((Go.trimSpace raw).splitOn ",")
    else normalizeNames lib ((Go.trimSpace raw).splitOn ",")
  | .array items => normalizeNames lib (items.map lib.sprint)
  | .object fields =>
    let candidates (key : String) : List String :=
      match _hraw : fields.lookup key with
      | none => []
      | some raw => (parseHeaderPassThroughNames raw).toOption.getD []
    normalizeNames lib (candidates "headers" ++ candidates "names" ++ candidates "header")
  | _ => .error (.text "pass_headers value must be string, array or object")
termination_by value.size
decreasing_by
  · exact size_unmarshal lib _hparsed
  · exact size_lookup _hraw

/-- Names of headers that are sent as the client has sent them. -/
def passHeaders (ctx : Context) (names : List String) (keepOrigin : Bool) : Except Err Headers :=
  names.foldlM (fun headers name =>
    orMissing headers (copyHeaderInContext lib (ctx.withHeaders headers) name name keepOrigin))
    ctx.headerOverride

/-! Fields that are kept the same in the body and in the headers. -/

inductive SyncTarget
  | json (key : String)
  | header (key : String)

def parseSyncTarget (spec : String) : Except Err SyncTarget :=
  let raw := Go.trimSpace spec
  let kind := raw.toList.takeWhile fun c => c != ':'
  let rest := raw.toList.drop (kind.length + 1)
  if raw = "" then .error (.text "sync_fields target is required")
  else if kind = raw.toList then .ok (.json raw)
  else
    let key := Go.trimSpace (String.ofList rest)
    if key = "" then .error (.text ("sync_fields target key is required: " ++ raw))
    else
      match lib.toLower (Go.trimSpace (String.ofList kind)) with
      | "json" => .ok (.json key)
      | "body" => .ok (.json key)
      | "header" => .ok (.header key)
      | _ => .error (.text ("sync_fields target prefix is invalid: " ++ raw))

def readSyncTargetValue (json : String) (ctx : Context) : SyncTarget → Option Value
  | .json key =>
    match lib.get json key with
    | some .nil => none
    | some (.string s) => if Go.trimSpace s = "" then none else some (.string s)
    | value => value
  | .header key => (getHeaderValueFromContext lib ctx key).map .string

def writeSyncTargetValue (json : String) (ctx : Context) (value : Value) : SyncTarget → Except Err (String × Headers)
  | .json key => (lib.put json key value).map fun json => (json, ctx.headerOverride)
  | .header key => (setHeaderOverrideInContext lib ctx key value false).map fun headers => (json, headers)

def syncFieldsBetweenTargets (json : String) (ctx : Context) (fromSpec toSpec : String) :
    Except Err (String × Headers) := do
  let fromTarget ← parseSyncTarget lib fromSpec
  let toTarget ← parseSyncTarget lib toSpec
  match readSyncTargetValue lib json ctx fromTarget, readSyncTargetValue lib json ctx toTarget with
  | some value, none => writeSyncTargetValue lib json ctx value toTarget
  | none, some value => writeSyncTargetValue lib json ctx value fromTarget
  | _, _ => return (json, ctx.headerOverride)

/-! Conditions. -/

def Value.type : Value → String
  | .nil => "Null"
  | .bool true => "True"
  | .bool false => "False"
  | .number _ => "Number"
  | .string _ => "String"
  | _ => "JSON"

def compareEqual : Value → Value → Except Err Bool
  | .nil, .nil => .ok true
  | .nil, _ => .ok false
  | _, .nil => .ok false
  | .bool b, .bool b' => .ok (b == b')
  | .number n, .number n' => .ok (n == n')
  | v, v' =>
    if v.type ≠ v'.type then .error (.text ("compare for different types, got " ++ v.type ++ " and " ++ v'.type))
    else .ok (lib.text v == lib.text v')

def compareNumeric (compare : Rat → Rat → Bool) : Value → Value → Except Err Bool
  | .number n, .number n' => .ok (compare n n')
  | v, v' =>
    .error (.text ("numeric comparison requires both values to be numbers, got " ++ v.type ++ " and " ++ v'.type))

def compareGjsonValues (v v' : Value) (mode : String) : Except Err Bool :=
  match mode with
  | "full" => compareEqual lib v v'
  | "prefix" => .ok (Go.after (lib.text v') (lib.text v)).isSome
  | "suffix" => .ok (decide ((lib.text v').toList <:+ (lib.text v).toList))
  | "contains" => .ok (Go.contains (lib.text v) (lib.text v'))
  | "gt" => compareNumeric (fun n n' => decide (n > n')) v v'
  | "gte" => compareNumeric (fun n n' => decide (n ≥ n')) v v'
  | "lt" => compareNumeric (fun n n' => decide (n < n')) v v'
  | "lte" => compareNumeric (fun n n' => decide (n ≤ n')) v v'
  | _ => .error (.text ("unsupported comparison mode: " ++ mode))

def checkSingleCondition (json : String) (ctx : Context) (condition : Condition) : Except Err Bool :=
  match (lib.get json condition.path).or (lib.getContext ctx condition.path) with
  | none => .ok condition.passMissingKey
  | some value => (compareGjsonValues lib value condition.value (lib.toLower condition.mode)).map fun result =>
    if condition.invert then !result else result

/-- Every condition is looked at, whatever the others are. -/
def checkConditions (json : String) (ctx : Context) (conditions : List Condition) (logic : String) : Except Err Bool :=
  if conditions.isEmpty then .ok true
  else
    (conditions.mapM (checkSingleCondition lib json ctx)).map fun results =>
      if lib.toUpper logic = "AND" then results.all id else results.any id

/-! Param overrides. -/

inductive Mode
  | edit (e : Edit)
  | returnError | setHeader | deleteHeader | copyHeader | moveHeader | passHeaders | syncFields
  | unknown

def Mode.parse (mode : String) : Mode :=
  match mode with
  | "delete" => .edit .delete
  | "set" => .edit .set
  | "move" => .edit .move
  | "copy" => .edit .copy
  | "prepend" => .edit .prepend
  | "append" => .edit .append
  | "trim_prefix" => .edit .trimStart
  | "trim_suffix" => .edit .trimEnd
  | "ensure_prefix" => .edit .ensureStart
  | "ensure_suffix" => .edit .ensureEnd
  | "trim_space" => .edit .trimSpace
  | "to_lower" => .edit .toLower
  | "to_upper" => .edit .toUpper
  | "replace" => .edit .replace
  | "regex_replace" => .edit .regexReplace
  | "prune_objects" => .edit .pruneObjects
  | "return_error" => .returnError
  | "set_header" => .setHeader
  | "delete_header" => .deleteHeader
  | "copy_header" => .copyHeader
  | "move_header" => .moveHeader
  | "pass_headers" => .passHeaders
  | "sync_fields" => .syncFields
  | _ => .unknown

/-- The names of a copy or a move, each from `path` when it is not given. -/
def ParamOperation.headers (op : ParamOperation) : String × String :=
  ((nonEmpty (Go.trimSpace op.fromSpec)).getD (Go.trimSpace op.path),
    (nonEmpty (Go.trimSpace op.toSpec)).getD (Go.trimSpace op.path))

/-- The body and the header overrides after an operation whose conditions hold. -/
def operate (op : ParamOperation) (json : String) (ctx : Context) : Except Err (String × Headers) :=
  match Mode.parse op.mode with
  | .edit e => (lib.edit e op ctx json).map fun json => (json, ctx.headerOverride)
  | .returnError => .error (.returnError op.value)
  | .setHeader =>
    ((setHeaderOverrideInContext lib ctx op.path op.value op.keepOrigin).mapError (.operation op.mode)).map
      fun headers => (json, headers)
  | .deleteHeader => ((deleteHeaderOverrideInContext lib ctx.headerOverride op.path).mapError (.operation op.mode)).map
      fun headers => (json, headers)
  | .copyHeader => ((orMissing ctx.headerOverride
      (copyHeaderInContext lib ctx op.headers.1 op.headers.2 op.keepOrigin)).mapError (.operation op.mode)).map
      fun headers => (json, headers)
  | .moveHeader => ((orMissing ctx.headerOverride
      (moveHeaderInContext lib ctx op.headers.1 op.headers.2 op.keepOrigin)).mapError (.operation op.mode)).map
      fun headers => (json, headers)
  | .passHeaders =>
    match parseHeaderPassThroughNames lib op.value with
    | .error err => .error err
    | .ok names => ((Override.passHeaders lib ctx names op.keepOrigin).mapError (.operation op.mode)).map
      fun headers => (json, headers)
  | .syncFields => (syncFieldsBetweenTargets lib json ctx op.fromSpec op.toSpec).mapError (.operation op.mode)
  | .unknown => .error (.text ("unknown operation: " ++ op.mode))

/-- An operation whose conditions do not hold is skipped. -/
def applyOperation (op : ParamOperation) (json : String) (ctx : Context) : Except Err (String × Headers) :=
  match checkConditions lib json ctx op.conditions op.logic with
  | .error err => .error err
  | .ok false => .ok (json, ctx.headerOverride)
  | .ok true => operate lib op json ctx

def applyOperations (ctx : Context) : List ParamOperation → String → Headers → Except Err (String × Headers)
  | [], json, headers => .ok (json, headers)
  | op :: ops, json, headers =>
    match applyOperation lib op json (ctx.withHeaders headers) with
    | .error err => .error err
    | .ok (json, headers) => applyOperations ctx ops json headers

def applyParamOverride (json : String) (paramOverride : List (String × Value)) (ctx : Context) :
    Except Err (String × Headers) :=
  match tryParseOperations paramOverride with
  | some operations =>
    match if (buildLegacyParamOverride lib paramOverride).isEmpty then .ok json
      else lib.merge (buildLegacyParamOverride lib paramOverride) json with
    | .error err => .error err
    | .ok json => applyOperations lib ctx operations json ctx.headerOverride
  | none => (lib.merge paramOverride json).map fun json => (json, ctx.headerOverride)

/-! Attempts. -/

/-- What is used of a channel. -/
structure Channel where
  apiKey : String := ""
  paramOverride : List (String × Value) := []
  headersOverride : List (String × Value) := []

/-- What a handler may overwrite of the request, and no attempt resets. -/
structure Scope where
  originModelName : String := ""
  requestURLPath : String := ""

/-- The client's request. The names of its headers are canonical. -/
structure Client where
  headers : Headers := []
  scope : Scope := {}
  isChannelTest : Bool := false

/-- What is kept of a request from one attempt to the next. -/
structure RelayInfo where
  channelMeta : Channel := {}
  retryIndex : Int := 0
  lastError : Option LastError := none
  runtimeHeadersOverride : Headers := []
  useRuntimeHeadersOverride : Bool := false
  scope : Scope := {}

/-- Before the first attempt. -/
def Client.fresh (client : Client) : RelayInfo := { scope := client.scope }

def RelayInfo.initChannelMeta (info : RelayInfo) (channel : Channel) : RelayInfo := { info with channelMeta := channel }

def getEffectiveHeaderOverride (info : RelayInfo) : Headers :=
  if info.useRuntimeHeadersOverride then sanitizeHeaderOverrideMap lib info.runtimeHeadersOverride.values
  else sanitizeHeaderOverrideMap lib info.channelMeta.headersOverride

def buildParamOverrideContext (client : Client) (upstreamModelName : String) (info : RelayInfo) : Context where
  upstreamModel := upstreamModelName
  originalModel := info.scope.originModelName
  requestPath := info.scope.requestURLPath
  requestHeaders := buildRequestHeadersContext lib client.headers
  headerOverride := sanitizeHeaderOverrideMap lib (getEffectiveHeaderOverride lib info).values
  retryIndex := info.retryIndex
  lastError := info.lastError
  isChannelTest := client.isChannelTest

def applyParamOverrideWithRelayInfo (client : Client) (upstreamModelName json : String) (info : RelayInfo) :
    Except Err (String × RelayInfo) :=
  if info.channelMeta.paramOverride.isEmpty then .ok (json, info)
  else
    match applyParamOverride lib json info.channelMeta.paramOverride
      (buildParamOverrideContext lib client upstreamModelName info) with
    | .error err => .error err
    | .ok (json, headers) =>
      .ok (json,
        { info with
          runtimeHeadersOverride := sanitizeHeaderOverrideMap lib headers.values, useRuntimeHeadersOverride := true })

/-! The headers that are sent. -/

def isHeaderPassthroughRuleKey (key : String) : Bool :=
  let key := Go.trimSpace key
  key == "*" || (Go.after "re:" (lib.toLower key)).isSome || (Go.after "regex:" (lib.toLower key)).isSome

def passthroughSkipHeaderNamesLower : List String :=
  ["connection", "keep-alive", "proxy-authenticate", "proxy-authorization", "te", "trailer",
    "transfer-encoding", "upgrade",
    "cookie", "host", "content-length", "accept-encoding", "authorization", "x-api-key", "x-goog-api-key",
    "sec-websocket-key", "sec-websocket-version", "sec-websocket-extensions"]

def shouldSkipPassthroughHeader (name : String) : Bool :=
  Go.trimSpace name == "" || passthroughSkipHeaderNamesLower.contains (lib.toLower (Go.trimSpace name))

/-- Whether all headers are passed, and those whose names match. -/
structure Passthrough where
  passAll : Bool := false
  regexps : List (String → Bool) := []

def Passthrough.add (rules : Passthrough) (key : String) : Except Err Passthrough :=
  let name := Go.trimSpace (lib.toLower key)
  if name = "*" then .ok { rules with passAll := true }
  else
    match (Go.after "re:" name).or (Go.after "regex:" name) with
    | none => .ok rules
    | some pattern =>
      if Go.trimSpace pattern = "" then
        .error (.headerOverrideInvalid ("header passthrough regex pattern is empty: " ++ lib.quote key))
      else
        match lib.regexp (Go.trimSpace pattern) with
        | .error message => .error (.headerOverrideInvalid message)
        | .ok re => .ok { rules with regexps := rules.regexps ++ [re] }

def Passthrough.headers (rules : Passthrough) (client : Client) : Headers :=
  client.headers.foldl (fun h e =>
    if shouldSkipPassthroughHeader lib e.1 || !(rules.passAll || rules.regexps.any fun re => re e.1) then h
    else if Go.trimSpace e.2 = "" then h
    else h.set (lib.toLower (Go.trimSpace e.1)) (Go.trimSpace e.2)) []

def clientHeaderPlaceholder : String := "\x7bclient_header:"

/-- No value: the header is left alone. -/
def applyHeaderOverridePlaceholders (client : Client) (apiKey template : String) : Except Err (Option String) :=
  match Go.after clientHeaderPlaceholder (Go.trimSpace template) with
  | some rest =>
    let name := rest.toList.takeWhile fun c => c != '\x7d'
    if rest.toList ≠ name ++ ['\x7d'] then
      .error (.headerOverrideInvalid ("client_header placeholder must be the full value: " ++ lib.quote template))
    else if Go.trimSpace (String.ofList name) = "" then
      .error (.headerOverrideInvalid ("client_header placeholder name is empty: " ++ lib.quote template))
    else
      let value := (client.headers.lookup (lib.canonicalHeaderKey (Go.trimSpace (String.ofList name)))).getD ""
      .ok (if Go.trimSpace value = "" then none else some value)
  | none =>
    let value := if Go.contains template "\x7bapi_key\x7d" then template.replace "\x7bapi_key\x7d" apiKey else template
    .ok (if Go.trimSpace value = "" then none else some value)

/-- One entry of the header overrides, after the headers that are passed. -/
def overrideHeader (client : Client) (apiKey : String) (h : Headers) (e : String × String) : Except Err Headers :=
  let key := Go.trimSpace (lib.toLower e.1)
  if isHeaderPassthroughRuleKey lib e.1 || key == "" then .ok h
  else if client.isChannelTest && (Go.after clientHeaderPlaceholder (Go.trimSpace e.2)).isSome then .ok h
  else
    match applyHeaderOverridePlaceholders lib client apiKey e.2 with
    | .error err => .error err
    | .ok none => .ok h
    | .ok (some value) => .ok (h.set key value)

def processHeaderOverride (client : Client) (info : RelayInfo) : Except Err Headers := do
  let source := getEffectiveHeaderOverride lib info
  let rules : Passthrough ←
    if client.isChannelTest then .ok {} else source.foldlM (fun (rules : Passthrough) e => rules.add lib e.1) {}
  source.foldlM (overrideHeader lib client info.channelMeta.apiKey) (rules.headers lib client)

/-- What a handler makes of the request for a channel: the model that it asks for, what it has
overwritten by then, and the body when param overrides are applied to it. -/
structure Prepared where
  upstreamModelName : String
  scope : Scope
  body : Option String

/-- The second part is what the attempt leaves of the request for the next. -/
abbrev Handler := Channel → Client → Scope → Except Err Prepared × Scope

/-- The overrides, for what the handler has prepared. -/
def overridden (client : Client) (info : RelayInfo) (prepared : Prepared) : Except Err Headers × RelayInfo :=
  let info := { info with scope := prepared.scope }
  match prepared.body with
  | none => (processHeaderOverride lib client info, info)
  | some json =>
    match applyParamOverrideWithRelayInfo lib client prepared.upstreamModelName json info with
    | .error err => (.error err, info)
    | .ok (_, info) => (processHeaderOverride lib client info, info)

/-- One attempt: the headers that override those of the request that is sent, and what is kept. -/
def send (handler : Handler) (client : Client) (info : RelayInfo) (channel : Channel) (retryIndex : Int) :
    Except Err Headers × RelayInfo :=
  let info := { info with retryIndex := retryIndex }.initChannelMeta channel
  let (prepared, left) := handler channel client info.scope
  let sent : Except Err Headers × RelayInfo :=
    match prepared with
    | .error err => (.error err, info)
    | .ok prepared => overridden lib client info prepared
  (sent.1, { sent.2 with scope := left })

/-- An attempt that has failed, with the error that it ended with. -/
structure Attempt where
  channel : Channel
  retryIndex : Int
  error : LastError

/-- What is kept after the attempts that have failed so far. -/
def relay (handler : Handler) (client : Client) : List Attempt → RelayInfo → RelayInfo
  | [], info => info
  | a :: attempts, info =>
    relay handler client attempts
      { (send lib handler client info a.channel a.retryIndex).2 with lastError := some a.error }

end

end AmuxApi.Override
