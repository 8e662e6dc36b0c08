import AmuxApi.Dto.Chat

/- A stream of chat chunks, sent on as the events of a Claude message.

   A Claude message is a list of blocks, each of which is started, added to and stopped, between
   `message_start` and `message_stop`. The converter has one text or thinking block open at a time, or
   the blocks of the tool calls that came last; the blocks of tool calls are numbered from a base by the
   index of the call.

   Correspondence (Go ↔ Lean): the functions of `service/convert.go` and, for Claude
   clients, of `relay/channel/openai/helper.go` have the source's names; `relay` is the loop of
   `OaiStreamHandler` in `relay-openai.go`, without the end of the stream;
   `stopReasonOpenAI2Claude` is that of `relay/reasonmap/reasonmap.go`; `Info` is
   `ClaudeConvertInfo`, and `SendResponseCount` of the request is passed beside it.
   Chunks are taken as parsed: data that is not JSON is logged and skipped. -/
namespace AmuxApi.ClaudeStream
open Dto

/-! Events. -/

inductive Block
  | toolUse (id name : String)
  | thinking
  | text
  deriving DecidableEq, Repr

inductive BlockDelta
  | inputJson (partialJson : String)
  | thinking (thinking : String)
  | text (text : String)
  deriving DecidableEq, Repr

structure ClaudeUsage where
  inputTokens : Int
  outputTokens : Int
  cacheCreationInputTokens : Int := 0
  cacheReadInputTokens : Int := 0
  /-- for five minutes, for one hour -/
  cacheCreation : Option (Int × Int) := none
  deriving DecidableEq, Repr

inductive Event
  | messageStart (id model : String) (usage : ClaudeUsage)
  | contentBlockStart (index : Int) (block : Block)
  | contentBlockDelta (index : Int) (delta : BlockDelta)
  | contentBlockStop (index : Int)
  | messageDelta (usage : ClaudeUsage) (stopReason : String)
  | messageStop
  deriving DecidableEq, Repr

def normalizeCacheCreationSplit (totalTokens tokens5m tokens1h : Int) : Int × Int :=
  (tokens5m + max (totalTokens - tokens5m - tokens1h) 0, tokens1h)

def buildClaudeUsageFromOpenAIUsage (u : Usage) : ClaudeUsage :=
  let split := normalizeCacheCreationSplit u.promptTokensDetails.cachedCreationTokens u.claudeCacheCreation5mTokens
    u.claudeCacheCreation1hTokens
  { inputTokens := u.promptTokens
    outputTokens := u.completionTokens
    cacheCreationInputTokens := u.promptTokensDetails.cachedCreationTokens
    cacheReadInputTokens := u.promptTokensDetails.cachedTokens
    cacheCreation := if split.1 > 0 ∨ split.2 > 0 then some split else none }

def toLower (s : String) : String := String.ofList (s.toList.map Char.toLower)

def stopReasonOpenAI2Claude (reason : String) : String :=
  let r := toLower reason
  if r = "stop" then "end_turn"
  else if r = "stop_sequence" then "stop_sequence"
  else if r = "length" ∨ r = "max_tokens" then "max_tokens"
  else if r = "content_filter" then "refusal"
  else if r = "tool_calls" then "tool_use"
  else reason

/-! The state of the converter. -/

inductive LastMessagesType
  | none | text | tools | thinking
  deriving DecidableEq, Repr

structure Info where
  lastMessagesType : LastMessagesType := .none
  index : Int := 0
  usage : Option Usage := none
  finishReason : String := ""
  done : Bool := false
  toolCallBaseIndex : Int := 0
  toolCallMaxIndexOffset : Int := 0
  deriving DecidableEq, Repr

/-- The state, and the events that the chunk has given so far. -/
structure Out where
  info : Info
  events : List Event := []

def Out.emit (events : List Event) (o : Out) : Out := { o with events := o.events ++ events }

def Out.set (f : Info → Info) (o : Out) : Out := { o with info := f o.info }

/-- For tool calls, all blocks from the base to the largest offset. -/
def stopOpenBlocks (info : Info) : List Event :=
  match info.lastMessagesType with
  | .none => []
  | .text | .thinking => [.contentBlockStop info.index]
  | .tools => (List.range (info.toolCallMaxIndexOffset + 1).toNat).map fun offset : Nat =>
      .contentBlockStop (info.toolCallBaseIndex + offset)

/-- The next index that is free. -/
def Info.advance (info : Info) : Info :=
  match info.lastMessagesType with
  | .none => info
  | .tools =>
      { info with
        index := info.toolCallBaseIndex + info.toolCallMaxIndexOffset + 1
        toolCallBaseIndex := 0
        toolCallMaxIndexOffset := 0
        lastMessagesType := .none }
  | _ => { info with index := info.index + 1, lastMessagesType := .none }

def stopOpenBlocksAndAdvance (o : Out) : Out := (o.emit (stopOpenBlocks o.info)).set Info.advance

/-- Whatever is open of another type is closed. -/
def switchTo (type : LastMessagesType) (o : Out) : Out :=
  if o.info.lastMessagesType ≠ type then stopOpenBlocksAndAdvance o else o

/-- The last events of a message. Without a usage there is no `message_delta`. -/
def close (usage : Option Usage) (stopReason : String) (o : Out) : Out :=
  ((o.emit (stopOpenBlocks o.info)).emit
    ((usage.map fun u => Event.messageDelta (buildClaudeUsageFromOpenAIUsage u) stopReason).toList ++
      [.messageStop])).set
      fun info => { info with done := true }

/-! The first chunk. -/

def firstToolCall (call : ToolCall) (o : Out) : Out :=
  (o.emit (.contentBlockStart 0 (.toolUse call.id call.name) ::
    if call.arguments ≠ "" then [.contentBlockDelta 0 (.inputJson call.arguments)] else [])).set
      fun info => { info with lastMessagesType := .tools, toolCallBaseIndex := 0, toolCallMaxIndexOffset := 0 }

/-- A block of its own for what the first chunk says. -/
def startBlock (type : LastMessagesType) (block : Block) (delta : BlockDelta) (o : Out) : Out :=
  let o := switchTo type o
  (o.emit [.contentBlockStart o.info.index block, .contentBlockDelta o.info.index delta]).set
    fun info => { info with lastMessagesType := type }

def firstContent (delta : Delta) (o : Out) : Out :=
  if delta.getReasoningContent ≠ "" then startBlock .thinking .thinking (.thinking delta.getReasoningContent) o
  else if delta.getContentString ≠ "" then startBlock .text .text (.text delta.getContentString) o
  else o

def firstChoice (chunk : Chunk) (choice : Choice) (o : Out) : Out :=
  let o := match choice.delta.toolCalls with
    | call :: _ => firstToolCall call o
    | [] => o
  let o := firstContent choice.delta o
  match choice.finished with
  | some reason =>
      close (chunk.usage <|> o.info.usage) (stopReasonOpenAI2Claude reason)
        (o.set fun info => { info with finishReason := reason })
  | none => o

def firstChunk (estimate : Int) (chunk : Chunk) (info : Info) : Out :=
  let o : Out := { info, events := [.messageStart chunk.id chunk.model ⟨estimate, 0, 0, 0, none⟩] }
  match chunk.choices with
  | choice :: _ => firstChoice chunk choice o
  | [] => o

/-! The chunks after it. -/

/-- The index that a tool call comes with, or its place in the chunk. -/
def offsetOf (position : Nat) (call : ToolCall) : Int := call.index.getD position

def maxOffset : Nat → Int → List ToolCall → Int
  | _, most, [] => most
  | position, most, call :: calls => maxOffset (position + 1) (max most (offsetOf position call)) calls

/-- A call with a name starts its block. -/
def callEvents (base : Int) (position : Nat) (call : ToolCall) : List Event :=
  let index := base + offsetOf position call
  (if call.name ≠ "" then [.contentBlockStart index (.toolUse call.id call.name)] else []) ++
    if call.arguments ≠ "" then [.contentBlockDelta index (.inputJson call.arguments)] else []

def toolEvents (base : Int) : Nat → List ToolCall → List Event
  | _, [] => []
  | position, call :: calls => callEvents base position call ++ toolEvents base (position + 1) calls

/-- Where the blocks of tool calls begin, if the last blocks are not theirs. -/
def beginTools (o : Out) : Out :=
  if o.info.lastMessagesType ≠ .tools then
    (stopOpenBlocksAndAdvance o).set fun info =>
      { info with toolCallBaseIndex := info.index, toolCallMaxIndexOffset := 0, lastMessagesType := .tools }
  else o

def laterToolCalls (calls : List ToolCall) (o : Out) : Out :=
  let o := beginTools o
  let most := maxOffset 0 o.info.toolCallMaxIndexOffset calls
  (o.emit (toolEvents o.info.toolCallBaseIndex 0 calls)).set fun info =>
    { info with toolCallMaxIndexOffset := most, index := info.toolCallBaseIndex + most }

/-- A block is started only if the last one is of another type. -/
def continueBlock (type : LastMessagesType) (block : Block) (delta : BlockDelta) (o : Out) : Out :=
  if o.info.lastMessagesType ≠ type then startBlock type block delta o
  else o.emit [.contentBlockDelta o.info.index delta]

def laterContent (delta : Delta) (o : Out) : Out :=
  if delta.toolCalls ≠ [] then laterToolCalls delta.toolCalls o
  else if delta.getReasoningContent ≠ "" then continueBlock .thinking .thinking (.thinking delta.getReasoningContent) o
  else if delta.getContentString ≠ "" then continueBlock .text .text (.text delta.getContentString) o
  else o

/-- A chunk with a finish reason and no usage is not looked at any further: a chunk with the usage is
waited for. -/
def laterChoice (chunk : Chunk) (choice : Choice) (o : Out) : Out :=
  match choice.finished with
  | some reason =>
      let o := o.set fun info => { info with finishReason := reason }
      if chunk.usage = none then o
      else close chunk.usage (stopReasonOpenAI2Claude reason) (laterContent choice.delta o)
  | none => laterContent choice.delta o

def orEndTurn (reason : String) : String := if reason = "" then "end_turn" else reason

/-- A chunk without choices is the one with the usage. -/
def usageChunk (chunk : Chunk) (o : Out) : Out :=
  match chunk.usage <|> o.info.usage with
  | some usage => close (some usage) (orEndTurn (stopReasonOpenAI2Claude o.info.finishReason)) o
  | none => o

def laterChunk (chunk : Chunk) (info : Info) : Out :=
  match chunk.choices with
  | choice :: _ => laterChoice chunk choice { info }
  | [] => usageChunk chunk { info }

/-- `estimate`: the prompt tokens, as they were estimated before the request. -/
def streamResponseOpenAI2Claude (estimate : Int) (sendResponseCount : Nat) (chunk : Chunk) (info : Info) : Out :=
  if info.done then { info }
  else if sendResponseCount = 1 then firstChunk estimate chunk info
  else laterChunk chunk info

/-! The handlers. -/

def handleClaudeFormat (estimate : Int) (sendResponseCount : Nat) (chunk : Chunk) (info : Info) : Out :=
  streamResponseOpenAI2Claude estimate sendResponseCount chunk { info with usage := chunk.usage <|> info.usage }

def handleStreamFormat (estimate : Int) (sendResponseCount : Nat) (chunk : Chunk) (info : Info) : Out :=
  handleClaudeFormat estimate (sendResponseCount + 1) chunk info

def relay (estimate : Int) : Nat → Info → List Chunk → Out
  | _, info, [] => { info }
  | sendResponseCount, info, chunk :: chunks =>
      let o := handleStreamFormat estimate sendResponseCount chunk info
      let rest := relay estimate (sendResponseCount + 1) o.info chunks
      { rest with events := o.events ++ rest.events }

end AmuxApi.ClaudeStream
