import Mathlib.Data.List.Basic

/- Usage and chat chunks, as the relay reads and writes them (`dto/openai_response.go`). Of each record
   there are the fields that the handlers read; a pointer is an `Option`, and texts that are left out of
   the JSON when empty are empty. -/
namespace AmuxApi.Dto

structure InputTokenDetails where
  cachedTokens : Int := 0
  cachedCreationTokens : Int := 0
  textTokens : Int := 0
  audioTokens : Int := 0
  imageTokens : Int := 0
  deriving DecidableEq, Repr

structure OutputTokenDetails where
  textTokens : Int := 0
  audioTokens : Int := 0
  imageTokens : Int := 0
  reasoningTokens : Int := 0
  deriving DecidableEq, Repr

structure Usage where
  promptTokens : Int := 0
  completionTokens : Int := 0
  totalTokens : Int := 0
  usageSemantic : String := ""
  promptTokensDetails : InputTokenDetails := {}
  completionTokenDetails : OutputTokenDetails := {}
  inputTokens : Int := 0
  outputTokens : Int := 0
  inputTokensDetails : Option InputTokenDetails := none
  claudeCacheCreation5mTokens : Int := 0
  claudeCacheCreation1hTokens : Int := 0
  deriving DecidableEq, Repr

/-! Chunks. -/

structure ToolCall where
  index : Option Int := none
  id : String := ""
  name : String := ""
  arguments : String := ""
  deriving DecidableEq, Repr

structure Delta where
  content : Option String := none
  reasoningContent : Option String := none
  reasoning : Option String := none
  toolCalls : List ToolCall := []
  deriving DecidableEq, Repr

def Delta.getContentString (d : Delta) : String := d.content.getD ""

def Delta.getReasoningContent (d : Delta) : String := (d.reasoningContent <|> d.reasoning).getD ""

structure Choice where
  delta : Delta := {}
  finishReason : Option String := none
  deriving DecidableEq, Repr

/-- The finish reason, if there is one that is not empty. -/
def Choice.finished (c : Choice) : Option String := c.finishReason.filter (· ≠ "")

structure Chunk where
  id : String := ""
  model : String := ""
  choices : List Choice := []
  usage : Option Usage := none
  deriving DecidableEq, Repr

end AmuxApi.Dto
