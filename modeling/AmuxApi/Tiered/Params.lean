import Mathlib.Algebra.Ring.Int.Defs
import Mathlib.Algebra.Order.BigOperators.Group.List
import AmuxApi.ClaudeStream.Model

/- What a billing expression is evaluated with.

   `P` is the part of the prompt that the expression has no variable for, and `CR`, `CC`, `CC1h`, `Img`,
   `AI` are the parts it may have one for. An OpenAI usage counts the parts in the prompt, so that `P` is
   what is left of it; a Claude usage counts them beside it. Every input token is in one of them
   (`input_tokens_counted_once`), of a Claude usage just when it tells its cache writes the way they are read (`Told`):
   where the upstream tells the total only, no parameter has it (`cache_writes_dropped`).

   Correspondence (Go ↔ Lean): the functions of `service/tiered_settle.go`,
   `service/text_quota.go` and `relay/channel/claude/relay-claude.go` (of the usage) have the
   source's names.
   The parameters are floats that hold whole numbers; here they are integers. -/
namespace AmuxApi.Tiered
open Dto
open ClaudeStream (ClaudeUsage)

structure TokenParams where
  p : Int
  c : Int
  len : Int
  cr : Int
  cc : Int
  cc1h : Int
  img : Int
  imgO : Int
  ai : Int
  ao : Int
  deriving DecidableEq, Repr

def buildTieredTokenParams (usage : Usage) (isClaudeUsageSemantic : Bool) (usedVars : String → Bool) : TokenParams :=
  let details := usage.promptTokensDetails
  let cr := details.cachedTokens
  let cc5m := if usage.usageSemantic = "anthropic" then usage.claudeCacheCreation5mTokens
    else details.cachedCreationTokens
  let cc1h := if usage.usageSemantic = "anthropic" then usage.claudeCacheCreation1hTokens else 0
  let imgO := usage.completionTokenDetails.imageTokens
  let ao := usage.completionTokenDetails.audioTokens
  -- what is subtracted for a variable
  let own (name : String) (tokens : Int) : Int := if !isClaudeUsageSemantic && usedVars name then tokens else 0
  { p := max (usage.promptTokens - own "cr" cr - own "cc" cc5m - own "cc1h" cc1h - own "img" details.imageTokens -
      own "ai" details.audioTokens) 0
    c := max (usage.completionTokens - own "img_o" imgO - own "ao" ao) 0
    len := if isClaudeUsageSemantic then usage.promptTokens + cr + cc5m + cc1h else usage.promptTokens
    cr, cc := cc5m, cc1h, img := details.imageTokens, imgO, ai := details.audioTokens, ao }

/-- The cache writes as ratio billing counts them. -/
def cacheWriteTokensTotal (usage : Usage) : Int :=
  let total := usage.promptTokensDetails.cachedCreationTokens
  let split := usage.claudeCacheCreation5mTokens + usage.claudeCacheCreation1hTokens
  if usage.claudeCacheCreation5mTokens > 0 ∨ usage.claudeCacheCreation1hTokens > 0 then
    if total > split then total else split
  else total

def usageSemanticFromUsage (isClaudeFormat : Bool) (usage : Usage) : String :=
  if usage.usageSemantic ≠ "" then usage.usageSemantic else if isClaudeFormat then "anthropic" else "openai"

/-! The usage of a Claude stream. -/

inductive ClaudeEvent
  | messageStart (usage : Option ClaudeUsage)
  | messageDelta (usage : Option ClaudeUsage)
  | other

def getCacheCreation5mTokens (u : ClaudeUsage) : Int := (u.cacheCreation.getD (0, 0)).1

def getCacheCreation1hTokens (u : ClaudeUsage) : Int := (u.cacheCreation.getD (0, 0)).2

def latest (new old : Int) : Int := if new > 0 then new else old

def formatClaudeResponseInfo (usage : Usage) : ClaudeEvent → Usage
  | .messageStart (some u) =>
      { usage with
        promptTokens := u.inputTokens
        usageSemantic := "anthropic"
        promptTokensDetails := { usage.promptTokensDetails with
          cachedTokens := u.cacheReadInputTokens, cachedCreationTokens := u.cacheCreationInputTokens }
        claudeCacheCreation5mTokens := getCacheCreation5mTokens u
        claudeCacheCreation1hTokens := getCacheCreation1hTokens u
        completionTokens := u.outputTokens }
  | .messageDelta (some u) =>
      let details := usage.promptTokensDetails
      let promptTokens := latest u.inputTokens usage.promptTokens
      let completionTokens := latest u.outputTokens usage.completionTokens
      { usage with
        promptTokens
        usageSemantic := "anthropic"
        promptTokensDetails := { details with
          cachedTokens := latest u.cacheReadInputTokens details.cachedTokens
          cachedCreationTokens := latest u.cacheCreationInputTokens details.cachedCreationTokens }
        claudeCacheCreation5mTokens := latest (getCacheCreation5mTokens u) usage.claudeCacheCreation5mTokens
        claudeCacheCreation1hTokens := latest (getCacheCreation1hTokens u) usage.claudeCacheCreation1hTokens
        completionTokens
        totalTokens := promptTokens + completionTokens }
  | _ => usage

/-! Every input token once. -/

structure NonNeg (usage : Usage) : Prop where
  prompt : 0 ≤ usage.promptTokens
  cached : 0 ≤ usage.promptTokensDetails.cachedTokens
  write : 0 ≤ usage.promptTokensDetails.cachedCreationTokens
  write5m : 0 ≤ usage.claudeCacheCreation5mTokens
  write1h : 0 ≤ usage.claudeCacheCreation1hTokens
  image : 0 ≤ usage.promptTokensDetails.imageTokens
  audio : 0 ≤ usage.promptTokensDetails.audioTokens

/-- A usage that says it is Claude's tells all cache writes split by lifetime, another one in total. -/
def Told (usage : Usage) : Prop :=
  let total := usage.promptTokensDetails.cachedCreationTokens
  let split := usage.claudeCacheCreation5mTokens + usage.claudeCacheCreation1hTokens
  if usage.usageSemantic = "anthropic" then total ≤ split else split ≤ total

instance decidableTold (usage : Usage) : Decidable (Told usage) := by
  unfold Told
  infer_instance

def TokenParams.parts (params : TokenParams) : List (String × Int) :=
  [("cr", params.cr), ("cc", params.cc), ("cc1h", params.cc1h), ("img", params.img), ("ai", params.ai)]

def TokenParams.total (params : TokenParams) : Int := (params.parts.map Prod.snd).sum

/-- What the expression has variables for. -/
def TokenParams.referenced (params : TokenParams) (usedVars : String → Bool) : Int :=
  (params.parts.map fun part => if usedVars part.1 then part.2 else 0).sum

theorem referenced_le (params : TokenParams) (usedVars : String → Bool) (h : ∀ part ∈ params.parts, 0 ≤ part.2) :
    params.referenced usedVars ≤ params.total := by
  refine List.sum_le_sum fun part hpart => ?_
  split
  · exact le_refl _
  · exact h part hpart

theorem NonNeg.parts {usage : Usage} (h : NonNeg usage) (isClaude : Bool) (usedVars : String → Bool) :
    ∀ part ∈ (buildTieredTokenParams usage isClaude usedVars).parts, 0 ≤ part.2 := by
  have := h.cached; have := h.write; have := h.write5m; have := h.write1h; have := h.image; have := h.audio
  simp only [TokenParams.parts, buildTieredTokenParams, List.forall_mem_cons, List.not_mem_nil, false_imp_iff,
    implies_true, and_true]
  split <;> omega

/-- **Every input token is in one parameter**, of a Claude usage if and only if it tells its cache writes the way
they are read. -/
theorem input_tokens_counted_once (usage : Usage) (isClaudeFormat : Bool) (usedVars : String → Bool)
    (h : NonNeg usage) :
    let isClaude := decide (usageSemanticFromUsage isClaudeFormat usage = "anthropic")
    let params := buildTieredTokenParams usage isClaude usedVars
    (isClaude = false → params.total ≤ usage.promptTokens →
      params.p + params.referenced usedVars = usage.promptTokens) ∧
    (isClaude = true →
      (params.p + params.cr + params.cc + params.cc1h =
        usage.promptTokens + usage.promptTokensDetails.cachedTokens + cacheWriteTokensTotal usage ↔ Told usage)) := by
  intro isClaude params
  constructor
  · intro hopenai htotal
    have hle := referenced_le params usedVars (h.parts isClaude usedVars)
    have hp : params.p = max (usage.promptTokens - params.referenced usedVars) 0 := by
      simp [params, hopenai, buildTieredTokenParams, TokenParams.referenced, TokenParams.parts]
      omega
    omega
  · intro hclaude
    have hp : params.p = max usage.promptTokens 0 := by
      simp [params, hclaude, buildTieredTokenParams]
    have hprompt := h.prompt
    have hwrite := h.write
    rw [hp]
    simp only [params, buildTieredTokenParams, cacheWriteTokensTotal, Told]
    split_ifs <;> omega

/-! Streams. -/

def usageOf (events : List ClaudeEvent) : Usage := events.foldl formatClaudeResponseInfo {}

/-- A hundred tokens are written to the cache, and told in total, and split or not. -/
def writingStream (split : Option (Int × Int)) : List ClaudeEvent :=
  [.messageStart (some ⟨10, 1, 100, 5, split⟩), .other, .messageDelta (some ⟨0, 7, 0, 0, none⟩)]

theorem split_counted :
    let params := buildTieredTokenParams (usageOf (writingStream (some (70, 30)))) true fun _ => true
    params.p + params.cr + params.cc + params.cc1h = 115 := by
  have hnonneg : NonNeg (usageOf (writingStream (some (70, 30)))) := by constructor <;> decide
  exact ((input_tokens_counted_once _ true (fun _ => true) hnonneg).2 (by decide)).mpr (by decide)

/-- Ratio billing counts the writes, and no parameter does. -/
theorem cache_writes_dropped :
    let usage := usageOf (writingStream none)
    let params := buildTieredTokenParams usage true fun _ => true
    cacheWriteTokensTotal usage = 100 ∧ params.cc = 0 ∧ params.cc1h = 0 ∧
      params.p + params.cr + params.cc + params.cc1h = 15 := by
  decide

end AmuxApi.Tiered
