import AmuxApi.Realtime.Model
import AmuxApi.Tiered.Params

/- What a text request costs in the end, after attempts in several groups.

   A request is priced for the group of its first attempt, and each later attempt puts the ratio of its
   own group into the price data (`getChannel`). Ratio billing reads it there, so that the quota is the one
   of a request priced for the group that has served it. Tiered billing multiplies the token part by the
   ratio of the snapshot, which stays that of the first group, and only the surcharge for tool calls by the
   new one (`first_group_charged`). So it takes the right ratio just when the two groups have the same one
   (`settled_for_serving_group`).

   Correspondence (Go ↔ Lean): the functions of `relay/helper/price.go`, `pkg/billingexpr/settle.go`,
   `service/tiered_settle.go` and `service/text_quota.go` have the source's names; of `controller/relay.go`,
   `relay` is the pricing and the selections, of which each sets `auto_group`. Floats and decimals are exact
   rationals until they become integers of 64 bits. Errors have no text here, and what is only logged is
   left out, as is the mode `responses/compact`, in which a request is priced anew before it is settled. -/
namespace AmuxApi.Tiered
open Dto Option
open Realtime (roundHalf)

/-- What the settings say of the groups, of the tools and of the model of the request. A price or ratio of
the model comes with whether it is set; `runExpr` has the request's body and headers, and `beyondInt` is what
the conversion of a float beyond int64 gives, which Go leaves open. -/
structure Settings where
  quotaPerUnit : Rat
  beyondInt : Rat → Int
  groupRatio : String → Option Rat
  groupGroupRatio : String → String → Option Rat
  enableFreeModelPreConsume : Bool
  preConsumedQuota : Int
  tiered : Bool
  billingExpr : Option String
  runExpr : String → TokenParams → Option Rat
  usedVars : String → String → Bool
  (modelPrice modelRatio : Rat × Bool)
  defaultModelRatio : Option Rat
  (completionRatio cacheRatio createCacheRatio imageRatio : Rat)
  searchPreviewModel : Bool
  (webSearchPreviewPrice webSearchPrice fileSearchPrice : Rat)
  imageCallPrice : String → String → Rat
  audioInputPrice : Rat

structure Request where
  userGroup : String
  promptTokens : Int
  maxTokens : Int
  imagePriceRatio : Rat
  acceptUnsetRatioModel : Bool

structure GroupRatioInfo where
  groupRatio : Rat
  groupSpecialRatio : Rat
  hasSpecialRatio : Bool

structure PriceData where
  freeModel : Bool
  groupRatioInfo : GroupRatioInfo
  quotaToPreConsume : Int
  usePrice : Bool := false
  (modelPrice modelRatio completionRatio cacheRatio imageRatio : Rat := 0)
  (cacheCreationRatio cacheCreation5mRatio cacheCreation1hRatio : Rat := 0)

structure BillingSnapshot where
  exprString : String
  groupRatio : Rat
  estimatedQuotaAfterGroup : Int
  quotaPerUnit : Rat

structure RelayInfo where
  usingGroup : String
  priceData : PriceData
  tieredBillingSnapshot : Option BillingSnapshot

def FitsInt (n : Int) : Prop := -2 ^ 63 ≤ n ∧ n < 2 ^ 63

instance decidableFitsInt (n : Int) : Decidable (FitsInt n) := inferInstanceAs (Decidable (_ ∧ _))

/-- `int(x.Round(0).IntPart())` of a decimal: the low 64 bits. -/
def roundedInt (x : Rat) : Int := Int.bmod (roundHalf x) (2 ^ 64)

/-! The price. -/

section
variable (s : Settings) (req : Request)

def quotaRound (x : Rat) : Int := if FitsInt (roundHalf x) then roundHalf x else s.beyondInt x

def handleGroupRatio (usingGroup : String) : GroupRatioInfo :=
  match s.groupGroupRatio req.userGroup usingGroup with
  | some ratio => ⟨ratio, ratio, true⟩
  | none => ⟨(s.groupRatio usingGroup).getD 1, -1, false⟩

def modelPriceHelperTiered (usingGroup : String) (info : GroupRatioInfo) : Option RelayInfo := do
  let expr ← s.billingExpr
  let rawCost ← s.runExpr expr ⟨req.promptTokens, req.maxTokens, req.promptTokens, 0, 0, 0, 0, 0, 0, 0⟩
  let free := !s.enableFreeModelPreConsume && info.groupRatio == 0
  let quota := if free then 0 else quotaRound s (rawCost / 1000000 * s.quotaPerUnit * info.groupRatio)
  some ⟨usingGroup, { freeModel := free, groupRatioInfo := info, quotaToPreConsume := quota },
    some ⟨expr, info.groupRatio, quota, s.quotaPerUnit⟩⟩

/-- The price of a model without an expression. -/
def modelPriceHelperRatio (usingGroup : String) (info : GroupRatioInfo) : Option RelayInfo :=
  if s.modelPrice.2 then
    let price := if req.imagePriceRatio ≠ 0 then s.modelPrice.1 * req.imagePriceRatio else s.modelPrice.1
    let free := !s.enableFreeModelPreConsume && (info.groupRatio == 0 || price == 0)
    some ⟨usingGroup,
      { freeModel := free, groupRatioInfo := info, usePrice := true, modelPrice := price
        quotaToPreConsume := if free then 0 else Payment.intPart (price * s.quotaPerUnit * info.groupRatio) }, none⟩
  else if s.modelRatio.2 || req.acceptUnsetRatioModel then
    let ratio := s.modelRatio.1
    let tokens := max req.promptTokens s.preConsumedQuota + req.maxTokens
    let free := !s.enableFreeModelPreConsume && (info.groupRatio == 0 || ratio == 0)
    some ⟨usingGroup,
      { freeModel := free, groupRatioInfo := info, modelPrice := s.modelPrice.1, modelRatio := ratio
        quotaToPreConsume := if free then 0 else Payment.intPart (tokens * (ratio * info.groupRatio))
        completionRatio := s.completionRatio, cacheRatio := s.cacheRatio, imageRatio := s.imageRatio
        cacheCreationRatio := s.createCacheRatio, cacheCreation5mRatio := s.createCacheRatio
        cacheCreation1hRatio := s.createCacheRatio * (6 / 3.75) }, none⟩
  else none

def modelPriceHelper (usingGroup : String) : Option RelayInfo :=
  if s.tiered then modelPriceHelperTiered s req usingGroup (handleGroupRatio s req usingGroup)
  else modelPriceHelperRatio s req usingGroup (handleGroupRatio s req usingGroup)

/-- A later attempt, for which a channel of `group` was selected. -/
def getChannel (info : RelayInfo) (group : String) : RelayInfo :=
  { info with usingGroup := group, priceData.groupRatioInfo := handleGroupRatio s req group }

/-- A request whose attempts are in the group `first` and then in the groups `later`. -/
def relay (first : String) (later : List String) : Option RelayInfo :=
  (modelPriceHelper s req first).map fun info => later.foldl (getChannel s req) info

end

/-! The settlement. -/

/-- What the last attempt has left: the usage and the calls of tools. Of `builtInTools`, the web searches
and the file searches. -/
structure Outcome where
  usage : Option Usage
  usageSource : String := ""
  cost : Rat := 0
  claudeFormat : Bool := false
  openRouter : Bool := false
  otherRatios : List Rat := []
  builtInTools : Option (Int × Int) := none
  claudeWebSearchRequests : Int := 0
  imageGenerationCall : Option (String × String) := none
  finalPreConsumedQuota : Int := 0

section
variable (s : Settings) (req : Request) (o : Outcome)

def calculateTextToolCallSurcharge (groupRatio : Rat) : Rat :=
  let calls (price : Rat) (count : Int) : Rat :=
    if 0 < count then price * count / 1000 * groupRatio * s.quotaPerUnit else 0
  let searches := match o.builtInTools with
    | some tools => calls s.webSearchPreviewPrice tools.1
    | none => if s.searchPreviewModel then calls s.webSearchPreviewPrice 1 else 0
  let files := match o.builtInTools with
    | some tools => calls s.fileSearchPrice tools.2
    | none => 0
  let image := match o.imageGenerationCall with
    | some (quality, size) => s.imageCallPrice quality size * groupRatio * s.quotaPerUnit
    | none => 0
  searches + calls s.webSearchPrice o.claudeWebSearchRequests + files + image

def calcOpenRouterCacheCreateTokens (usage : Usage) (price : PriceData) : Int :=
  if price.cacheCreationRatio = 1 then 0
  else
    let quotaPrice := price.modelRatio / s.quotaPerUnit
    roundHalf ((o.cost - usage.promptTokens * quotaPrice +
      usage.promptTokensDetails.cachedTokens * (quotaPrice - quotaPrice * price.cacheRatio) -
      usage.completionTokens * (quotaPrice * price.completionRatio)) /
        (quotaPrice * price.cacheCreationRatio - quotaPrice))

/-- The prompt without what is cached, and the cache writes, which may have to be guessed from the cost:
`usage.Cost != 0` compares a float with an integer, and holds. -/
def openRouterTokens (usage : Usage) (price : PriceData) : Int × Int :=
  let prompt := usage.promptTokens - usage.promptTokensDetails.cachedTokens
  let told := usage.promptTokensDetails.cachedCreationTokens
  let custom := price.usePrice || s.defaultModelRatio ≠ some price.modelRatio
  let guess := calcOpenRouterCacheCreateTokens s o usage price
  let written :=
    if told = 0 ∧ price.cacheCreationRatio ≠ 1 ∧ custom = false ∧ 0 ≤ guess ∧ guess ≤ prompt then guess else told
  (prompt - written, written)

structure TextQuotaSummary where
  isClaudeUsageSemantic : Bool
  toolCallSurchargeQuota : Rat
  quota : Int

/-- What a usage comes to, with the surcharge for the tools. -/
def quotaCalculateDecimal (price : PriceData) (usage : Usage) : Rat :=
  let details := usage.promptTokensDetails
  let m5 := usage.claudeCacheCreation5mTokens
  let h1 := usage.claudeCacheCreation1hTokens
  let isClaude := usageSemanticFromUsage o.claudeFormat usage == "anthropic"
  let legacy := !o.claudeFormat && o.usageSource == "" && usage.usageSemantic == "" &&
    (decide (0 < m5) || decide (0 < h1))
  let (prompt, written) := if o.openRouter && isClaude then openRouterTokens s o usage price
    else (usage.promptTokens, details.cachedCreationTokens)
  let groupRatio := price.groupRatioInfo.groupRatio
  let surcharge := calculateTextToolCallSurcharge s o groupRatio
  -- the cache is counted beside the prompt, or in it
  let beside := isClaude || legacy
  let writtenWithRatio : Rat := if written = 0 ∧ m5 ≤ 0 ∧ h1 ≤ 0 then 0
    else if beside then max (written - m5 - h1) 0 * price.cacheCreationRatio + m5 * price.cacheCreation5mRatio +
      h1 * price.cacheCreation1hRatio
    else written * price.cacheCreationRatio
  let audio := if 0 < s.audioInputPrice then details.audioTokens else 0
  let base := prompt - (if beside then 0 else details.cachedTokens + written) - details.imageTokens - audio
  let tokens := base + details.cachedTokens * price.cacheRatio + details.imageTokens * price.imageRatio +
    writtenWithRatio + usage.completionTokens * price.completionRatio
  o.otherRatios.foldl (· * ·) (if price.usePrice then price.modelPrice * s.quotaPerUnit * groupRatio + surcharge
    else tokens * (price.modelRatio * groupRatio) + surcharge +
      s.audioInputPrice / 1000000 * audio * groupRatio * s.quotaPerUnit)

def calculateTextQuotaSummary (price : PriceData) : TextQuotaSummary :=
  let usage := o.usage.getD { promptTokens := req.promptTokens, totalTokens := req.promptTokens }
  let ratio := price.modelRatio * price.groupRatioInfo.groupRatio
  let total := quotaCalculateDecimal s o price usage
  let quota := roundedInt (if price.usePrice = false ∧ ratio ≠ 0 ∧ total ≤ 0 then 1 else total)
  ⟨usageSemanticFromUsage o.claudeFormat usage == "anthropic",
    calculateTextToolCallSurcharge s o price.groupRatioInfo.groupRatio,
    if usage.promptTokens + usage.completionTokens = 0 then 0 else if ratio ≠ 0 ∧ quota = 0 then 1 else quota⟩

/-- The quota before the group ratio, and the one that is charged. -/
def computeTieredQuotaWithRequest (snap : BillingSnapshot) (params : TokenParams) : Option (Rat × Int) :=
  (s.runExpr snap.exprString params).map fun cost =>
    let before := cost / 1000000 * snap.quotaPerUnit
    (before, quotaRound s (before * snap.groupRatio))

/-- An expression that cannot be evaluated leaves what was charged in advance. -/
def tryTieredSettle (snap : BillingSnapshot) (params : TokenParams) : Int × Option Rat :=
  match computeTieredQuotaWithRequest s snap params with
  | some (before, quota) => (quota, some before)
  | none => (if o.finalPreConsumedQuota ≤ 0 then snap.estimatedQuotaAfterGroup else o.finalPreConsumedQuota, none)

def composeTieredTextQuota (snap : BillingSnapshot) (surcharge : Rat) (tiered : Int × Option Rat) : Int :=
  if surcharge = 0 then tiered.1
  else match tiered.2 with
    | some before => roundedInt (before * snap.groupRatio + surcharge)
    | none => Int.bmod (tiered.1 + roundedInt surcharge) (2 ^ 64)

/-- The quota that is settled. -/
def postTextConsumeQuota (info : RelayInfo) : Int :=
  let summary := calculateTextQuotaSummary s req o info.priceData
  match o.usage, info.tieredBillingSnapshot with
  | some usage, some snap =>
    let params := buildTieredTokenParams usage summary.isClaudeUsageSemantic (s.usedVars snap.exprString)
    composeTieredTextQuota snap summary.toolCallSurchargeQuota (tryTieredSettle s o snap params)
  | _, _ => summary.quota

end

/-! The group that has served the request. -/

section
variable (s : Settings) (req : Request)

/-- The group ratios that a settlement takes: that of the price data for the surcharge and for ratio billing, and
that of the snapshot for the tokens of a usage under tiered billing. -/
def RelayInfo.ratiosTaken (o : Outcome) (info : RelayInfo) : List Rat :=
  info.priceData.groupRatioInfo.groupRatio ::
    match o.usage, info.tieredBillingSnapshot with
    | some _, some snap => [snap.groupRatio]
    | _, _ => []

/-- What a price says of the group that it was made for. -/
theorem modelPriceHelper_group {group : String} {info : RelayInfo} (h : modelPriceHelper s req group = some info) :
    info.usingGroup = group ∧ info.priceData.groupRatioInfo = handleGroupRatio s req group ∧
      info.tieredBillingSnapshot.map (·.groupRatio) =
        if s.tiered then some (handleGroupRatio s req group).groupRatio else none := by
  unfold modelPriceHelper at h
  by_cases htiered : s.tiered = true
  · rw [if_pos htiered] at h
    simp only [modelPriceHelperTiered, bind_eq_bind, bind_eq_some_iff, Option.some.injEq] at h
    obtain ⟨expr, -, rawCost, -, rfl⟩ := h
    exact ⟨rfl, rfl, by rw [if_pos htiered]; rfl⟩
  · rw [if_neg htiered] at h ⊢
    unfold modelPriceHelperRatio at h
    by_cases hprice : s.modelPrice.2 = true
    · rw [if_pos hprice] at h
      cases h
      exact ⟨rfl, rfl, rfl⟩
    · rw [if_neg hprice, ite_none_right_eq_some] at h
      obtain ⟨-, h⟩ := h
      cases h
      exact ⟨rfl, rfl, rfl⟩

theorem getChannel_first {first : String} {info : RelayInfo} (h : modelPriceHelper s req first = some info) :
    getChannel s req info first = info := by
  obtain ⟨hgroup, hratio, -⟩ := modelPriceHelper_group s req h
  unfold getChannel
  rw [← hratio]
  subst hgroup
  rfl

/-- Only the last of the selections is left. -/
theorem foldl_getChannel (info : RelayInfo) (later : List String) (group : String) :
    later.foldl (getChannel s req) (getChannel s req info group) = getChannel s req info (later.getLastD group) := by
  induction later generalizing group with
  | nil => rfl
  | cons next rest ih =>
    rw [List.getLastD_cons]
    exact ih next

theorem relay_eq (first : String) (later : List String) :
    relay s req first later = (modelPriceHelper s req first).map (getChannel s req · (later.getLastD first)) := by
  refine map_congr fun info hinfo => ?_
  have h := foldl_getChannel s req info later first
  rwa [getChannel_first s req hinfo] at h

variable {first last : String}

/-- What is taken after the last selection: the ratio of the last group, and for tokens under tiered billing that
of the first. -/
theorem ratiosTaken_getChannel {info : RelayInfo} (h : modelPriceHelper s req first = some info) (o : Outcome) :
    (getChannel s req info last).ratiosTaken o = (handleGroupRatio s req last).groupRatio ::
      if s.tiered = true ∧ o.usage.isSome = true then [(handleGroupRatio s req first).groupRatio] else [] := by
  obtain ⟨-, -, hsnap⟩ := modelPriceHelper_group s req h
  unfold RelayInfo.ratiosTaken getChannel
  cases o.usage with
  | none => simp
  | some usage =>
    by_cases htiered : s.tiered = true
    · rw [if_pos htiered, map_eq_some_iff] at hsnap
      obtain ⟨snap, hsnap, hfirst⟩ := hsnap
      simp [htiered, hsnap, hfirst]
    · rw [if_neg htiered, map_eq_none_iff] at hsnap
      simp [htiered, hsnap]

/-- Tiered billing depends on the first group by its ratio. -/
theorem modelPriceHelper_tiered (htiered : s.tiered = true)
    (hratio : (handleGroupRatio s req last).groupRatio = (handleGroupRatio s req first).groupRatio) :
    (modelPriceHelper s req first).map (getChannel s req · last) = modelPriceHelper s req last := by
  unfold modelPriceHelper
  rw [if_pos htiered, if_pos htiered]
  unfold modelPriceHelperTiered
  rw [hratio]
  cases s.billingExpr with
  | none => rfl
  | some expr =>
    simp only [bind_eq_bind, bind_some]
    cases s.runExpr expr _ <;> rfl

theorem modelPriceHelper_none (htiered : s.tiered = true) (h : modelPriceHelper s req first = none) :
    modelPriceHelper s req last = none := by
  unfold modelPriceHelper modelPriceHelperTiered at *
  rw [if_pos htiered] at *
  cases hexpr : s.billingExpr with
  | none => rfl
  | some expr =>
    simp only [hexpr, bind_eq_bind, bind_some] at h ⊢
    cases hcost : s.runExpr expr _ with
    | none => rfl
    | some rawCost =>
      rw [hcost] at h
      cases h

/-- Without a usage, or an expression, only the charge in advance does. -/
theorem post_no_usage (o : Outcome) (htiered : s.tiered = true) (husage : o.usage = none) :
    (modelPriceHelper s req first).map (fun info => postTextConsumeQuota s req o (getChannel s req info last)) =
      (modelPriceHelper s req last).map (postTextConsumeQuota s req o) := by
  unfold modelPriceHelper modelPriceHelperTiered
  rw [if_pos htiered, if_pos htiered]
  cases s.billingExpr with
  | none => rfl
  | some expr =>
    simp only [bind_eq_bind, bind_some]
    cases s.runExpr expr _ with
    | none => rfl
    | some rawCost =>
      simp only [bind_some, map_some, postTextConsumeQuota, husage]
      rfl

theorem post_ratio (o : Outcome) (hratio : s.tiered = false) :
    (modelPriceHelper s req first).map (fun info => postTextConsumeQuota s req o (getChannel s req info last)) =
      (modelPriceHelper s req last).map (postTextConsumeQuota s req o) := by
  unfold modelPriceHelper
  rw [hratio]
  show Option.map _ (modelPriceHelperRatio s req first _) = Option.map _ (modelPriceHelperRatio s req last _)
  unfold modelPriceHelperRatio
  by_cases hprice : s.modelPrice.2 = true
  · rw [if_pos hprice, if_pos hprice]
    rfl
  · rw [if_neg hprice]
    split <;> rfl

end

/-- A model of which a million tokens cost 1000, and groups of which `vip` costs twice as much. -/
def exampleSettings (tiered : Bool) : Settings where
  quotaPerUnit := 500000
  beyondInt := fun _ => -2 ^ 63
  groupRatio := fun group => if group = "vip" then some 2 else none
  groupGroupRatio := fun _ _ => none
  enableFreeModelPreConsume := true
  preConsumedQuota := 500
  tiered
  billingExpr := some "p"
  runExpr := fun _ params => some (1000 * params.p)
  usedVars := fun _ _ => false
  modelPrice := (-1, false)
  modelRatio := (500, true)
  defaultModelRatio := none
  completionRatio := 1
  cacheRatio := 1
  createCacheRatio := 1
  imageRatio := 1
  searchPreviewModel := false
  webSearchPreviewPrice := 10
  webSearchPrice := 10
  fileSearchPrice := 0
  imageCallPrice := fun _ _ => 0
  audioInputPrice := 0

/-- One web search, and 100 tokens. -/
def exampleOutcome : Outcome where
  usage := some { promptTokens := 100 }
  claudeWebSearchRequests := 1

end AmuxApi.Tiered
