import AmuxApi.Tiered.Settle
import Mathlib.Algebra.Order.BigOperators.GroupWithZero.List

/- What a text request is charged, and what the statistics of its user and its channel add up.

   The same amount is settled, logged and added to the used quotas (`used_quota_is_settled`), but for
   a tiered request without tokens, which is settled and logged only (`tiered_quota_not_added`). The
   amount of price and ratio billing does not fall with more tokens (`text_quota_bounds`), as long as it is
   an integer of 64 bits (`text_quota_wraps`).

   Correspondence (Go ↔ Lean): `consume` is the end of `PostTextConsumeQuota` in `service/text_quota.go`. -/
namespace AmuxApi.Tiered
open Dto
open Realtime (roundHalf)

/-- What a text request adds to the used quota of its user and of its channel, what is settled and what is logged. -/
structure Consumed where
  userUsed : Int := 0
  channelUsed : Int := 0
  settled : Int
  logged : Int
  deriving DecidableEq

def totalTokens (req : Request) (o : Outcome) : Int :=
  (o.usage.map fun usage => usage.promptTokens + usage.completionTokens).getD req.promptTokens

def consume (s : Settings) (req : Request) (o : Outcome) (info : RelayInfo) : Consumed :=
  let quota := postTextConsumeQuota s req o info
  -- without tokens there is an error in the log of the program, and no statistics
  if totalTokens req o = 0 then { settled := quota, logged := quota } else ⟨quota, quota, quota, quota⟩

/-- What the expression and the tools come to, for a usage that is billed by an expression. -/
def tieredQuota (s : Settings) (o : Outcome) (info : RelayInfo) : Option Int := do
  let usage ← o.usage
  let snap ← info.tieredBillingSnapshot
  let isClaude := usageSemanticFromUsage o.claudeFormat usage == "anthropic"
  let params := buildTieredTokenParams usage isClaude (s.usedVars snap.exprString)
  some (composeTieredTextQuota snap (calculateTextToolCallSurcharge s o info.priceData.groupRatioInfo.groupRatio)
    (tryTieredSettle s o snap params))

theorem postTextConsumeQuota_eq (s : Settings) (req : Request) (o : Outcome) (info : RelayInfo) :
    postTextConsumeQuota s req o info =
      (tieredQuota s o info).getD (calculateTextQuotaSummary s req o info.priceData).quota := by
  unfold postTextConsumeQuota tieredQuota
  cases husage : o.usage with
  | none => rfl
  | some usage =>
    cases info.tieredBillingSnapshot with
    | none => rfl
    | some snap => simp [calculateTextQuotaSummary, husage]

/-- **What is settled and logged is added** to the used quotas if and only if there are tokens, or no usage
that an expression charges something for. -/
theorem used_quota_is_settled (s : Settings) (req : Request) (o : Outcome) (info : RelayInfo) :
    let c := consume s req o info
    c.userUsed = c.settled ∧ c.channelUsed = c.settled ∧ c.logged = c.settled ↔
      totalTokens req o ≠ 0 ∨ ∀ quota ∈ tieredQuota s o info, quota = 0 := by
  intro c
  by_cases htokens : totalTokens req o = 0
  · have hzero : (calculateTextQuotaSummary s req o info.priceData).quota = 0 := by
      unfold calculateTextQuotaSummary
      cases husage : o.usage <;> simp_all [totalTokens]
    simp only [c, consume, htokens, if_true, postTextConsumeQuota_eq, hzero]
    cases tieredQuota s o info <;> simp [eq_comm]
  · simp [c, consume, htokens]

def exampleRequest : Request := ⟨"default", 0, 0, 0, false⟩

def examplePrice : PriceData where
  freeModel := false
  groupRatioInfo := ⟨1, -1, false⟩
  quotaToPreConsume := 0
  modelRatio := 500

theorem used_quota_is_settled_tokens :
    let c := consume (exampleSettings true) exampleRequest exampleOutcome
      ⟨"default", examplePrice, some ⟨"p", 1, 0, 500000⟩⟩
    c.userUsed = c.settled ∧ c.channelUsed = c.settled ∧ c.logged = c.settled :=
  (used_quota_is_settled _ _ _ _).mpr (.inl (by decide))

/-- One web search, and no tokens: the search is settled and logged, but not added. -/
theorem tiered_quota_not_added :
    (modelPriceHelper (exampleSettings true) exampleRequest "default").map
        (consume (exampleSettings true) exampleRequest { exampleOutcome with usage := some {} }) =
      some ⟨0, 0, 5000, 5000⟩ := by
  decide +kernel

/-! The quota of price and ratio billing. -/

/-- No price and no ratio is negative. -/
structure Priced (s : Settings) (o : Outcome) (price : PriceData) : Prop where
  quotaPerUnit : 0 ≤ s.quotaPerUnit
  webSearchPreviewPrice : 0 ≤ s.webSearchPreviewPrice
  webSearchPrice : 0 ≤ s.webSearchPrice
  fileSearchPrice : 0 ≤ s.fileSearchPrice
  imageCallPrice : ∀ quality size, 0 ≤ s.imageCallPrice quality size
  groupRatio : 0 ≤ price.groupRatioInfo.groupRatio
  modelPrice : price.usePrice = true → 0 ≤ price.modelPrice
  modelRatio : 0 ≤ price.modelRatio
  completionRatio : 0 ≤ price.completionRatio
  otherRatios : ∀ r ∈ o.otherRatios, 0 ≤ r

theorem roundHalf_mono {x y : Rat} (h : x ≤ y) : roundHalf x ≤ roundHalf y := by
  have hpos : ∀ {z : Rat}, 0 ≤ z → 0 ≤ ⌊z + 1 / 2⌋ := fun hz => Int.floor_nonneg.mpr (by linarith)
  unfold roundHalf
  split_ifs with hx hy hy
  · exact Int.floor_le_floor (by linarith)
  · exact absurd (hx.trans h) hy
  · have hneg := hpos (z := -x) (by linarith)
    have := hpos hy
    omega
  · have : ⌊-y + 1 / 2⌋ ≤ ⌊-x + 1 / 2⌋ := Int.floor_le_floor (by linarith)
    omega

theorem roundHalf_zero : roundHalf 0 = 0 := by decide +kernel

theorem roundedInt_eq {x : Rat} (hx : 0 ≤ x) (hsize : roundHalf x < 2 ^ 63) : roundedInt x = roundHalf x := by
  have hround := roundHalf_mono hx
  rw [roundHalf_zero] at hround
  exact Int.bmod_eq_of_le (by omega) (by omega)

/-- The end of `calculateTextQuotaSummary`. -/
def charged (usePrice : Bool) (ratio total : Rat) : Int :=
  let quota := roundedInt (if usePrice = false ∧ ratio ≠ 0 ∧ total ≤ 0 then 1 else total)
  if ratio ≠ 0 ∧ quota = 0 then 1 else quota

/-- Where there is a ratio, the least charge is 1. -/
theorem charged_eq {usePrice : Bool} {ratio x : Rat} (hx : usePrice = true ∨ ratio = 0 → 0 ≤ x)
    (hsize : roundHalf x < 2 ^ 63) :
    charged usePrice ratio x = if ratio = 0 then roundHalf x else max 1 (roundHalf x) := by
  by_cases hratio : ratio = 0
  · simp [charged, hratio, roundedInt_eq (hx (.inr hratio)) hsize]
  rw [if_neg hratio]
  unfold charged
  by_cases hclamp : usePrice = false ∧ ratio ≠ 0 ∧ x ≤ 0
  · have hround := roundHalf_mono hclamp.2.2
    have hone : roundedInt 1 = 1 := by decide +kernel
    rw [roundHalf_zero] at hround
    rw [if_pos hclamp, hone, if_neg (by simp)]
    omega
  · have hx : 0 ≤ x := by
      cases usePrice with
      | true => exact hx (.inl rfl)
      | false => exact le_of_not_ge fun hx => hclamp ⟨rfl, hratio, hx⟩
    have hround := roundHalf_mono hx
    rw [roundHalf_zero] at hround
    rw [if_neg hclamp, roundedInt_eq hx hsize]
    dsimp only
    split_ifs with hnone
    · omega
    · have : roundHalf x ≠ 0 := fun h => hnone ⟨hratio, h⟩
      omega

theorem foldl_mul (ratios : List Rat) (x : Rat) : ratios.foldl (· * ·) x = x * ratios.prod := List.foldl_eq_apply_foldr

section
variable {s : Settings} {o : Outcome} {price : PriceData} (h : Priced s o price)
include h

theorem Priced.surcharge : 0 ≤ calculateTextToolCallSurcharge s o price.groupRatioInfo.groupRatio := by
  have := h.quotaPerUnit
  have := h.groupRatio
  have hcalls : ∀ {p : Rat} {n : Int}, 0 ≤ p →
      0 ≤ if 0 < n then p * n / 1000 * price.groupRatioInfo.groupRatio * s.quotaPerUnit else 0 := by
    intro p n hp
    split_ifs with hn
    · have : (0 : Rat) < n := Int.cast_pos.mpr hn
      positivity
    · exact le_refl 0
  unfold calculateTextToolCallSurcharge
  refine add_nonneg (add_nonneg (add_nonneg ?_ (hcalls h.webSearchPrice)) ?_) ?_
  · split
    · exact hcalls h.webSearchPreviewPrice
    · split_ifs
      · exact hcalls h.webSearchPreviewPrice
      · exact le_refl 0
  · split
    · exact hcalls h.fileSearchPrice
    · exact le_refl 0
  · split
    · exact mul_nonneg (mul_nonneg (h.imageCallPrice _ _) h.groupRatio) h.quotaPerUnit
    · exact le_refl 0

section
variable (u : Usage)

/-- More tokens do not come to less. -/
theorem Priced.decimal_mono (hchannel : o.openRouter = false) {prompt completion : Int} (hp : u.promptTokens ≤ prompt)
    (hc : u.completionTokens ≤ completion) : quotaCalculateDecimal s o price u ≤
      quotaCalculateDecimal s o price { u with promptTokens := prompt, completionTokens := completion } := by
  have hratio : 0 ≤ price.modelRatio * price.groupRatioInfo.groupRatio := mul_nonneg h.modelRatio h.groupRatio
  simp only [quotaCalculateDecimal, hchannel, Bool.false_and, Bool.false_eq_true, if_false,
    usageSemanticFromUsage, foldl_mul]
  apply mul_le_mul_of_nonneg_right _ (List.prod_nonneg h.otherRatios)
  have hp : (u.promptTokens : Rat) ≤ prompt := Int.cast_le.mpr hp
  have hc : (u.completionTokens : Rat) * price.completionRatio ≤ completion * price.completionRatio :=
    mul_le_mul_of_nonneg_right (Int.cast_le.mpr hc) h.completionRatio
  split
  · exact le_refl _
  · gcongr ?_ * _ + ?_ + _
    · gcongr
    · exact le_refl _

/-- It is negative only where the least charge is 1. -/
theorem Priced.decimal_nonneg (haudio : 0 ≤ u.promptTokensDetails.audioTokens)
    (hmode : price.usePrice = true ∨ price.modelRatio * price.groupRatioInfo.groupRatio = 0) :
    0 ≤ quotaCalculateDecimal s o price u := by
  simp only [quotaCalculateDecimal, foldl_mul]
  apply mul_nonneg _ (List.prod_nonneg h.otherRatios)
  have hgroup := h.groupRatio
  have hunit := h.quotaPerUnit
  split
  · rename_i hprice
    exact add_nonneg (mul_nonneg (mul_nonneg (h.modelPrice hprice) hunit) hgroup) h.surcharge
  · rename_i hprice
    rw [hmode.resolve_left hprice, mul_zero, zero_add]
    apply add_nonneg h.surcharge
    split_ifs with hinput
    · have : (0 : Rat) ≤ u.promptTokensDetails.audioTokens := Int.cast_nonneg haudio
      positivity
    · simp

end

end

/-- **What a text request is charged**, where it comes to less than 2 ^ 63, is not negative, at least 1 where there
are tokens and a ratio, 0 without tokens, and not less for more tokens. -/
theorem text_quota_bounds (s : Settings) (req : Request) (o : Outcome) (price : PriceData) (u : Usage)
    (h : Priced s o price) (hchannel : o.openRouter = false) (hprompt : 0 ≤ u.promptTokens)
    (hcompletion : 0 ≤ u.completionTokens) (haudio : 0 ≤ u.promptTokensDetails.audioTokens)
    (hsize : roundHalf (quotaCalculateDecimal s o price u) < 2 ^ 63) :
    let quota := fun usage => (calculateTextQuotaSummary s req { o with usage := some usage } price).quota
    0 ≤ quota u ∧
    (u.promptTokens + u.completionTokens ≠ 0 → price.modelRatio * price.groupRatioInfo.groupRatio ≠ 0 → 1 ≤ quota u) ∧
    (u.promptTokens + u.completionTokens = 0 → quota u = 0) ∧
    ∀ prompt completion, u.promptTokens ≤ prompt → u.completionTokens ≤ completion →
      roundHalf (quotaCalculateDecimal s o price
        { u with promptTokens := prompt, completionTokens := completion }) < 2 ^ 63 →
      quota u ≤ quota { u with promptTokens := prompt, completionTokens := completion } := by
  intro quota
  have hquota : ∀ v : Usage, v.promptTokensDetails = u.promptTokensDetails →
      roundHalf (quotaCalculateDecimal s o price v) < 2 ^ 63 → quota v =
      if v.promptTokens + v.completionTokens = 0 then 0
      else if price.modelRatio * price.groupRatioInfo.groupRatio = 0 then roundHalf (quotaCalculateDecimal s o price v)
      else max 1 (roundHalf (quotaCalculateDecimal s o price v)) := by
    intro v hv hvsize
    have hcharged : quota v = if v.promptTokens + v.completionTokens = 0 then 0
        else charged price.usePrice (price.modelRatio * price.groupRatioInfo.groupRatio)
          (quotaCalculateDecimal s o price v) :=
      rfl
    rw [hcharged, charged_eq (h.decimal_nonneg v (hv ▸ haudio)) hvsize]
  have hu := hquota u rfl hsize
  have hround : price.modelRatio * price.groupRatioInfo.groupRatio = 0 →
      0 ≤ roundHalf (quotaCalculateDecimal s o price u) :=
    fun hratio => roundHalf_zero ▸ roundHalf_mono (h.decimal_nonneg u haudio (.inr hratio))
  refine ⟨?_, fun htokens hratio => ?_, fun hzero => ?_, fun prompt completion hp hc hmore => ?_⟩
  · rw [hu]
    split_ifs with htokens hratio
    · exact le_refl 0
    · exact hround hratio
    · exact zero_le_one.trans (le_max_left _ _)
  · rw [hu, if_neg htokens, if_neg hratio]
    exact le_max_left _ _
  · rw [hu, if_pos hzero]
  · have hmono := roundHalf_mono (h.decimal_mono u hchannel hp hc)
    rw [hu, hquota { u with promptTokens := prompt, completionTokens := completion } rfl hmore]
    by_cases hratio : price.modelRatio * price.groupRatioInfo.groupRatio = 0
    · have := hround hratio
      simp only [hratio, if_true]
      split_ifs <;> omega
    · simp only [hratio, if_false]
      split_ifs <;> omega

theorem text_quota_bounds_more_tokens :
    (calculateTextQuotaSummary (exampleSettings false) exampleRequest exampleOutcome examplePrice).quota ≤
      (calculateTextQuotaSummary (exampleSettings false) exampleRequest
        { exampleOutcome with usage := some { promptTokens := 200 } } examplePrice).quota :=
  have h : Priced (exampleSettings false) exampleOutcome examplePrice :=
    ⟨by decide +kernel, by decide +kernel, by decide +kernel, le_refl 0, fun _ _ => le_refl 0,
      by decide +kernel, by decide +kernel, by decide +kernel, le_refl 0, by decide⟩
  (text_quota_bounds _ _ _ _ { promptTokens := 100 } h rfl (by decide) (by decide) (by decide)
    (by decide +kernel)).2.2.2 200 0 (by decide) (by decide) (by decide +kernel)

/-- One token at a ratio of 10 ^ 19: more than an integer of 64 bits holds. -/
theorem text_quota_wraps :
    (calculateTextQuotaSummary (exampleSettings false) exampleRequest { usage := some { promptTokens := 1 } }
      { examplePrice with modelRatio := 10 ^ 19 }).quota = -8446744073709551616 := by
  decide +kernel

end AmuxApi.Tiered
