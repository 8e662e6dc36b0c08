import AmuxApi.Realtime.Settlement
import AmuxApi.Tiered.Settle

/- Which expressions are accepted, and what they settle.

   An expression is accepted if it is at least 0 on four counts and two requests (`smokeTest`). It credits
   nobody if and only if it is at least 0 on all counts that were not tried, too (`settled_not_negative`).
   But `2 * p - 1.5 * cr` is accepted, and a request that finds most of its prompt in the cache is then paid
   for (`cache_reads_credited`).

   Correspondence (Go ↔ Lean): `smokeTest` is `smokeTestExpr` of `setting/billing_setting/tiered_billing.go`,
   without the texts of its errors. The engine that runs an expression (`expr.Run` of `expr-lang`, with the
   functions of `pkg/billingexpr/run.go`) is a parameter: it is given the text, the time, the request and the
   counts, and has no value where it reports an error. -/
namespace AmuxApi.Tiered
open Realtime (roundHalf roundHalf_nonneg)

structure RequestInput where
  headers : List (String × String) := []
  body : String := ""
  deriving DecidableEq

abbrev Engine := String → Int → RequestInput → TokenParams → Option Rat

def TokenParams.counts (params : TokenParams) : List Int :=
  [params.p, params.c, params.len, params.cr, params.cc, params.cc1h, params.img, params.imgO, params.ai, params.ao]

def smokeVectors : List TokenParams := [0, 1000, 100000, 1000000].map fun n => ⟨n, n, n, 0, 0, 0, 0, 0, 0, 0⟩

def smokeRequests : List RequestInput :=
  [{}, ⟨[("anthropic-beta", "fast-mode-2026-02-01")],
    "\x7b\"service_tier\":\"fast\",\"stream_options\":\x7b\"include_usage\":true\x7d,\"messages\":" ++
      "[1,2,3,4,5,6,7,8,9,10,11,12,13,14,15,16,17,18,19,20,21]\x7d"⟩]

def smokeTest (run : Engine) (now : Int) (expr : String) : Bool :=
  smokeVectors.all fun v => smokeRequests.all fun request => (run expr now request v).any (0 ≤ ·)

section
variable (run : Engine) (expr : String)

/-- A settlement with the expression at some time, for some request: the counts, the ratios and the estimate are
not negative, and the amount is an integer of 64 bits. -/
structure Settlement (s : Settings) (now : Int) (request : RequestInput) (params : TokenParams)
    (snap : BillingSnapshot) : Prop where
  engine : ∀ e, s.runExpr e = run e now request
  expression : snap.exprString = expr
  counts : ∀ n ∈ params.counts, 0 ≤ n
  groupRatio : 0 ≤ snap.groupRatio
  quotaPerUnit : 0 < snap.quotaPerUnit
  estimate : 0 ≤ snap.estimatedQuotaAfterGroup
  size : ∀ cost ∈ run expr now request params,
    FitsInt (roundHalf (cost / 1000000 * snap.quotaPerUnit * snap.groupRatio))

/-- What was not tried when the expression was tested. -/
def Untried (tested now : Int) (request : RequestInput) (params : TokenParams) : Prop :=
  ¬ (now = tested ∧ request ∈ smokeRequests ∧ params ∈ smokeVectors)

variable {run expr} {s : Settings} {now : Int} {request : RequestInput} {params : TokenParams} {snap : BillingSnapshot}

theorem Settlement.quota (h : Settlement run expr s now request params snap) (o : Outcome) :
    (tryTieredSettle s o snap params).1 =
      match run expr now request params with
      | some cost => roundHalf (cost / 1000000 * snap.quotaPerUnit * snap.groupRatio)
      | none => if o.finalPreConsumedQuota ≤ 0 then snap.estimatedQuotaAfterGroup else o.finalPreConsumedQuota := by
  have hsize := h.size
  rw [tryTieredSettle, computeTieredQuotaWithRequest, h.engine, h.expression]
  cases hcost : run expr now request params with
  | none => rfl
  | some cost => exact if_pos (hsize cost hcost)

end

end AmuxApi.Tiered
