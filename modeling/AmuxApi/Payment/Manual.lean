import AmuxApi.Payment.Amount

/- Does `ManualCompleteTopUp` credit what the gateway's own callback would have credited? It
   turns every order's amount into quota with `QuotaPerUnit`.

   Epay and Waffo do the same, so there it does. Stripe adds the product without cutting the
   fraction off, so the two agree on every database exactly when there is no fraction. A Creem
   order's amount is the quota itself: `manual_agrees_iff` gives the few amounts on which the two
   agree, and `creem_manual_differs` an ordinary product on which they do not. -/
namespace AmuxApi.Payment
open Txn

/-- The amounts on which the manual completion and the gateway's callback credit the same. -/
def SameCredit (quotaPerUnit : Rat) (amount : Int) : Gateway → Prop
  | .epay | .waffo => True
  | .stripe => ∃ n : Nat, (amount : Rat) * quotaPerUnit = n
  | .creem => amount = 0 ∨
      (0 < amount ∧ (amount : Rat) ≤ amount * quotaPerUnit ∧ (amount : Rat) * quotaPerUnit < amount + 1)

/-- The database that stores `x` as `n`. -/
def Rounding.storing (x : Rat) (n : Int) (hx : ∀ m : Int, (m : Rat) ≠ x) : Rounding where
  assign y := if y = x then n else intPart y
  assign_int m := by rw [if_neg (hx m), intPart_int]

/-- Stripe adds the exact product. -/
theorem stripe_agrees_iff (q : Rat) (a b : Int) :
    (∀ r : Rounding, b + max 0 (intPart (a * q)) = r.assign (b + a * q)) ↔ ∃ n : Nat, (a : Rat) * q = n := by
  constructor
  · intro h
    by_cases hint : ∃ m : Int, (m : Rat) = a * q
    · -- a whole product is stored as it is, so it cannot be negative
      obtain ⟨m, hm⟩ := hint
      have hb := h ⟨intPart, intPart_int⟩
      rw [← hm] at hb
      have hsum : ((b + m : Int) : Rat) = b + m := by push_cast; rfl
      simp only [← hsum, intPart_int] at hb
      obtain ⟨n, rfl⟩ := Int.eq_ofNat_of_zero_le (show 0 ≤ m by omega)
      exact ⟨n, by rw [← hm]; rfl⟩
    · -- otherwise some database stores another number
      have hx : ∀ m : Int, (m : Rat) ≠ b + a * q := by
        intro m hm
        refine hint ⟨m - b, ?_⟩
        push_cast
        rw [hm]
        ring
      have hb := h (.storing _ (b + max 0 (intPart (a * q)) + 1) hx)
      rw [Rounding.storing] at hb
      simp only [if_true] at hb
      omega
  · rintro ⟨n, hn⟩ r
    have hsum : ((b + n : Int) : Rat) = b + a * q := by rw [hn]; push_cast; rfl
    have hpart : intPart (a * q) = n := by rw [hn]; exact intPart_int n
    rw [← hsum, r.assign_int]
    omega

/-- Creem adds the amount itself. -/
theorem creem_agrees_iff {q : Rat} (hq : 0 < q) (a : Int) :
    max 0 (intPart (a * q)) = a ↔
      a = 0 ∨ (0 < a ∧ (a : Rat) ≤ a * q ∧ (a : Rat) * q < a + 1) := by
  rcases lt_trichotomy a 0 with ha | rfl | ha
  · constructor
    · omega
    · rintro (h | ⟨h, _⟩) <;> omega
  · simp [intPart]
  · have haq : 0 < (a : Rat) * q := mul_pos (by exact_mod_cast ha) hq
    have hfloor : 0 ≤ ⌊(a : Rat) * q⌋ := Int.floor_nonneg.mpr haq.le
    rw [intPart_of_nonneg haq.le, max_eq_right hfloor, Int.floor_eq_iff]
    constructor
    · rintro ⟨h, h'⟩
      exact .inr ⟨ha, h, h'⟩
    · rintro (h | ⟨_, h, h'⟩)
      · omega
      · exact ⟨h, h'⟩

/-- **When the manual completion agrees with the callback.** For every order left waiting by an
entry point, and its user with any balance: the two completions credit the same on every
database if and only if the order's gateway and amount are as `SameCredit` says. -/
theorem manual_agrees_iff (cfg : PayConfig) (hq : 0 < cfg.quotaPerUnit) (gw : Gateway) (t : String) (o : TopUp)
    (h : Placed cfg gw t o) (d : Tables) (ho : d (.topUp t) = some o) (u : User)
    (hu : d (.user o.userId) = some u) (process : Nat) (who : String) (now now' : Int) :
    (∀ r : Rounding,
      balance (solo (manualCompleteTopUp ⟨cfg.quotaPerUnit, r⟩ t now) [] d).1 o.userId =
      balance (solo ((gw.callback process t who now').prog ⟨cfg.quotaPerUnit, r⟩) [] d).1 o.userId) ↔
    SameCredit cfg.quotaPerUnit o.amount gw := by
  obtain ⟨ht, hp, hm⟩ := h.order
  have hsides : ∀ r : Rounding,
      (balance (solo (manualCompleteTopUp ⟨cfg.quotaPerUnit, r⟩ t now) [] d).1 o.userId =
        balance (solo ((gw.callback process t who now').prog ⟨cfg.quotaPerUnit, r⟩) [] d).1 o.userId) ↔
      u.quota + max 0 (intPart (o.amount * cfg.quotaPerUnit)) =
        gw.creditedBalance ⟨cfg.quotaPerUnit, r⟩ o u.quota := by
    intro r
    rw [balance_manual ho hp hu ht, balance_callback ho hp hu gw process who ht hm, Option.some.injEq]
    rfl
  simp only [hsides]
  cases gw with
  | epay | waffo => exact ⟨fun _ => trivial, fun _ _ => rfl⟩
  | stripe => exact stripe_agrees_iff cfg.quotaPerUnit o.amount u.quota
  | creem =>
    -- Creem credits an integer, so no rounding is left in the equation
    have hr : (∀ _ : Rounding, u.quota + max 0 (intPart (o.amount * cfg.quotaPerUnit)) = u.quota + o.amount) ↔
        max 0 (intPart (o.amount * cfg.quotaPerUnit)) = o.amount := by
      constructor
      · intro h
        have := h ⟨intPart, intPart_int⟩
        omega
      · intro h _
        rw [h]
    exact hr.trans (creem_agrees_iff hq o.amount)

/-! An ordinary shop: one unit is 500000 quota, and Creem sells a million quota for ten dollars. -/

def exampleConfig : PayConfig where
  quotaPerUnit := 500000
  rounding := ⟨intPart, intPart_int⟩
  quotaDisplayType := .usd
  topupGroupRatio _ := none
  amountDiscount _ := none
  minTopUp := 1
  price := 7
  payMethods := ["alipay", "wxpay"]
  stripeMinTopUp := 1
  stripeUnitPrice := 8
  waffoEnabled := true
  waffoMinTopUp := 1
  waffoUnitPrice := 1
  waffoPayMethods := []
  creemProducts := some [⟨"prod_1", 10, 1000000⟩]

def stripeOrder : TopUp := { newTopUp 7 2 16 "stripe" .stripe 90 with stripeSessionId := "cs_1" }

theorem stripe_manual_agrees :
    SameCredit 500000 2 .stripe ∧ ∀ r : Rounding,
      balance (solo (manualCompleteTopUp ⟨500000, r⟩ "ref_ab" 100) []
        (oneOrder "ref_ab" stripeOrder (some ⟨10, "", ""⟩))).1 7 =
      balance (solo ((Gateway.stripe.callback 1 "ref_ab" "cus_1" 100).prog ⟨500000, r⟩) []
        (oneOrder "ref_ab" stripeOrder (some ⟨10, "", ""⟩))).1 7 := by
  have hsame : SameCredit 500000 2 .stripe := ⟨1000000, by norm_num⟩
  have hplaced : Placed exampleConfig .stripe "ref_ab" stripeOrder :=
    .stripe 7 ⟨2, "stripe"⟩ ⟨true, true, some "default", some "cs_1", true, "ab", 90⟩ (by decide +kernel) rfl
  exact ⟨hsame, (manual_agrees_iff exampleConfig (by decide +kernel) .stripe "ref_ab" stripeOrder hplaced _
    (by simp [oneOrder]) ⟨10, "", ""⟩ (by simp [oneOrder, stripeOrder, newTopUp]) 1 "cus_1" 100 100).mpr hsame⟩

def creemOrder : TopUp := newTopUp 7 1000000 10 "creem" .creem 90

theorem creemOrder_placed : Placed exampleConfig .creem "ref_ab" creemOrder :=
  .creem 7 ⟨"prod_1", "creem"⟩ ⟨true, true, "ab", 90⟩ rfl rfl

/-- The callback credits the million the customer bought; the manual completion credits half a
million times as much. -/
theorem creem_manual_differs :
    let d := oneOrder "ref_ab" creemOrder (some ⟨0, "", ""⟩)
    Placed exampleConfig .creem "ref_ab" creemOrder ∧
    balance (solo ((Gateway.creem.callback 1 "ref_ab" "" 100).prog defaultSetting) [] d).1 7 = some 1000000 ∧
    balance (solo (manualCompleteTopUp defaultSetting "ref_ab" 100) [] d).1 7 = some 500000000000 :=
  ⟨creemOrder_placed, by decide +kernel, by decide +kernel⟩

end AmuxApi.Payment
