import AmuxApi.Payment.Manual

/- The TOKENS display. The client asks for a number of tokens, pays for the exact fraction of a
   unit they make, and the order keeps whole units only; on completion the units are turned back
   into quota. `tokens_credited_iff` says for which requests the customer gets the tokens asked
   for: the multiples of `QuotaPerUnit`. Waffo rounds less than a unit up to one, so there one
   more amount comes out right when `QuotaPerUnit` is no whole number. -/
namespace AmuxApi.Payment
open Txn

/-- `a` tokens are a whole number of units. -/
def WholeUnits (q : Rat) (a : Int) : Prop := ∃ n : Int, (a : Rat) = n * q

variable {q : Rat}

theorem floor_mul_le (hq : 0 < q) (a : Rat) : ⌊a / q⌋ * q ≤ a :=
  calc (⌊a / q⌋ : Rat) * q ≤ a / q * q := mul_le_mul_of_nonneg_right (Int.floor_le _) hq.le
    _ = a := div_mul_cancel₀ a hq.ne'

/-- Cutting off and multiplying back gives `a` again exactly when nothing was cut off. -/
theorem floor_units_iff (hq : 0 < q) (a : Int) : ⌊(⌊(a : Rat) / q⌋ : Rat) * q⌋ = a ↔ WholeUnits q a := by
  constructor
  · intro h
    have hle : (a : Rat) ≤ ⌊(a : Rat) / q⌋ * q := (Int.floor_eq_iff.mp h).1
    exact ⟨⌊(a : Rat) / q⌋, le_antisymm hle (floor_mul_le hq a)⟩
  · rintro ⟨n, hn⟩
    have hdiv : (a : Rat) / q = n := by rw [hn]; exact mul_div_cancel_right₀ _ hq.ne'
    rw [hdiv, Int.floor_intCast, ← hn, Int.floor_intCast]

theorem epay_units_iff (hq : 0 < q) (a : Int) : max 0 (intPart (intPart (a / q) * q)) = a ↔ 0 ≤ a ∧ WholeUnits q a := by
  rcases lt_or_ge a 0 with ha | ha
  · constructor <;> omega
  · have hdiv : (0 : Rat) ≤ a / q := div_nonneg (by exact_mod_cast ha) hq.le
    have hunits : (0 : Rat) ≤ ⌊(a : Rat) / q⌋ * q :=
      mul_nonneg (by exact_mod_cast Int.floor_nonneg.mpr hdiv) hq.le
    rw [intPart_of_nonneg hdiv, intPart_of_nonneg hunits, max_eq_right (Int.floor_nonneg.mpr hunits),
      floor_units_iff hq]
    exact ⟨fun h => ⟨ha, h⟩, fun h => h.2⟩

theorem waffo_units_iff (hq : 0 < q) (a : Int) :
    max 0 (intPart ((if intPart (a / q) < 1 then (1 : Int) else intPart (a / q) : Int) * q)) = a ↔
      (0 < a ∧ WholeUnits q a) ∨ a = ⌊q⌋ := by
  have hfloorq : 0 ≤ ⌊q⌋ := Int.floor_nonneg.mpr hq.le
  by_cases hone : 1 ≤ (a : Rat) / q
  · -- at least one unit: as for Epay
    have hunits : 1 ≤ intPart ((a : Rat) / q) := by
      rw [intPart_of_nonneg (zero_le_one.trans hone)]
      exact Int.le_floor.mpr (by exact_mod_cast hone)
    have hqa : q ≤ a := (one_le_div hq).mp hone
    have ha : 0 < a := by exact_mod_cast hq.trans_le hqa
    rw [if_neg (not_lt.mpr hunits), epay_units_iff hq]
    constructor
    · rintro ⟨_, h⟩
      exact .inl ⟨ha, h⟩
    rintro (⟨_, h⟩ | h)
    · exact ⟨ha.le, h⟩
    -- `a` is the whole part of `q` and no less than `q`
    refine ⟨ha.le, 1, ?_⟩
    have : (a : Rat) ≤ q := by rw [h]; exact Int.floor_le q
    rw [Int.cast_one, one_mul]
    exact le_antisymm this hqa
  · -- less than a unit is stored as one
    have hlt : (a : Rat) / q < 1 := not_le.mp hone
    have hunits : intPart ((a : Rat) / q) < 1 := by
      rcases le_total 0 ((a : Rat) / q) with h | h
      · rw [intPart_of_nonneg h]
        exact Int.floor_lt.mpr (by exact_mod_cast hlt)
      · have := intPart_nonpos h
        omega
    have haq : (a : Rat) < q := (div_lt_one hq).mp hlt
    rw [if_pos hunits, Int.cast_one, one_mul, intPart_of_nonneg hq.le, max_eq_right hfloorq]
    constructor
    · intro h
      exact .inr h.symm
    rintro (⟨ha, n, hn⟩ | h)
    · -- fewer tokens than a unit, and more than none, are not whole units
      have hn0 : 0 < n := by
        have : 0 < (n : Rat) * q := by rw [← hn]; exact_mod_cast ha
        exact_mod_cast (pos_iff_pos_of_mul_pos this).mpr hq
      have : q ≤ n * q := le_mul_of_one_le_left hq.le (by exact_mod_cast hn0)
      linarith
    · exact h.symm

/-- **When the tokens asked for are the tokens credited.** In TOKENS display, for every request
that `RequestEpay` or `RequestWaffoPay` accepts, and the user with any balance: the order's
success callback credits exactly the tokens asked for if and only if they are a whole number of
units, or, with Waffo, the whole part of `QuotaPerUnit`. -/
theorem tokens_credited_iff (cfg : PayConfig) (hcfg : cfg.quotaDisplayType = .tokens) (hq : 0 < cfg.quotaPerUnit)
    (id : Nat) (t : String) (o : TopUp) (d : Tables) (ho : d (.topUp t) = some o) (u : User)
    (hu : d (.user o.userId) = some u) (process : Nat) (now : Int) :
    (∀ req env, requestEpay cfg id req env = (some (t, o), .ok ()) →
      (balance (solo (epayNotify cfg.toSetting process t) [] d).1 o.userId = some (u.quota + req.amount) ↔
        0 ≤ req.amount ∧ WholeUnits cfg.quotaPerUnit req.amount)) ∧
    (∀ req env, requestWaffoPay cfg id req env = (some (t, o), .ok ()) →
      (balance (solo (handleWaffoPayment cfg.toSetting process "PAY_SUCCESS" t now) [] d).1 o.userId =
          some (u.quota + req.amount) ↔
        (0 < req.amount ∧ WholeUnits cfg.quotaPerUnit req.amount) ∨ req.amount = ⌊cfg.quotaPerUnit⌋)) := by
  have hcredit : ∀ (gw : Gateway) (a : Int), Placed cfg gw t o → gw = .epay ∨ gw = .waffo →
      (balance (solo ((gw.callback process t "" now).prog cfg.toSetting) [] d).1 o.userId = some (u.quota + a) ↔
        max 0 (quotaToAdd cfg.toSetting o) = a) := by
    intro gw a h hgw
    obtain ⟨ht, hp, hm⟩ := h.order
    rw [balance_callback ho hp hu gw process "" ht hm, Option.some.injEq]
    rcases hgw with rfl | rfl <;> exact Int.add_right_inj _
  constructor
  · intro req env h
    have h₁ := congrArg Prod.fst h
    obtain ⟨-, group, e⟩ := requestEpay_order h₁
    have hp : o.status = .pending := by rw [e]; rfl
    refine (hcredit .epay req.amount (.epay id req env h₁ hp) (.inl rfl)).trans ?_
    have hq' : quotaToAdd cfg.toSetting o = intPart (intPart (req.amount / cfg.quotaPerUnit) * cfg.quotaPerUnit) := by
      rw [e]
      simp [quotaToAdd, epayTopUp, newTopUp, epayAmount, hcfg]
    rw [hq']
    exact epay_units_iff hq req.amount
  · intro req env h
    have h₁ := congrArg Prod.fst h
    have hp := requestWaffoPay_accepted h
    obtain ⟨-, group, e⟩ := requestWaffoPay_order h₁ hp
    refine (hcredit .waffo req.amount (.waffo id req env h₁ hp) (.inr rfl)).trans ?_
    have hq' : quotaToAdd cfg.toSetting o =
        intPart ((if intPart (req.amount / cfg.quotaPerUnit) < 1 then (1 : Int)
          else intPart (req.amount / cfg.quotaPerUnit) : Int) * cfg.quotaPerUnit) := by
      rw [e]
      simp [quotaToAdd, waffoTopUp, newTopUp, waffoAmount, hcfg]
    rw [hq']
    exact waffo_units_iff hq req.amount

/-! The shop in TOKENS display. -/

def tokensConfig : PayConfig := { exampleConfig with quotaDisplayType := .tokens }

/-- Three units' worth of tokens come back as they were asked for. -/
theorem whole_units_credited :
    let o := newTopUp 7 3 21 "alipay" .epay 90
    balance (solo (epayNotify tokensConfig.toSetting 1 "USR7NOx90") []
      (oneOrder "USR7NOx90" o (some ⟨10, "", ""⟩))).1 7 = some (10 + 1500000) := by
  intro o
  have h := tokens_credited_iff tokensConfig rfl (by decide +kernel) 7 "USR7NOx90" o
    (oneOrder "USR7NOx90" o (some ⟨10, "", ""⟩)) (by simp [oneOrder]) ⟨10, "", ""⟩ (by simp [oneOrder, o, newTopUp]) 1 0
  refine (h.1 ⟨1500000, "alipay"⟩ ⟨some "default", true, true, true, "x", 90⟩ (by decide +kernel)).mpr
    ⟨by decide, 3, ?_⟩
  norm_num [tokensConfig, exampleConfig]

/-- 750000 tokens, a unit and a half, are accepted and priced as such (10.50); one unit is
credited. With Waffo, where less than a unit is rounded up, 100 tokens priced at 0.0002 units
would be too cheap, but 10000 tokens at 0.02 are accepted and 500000 credited. -/
theorem fraction_of_unit_lost :
    let o := newTopUp 7 1 (21 / 2) "alipay" .epay 90
    let o' := newTopUp 7 1 (1 / 50) "waffo" .waffo 90
    requestEpay tokensConfig 7 ⟨750000, "alipay"⟩ ⟨some "default", true, true, true, "x", 90⟩ =
      (some ("USR7NOx90", o), .ok ()) ∧
    balance (solo (epayNotify tokensConfig.toSetting 1 "USR7NOx90") []
      (oneOrder "USR7NOx90" o (some ⟨0, "", ""⟩))).1 7 = some 500000 ∧
    requestWaffoPay tokensConfig 7 ⟨10000, none, "", ""⟩ ⟨true, none, true, true, true, 90000, "x", 90⟩ =
      (some ("WAFFO-7-90000-x", o'), .ok ()) ∧
    balance (solo (handleWaffoPayment tokensConfig.toSetting 1 "PAY_SUCCESS" "WAFFO-7-90000-x" 100) []
      (oneOrder "WAFFO-7-90000-x" o' (some ⟨0, "", ""⟩))).1 7 = some 500000 := by
  refine ⟨?_, ?_, ?_, ?_⟩ <;> decide +kernel

end AmuxApi.Payment
