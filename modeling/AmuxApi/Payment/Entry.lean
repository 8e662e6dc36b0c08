import AmuxApi.Payment.Handlers

/- The entry points that place an order: `RequestEpay`, `RequestWaffoPay`, and the `RequestPay`
   of Stripe and Creem. Each checks the request against the settings, computes the price and
   inserts a row of `top_ups`.

   The three price functions are one formula over three unit prices (`payMoney`). Amounts are
   exact rationals, `decimal` division and `float64` alike; `IntPart` and the conversion to
   `int64` cut the fraction off. What the gateway, the user table and the clock answer are
   parameters. A request ends with the row it has left in the table, if any, and its answer. -/
namespace AmuxApi.Payment

inductive QuotaDisplayType
  | usd | cny | tokens | custom
  deriving DecidableEq, Repr

structure CreemProduct where
  productId : String
  price : Rat
  quota : Int

/-- The settings the entry points read. `topupGroupRatio` and `amountDiscount` are maps;
`creemProducts` is `none` when the setting does not parse. -/
structure PayConfig extends Setting where
  quotaDisplayType : QuotaDisplayType
  topupGroupRatio : String → Option Rat
  amountDiscount : Int → Option Rat
  minTopUp : Int
  price : Rat
  payMethods : List String
  stripeMinTopUp : Int
  stripeUnitPrice : Rat
  waffoEnabled : Bool
  waffoMinTopUp : Int
  waffoUnitPrice : Rat
  waffoPayMethods : List (String × String)
  creemProducts : Option (List CreemProduct)

/-- The order left in the table with its trade number, and the answer to the client. -/
abbrev Placement := Option (String × TopUp) × Except Err Unit

def refuse (text : String) : Placement := (none, .error (.msg text))

section
variable (cfg : PayConfig)

/-! Prices and minimums. -/

/-- A ratio of 0 counts as 1. -/
def getTopupGroupRatio (group : String) : Rat :=
  let ratio := (cfg.topupGroupRatio group).getD 1
  if ratio = 0 then 1 else ratio

def discountFor (amount : Int) : Rat :=
  match cfg.amountDiscount amount with
  | some ds => if ds > 0 then ds else 1
  | none => 1

/-- In TOKENS display the client sends tokens, and the price is for the units they make. -/
def payMoney (unitPrice : Rat) (amount : Int) (group : String) : Rat :=
  let units : Rat := if cfg.quotaDisplayType = .tokens then amount / cfg.quotaPerUnit else amount
  units * unitPrice * getTopupGroupRatio cfg group * discountFor cfg amount

def getPayMoney (amount : Int) (group : String) : Rat := payMoney cfg cfg.price amount group

def getStripePayMoney (amount : Int) (group : String) : Rat := payMoney cfg cfg.stripeUnitPrice amount group

def getWaffoPayMoney (amount : Int) (group : String) : Rat := payMoney cfg cfg.waffoUnitPrice amount group

def getMinTopup : Int :=
  if cfg.quotaDisplayType = .tokens then intPart (cfg.minTopUp * cfg.quotaPerUnit) else cfg.minTopUp

def getStripeMinTopup : Int :=
  if cfg.quotaDisplayType = .tokens then cfg.stripeMinTopUp * intPart cfg.quotaPerUnit else cfg.stripeMinTopUp

/-! Epay. -/

structure EpayRequest where
  amount : Int
  paymentMethod : String

/-- What the outside answers: the user's group, whether the client is configured, whether the
gateway takes the purchase, whether the insert succeeds, the random part of the trade number. -/
structure EpayAnswers where
  group : Option String
  client : Bool
  purchase : Bool
  insert : Bool
  random : String
  now : Int

/-- The stored amount: in TOKENS display whole units, the rest is cut off. -/
def epayAmount (amount : Int) : Int :=
  if cfg.quotaDisplayType = .tokens then intPart (amount / cfg.quotaPerUnit) else amount

def epayTradeNo (id : Nat) (env : EpayAnswers) : String :=
  "USR" ++ (toString id ++ "NO" ++ (env.random ++ toString env.now))

def epayTopUp (id : Nat) (req : EpayRequest) (group : String) (now : Int) : TopUp :=
  newTopUp id (epayAmount cfg req.amount) (getPayMoney cfg req.amount group) req.paymentMethod .epay now

def requestEpay (id : Nat) (req : EpayRequest) (env : EpayAnswers) : Placement :=
  if req.amount < getMinTopup cfg then refuse ("充值数量不能小于 " ++ toString (getMinTopup cfg))
  else match env.group with
  | none => refuse "获取用户分组失败"
  | some group =>
    if getPayMoney cfg req.amount group < 1 / 100 then refuse "充值金额过低"
    else if !cfg.payMethods.contains req.paymentMethod then refuse "支付方式不存在"
    else if !env.client then refuse "当前管理员未配置支付信息"
    else if !env.purchase then refuse "拉起支付失败"
    else if !env.insert then refuse "创建订单失败"
    else (some (epayTradeNo id env, epayTopUp cfg id req group env.now), .ok ())

/-! Waffo. -/

structure WaffoPayRequest where
  amount : Int
  payMethodIndex : Option Int
  payMethodType : String
  payMethodName : String

structure WaffoAnswers where
  user : Bool
  group : Option String
  insert : Bool
  sdk : Bool
  created : Bool
  nowMilli : Int
  random : String
  now : Int

/-- The client picks a configured method by index, or (old clients) by type and name. -/
def resolvePayMethod (req : WaffoPayRequest) : Option (String × String) :=
  match req.payMethodIndex with
  | some idx => if idx < 0 then none else cfg.waffoPayMethods[idx.toNat]?
  | none =>
    if req.payMethodType = "" then some ("", "")
    else cfg.waffoPayMethods.find? (· = (req.payMethodType, req.payMethodName))

/-- The stored amount: in TOKENS display whole units, but at least one. -/
def waffoAmount (amount : Int) : Int :=
  if cfg.quotaDisplayType = .tokens then
    let units := intPart (amount / cfg.quotaPerUnit)
    if units < 1 then 1 else units
  else amount

def waffoTradeNo (id : Nat) (env : WaffoAnswers) : String :=
  "WAFFO-" ++ (toString id ++ "-" ++ toString env.nowMilli ++ "-" ++ env.random)

def waffoTopUp (id : Nat) (req : WaffoPayRequest) (group : String) (now : Int) : TopUp :=
  newTopUp id (waffoAmount cfg req.amount) (getWaffoPayMoney cfg req.amount group) "waffo" .waffo now

/-- The row is inserted before the gateway is asked; a refusal saves it as failed. -/
def requestWaffoPay (id : Nat) (req : WaffoPayRequest) (env : WaffoAnswers) : Placement :=
  if !cfg.waffoEnabled then refuse "Waffo 支付未启用"
  else if req.amount < cfg.waffoMinTopUp then refuse ("充值数量不能小于 " ++ toString cfg.waffoMinTopUp)
  else if !env.user then refuse "用户不存在"
  else match resolvePayMethod cfg req with
  | none => refuse "不支持的支付方式"
  | some _ =>
    if getWaffoPayMoney cfg req.amount (env.group.getD "") < 1 / 100 then refuse "充值金额过低"
    else if !env.insert then refuse "创建订单失败"
    else if !env.sdk then
      (some (waffoTradeNo id env, { waffoTopUp cfg id req (env.group.getD "") env.now with status := .failed }),
        .error (.msg "支付配置错误"))
    else if !env.created then
      (some (waffoTradeNo id env, { waffoTopUp cfg id req (env.group.getD "") env.now with status := .failed }),
        .error (.msg "拉起支付失败"))
    else (some (waffoTradeNo id env, waffoTopUp cfg id req (env.group.getD "") env.now), .ok ())

/-! Stripe. -/

structure StripePayRequest where
  amount : Int
  paymentMethod : String

/-- `successUrl` and `cancelUrl`: the redirect, if any, is to a trusted domain. `link` is the
checkout session Stripe has opened, `digest` the hash in the reference. -/
structure StripeAnswers where
  successUrl : Bool
  cancelUrl : Bool
  group : Option String
  link : Option String
  insert : Bool
  digest : String
  now : Int

def stripeTopUp (id : Nat) (req : StripePayRequest) (group sessionId : String) (now : Int) : TopUp :=
  { newTopUp id req.amount (getStripePayMoney cfg req.amount group) "stripe" .stripe now with
    stripeSessionId := sessionId }

def stripeRequestPay (id : Nat) (req : StripePayRequest) (env : StripeAnswers) : Placement :=
  if req.paymentMethod ≠ "stripe" then refuse "不支持的支付渠道"
  else if req.amount < getStripeMinTopup cfg then refuse ("充值数量不能小于 " ++ toString (getStripeMinTopup cfg))
  else if req.amount > 10000 then refuse "充值数量不能大于 10000"
  else if !env.successUrl then refuse "支付成功重定向URL不在可信任域名列表中"
  else if !env.cancelUrl then refuse "支付取消重定向URL不在可信任域名列表中"
  else match env.group, env.link with
  | none, _ => refuse "获取用户分组失败"
  | some _, none => refuse "拉起支付失败"
  | some group, some sessionId =>
    if !env.insert then refuse "创建订单失败"
    else (some ("ref_" ++ env.digest, stripeTopUp cfg id req group sessionId env.now), .ok ())

/-! Creem. -/

structure CreemPayRequest where
  productId : String
  paymentMethod : String

structure CreemAnswers where
  insert : Bool
  link : Bool
  digest : String
  now : Int

/-- The product's quota is the stored amount. The row stays when the payment link cannot be
made. -/
def creemRequestPay (id : Nat) (req : CreemPayRequest) (env : CreemAnswers) : Placement :=
  if req.paymentMethod ≠ "creem" then refuse "不支持的支付渠道"
  else if req.productId = "" then refuse "请选择产品"
  else match cfg.creemProducts with
  | none => refuse "产品配置错误"
  | some products =>
    match products.find? (·.productId = req.productId) with
    | none => refuse "产品不存在"
    | some product =>
      if !env.insert then refuse "创建订单失败"
      else
        (some ("ref_" ++ env.digest, newTopUp id product.quota product.price "creem" .creem env.now),
          if env.link then .ok () else .error (.msg "拉起支付失败"))

end

/-! The orders that are waiting to be paid. -/

/-- The four gateways an order can be placed with. -/
inductive Gateway
  | epay | stripe | creem | waffo
  deriving DecidableEq, Repr

def Gateway.provider : Gateway → Provider
  | .epay => .epay
  | .stripe => .stripe
  | .creem => .creem
  | .waffo => .waffo

/-- A request to the gateway's entry point has left the pending order `o` under `t`. -/
inductive Placed (cfg : PayConfig) : Gateway → String → TopUp → Prop
  | epay (id : Nat) (req : EpayRequest) (env : EpayAnswers) {t : String} {o : TopUp}
      (h : (requestEpay cfg id req env).1 = some (t, o)) (hp : o.status = .pending) : Placed cfg .epay t o
  | stripe (id : Nat) (req : StripePayRequest) (env : StripeAnswers) {t : String} {o : TopUp}
      (h : (stripeRequestPay cfg id req env).1 = some (t, o)) (hp : o.status = .pending) : Placed cfg .stripe t o
  | creem (id : Nat) (req : CreemPayRequest) (env : CreemAnswers) {t : String} {o : TopUp}
      (h : (creemRequestPay cfg id req env).1 = some (t, o)) (hp : o.status = .pending) : Placed cfg .creem t o
  | waffo (id : Nat) (req : WaffoPayRequest) (env : WaffoAnswers) {t : String} {o : TopUp}
      (h : (requestWaffoPay cfg id req env).1 = some (t, o)) (hp : o.status = .pending) : Placed cfg .waffo t o

section
variable {cfg : PayConfig} {t : String} {o : TopUp} {id : Nat}

theorem requestEpay_order {req : EpayRequest} {env : EpayAnswers} (h : (requestEpay cfg id req env).1 = some (t, o)) :
    t = epayTradeNo id env ∧ ∃ group, o = epayTopUp cfg id req group env.now := by
  unfold requestEpay at h
  split at h
  · cases h
  split at h
  · cases h
  split_ifs at h <;> cases h
  exact ⟨rfl, _, rfl⟩

theorem requestWaffoPay_order {req : WaffoPayRequest} {env : WaffoAnswers}
    (h : (requestWaffoPay cfg id req env).1 = some (t, o)) (hp : o.status = .pending) :
    t = waffoTradeNo id env ∧ ∃ group, o = waffoTopUp cfg id req group env.now := by
  unfold requestWaffoPay at h
  iterate 4
    split at h
    · cases h
  split_ifs at h <;> cases h
  · cases hp
  · cases hp
  · exact ⟨rfl, _, rfl⟩

/-- An order the gateway has taken is waiting to be paid. -/
theorem requestWaffoPay_accepted {req : WaffoPayRequest} {env : WaffoAnswers}
    (h : requestWaffoPay cfg id req env = (some (t, o), .ok ())) : o.status = .pending := by
  unfold requestWaffoPay at h
  iterate 4
    split at h
    · cases h
  split_ifs at h <;> cases h
  rfl

theorem stripeRequestPay_order {req : StripePayRequest} {env : StripeAnswers}
    (h : (stripeRequestPay cfg id req env).1 = some (t, o)) :
    t = "ref_" ++ env.digest ∧ ∃ group sessionId, o = stripeTopUp cfg id req group sessionId env.now := by
  unfold stripeRequestPay at h
  iterate 5
    split at h
    · cases h
  split at h
  · cases h
  · cases h
  split_ifs at h <;> cases h
  exact ⟨rfl, _, _, rfl⟩

theorem creemRequestPay_order {req : CreemPayRequest} {env : CreemAnswers}
    (h : (creemRequestPay cfg id req env).1 = some (t, o)) :
    t = "ref_" ++ env.digest ∧ ∃ product : CreemProduct,
      o = newTopUp id product.quota product.price "creem" .creem env.now := by
  unfold creemRequestPay at h
  iterate 5
    split at h
    · cases h
  cases h
  exact ⟨rfl, _, rfl⟩

/-- A waiting order carries its gateway, and a trade number. -/
theorem Placed.order {gw : Gateway} (h : Placed cfg gw t o) :
    t ≠ "" ∧ o.status = .pending ∧ o.paymentProvider = some gw.provider := by
  have hne : ∀ {a b : String}, a ≠ "" → a ++ b ≠ "" := fun ha e => ha (String.append_eq_empty_iff.mp e).1
  cases h with
  | epay id req env h hp =>
    obtain ⟨rfl, group, rfl⟩ := requestEpay_order h
    exact ⟨hne (by decide), hp, rfl⟩
  | stripe id req env h hp =>
    obtain ⟨rfl, group, sessionId, rfl⟩ := stripeRequestPay_order h
    exact ⟨hne (by decide), hp, rfl⟩
  | creem id req env h hp =>
    obtain ⟨rfl, product, rfl⟩ := creemRequestPay_order h
    exact ⟨hne (by decide), hp, rfl⟩
  | waffo id req env h hp =>
    obtain ⟨rfl, group, rfl⟩ := requestWaffoPay_order h hp
    exact ⟨hne (by decide), hp, rfl⟩

end

end AmuxApi.Payment
