import Mathlib.Data.Rat.Defs
import AmuxApi.Txn.Logic

/- Top-up orders: the rows of `top_ups` and `users`, and the four functions of
   `model/topup.go` that complete an order (`Recharge`, `RechargeCreem`,
   `RechargeWaffo`, `ManualCompleteTopUp`) as programs of SQL statements.

   Correspondence (Go ↔ Lean):
     `tx.Where("trade_no = ?").First(topUp)` ↔ `select`, then the row `.topUp tradeNo`
     `claimPendingTopUpTx` ↔ `claimPendingTopUpTx`
     `Update("quota", gorm.Expr(...))` ↔ `update (.user id)`
     `DB.Transaction` ↔ `transaction`
   `trade_no` is a unique column, so an order is named by its trade number. A
   user row that is gone (deleted users are filtered out by every query) is
   `none`: an UPDATE of it writes nothing and is no error.

   `QuotaPerUnit` is a float in the source; here it is an exact rational. The log
   lines, the affiliate rebate and the group upgrade that follow a completed order
   write other columns and are left out, as is the event published inside the
   transaction. -/
namespace AmuxApi.Payment
open Txn

inductive Status
  | pending | success | failed | expired
  deriving DecidableEq, Repr

inductive Provider
  | epay | stripe | creem | waffo | waffoPancake
  deriving DecidableEq, Repr

/-- A row of `top_ups`, less its keys. `paymentProvider` is `none` on orders
older than the column. -/
structure TopUp where
  userId : Nat
  amount : Int
  money : Rat
  paymentMethod : String
  paymentProvider : Option Provider
  createTime : Int
  completeTime : Int
  status : Status
  stripeSessionId : String
  deriving DecidableEq, Repr

def newTopUp (userId : Nat) (amount : Int) (money : Rat) (paymentMethod : String) (provider : Provider)
    (createTime : Int) : TopUp where
  userId := userId
  amount := amount
  money := money
  paymentMethod := paymentMethod
  paymentProvider := some provider
  createTime := createTime
  completeTime := 0
  status := .pending
  stripeSessionId := ""

/-- The columns of `users` that completing an order touches. -/
structure User where
  quota : Int
  email : String
  stripeCustomer : String
  deriving DecidableEq, Repr

inductive Key
  | topUp (tradeNo : String)
  | user (id : Nat)
  deriving DecidableEq

abbrev Row : Key → Type
  | .topUp _ => Option TopUp
  | .user _ => Option User

/-- The mutex `LockOrder` takes: one per trade number in each server process. -/
structure OrderLock where
  process : Nat
  tradeNo : String
  deriving DecidableEq

inductive Err
  | msg (text : String)
  | db
  deriving DecidableEq, Repr

abbrev Tables := DB Row

def statusOf (d : Tables) (tradeNo : String) : Option Status := (d (.topUp tradeNo)).map TopUp.status

def balance (d : Tables) (userId : Nat) : Option Int := (d (.user userId)).map User.quota

def oneOrder (tradeNo : String) (topUp : TopUp) (user : Option User) : Tables
  | .topUp t => if t = tradeNo then some topUp else none
  | .user u => if u = topUp.userId then user else none

abbrev Call := Prog Row OrderLock (Except Err Unit)

/-- How the database stores a number in the integer column `quota`: a whole number as it is;
the rounding of any other depends on the database. -/
structure Rounding where
  assign : Rat → Int
  assign_int : ∀ n : Int, assign n = n

/-- `common.QuotaPerUnit`, and the database. -/
structure Setting where
  quotaPerUnit : Rat
  rounding : Rounding

/-- `decimal.IntPart`: the fraction is cut off. -/
def intPart (x : Rat) : Int := x.num.tdiv x.den

theorem intPart_int (n : Int) : intPart n = n := by simp [intPart]

/-- The settings the server starts with. -/
def defaultSetting : Setting where
  quotaPerUnit := 500000
  rounding := ⟨intPart, intPart_int⟩

def derivePaymentProvider (paymentMethod : String) : Provider :=
  if paymentMethod = "stripe" then .stripe
  else if paymentMethod = "creem" then .creem
  else if paymentMethod = "waffo" then .waffo
  else if paymentMethod = "waffo_pancake" then .waffoPancake
  else .epay

def TopUp.matchesPaymentProvider (topUp : TopUp) (expected : Provider) : Bool :=
  match topUp.paymentProvider with
  | some p => p = expected
  | none => derivePaymentProvider topUp.paymentMethod = expected

def TopUp.complete (topUp : TopUp) (completeTime : Int) : TopUp :=
  { topUp with status := .success, completeTime := completeTime }

/-- `UPDATE top_ups SET status = success, complete_time = ? WHERE id = ? AND status = pending`. -/
def claimRow (completeTime : Int) : Option TopUp → Option (Option TopUp)
  | some o => if o.status = .pending then some (some (o.complete completeTime)) else none
  | none => none

/-- Whether the order was claimed, and its status if it was not. -/
def claimPendingTopUpTx (tradeNo : String) (completeTime : Int) :
    Prog Row OrderLock (Except Err (Bool × Status)) := do
  match ← update (.topUp tradeNo) (claimRow completeTime) with
  | none => return .error .db
  | some true => return .ok (true, .success)
  | some false =>
    match ← select with
    | none => return .error .db
    | some d =>
      match d (.topUp tradeNo) with
      | none => return .error (.msg "record not found")
      | some cur => return .ok (false, cur.status)

def onUser (f : User → User) : Option User → Option (Option User)
  | some u => some (some (f u))
  | none => none

/-- `UPDATE users SET quota = quota + ? ... WHERE id = ?`; zero rows are no error. -/
def creditUser (userId : Nat) (f : User → User) : Call := do
  match ← update (.user userId) (onUser f) with
  | none => return .error .db
  | some _ => return .ok ()

variable (cfg : Setting)

/-- `float64(topUp.Amount) * common.QuotaPerUnit`, added by the database. -/
def rechargeUser (topUp : TopUp) (customerId : String) (u : User) : User :=
  { u with quota := cfg.rounding.assign (u.quota + topUp.amount * cfg.quotaPerUnit), stripeCustomer := customerId }

def rechargeTx (referenceId customerId : String) (now : Int) : Call := do
  match ← select with
  | none => return .error (.msg "充值订单不存在")
  | some d =>
    match d (.topUp referenceId) with
    | none => return .error (.msg "充值订单不存在")
    | some topUp =>
      if !topUp.matchesPaymentProvider .stripe then return .error (.msg "payment method mismatch")
      else if topUp.status ≠ .pending then return .error (.msg "充值订单状态错误")
      else
        match ← claimPendingTopUpTx referenceId now with
        | .error e => return .error e
        | .ok (false, _) => return .error (.msg "充值订单状态错误")
        | .ok (true, _) => creditUser topUp.userId (rechargeUser cfg topUp customerId)

/-- `Recharge`: the Stripe success callback. -/
def recharge (referenceId customerId : String) (now : Int) : Call := do
  if referenceId = "" then return .error (.msg "未提供支付单号")
  else
    match ← transaction .db (rechargeTx cfg referenceId customerId now) with
    | .error _ => return .error (.msg "充值失败，请稍后重试")
    | .ok _ => return .ok ()

/-- Creem's `Amount` is the quota itself; an empty e-mail column is filled from the payment. -/
def creemUser (topUp : TopUp) (email : Option String) (u : User) : User :=
  { u with quota := u.quota + topUp.amount, email := email.getD u.email }

def rechargeCreemTx (referenceId customerEmail : String) (now : Int) : Call := do
  match ← select with
  | none => return .error (.msg "充值订单不存在")
  | some d =>
    match d (.topUp referenceId) with
    | none => return .error (.msg "充值订单不存在")
    | some topUp =>
      if !topUp.matchesPaymentProvider .creem then return .error (.msg "payment method mismatch")
      else if topUp.status ≠ .pending then return .error (.msg "充值订单状态错误")
      else
        match ← claimPendingTopUpTx referenceId now with
        | .error e => return .error e
        | .ok (false, _) => return .error (.msg "充值订单状态错误")
        | .ok (true, _) =>
          if customerEmail = "" then creditUser topUp.userId (creemUser topUp none)
          else
            match ← select with
            | none => return .error .db
            | some d =>
              match d (.user topUp.userId) with
              | none => return .error (.msg "record not found")
              | some user =>
                creditUser topUp.userId (creemUser topUp (if user.email = "" then some customerEmail else none))

/-- `RechargeCreem`: the Creem success callback. -/
def rechargeCreem (referenceId customerEmail : String) (now : Int) : Call := do
  if referenceId = "" then return .error (.msg "未提供支付单号")
  else
    match ← transaction .db (rechargeCreemTx referenceId customerEmail now) with
    | .error _ => return .error (.msg "充值失败，请稍后重试")
    | .ok _ => return .ok ()

/-- `int(dAmount.Mul(dQuotaPerUnit).IntPart())`. -/
def quotaToAdd (topUp : TopUp) : Int := intPart (topUp.amount * cfg.quotaPerUnit)

def addQuota (quota : Int) (u : User) : User := { u with quota := u.quota + quota }

def rechargeWaffoTx (tradeNo : String) (now : Int) : Call := do
  match ← select with
  | none => return .error (.msg "充值订单不存在")
  | some d =>
    match d (.topUp tradeNo) with
    | none => return .error (.msg "充值订单不存在")
    | some topUp =>
      if !topUp.matchesPaymentProvider .waffo then return .error (.msg "payment method mismatch")
      else if topUp.status = .success then return .ok ()
      else if topUp.status ≠ .pending then return .error (.msg "充值订单状态错误")
      else if quotaToAdd cfg topUp ≤ 0 then return .error (.msg "无效的充值额度")
      else
        match ← claimPendingTopUpTx tradeNo now with
        | .error e => return .error e
        | .ok (false, curStatus) =>
          if curStatus = .success then return .ok () else return .error (.msg "充值订单状态错误")
        | .ok (true, _) => creditUser topUp.userId (addQuota (quotaToAdd cfg topUp))

/-- `RechargeWaffo`: the Waffo success callback. -/
def rechargeWaffo (tradeNo : String) (now : Int) : Call := do
  if tradeNo = "" then return .error (.msg "未提供支付单号")
  else
    match ← transaction .db (rechargeWaffoTx cfg tradeNo now) with
    | .error _ => return .error (.msg "充值失败，请稍后重试")
    | .ok _ => return .ok ()

def manualCompleteTopUpTx (tradeNo : String) (now : Int) : Call := do
  match ← select with
  | none => return .error (.msg "充值订单不存在")
  | some d =>
    match d (.topUp tradeNo) with
    | none => return .error (.msg "充值订单不存在")
    | some topUp =>
      if topUp.status = .success then return .ok ()
      else if topUp.status ≠ .pending then return .error (.msg "订单状态不是待支付，无法补单")
      else if quotaToAdd cfg topUp ≤ 0 then return .error (.msg "无效的充值额度")
      else
        match ← claimPendingTopUpTx tradeNo now with
        | .error e => return .error e
        | .ok (false, curStatus) =>
          if curStatus = .success then return .ok ()
          else return .error (.msg "订单状态不是待支付，无法补单")
        | .ok (true, _) => creditUser topUp.userId (addQuota (quotaToAdd cfg topUp))

/-- `ManualCompleteTopUp`: an administrator completes an order of any gateway. -/
def manualCompleteTopUp (tradeNo : String) (now : Int) : Call := do
  if tradeNo = "" then return .error (.msg "未提供订单号")
  else transaction .db (manualCompleteTopUpTx cfg tradeNo now)

end AmuxApi.Payment
