import AmuxApi.Payment.Model

/- The payment callbacks of `controller/`, from the point where the gateway's
   signature has been verified: which order they touch, under which lock, and the
   database calls they make.

   Correspondence (Go ↔ Lean):
     `LockOrder` / `defer UnlockOrder` ↔ `withOrderLock`
     `model.GetTopUpByTradeNo` ↔ `getTopUpByTradeNo`
     `topUp.Update()` (`DB.Save`, the whole row) ↔ `TopUp.update`
     `model.IncreaseUserQuota(id, quota, true)` ↔ `increaseUserQuota`
     one webhook or admin request ↔ `Request`
   A handler answers the gateway and logs; the line it logs when it gives up is
   its error here (the part before the formatted values).

   Stripe and Creem first try the trade number as a subscription order. What that
   call answers is a parameter (`SubscriptionAnswer`); its own tables are not part
   of this model. -/
namespace AmuxApi.Payment
open Txn

/-- The outcome of `CompleteSubscriptionOrder` or `ExpireSubscriptionOrder`. -/
inductive SubscriptionAnswer
  | done | notFound | failed
  deriving DecidableEq, Repr

def withOrderLock (process : Nat) (tradeNo : String) (body : Call) : Call := do
  lock ⟨process, tradeNo⟩
  let r ← body
  unlock ⟨process, tradeNo⟩
  return r

/-- `nil` when the row is not there and when the read fails. -/
def getTopUpByTradeNo (tradeNo : String) : Prog Row OrderLock (Option TopUp) := do
  match ← select with
  | none => return none
  | some d => return d (.topUp tradeNo)

/-- `DB.Save(topUp)`: every column is written, whatever the row holds by now. -/
def TopUp.update (tradeNo : String) (topUp : TopUp) : Call := do
  match ← autocommit (.topUp tradeNo) (fun _ => some (some topUp)) with
  | none => return .error .db
  | some _ => return .ok ()

/-- With `db = true`: straight to the table, not through the batch updater. -/
def increaseUserQuota (id : Nat) (quota : Int) : Call := do
  if quota < 0 then return .error (.msg "quota 不能为负数！")
  else
    match ← autocommit (.user id) (onUser (addQuota quota)) with
    | none => return .error .db
    | some _ => return .ok ()

variable (cfg : Setting)

/-- What `EpayNotify` does with a pending order: two statements, each committed by itself. -/
def epayComplete (tradeNo : String) (topUp : TopUp) : Call := do
  match ← ({ topUp with status := .success } : TopUp).update tradeNo with
  | .error _ => return .error (.msg "易支付回调更新订单失败")
  | .ok _ =>
    match ← increaseUserQuota topUp.userId (quotaToAdd cfg topUp) with
    | .error _ => return .error (.msg "易支付回调更新用户失败")
    | .ok _ => return .ok ()

/-- `EpayNotify` on a verified callback with trade status success. -/
def epayNotify (process : Nat) (tradeNo : String) : Call :=
  withOrderLock process tradeNo do
    match ← getTopUpByTradeNo tradeNo with
    | none => return .error (.msg "易支付回调未找到订单")
    | some topUp =>
      if !topUp.matchesPaymentProvider .epay then return .error (.msg "易支付回调订单支付网关不匹配")
      else if topUp.status = .pending then epayComplete cfg tradeNo topUp
      else return .ok ()

def adminCompleteTopUp (process : Nat) (tradeNo : String) (now : Int) : Call := do
  if tradeNo = "" then return .error (.msg "参数错误")
  else withOrderLock process tradeNo (manualCompleteTopUp cfg tradeNo now)

def fulfillOrder (process : Nat) (sub : SubscriptionAnswer) (referenceId customerId : String) (now : Int) :
    Call := do
  if referenceId = "" then return .error (.msg "未提供支付单号")
  else
    withOrderLock process referenceId do
      match sub with
      | .done => return .ok ()
      | .failed => return .error (.msg "complete subscription order failed:")
      | .notFound => recharge cfg referenceId customerId now

/-- `checkout.session.completed`. -/
def sessionCompleted (process : Nat) (sub : SubscriptionAnswer) (status paymentStatus : String)
    (referenceId customerId : String) (now : Int) : Call := do
  if status ≠ "complete" then return .error (.msg "错误的Stripe Checkout完成状态:")
  else if paymentStatus ≠ "paid" then return .error (.msg "Stripe Checkout 支付尚未完成")
  else fulfillOrder cfg process sub referenceId customerId now

/-- `checkout.session.async_payment_succeeded`. -/
def sessionAsyncPaymentSucceeded (process : Nat) (sub : SubscriptionAnswer) (referenceId customerId : String)
    (now : Int) : Call :=
  fulfillOrder cfg process sub referenceId customerId now

/-- `checkout.session.async_payment_failed`. -/
def sessionAsyncPaymentFailed (process : Nat) (referenceId : String) : Call := do
  if referenceId = "" then return .error (.msg "异步支付失败事件未提供支付单号")
  else
    withOrderLock process referenceId do
      match ← getTopUpByTradeNo referenceId with
      | none => return .error (.msg "异步支付失败，充值订单不存在:")
      | some topUp =>
        if !topUp.matchesPaymentProvider .stripe then return .error (.msg "异步支付失败，订单支付网关不匹配")
        else if topUp.status ≠ .pending then return .error (.msg "异步支付失败，订单状态非pending")
        else
          match ← ({ topUp with status := .failed } : TopUp).update referenceId with
          | .error _ => return .error (.msg "标记充值订单失败出错")
          | .ok _ => return .ok ()

/-- `checkout.session.expired`. -/
def sessionExpired (process : Nat) (sub : SubscriptionAnswer) (status referenceId : String) : Call := do
  if status ≠ "expired" then return .error (.msg "错误的Stripe Checkout过期状态:")
  else if referenceId = "" then return .error (.msg "未提供支付单号")
  else
    withOrderLock process referenceId do
      match sub with
      | .done => return .ok ()
      | .failed => return .error (.msg "过期订阅订单失败")
      | .notFound =>
        match ← getTopUpByTradeNo referenceId with
        | none => return .error (.msg "充值订单不存在")
        | some topUp =>
          -- an order that is not pending is logged, and the handler goes on
          match ← ({ topUp with status := .expired } : TopUp).update referenceId with
          | .error _ => return .error (.msg "过期充值订单失败")
          | .ok _ => return .ok ()

/-- Creem's `checkout.completed`. -/
def handleCheckoutCompleted (process : Nat) (sub : SubscriptionAnswer) (orderStatus orderType : String)
    (referenceId customerEmail : String) (now : Int) : Call := do
  if orderStatus ≠ "paid" then return .ok ()
  else if referenceId = "" then return .error (.msg "Creem Webhook缺少request_id字段")
  else
    withOrderLock process referenceId do
      match sub with
      | .done => return .ok ()
      | .failed => return .error (.msg "Creem订阅订单处理失败")
      | .notFound =>
        if orderType ≠ "onetime" then return .ok ()
        else
          match ← getTopUpByTradeNo referenceId with
          | none => return .error (.msg "Creem充值订单不存在")
          | some topUp =>
            if topUp.status ≠ .pending then return .ok ()
            else rechargeCreem referenceId customerEmail now

/-- A Waffo payment notification; anything but `PAY_SUCCESS` fails a pending
order, without the lock and whatever gateway the order belongs to. -/
def handleWaffoPayment (process : Nat) (orderStatus merchantOrderId : String) (now : Int) : Call := do
  if orderStatus ≠ "PAY_SUCCESS" then
    if merchantOrderId = "" then return .ok ()
    else
      match ← getTopUpByTradeNo merchantOrderId with
      | none => return .ok ()
      | some topUp =>
        if topUp.status = .pending then do
          let _ ← ({ topUp with status := .failed } : TopUp).update merchantOrderId
          return .ok ()
        else return .ok ()
  else withOrderLock process merchantOrderId (rechargeWaffo cfg merchantOrderId now)

/-! Everything that can happen to an order. -/

/-- A call of a completion function, or a request to one of the handlers. -/
inductive Request
  | recharge (referenceId customerId : String) (now : Int)
  | rechargeCreem (referenceId customerEmail : String) (now : Int)
  | rechargeWaffo (tradeNo : String) (now : Int)
  | manualCompleteTopUp (tradeNo : String) (now : Int)
  | epayNotify (process : Nat) (tradeNo : String)
  | adminCompleteTopUp (process : Nat) (tradeNo : String) (now : Int)
  | sessionCompleted (process : Nat) (sub : SubscriptionAnswer) (status paymentStatus : String)
      (referenceId customerId : String) (now : Int)
  | sessionAsyncPaymentSucceeded (process : Nat) (sub : SubscriptionAnswer) (referenceId customerId : String)
      (now : Int)
  | sessionAsyncPaymentFailed (process : Nat) (referenceId : String)
  | sessionExpired (process : Nat) (sub : SubscriptionAnswer) (status referenceId : String)
  | handleCheckoutCompleted (process : Nat) (sub : SubscriptionAnswer) (orderStatus orderType : String)
      (referenceId customerEmail : String) (now : Int)
  | handleWaffoPayment (process : Nat) (orderStatus merchantOrderId : String) (now : Int)

namespace Request

def prog : Request → Call
  | .recharge r c now => Payment.recharge cfg r c now
  | .rechargeCreem r e now => Payment.rechargeCreem r e now
  | .rechargeWaffo t now => Payment.rechargeWaffo cfg t now
  | .manualCompleteTopUp t now => Payment.manualCompleteTopUp cfg t now
  | .epayNotify p t => Payment.epayNotify cfg p t
  | .adminCompleteTopUp p t now => Payment.adminCompleteTopUp cfg p t now
  | .sessionCompleted p sub st ps r c now => Payment.sessionCompleted cfg p sub st ps r c now
  | .sessionAsyncPaymentSucceeded p sub r c now => Payment.sessionAsyncPaymentSucceeded cfg p sub r c now
  | .sessionAsyncPaymentFailed p r => Payment.sessionAsyncPaymentFailed p r
  | .sessionExpired p sub st r => Payment.sessionExpired p sub st r
  | .handleCheckoutCompleted p sub os ot r e now => Payment.handleCheckoutCompleted p sub os ot r e now
  | .handleWaffoPayment p os t now => Payment.handleWaffoPayment cfg p os t now

def tradeNo : Request → String
  | .recharge r _ _ | .rechargeCreem r _ _ | .rechargeWaffo r _ | .manualCompleteTopUp r _
  | .epayNotify _ r | .adminCompleteTopUp _ r _ | .sessionCompleted _ _ _ _ r _ _
  | .sessionAsyncPaymentSucceeded _ _ r _ _ | .sessionAsyncPaymentFailed _ r | .sessionExpired _ _ _ r
  | .handleCheckoutCompleted _ _ _ _ r _ _ | .handleWaffoPayment _ _ r _ => r

def isEpay : Request → Bool
  | .epayNotify _ _ => true
  | _ => false

/-- Requests that save a whole order row they have read before. -/
def saves : Request → Bool
  | .epayNotify _ _ | .sessionAsyncPaymentFailed _ _ | .sessionExpired _ _ _ _ => true
  | .handleWaffoPayment _ orderStatus _ _ => orderStatus ≠ "PAY_SUCCESS"
  | _ => false

theorem not_epay_of_not_saves {r : Request} (h : r.saves = false) : r.isEpay = false := by
  cases r <;> first | rfl | cases h

/-- The balance after the request has completed order `o`, from the balance before. -/
def credit (r : Request) (o : TopUp) (quota : Int) : Int :=
  match r with
  | .recharge _ _ _ | .sessionCompleted _ _ _ _ _ _ _ | .sessionAsyncPaymentSucceeded _ _ _ _ _ =>
    cfg.rounding.assign (quota + o.amount * cfg.quotaPerUnit)
  | .rechargeCreem _ _ _ | .handleCheckoutCompleted _ _ _ _ _ _ _ => quota + o.amount
  | .rechargeWaffo _ _ | .handleWaffoPayment _ _ _ _ | .manualCompleteTopUp _ _
  | .adminCompleteTopUp _ _ _ | .epayNotify _ _ => quota + quotaToAdd cfg o
  | .sessionAsyncPaymentFailed _ _ | .sessionExpired _ _ _ _ => quota

end Request

end AmuxApi.Payment
