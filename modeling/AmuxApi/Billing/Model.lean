import AmuxApi.Payment.Model
import AmuxApi.Subscription.Model
import AmuxApi.Txn.Sequential

/- The billing session of one request: what is taken from the user's wallet or
   subscription and from the token before the request is served, topped up while it is,
   and settled or refunded afterwards.

   The wallet, the token and the subscription are changed by separate operations, and each
   of them can fail. A failed operation has changed nothing. `giveBack` marks the
   operations that undo an earlier one of the same call; everything else is `forward`.
   Errors are kept with their texts, since `preConsume` looks into one.

   Correspondence (Go ↔ Lean), `service/billing_session.go`, `service/funding_source.go`:
     `WalletFunding`, `SubscriptionFunding` and methods ↔ `Funding` and functions
     `refundWithRetry` ↔ `refundWithRetry`
     `PreConsumeTokenQuota` (`service/quota.go`) ↔ `preConsumeTokenQuota`
     `BillingSession` ↔ `Session`
     `preConsume`, `shouldTrust`, `syncRelayInfo` ↔ same names
     `Reserve`, `Settle`, `Refund` ↔ `Session.reserve`, `settle`, `refund`
     the goroutine `Refund` starts ↔ `RefundJob.run`
     `NewBillingSession` ↔ `newBillingSession`
     `PostConsumeQuota` (`service/quota.go`) ↔ `postConsumeQuota`
     `SettleBilling` (`service/billing.go`) ↔ `settleBilling`
   The relayInfo is split in two: `Relay` is what is never written here, `Info` what is.
   Quotas are unbounded integers. The wallet and the token are the amounts that count: with
   batched updates the stored column follows later. -/
namespace AmuxApi.Billing
open Txn
open Txn.Code (ask world change)
open Subscription (Env Plan Tables SQL)

/-! What there is. -/

inductive Source
  | wallet | subscription
  deriving DecidableEq, Repr

/-- The settings, and how amounts are written into messages. -/
structure Host where
  env : Env
  quotaPerUnit : Rat
  formatQuota : Int → String

/-- The request: `tokenQuota` is the context's `token_quota`. -/
structure Relay where
  userId : Int
  requestId : String
  billingPreference : String
  tokenQuota : Int
  tokenUnlimited : Bool
  isPlayground : Bool
  forcePreConsume : Bool

/-- The fields of relayInfo a session writes. -/
structure Info where
  userQuota : Int
  finalPreConsumedQuota : Int
  billingSource : Option Source
  subscriptionId : Int
  subscriptionPreConsumed : Int
  subscriptionPostDelta : Int
  subscriptionAmountTotal : Int
  subscriptionAmountUsedAfterPreConsume : Int
  deriving DecidableEq, Repr

/-- The user's quota, the token's remaining quota, and the subscription tables. -/
structure World where
  wallet : Int
  token : Int
  tables : Tables
  info : Info

inductive Kind
  | forward | giveBack
  deriving DecidableEq, Repr

/-- How an operation goes: whether it fails, what a quota cache has, the clock, what the plan
cache has, and which statements of a transaction fail. -/
structure Answer where
  fails : Bool := false
  cached : Option Int := none
  now : Int := 0
  plans : Int → Option Plan := fun _ => none
  faults : List Bool := []

instance : Inhabited Answer := ⟨{}⟩

abbrev Service := Code World Kind Answer

/-! Errors. -/

inductive ErrorCode
  | invalidRequest
  | queryDataError
  | updateDataError
  | insufficientUserQuota
  | preConsumeTokenQuotaFailed
  deriving DecidableEq, Repr

structure ApiError where
  code : ErrorCode
  statusCode : Nat
  text : String
  deriving DecidableEq, Repr

/-- `types.NewError`: status 500. -/
def internal (code : ErrorCode) (text : String) : ApiError := ⟨code, 500, text⟩

/-- `types.NewErrorWithStatusCode` with `http.StatusForbidden`. -/
def forbidden (code : ErrorCode) (text : String) : ApiError := ⟨code, 403, text⟩

def dbError : String := Subscription.Err.db.text

/-! The operations. -/

/-- A read through a cache. -/
def readQuota (stored : World → Int) : Service (Except String Int) := do
  let a ← ask .forward
  match a.cached with
  | some quota => return .ok quota
  | none =>
    if a.fails then return .error dbError
    else do
      let w ← world
      return .ok (stored w)

def getUserQuota : Service (Except String Int) := readQuota World.wallet

/-- Of the token only its remaining quota is used. -/
def getTokenByKey : Service (Except String Int) := readQuota World.token

/-- One UPDATE of a quota. -/
def changeQuota (apply : Int → World → World) (k : Kind) (quota : Int) : Service (Except String Unit) :=
  if quota < 0 then return .error "quota 不能为负数！"
  else do
    let a ← ask k
    if a.fails then return .error dbError
    else do
      change (apply quota)
      return .ok ()

def increaseUserQuota : Kind → Int → Service (Except String Unit) :=
  changeQuota fun quota w => { w with wallet := w.wallet + quota }

def decreaseUserQuota : Kind → Int → Service (Except String Unit) :=
  changeQuota fun quota w => { w with wallet := w.wallet - quota }

def increaseTokenQuota : Kind → Int → Service (Except String Unit) :=
  changeQuota fun quota w => { w with token := w.token + quota }

def decreaseTokenQuota : Kind → Int → Service (Except String Unit) :=
  changeQuota fun quota w => { w with token := w.token - quota }

/-- A function of the subscription model, with the tables to itself. -/
def onTables {α : Type} (k : Kind) (call : Answer → SQL (Except Subscription.Err α)) : Service (Except String α) := do
  let a ← ask k
  let w ← world
  change fun w' => { w' with tables := (solo (call a) a.faults w.tables).1 }
  return (solo (call a) a.faults w.tables).2.mapError Subscription.Err.text

def preConsumeUserSubscription (env : Env) (requestId : String) (userId amount : Int) :
    Service (Except String Subscription.PreConsumeResult) :=
  onTables .forward fun a => Subscription.preConsumeUserSubscription env a.plans requestId userId amount a.now

def postConsumeUserSubscriptionDelta (k : Kind) (id delta : Int) : Service (Except String Unit) :=
  onTables k fun _ => Subscription.postConsumeUserSubscriptionDelta id delta

def refundSubscriptionPreConsume (requestId : String) : Service (Except String Unit) :=
  onTables .forward fun _ => Subscription.refundSubscriptionPreConsume requestId

/-- `COUNT` of the active subscriptions, not 0. -/
def hasActiveUserSubscription (env : Env) (userId : Int) : Service (Except String Bool) :=
  if userId ≤ 0 then return .error Subscription.Err.invalidUserId.text
  else do
    let a ← ask .forward
    if a.fails then return .error dbError
    else do
      let w ← world
      return .ok !(Subscription.activeSubs env w.tables userId a.now).isEmpty

def preConsumeTokenQuota (host : Host) (relay : Relay) (quota : Int) : Service (Except String Unit) :=
  if quota < 0 then return .error "quota 不能为负数！"
  else if relay.isPlayground then return .ok ()
  else do
    match ← getTokenByKey with
    | .error e => return .error e
    | .ok remain =>
      if ¬ relay.tokenUnlimited ∧ remain < quota then
        return .error ("token quota is not enough, token remain quota: " ++ host.formatQuota remain ++
          ", need quota: " ++ host.formatQuota quota)
      else decreaseTokenQuota .forward quota

/-! The funding sources. -/

structure SubscriptionFunding where
  requestId : String
  userId : Int
  amount : Int
  subscriptionId : Int := 0
  preConsumed : Int := 0
  amountTotal : Int := 0
  amountUsedAfter : Int := 0
  deriving DecidableEq, Repr

inductive Funding
  | wallet (consumed : Int)
  | subscription (f : SubscriptionFunding)
  deriving DecidableEq, Repr

def Funding.source : Funding → Source
  | .wallet _ => .wallet
  | .subscription _ => .subscription

/-- A subscription is charged the amount it was made with, not the one it is handed. -/
def Funding.preConsume (env : Env) (amount : Int) : Funding → Service (Except String Funding)
  | .wallet consumed =>
    if amount ≤ 0 then return .ok (.wallet consumed)
    else do
      match ← decreaseUserQuota .forward amount with
      | .error e => return .error e
      | .ok _ => return .ok (.wallet amount)
  | .subscription f => do
    match ← preConsumeUserSubscription env f.requestId f.userId f.amount with
    | .error e => return .error e
    | .ok res =>
      return .ok (.subscription { f with
        subscriptionId := res.userSubscriptionId, preConsumed := res.preConsumed,
        amountTotal := res.amountTotal, amountUsedAfter := res.amountUsedAfter })

def Funding.settle (delta : Int) : Funding → Service (Except String Unit)
  | .wallet _ =>
    if delta = 0 then return .ok ()
    else if 0 < delta then decreaseUserQuota .forward delta
    else increaseUserQuota .forward (-delta)
  | .subscription f =>
    if delta = 0 then return .ok () else postConsumeUserSubscriptionDelta .forward f.subscriptionId delta

/-- At most `n` attempts; `last` is the answer of the attempt before. -/
def refundWithRetry (fn : Service (Except String Unit)) : Nat → Except String Unit → Service (Except String Unit)
  | 0, last => return last
  | n + 1, _ => do
    match ← fn with
    | .ok _ => return .ok ()
    | .error e => refundWithRetry fn n (.error e)

def Funding.refund : Funding → Service (Except String Unit)
  | .wallet consumed => if consumed ≤ 0 then return .ok () else increaseUserQuota .forward consumed
  | .subscription f =>
    if f.preConsumed ≤ 0 then return .ok ()
    else refundWithRetry (refundSubscriptionPreConsume f.requestId) 3 (.ok ())

/-! The session. -/

structure Session where
  funding : Funding
  preConsumedQuota : Int := 0
  tokenConsumed : Int := 0
  extraReserved : Int := 0
  trusted : Bool := false
  fundingSettled : Bool := false
  settled : Bool := false
  refunded : Bool := false
  deriving DecidableEq, Repr

namespace Session

def synced (s : Session) (info : Info) : Info :=
  match s.funding with
  | .subscription f =>
    { info with
      finalPreConsumedQuota := s.preConsumedQuota, billingSource := some .subscription,
      subscriptionId := f.subscriptionId, subscriptionPreConsumed := f.preConsumed + s.extraReserved,
      subscriptionPostDelta := 0, subscriptionAmountTotal := f.amountTotal,
      subscriptionAmountUsedAfterPreConsume := f.amountUsedAfter + s.extraReserved }
  | .wallet _ =>
    { info with
      finalPreConsumedQuota := s.preConsumedQuota, billingSource := some .wallet,
      subscriptionId := 0, subscriptionPreConsumed := 0 }

def syncRelayInfo (s : Session) : Service Unit := change fun w => { w with info := s.synced w.info }

def trustQuota (host : Host) : Int := Payment.intPart (10 * host.quotaPerUnit)

def shouldTrust (host : Host) (relay : Relay) (s : Session) : Service Bool := do
  if relay.forcePreConsume ∨ trustQuota host ≤ 0 then return false
  else if ¬ relay.tokenUnlimited ∧ relay.tokenQuota ≤ trustQuota host then return false
  else
    match s.funding with
    | .wallet _ => do
      let w ← world
      return decide (w.info.userQuota > trustQuota host)
    | .subscription _ => return false

/-- How a failed charge is reported: a subscription that cannot pay is told by its text. -/
def fundingError (e : String) : ApiError :=
  if Go.contains e "no active subscription" || Go.contains e "subscription quota insufficient" then
    forbidden .insufficientUserQuota ("订阅额度不足或未配置订阅: " ++ e)
  else internal .updateDataError e

def rollbackToken (relay : Relay) (s : Session) : Service Unit :=
  if 0 < s.tokenConsumed ∧ ¬ relay.isPlayground then do
    let _ ← increaseTokenQuota .giveBack s.tokenConsumed
    return ()
  else return ()

/-- The second half of `preConsume`: the funding source, after the token. -/
def preConsumeFunding (host : Host) (relay : Relay) (s : Session) (effectiveQuota : Int) :
    Service (Except ApiError Session) := do
  match ← s.funding.preConsume host.env effectiveQuota with
  | .error e =>
    s.rollbackToken relay
    return .error (fundingError e)
  | .ok funding =>
    syncRelayInfo { s with funding, preConsumedQuota := effectiveQuota }
    return .ok { s with funding, preConsumedQuota := effectiveQuota }

/-- The token, then the funding source. -/
def preConsumeEffective (host : Host) (relay : Relay) (s : Session) (effectiveQuota : Int) :
    Service (Except ApiError Session) :=
  if 0 < effectiveQuota then do
    match ← preConsumeTokenQuota host relay effectiveQuota with
    | .error e => return .error (forbidden .preConsumeTokenQuotaFailed e)
    | .ok _ => preConsumeFunding host relay { s with tokenConsumed := effectiveQuota } effectiveQuota
  else preConsumeFunding host relay s effectiveQuota

/-- A trusted session is charged nothing in advance. -/
def preConsume (host : Host) (relay : Relay) (s : Session) (quota : Int) : Service (Except ApiError Session) := do
  if ← s.shouldTrust host relay then preConsumeEffective host relay { s with trusted := true } 0
  else preConsumeEffective host relay s quota

def reserveFunding (host : Host) (s : Session) (delta : Int) : Service (Except ApiError Session) :=
  match s.funding with
  | .wallet consumed => do
    match ← getUserQuota with
    | .error e => return .error (internal .queryDataError e)
    | .ok userQuota =>
      if userQuota < delta then
        return .error (forbidden .insufficientUserQuota ("预扣费额度失败, 用户剩余额度: " ++ host.formatQuota userQuota ++
          ", 需要补充预扣费额度: " ++ host.formatQuota delta))
      else
        match ← decreaseUserQuota .forward delta with
        | .error e => return .error (internal .updateDataError e)
        | .ok _ =>
          change fun w => { w with info := { w.info with userQuota := userQuota - delta } }
          return .ok { s with funding := .wallet (consumed + delta) }
  | .subscription f => do
    match ← postConsumeUserSubscriptionDelta .forward f.subscriptionId delta with
    | .error e => return .error (forbidden .insufficientUserQuota ("订阅额度不足或未配置订阅: " ++ e))
    | .ok _ => return .ok s

/-- A rollback that fails is only logged. -/
def rollbackFundingReserve (s : Session) (delta : Int) : Service Session :=
  match s.funding with
  | .wallet consumed => do
    match ← increaseUserQuota .giveBack delta with
    | .error _ => return s
    | .ok _ =>
      change fun w => { w with info := { w.info with userQuota := w.info.userQuota + delta } }
      return { s with funding := .wallet (consumed - delta) }
  | .subscription f => do
    let _ ← postConsumeUserSubscriptionDelta .giveBack f.subscriptionId (-delta)
    return s

def reserveToken (host : Host) (relay : Relay) (delta : Int) : Service (Except ApiError Unit) :=
  if delta ≤ 0 ∨ relay.isPlayground then return .ok ()
  else do
    match ← preConsumeTokenQuota host relay delta with
    | .error e => return .error (forbidden .preConsumeTokenQuotaFailed e)
    | .ok _ => return .ok ()

def reserve (host : Host) (relay : Relay) (s : Session) (targetQuota : Int) :
    Service (Session × Except ApiError Unit) :=
  if s.settled ∨ s.refunded ∨ s.trusted ∨ targetQuota ≤ s.preConsumedQuota then return (s, .ok ())
  else do
    let delta := targetQuota - s.preConsumedQuota
    match ← reserveFunding host s delta with
    | .error e => return (s, .error e)
    | .ok s =>
      match ← reserveToken host relay delta with
      | .error e =>
        let s ← s.rollbackFundingReserve delta
        return (s, .error e)
      | .ok _ =>
        let s := { s with
          preConsumedQuota := s.preConsumedQuota + delta, tokenConsumed := s.tokenConsumed + delta,
          extraReserved := s.extraReserved + delta }
        s.syncRelayInfo
        return (s, .ok ())

def settleToken (relay : Relay) (delta : Int) : Service (Except String Unit) :=
  if relay.isPlayground then return .ok ()
  else if 0 < delta then decreaseTokenQuota .forward delta
  else increaseTokenQuota .forward (-delta)

def settleFunding (s : Session) (delta : Int) : Service (Except String Unit) :=
  if s.fundingSettled then return .ok () else s.funding.settle delta

def posted (s : Session) (delta : Int) (info : Info) : Info :=
  match s.funding with
  | .subscription _ => { info with subscriptionPostDelta := info.subscriptionPostDelta + delta }
  | .wallet _ => info

/-- Once the funding source is settled the session is, also when the token is not. -/
def settle (relay : Relay) (s : Session) (actualQuota : Int) : Service (Session × Except String Unit) :=
  if s.settled then return (s, .ok ())
  else if actualQuota - s.preConsumedQuota = 0 then return ({ s with settled := true }, .ok ())
  else do
    let delta := actualQuota - s.preConsumedQuota
    match ← s.settleFunding delta with
    | .error e => return (s, .error e)
    | .ok _ =>
      let tokenRes ← settleToken relay delta
      change fun w => { w with info := s.posted delta w.info }
      return ({ s with fundingSettled := true, settled := true }, tokenRes)

def needsRefund (s : Session) : Bool :=
  if s.settled ∨ s.refunded ∨ s.fundingSettled then false
  else if 0 < s.tokenConsumed then true
  else
    match s.funding with
    | .subscription f => decide (0 < f.preConsumed)
    | .wallet _ => false

end Session

/-- What the goroutine of a refund has copied. -/
structure RefundJob where
  funding : Funding
  tokenConsumed : Int
  extraReserved : Int
  subscriptionId : Int
  deriving DecidableEq, Repr

/-- The refund itself is left to a goroutine. -/
def Session.refund (s : Session) : Service (Session × Option RefundJob) :=
  if s.settled ∨ s.refunded ∨ ¬ s.needsRefund then return (s, none)
  else do
    let w ← world
    return ({ s with refunded := true }, some ⟨s.funding, s.tokenConsumed, s.extraReserved, w.info.subscriptionId⟩)

/-- Give back what was reserved on top of a subscription's record. -/
def RefundJob.refundExtra (j : RefundJob) : Service (Except String Unit) :=
  if 0 < j.extraReserved ∧ j.funding.source = .subscription ∧ 0 < j.subscriptionId then
    postConsumeUserSubscriptionDelta .forward j.subscriptionId (-j.extraReserved)
  else return .ok ()

def RefundJob.refundToken (relay : Relay) (j : RefundJob) : Service (Except String Unit) :=
  if 0 < j.tokenConsumed ∧ ¬ relay.isPlayground then increaseTokenQuota .forward j.tokenConsumed else return .ok ()

/-- Whether the funding source was refunded: errors are only logged, and no step waits for
another to succeed. -/
def RefundJob.run (relay : Relay) (j : RefundJob) : Service Bool := do
  let refunded ← j.funding.refund
  let extra ← j.refundExtra
  let _ ← j.refundToken relay
  return refunded.isOk && extra.isOk

/-! Opening a session. -/

inductive BillingPreference
  | subscriptionFirst | walletFirst | subscriptionOnly | walletOnly
  deriving DecidableEq, Repr

def normalizeBillingPreference (pref : String) : BillingPreference :=
  if Go.trimSpace pref = "wallet_first" then .walletFirst
  else if Go.trimSpace pref = "subscription_only" then .subscriptionOnly
  else if Go.trimSpace pref = "wallet_only" then .walletOnly
  else .subscriptionFirst

def tryWallet (host : Host) (relay : Relay) (preConsumedQuota : Int) : Service (Except ApiError Session) := do
  match ← getUserQuota with
  | .error e => return .error (internal .queryDataError e)
  | .ok userQuota =>
    if userQuota ≤ 0 then
      return .error (forbidden .insufficientUserQuota ("用户额度不足, 剩余额度: " ++ host.formatQuota userQuota))
    else if userQuota - preConsumedQuota < 0 then
      return .error (forbidden .insufficientUserQuota ("预扣费额度失败, 用户剩余额度: " ++ host.formatQuota userQuota ++
        ", 需要预扣费额度: " ++ host.formatQuota preConsumedQuota))
    else do
      change fun w => { w with info := { w.info with userQuota } }
      Session.preConsume host relay { funding := .wallet 0 } preConsumedQuota

/-- A subscription is charged at least 1. -/
def subConsume (preConsumedQuota : Int) : Int := if preConsumedQuota ≤ 0 then 1 else preConsumedQuota

def trySubscription (host : Host) (relay : Relay) (preConsumedQuota : Int) : Service (Except ApiError Session) :=
  Session.preConsume host relay
    { funding := .subscription
        { requestId := relay.requestId, userId := relay.userId, amount := subConsume preConsumedQuota } }
    (subConsume preConsumedQuota)

/-- The second attempt is made only when the first could not pay. -/
def orElse (first second : Service (Except ApiError Session)) : Service (Except ApiError Session) := do
  match ← first with
  | .ok s => return .ok s
  | .error e => if e.code = .insufficientUserQuota then second else return .error e

def newBillingSession (host : Host) (relay : Option Relay) (preConsumedQuota : Int) :
    Service (Except ApiError Session) :=
  match relay with
  | none => return .error (internal .invalidRequest "relayInfo is nil")
  | some relay =>
    match normalizeBillingPreference relay.billingPreference with
    | .subscriptionOnly => trySubscription host relay preConsumedQuota
    | .walletOnly => tryWallet host relay preConsumedQuota
    | .walletFirst => orElse (tryWallet host relay preConsumedQuota) (trySubscription host relay preConsumedQuota)
    | .subscriptionFirst => do
      match ← hasActiveUserSubscription host.env relay.userId with
      | .error e => return .error (internal .queryDataError e)
      | .ok false => tryWallet host relay preConsumedQuota
      | .ok true => orElse (trySubscription host relay preConsumedQuota) (tryWallet host relay preConsumedQuota)

/-! Charging without a session, and settling with or without one. -/

def postConsumeFunding (quota : Int) : Service (Except String Unit) := do
  let w ← world
  if w.info.billingSource = some .subscription then
    if w.info.subscriptionId = 0 then return .error "subscription id is missing"
    else if quota = 0 then return .ok ()
    else
      match ← postConsumeUserSubscriptionDelta .forward w.info.subscriptionId quota with
      | .error e => return .error e
      | .ok _ =>
        change fun w => { w with info := { w.info with subscriptionPostDelta := w.info.subscriptionPostDelta + quota } }
        return .ok ()
  else if 0 < quota then decreaseUserQuota .forward quota
  else increaseUserQuota .forward (-quota)

/-- The source and then the token, which is charged as in a settlement. -/
def postConsumeQuota (relay : Relay) (quota : Int) : Service (Except String Unit) := do
  match ← postConsumeFunding quota with
  | .error e => return .error e
  | .ok _ => Session.settleToken relay quota

def settleBilling (relay : Relay) (billing : Option Session) (actualQuota : Int) :
    Service (Option Session × Except String Unit) :=
  match billing with
  | some s => do
    let res ← s.settle relay actualQuota
    return (some res.1, res.2)
  | none => do
    let w ← world
    if actualQuota - w.info.finalPreConsumedQuota = 0 then return (none, .ok ())
    else return (none, ← postConsumeQuota relay (actualQuota - w.info.finalPreConsumedQuota))

end AmuxApi.Billing
