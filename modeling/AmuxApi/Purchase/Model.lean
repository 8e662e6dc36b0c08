import AmuxApi.Payment.Model
import AmuxApi.Subscription.Model

/- Buying subscriptions: a subscription order is completed or expires, a completed order
   creates one user subscription from its plan, and a plan may move its buyer to another
   user group, which is taken back when the subscription ends.

   Correspondence (Go ↔ Lean): the functions of `model/subscription.go` have the source's
   names.
   An INSERT takes the id the database's sequence hands it (`Stamp.newId`) and is refused
   if the id is in use. The events published inside the transactions, and what follows a
   commit (log lines, the group cache, the upgrade by top-up amount), are left out. -/
namespace AmuxApi.Purchase
open Txn

/-! The tables. -/

/-- A row of `subscription_plans`, less its id. -/
structure SubscriptionPlan extends Subscription.Plan where
  durationUnit : String
  durationValue : Int
  customSeconds : Int
  maxPurchasePerUser : Int
  upgradeGroup : String
  totalAmount : Int
  deriving DecidableEq, Repr

/-- A row of `user_subscriptions`, less its id. -/
structure UserSubscription extends Subscription.UserSubscription where
  source : String
  upgradeGroup : String
  prevUserGroup : String
  deriving DecidableEq, Repr

/-- A row of `subscription_orders`, less its trade number. -/
structure SubscriptionOrder where
  userId : Int
  planId : Int
  money : Rat
  paymentMethod : String
  paymentProvider : Option Payment.Provider
  status : Payment.Status
  createTime : Int
  completeTime : Int
  providerPayload : String
  deriving DecidableEq, Repr

structure User where
  group : String
  deriving DecidableEq, Repr

inductive Key
  | plan (id : Int)
  | sub (id : Int)
  | order (tradeNo : String)
  | topUp (tradeNo : String)
  | user (id : Int)
  deriving DecidableEq

/-- A row that is not there is `none`. -/
abbrev Row : Key → Type
  | .plan _ => Option SubscriptionPlan
  | .sub _ => Option UserSubscription
  | .order _ => Option SubscriptionOrder
  | .topUp _ => Option Payment.TopUp
  | .user _ => Option User

abbrev Tables := DB Row

/-- `notFound`, `db`: gorm's `ErrRecordNotFound`, and any other database error. -/
inductive Err
  | invalidPlan
  | invalidUserIdOnCreate
  | purchaseLimit
  | durationValue
  | customSeconds
  | durationUnit (unit : String)
  | invalidUserId
  | tradeNoEmpty
  | orderNotFound
  | orderStatusInvalid
  | paymentMethodMismatch
  | invalidPlanId
  | invalidUserSubscriptionId
  | notFound
  | db
  deriving DecidableEq, Repr

def Err.text : Err → String
  | .invalidPlan => "invalid plan"
  | .invalidUserIdOnCreate => "invalid user id"
  | .purchaseLimit => "已达到该套餐购买上限"
  | .durationValue => "duration_value must be > 0"
  | .customSeconds => "custom_seconds must be > 0"
  | .durationUnit unit => "invalid duration_unit: " ++ unit
  | .invalidUserId => "invalid userId"
  | .tradeNoEmpty => "tradeNo is empty"
  | .orderNotFound => "subscription order not found"
  | .orderStatusInvalid => "subscription order status invalid"
  | .paymentMethodMismatch => "payment method mismatch"
  | .invalidPlanId => "invalid plan id"
  | .invalidUserSubscriptionId => "invalid userSubscriptionId"
  | .notFound => "record not found"
  | .db => "database error"

/-- No process mutex is involved. -/
abbrev SQL := Prog Row Empty

/-- What the server runs on: its time zone, the ids the table of user subscriptions has or
will hand out, and the order in which Go ranges over a map with these keys. -/
structure Env where
  loc : Go.Location
  ids : List Int
  nodup : ids.Nodup
  ranged : List Int → List Int
  perm : ∀ keys, (ranged keys).Perm keys

/-- What one call gets from outside: the clocks of the server and of the database, and the
id for the row it inserts. -/
structure Stamp (env : Env) where
  now : Int
  dbNow : Int
  newId : Int
  mem : newId ∈ env.ids

/-! The statements. -/

def insertSub (sub : UserSubscription) : Option UserSubscription → Option (Option UserSubscription)
  | none => some (some sub)
  | some _ => none

def setGroup (group : String) : Option User → Option (Option User)
  | some u => some (some { u with group })
  | none => none

/-- The order moved on, `WHERE status = 'pending'`. -/
def claimOrder (status : Payment.Status) (completeTime : Int) :
    Option SubscriptionOrder → Option (Option SubscriptionOrder)
  | some o => if o.status = .pending then some (some { o with status, completeTime }) else none
  | none => none

def setPayload (providerPayload : String) : Option SubscriptionOrder → Option (Option SubscriptionOrder)
  | some o => some (some { o with providerPayload })
  | none => none

/-- `cancelled`, ended now, `WHERE status <> 'cancelled'`. -/
def cancelSub (now : Int) : Option UserSubscription → Option (Option UserSubscription)
  | some s => if s.status ≠ .cancelled then some (some { s with status := .cancelled, endTime := now }) else none
  | none => none

def deleteSub : Option UserSubscription → Option (Option UserSubscription)
  | some _ => some none
  | none => none

/-- `active`, and its end has come. -/
def UserSubscription.due (now : Int) (s : UserSubscription) : Bool :=
  s.status = .active ∧ 0 < s.endTime ∧ s.endTime ≤ now

/-- `expired`, `WHERE user_id = ? AND status = 'active' AND end_time > 0 AND end_time <= ?`. -/
def expireSub (userId now : Int) : Option UserSubscription → Option (Option UserSubscription)
  | some s => if s.userId = userId ∧ s.due now then some (some { s with status := .expired }) else none
  | none => none

/-! Creating a subscription. -/

def calcPlanEndTime (loc : Go.Location) (start : Int) (plan : SubscriptionPlan) : Except Err Int :=
  if plan.durationValue ≤ 0 ∧ plan.durationUnit ≠ "custom" then .error .durationValue
  else if plan.durationUnit = "year" then .ok (loc.addMonths start (12 * plan.durationValue))
  else if plan.durationUnit = "month" then .ok (loc.addMonths start plan.durationValue)
  else if plan.durationUnit = "day" then .ok (Go.addSeconds start (plan.durationValue * 86400))
  else if plan.durationUnit = "hour" then .ok (Go.addSeconds start (plan.durationValue * 3600))
  else if plan.durationUnit = "custom" then
    if plan.customSeconds ≤ 0 then .error .customSeconds else .ok (Go.addSeconds start plan.customSeconds)
  else .error (.durationUnit plan.durationUnit)

/-- The row is one of this user's for this plan. -/
def ofPlan (userId planId : Int) (row : Option UserSubscription) : Bool :=
  row.any fun s => s.userId = userId ∧ s.planId = planId

def countByPlan (env : Env) (d : Tables) (userId planId : Int) : Nat :=
  env.ids.countP fun id => ofPlan userId planId (d (.sub id))

/-- A plan with a limit on the purchases of one user. -/
def checkPurchaseLimit (env : Env) (userId planId : Int) (plan : SubscriptionPlan) : SQL (Except Err Unit) :=
  if 0 < plan.maxPurchasePerUser then do
    match ← select with
    | none => return .error .db
    | some d =>
      if plan.maxPurchasePerUser ≤ countByPlan env d userId planId then return .error .purchaseLimit
      else return .ok ()
  else return .ok ()

/-- A user that is not there has the group `""`. -/
def getUserGroupByIdTx (userId : Int) : SQL (Except Err String) :=
  if userId ≤ 0 then return .error .invalidUserId
  else do
    match ← select with
    | none => return .error .db
    | some d => return .ok (((d (.user userId)).map User.group).getD "")

/-- Move the user to the plan's group; the answer is the group to record, if it changed. -/
def upgradeUserGroup (userId : Int) (upgradeGroup : String) : SQL (Except Err String) :=
  if upgradeGroup = "" then return .ok ""
  else do
    match ← getUserGroupByIdTx userId with
    | .error e => return .error e
    | .ok currentGroup =>
      if currentGroup = upgradeGroup then return .ok ""
      else
        match ← update (.user userId) (setGroup upgradeGroup) with
        | none => return .error .db
        | some _ => return .ok currentGroup

def newSub (env : Env) (dbNow userId planId : Int) (plan : SubscriptionPlan) (source : String) (endUnix : Int)
    (prevGroup : String) : UserSubscription where
  userId := userId
  planId := planId
  amountTotal := plan.totalAmount
  amountUsed := 0
  startTime := dbNow
  endTime := endUnix
  status := .active
  lastResetTime := if 0 < Subscription.calcNextResetTime env.loc dbNow plan.toPlan endUnix then dbNow else 0
  nextResetTime := Subscription.calcNextResetTime env.loc dbNow plan.toPlan endUnix
  source := source
  upgradeGroup := Go.trimSpace plan.upgradeGroup
  prevUserGroup := prevGroup

/-- The group first, then the row. -/
def upgradeAndInsert (env : Env) (stamp : Stamp env) (userId planId : Int) (plan : SubscriptionPlan) (source : String)
    (endUnix : Int) : SQL (Except Err UserSubscription) := do
  match ← upgradeUserGroup userId (Go.trimSpace plan.upgradeGroup) with
  | .error e => return .error e
  | .ok prevGroup =>
    let sub := newSub env stamp.dbNow userId planId plan source endUnix prevGroup
    match ← update (.sub stamp.newId) (insertSub sub) with
    | some true => return .ok sub
    | _ => return .error .db

def createUserSubscriptionFromPlanTx (env : Env) (stamp : Stamp env) (userId planId : Int) (plan : SubscriptionPlan)
    (source : String) : SQL (Except Err UserSubscription) :=
  if planId = 0 then return .error .invalidPlan
  else if userId ≤ 0 then return .error .invalidUserIdOnCreate
  else do
    match ← checkPurchaseLimit env userId planId plan with
    | .error e => return .error e
    | .ok _ =>
      match calcPlanEndTime env.loc stamp.dbNow plan with
      | .error e => return .error e
      | .ok endUnix => upgradeAndInsert env stamp userId planId plan source endUnix

/-! Orders. -/

def SubscriptionOrder.matchesPaymentProvider (order : SubscriptionOrder) (expected : Payment.Provider) : Bool :=
  match order.paymentProvider with
  | some p => p = expected
  | none => Payment.derivePaymentProvider order.paymentMethod = expected

/-- `cache` is what the plan cache answers. -/
def getSubscriptionPlanById (cache : Int → Option SubscriptionPlan) (id : Int) : SQL (Except Err SubscriptionPlan) :=
  if id ≤ 0 then return .error .invalidPlanId
  else
    match cache id with
    | some plan => return .ok plan
    | none => do
      match ← select with
      | none => return .error .db
      | some d =>
        match d (.plan id) with
        | none => return .error .notFound
        | some plan => return .ok plan

/-- The top-up row that mirrors a completed order. -/
def mirrorTopUp (order : SubscriptionOrder) (now : Int) : Option Payment.TopUp → Payment.TopUp
  | none =>
    { userId := order.userId.toNat, amount := 0, money := order.money, paymentMethod := order.paymentMethod,
      paymentProvider := none, createTime := order.createTime, completeTime := now, status := .success,
      stripeSessionId := "" }
  | some t =>
    { t with
      money := order.money
      paymentMethod := if t.paymentMethod = "" then order.paymentMethod else t.paymentMethod
      createTime := if t.createTime = 0 then order.createTime else t.createTime
      completeTime := now
      status := .success }

/-- An INSERT where no row was found, else a `Save` of the row that was read. -/
def upsertTopUp (order : SubscriptionOrder) (now : Int) (found : Option Payment.TopUp) :
    Option Payment.TopUp → Option (Option Payment.TopUp) := fun stored =>
  if found.isNone ∧ stored.isSome then none else some (some (mirrorTopUp order now found))

def upsertSubscriptionTopUpTx (tradeNo : String) (order : SubscriptionOrder) (now : Int) : SQL (Except Err Unit) := do
  match ← select with
  | none => return .error .db
  | some d =>
    match ← update (.topUp tradeNo) (upsertTopUp order now (d (.topUp tradeNo))) with
    | some true => return .ok ()
    | _ => return .error .db

/-- What a claimed order entitles to, in the transaction that has claimed it. -/
def grantOrder (env : Env) (stamp : Stamp env) (cache : Int → Option SubscriptionPlan) (tradeNo : String)
    (order : SubscriptionOrder) (providerPayload : String) : SQL (Except Err Unit) := do
  match ← getSubscriptionPlanById cache order.planId with
  | .error e => return .error e
  | .ok plan =>
    match ← createUserSubscriptionFromPlanTx env stamp order.userId order.planId plan "order" with
    | .error e => return .error e
    | .ok _ =>
      match ← upsertSubscriptionTopUpTx tradeNo order stamp.now with
      | .error e => return .error e
      | .ok _ =>
        if providerPayload = "" then return .ok ()
        else
          match ← update (.order tradeNo) (setPayload providerPayload) with
          | none => return .error .db
          | some _ => return .ok ()

/-- `expectedPaymentProvider` is `none` where the source passes `""`. -/
def completeSubscriptionOrder (env : Env) (stamp : Stamp env) (cache : Int → Option SubscriptionPlan)
    (tradeNo providerPayload : String) (expectedPaymentProvider : Option Payment.Provider) : SQL (Except Err Unit) :=
  if tradeNo = "" then return .error .tradeNoEmpty
  else transaction .db do
    match (← select).bind (· (.order tradeNo)) with
    | none => return .error .orderNotFound
    | some order =>
      if expectedPaymentProvider.any fun p => !order.matchesPaymentProvider p then
        return .error .paymentMethodMismatch
      else if order.status = .success then return .ok ()
      else if order.status ≠ .pending then return .error .orderStatusInvalid
      else
        match ← update (.order tradeNo) (claimOrder .success stamp.now) with
        | none => return .error .db
        | some false => return .ok ()
        | some true =>
          grantOrder env stamp cache tradeNo
            { order with status := .success, completeTime := stamp.now } providerPayload

def expireSubscriptionOrder (tradeNo : String) (expectedPaymentProvider : Option Payment.Provider) (now : Int) :
    SQL (Except Err Unit) :=
  if tradeNo = "" then return .error .tradeNoEmpty
  else transaction .db do
    match (← select).bind (· (.order tradeNo)) with
    | none => return .error .orderNotFound
    | some order =>
      if expectedPaymentProvider.any fun p => !order.matchesPaymentProvider p then
        return .error .paymentMethodMismatch
      else if order.status ≠ .pending then return .ok ()
      else
        match ← update (.order tradeNo) (claimOrder .expired now) with
        | none => return .error .db
        | some _ => return .ok ()

/-! Taking a subscription away. -/

def UserSubscription.upgraded (userId now : Int) (s : UserSubscription) : Bool :=
  s.userId = userId ∧ s.status = .active ∧ now < s.endTime ∧ s.upgradeGroup ≠ ""

def subs (env : Env) (d : Tables) : List (Int × UserSubscription) :=
  env.ids.filterMap fun id => (d (.sub id)).map (id, ·)

/-- Put the user back into the group the subscription recorded. -/
def restoreGroup (sub : UserSubscription) (currentGroup : String) : SQL (Except Err String) :=
  if Go.trimSpace sub.prevUserGroup = "" ∨ Go.trimSpace sub.prevUserGroup = currentGroup then return .ok ""
  else do
    match ← update (.user sub.userId) (setGroup (Go.trimSpace sub.prevUserGroup)) with
    | none => return .error .db
    | some _ => return .ok (Go.trimSpace sub.prevUserGroup)

/-- The group the user goes back to, `""` if none. -/
def downgradeUserGroupForSubscriptionTx (env : Env) (id : Int) (sub : UserSubscription) (now : Int) :
    SQL (Except Err String) :=
  if Go.trimSpace sub.upgradeGroup = "" then return .ok ""
  else do
    match ← getUserGroupByIdTx sub.userId with
    | .error e => return .error e
    | .ok currentGroup =>
      if currentGroup ≠ Go.trimSpace sub.upgradeGroup then return .ok ""
      else
        match ← select with
        -- the failure of this query is not looked at
        | none => restoreGroup sub currentGroup
        | some d =>
          if (subs env d).any fun c => c.1 ≠ id ∧ c.2.upgraded sub.userId now then return .ok ""
          else restoreGroup sub currentGroup

/-- The answer of the two admin functions. -/
def downgradeMessage (group : String) : String :=
  if group = "" then "" else "用户分组将回退到 " ++ group

/-- Take a subscription away with one statement, then its group. -/
def removeUserSubscription (env : Env) (id now : Int)
    (remove : Option UserSubscription → Option (Option UserSubscription)) : SQL (Except Err String) :=
  if id ≤ 0 then return .error .invalidUserSubscriptionId
  else transaction .db do
    match ← select with
    | none => return .error .db
    | some d =>
      match d (.sub id) with
      | none => return .error .notFound
      | some sub =>
        match ← update (.sub id) remove with
        | none => return .error .db
        | some false => return .ok (downgradeMessage "")
        | some true =>
          match ← downgradeUserGroupForSubscriptionTx env id sub now with
          | .error e => return .error e
          | .ok target => return .ok (downgradeMessage target)

def adminInvalidateUserSubscription (env : Env) (id now : Int) : SQL (Except Err String) :=
  removeUserSubscription env id now (cancelSub now)

def adminDeleteUserSubscription (env : Env) (id now : Int) : SQL (Except Err String) :=
  removeUserSubscription env id now deleteSub

/-- One UPDATE over all rows of the table: the number of rows written. -/
def updateSubs (f : Option UserSubscription → Option (Option UserSubscription)) : List Int → SQL (Option Nat)
  | [] => return some 0
  | id :: rest => do
    match ← update (.sub id) f with
    | none => return none
    | some written =>
      match ← updateSubs f rest with
      | none => return none
      | some n => return some (n + written.toNat)

/-- `ORDER BY end_time DESC, id DESC LIMIT 1`. -/
def latestEnd : List (Int × UserSubscription) → Option (Int × UserSubscription)
  | [] => none
  | c :: rest =>
    match latestEnd rest with
    | none => some c
    | some b => if b.2.endTime < c.2.endTime ∨ (b.2.endTime = c.2.endTime ∧ b.1 ≤ c.1) then some c else some b

/-- The user's expired subscription with an upgrade group that ended last. -/
def lastExpired (env : Env) (d : Tables) (userId : Int) : Option (Int × UserSubscription) :=
  latestEnd ((subs env d).filter fun c =>
    c.2.userId = userId ∧ c.2.status = .expired ∧ c.2.upgradeGroup ≠ "")

/-- The downgrade after an expiry, by the subscription that ended last. -/
def downgradeExpired (userId : Int) (last : UserSubscription) : SQL (Except Err Unit) :=
  if Go.trimSpace last.upgradeGroup = "" ∨ Go.trimSpace last.prevUserGroup = "" then return .ok ()
  else do
    match ← getUserGroupByIdTx userId with
    | .error e => return .error e
    | .ok currentGroup =>
      if currentGroup ≠ Go.trimSpace last.upgradeGroup ∨ currentGroup = Go.trimSpace last.prevUserGroup then
        return .ok ()
      else
        match ← update (.user userId) (setGroup (Go.trimSpace last.prevUserGroup)) with
        | none => return .error .db
        | some _ => return .ok ()

/-- The transaction for one user: the number of subscriptions expired. -/
def expireUser (env : Env) (userId now : Int) : SQL (Except Err Nat) :=
  transaction .db do
    match ← updateSubs (expireSub userId now) env.ids with
    | none => return .error .db
    | some n =>
      let active ← select
      if active.any fun d => (subs env d).any fun c => c.2.upgraded userId now then return .ok n
      else
        match (← select).bind (lastExpired env · userId) with
        | none => return .ok n
        | some last =>
          match ← downgradeExpired userId last.2 with
          | .error e => return .error e
          | .ok _ => return .ok n

/-- One transaction for each user, until one fails. The count that comes with an error is
left out. -/
def expireUsers (env : Env) (now : Int) : List Int → SQL (Except Err Nat)
  | [] => return .ok 0
  | userId :: rest => do
    match ← expireUser env userId now with
    | .error e => return .error e
    | .ok n =>
      match ← expireUsers env now rest with
      | .error e => return .error e
      | .ok m => return .ok (n + m)

/-- The due subscriptions, `ORDER BY end_time, id LIMIT ?`. -/
def dueSubs (env : Env) (d : Tables) (limit : Int) (now : Int) : List (Int × UserSubscription) :=
  ((subs env d).filter (·.2.due now)
    |>.insertionSort fun a b => a.2.endTime < b.2.endTime ∨ (a.2.endTime = b.2.endTime ∧ a.1 ≤ b.1)).take
      (if limit ≤ 0 then 200 else limit).toNat

def expireDueSubscriptions (env : Env) (limit now : Int) : SQL (Except Err Nat) := do
  match ← select with
  | none => return .error .db
  | some d =>
    expireUsers env now (env.ranged (((dueSubs env d limit now).map (·.2.userId)).filter (0 < ·)).dedup)

end AmuxApi.Purchase
