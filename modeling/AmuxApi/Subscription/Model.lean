import Mathlib.Data.List.Sort
import AmuxApi.Go.Library
import AmuxApi.Txn.System

/- Subscription quota. A user's subscription is a row with the quota of one period
   (`amountTotal`, 0 or less meaning unlimited), what is used of it, and the times of the
   last and the next reset; a request that pays from a subscription leaves one record
   under its request id.

   The functions are programs over the three tables, statement by statement, with
   every WHERE clause inside its UPDATE. A call reads the clock once (`now`).

   Correspondence (Go ↔ Lean): the functions of `model/subscription.go` have the source's
   names; `resetLoop` and `dueTurn` are the loop of `maybeResetUserSubscriptionWithPlanTx`.
   Amounts are unbounded integers: where a column would overflow the database refuses the
   statement. `RowsAffected` counts the rows the WHERE clause matches; MySQL leaves out
   rows whose value does not change, and the one place where that could matter (giving
   back to a row that is already 0) counts the row again and ends the same way. -/
namespace AmuxApi.Subscription
open Txn

/-! The tables. -/

structure Plan where
  quotaResetPeriod : String
  quotaResetCustomSeconds : Int
  deriving DecidableEq, Repr

inductive SubStatus
  | active | expired | cancelled
  deriving DecidableEq, Repr

structure UserSubscription where
  userId : Int
  planId : Int
  amountTotal : Int
  amountUsed : Int
  startTime : Int
  endTime : Int
  status : SubStatus
  lastResetTime : Int
  nextResetTime : Int
  deriving DecidableEq, Repr

inductive RecordStatus
  | consumed | refunded
  deriving DecidableEq, Repr

/-- `SubscriptionPreConsumeRecord`; the request id, which has a unique index, is its key. -/
structure Record where
  userId : Int
  userSubscriptionId : Int
  preConsumed : Int
  status : RecordStatus
  deriving DecidableEq, Repr

inductive Key
  | sub (id : Int)
  | record (requestId : String)
  | plan (id : Int)
  deriving DecidableEq

/-- A row that is not there is `none`. -/
abbrev Row : Key → Type
  | .sub _ => Option UserSubscription
  | .record _ => Option Record
  | .plan _ => Option Plan

abbrev Tables := DB Row

/-- `notFound`, `db`: gorm's `ErrRecordNotFound`, and any other database error.
`unfinished` is not an error of the source: its reset loop is still running. -/
inductive Err
  | invalidUserId
  | requestIdEmpty
  | amountNotPositive
  | alreadyRefunded
  | noActiveSubscription
  | insufficient (need : Int)
  | invalidUserSubscriptionId
  | exceedsTotal (used delta total : Int)
  | subscriptionNotFound (id : Int)
  | invalidPlanId
  | notFound
  | db
  | unfinished
  deriving DecidableEq, Repr

def Err.text : Err → String
  | .invalidUserId => "invalid userId"
  | .requestIdEmpty => "requestId is empty"
  | .amountNotPositive => "amount must be > 0"
  | .alreadyRefunded => "subscription pre-consume already refunded"
  | .noActiveSubscription => "no active subscription"
  | .insufficient need => "subscription quota insufficient, need=" ++ toString need
  | .invalidUserSubscriptionId => "invalid userSubscriptionId"
  | .exceedsTotal used delta total =>
    "subscription used exceeds total, used=" ++ toString used ++ " delta=" ++ toString delta ++
      " total=" ++ toString total
  | .subscriptionNotFound id => "subscription " ++ toString id ++ " not found"
  | .invalidPlanId => "invalid plan id"
  | .notFound => "record not found"
  | .db => "database error"
  | .unfinished => ""

/-- No process mutex is involved. -/
abbrev SQL := Prog Row Empty

/-- What the server runs on: its time zone, the ids of the subscription table, and how many
rounds the reset loop is followed. -/
structure Env where
  loc : Go.Location
  ids : List Int
  nodup : ids.Nodup
  fuel : Nat

/-! When a period ends. -/

/-- The periods with a next reset; `never` and everything unknown have none. -/
inductive ResetPeriod
  | never | daily | weekly | monthly | custom
  deriving DecidableEq, Repr

def normalizeResetPeriod (period : String) : ResetPeriod :=
  if Go.trimSpace period = "daily" then .daily
  else if Go.trimSpace period = "weekly" then .weekly
  else if Go.trimSpace period = "monthly" then .monthly
  else if Go.trimSpace period = "custom" then .custom
  else .never

/-- Weeks start on Monday: the days from a day to the next Monday. -/
def daysUntilMonday (days : Int) : Int :=
  8 - (if Go.weekday days = 0 then 7 else Go.weekday days)

/-- The next reset after `base`, before the end of the subscription is looked at. -/
def nextReset (loc : Go.Location) (base : Int) (plan : Plan) : Option Int :=
  match normalizeResetPeriod plan.quotaResetPeriod with
  | .never => none
  | .daily => some (loc.addDays (loc.midnight (loc.dayOf base)) 1)
  | .weekly => some (loc.addDays (loc.midnight (loc.dayOf base)) (daysUntilMonday (loc.dayOf base)))
  | .monthly =>
    some (loc.addMonths (loc.midnight (Go.daysOf { Go.civil (loc.dayOf base) with day := 1 })) 1)
  | .custom =>
    if plan.quotaResetCustomSeconds ≤ 0 then none
    else some (Go.addSeconds base plan.quotaResetCustomSeconds)

/-- 0: there is no next reset, or it falls after the end of the subscription. -/
def calcNextResetTime (loc : Go.Location) (base : Int) (plan : Plan) (endUnix : Int) : Int :=
  match nextReset loc base plan with
  | none => 0
  | some next => if 0 < endUnix ∧ next > endUnix then 0 else next

/-- What a subscription's row is to become: nothing new, a first `nextResetTime` without a
reset, or a reset. -/
inductive Turn
  | keep
  | fill (next base : Int)
  | clear (next base : Int)
  deriving DecidableEq, Repr

def Turn.apply : Turn → UserSubscription → UserSubscription
  | .keep, s => s
  | .fill next base, s => { s with nextResetTime := next, lastResetTime := base }
  | .clear next base, s => { s with amountUsed := 0, nextResetTime := next, lastResetTime := base }

def Turn.clears : Turn → Bool
  | .clear _ _ => true
  | _ => false

/-- The loop over the periods that have passed: from `base`, whether it has advanced, the
last period start and the reset that follows it. `none`: still looping. -/
def resetLoop (loc : Go.Location) (plan : Plan) (endTime now : Int) :
    Nat → Bool → Int → Option (Bool × Int × Int)
  | 0, _, _ => none
  | fuel + 1, advanced, base =>
    if 0 < calcNextResetTime loc base plan endTime ∧ calcNextResetTime loc base plan endTime ≤ now then
      resetLoop loc plan endTime now fuel true (calcNextResetTime loc base plan endTime)
    else some (advanced, base, calcNextResetTime loc base plan endTime)

/-- The start of the current period: the last reset, else the start of the subscription. -/
def UserSubscription.periodStart (s : UserSubscription) : Int :=
  if s.lastResetTime ≤ 0 then s.startTime else s.lastResetTime

/-- What `maybeResetUserSubscriptionWithPlanTx` decides from the row it was handed. -/
def dueTurn (env : Env) (plan : Plan) (now : Int) (sub : UserSubscription) : Option Turn :=
  if 0 < sub.nextResetTime ∧ now < sub.nextResetTime then some .keep
  else if normalizeResetPeriod plan.quotaResetPeriod = .never then some .keep
  else
    match resetLoop env.loc plan sub.endTime now env.fuel false sub.periodStart with
    | none => none
    | some (false, base, next) =>
      if sub.nextResetTime = 0 ∧ 0 < next then some (.fill next base) else some .keep
    | some (true, base, next) => some (.clear next base)

/-! The statements. -/

/-- `WHERE id = ? AND next_reset_time = prev`. -/
def claimTurn (prev : Int) (turn : Turn) : Option UserSubscription → Option (Option UserSubscription)
  | some s => if s.nextResetTime = prev then some (some (turn.apply s)) else none
  | none => none

/-- `amount_used + delta`, `WHERE amount_total <= 0 OR amount_used + delta <= amount_total`. -/
def chargeRow (delta : Int) : Option UserSubscription → Option (Option UserSubscription)
  | some s =>
    if s.amountTotal ≤ 0 ∨ s.amountUsed + delta ≤ s.amountTotal then
      some (some { s with amountUsed := s.amountUsed + delta })
    else none
  | none => none

/-- `CASE WHEN amount_used + delta < 0 THEN 0 ELSE amount_used + delta END`. -/
def giveBackRow (delta : Int) : Option UserSubscription → Option (Option UserSubscription)
  | some s => some (some { s with amountUsed := if s.amountUsed + delta < 0 then 0 else s.amountUsed + delta })
  | none => none

/-- An INSERT; the unique index refuses a second record of one request id. -/
def insertRecord (r : Record) : Option Record → Option (Option Record)
  | none => some (some r)
  | some _ => none

/-- `consumed` to `refunded`, `WHERE status = 'consumed'`. -/
def claimRefund : Option Record → Option (Option Record)
  | some r => if r.status = .consumed then some (some { r with status := .refunded }) else none
  | none => none

/-! The functions. -/

/-- The row to go on with, and whether its used amount was cleared by this call. -/
def maybeResetUserSubscriptionWithPlanTx (env : Env) (id : Int) (sub : UserSubscription) (plan : Plan)
    (now : Int) : SQL (Except Err (UserSubscription × Bool)) :=
  match dueTurn env plan now sub with
  | none => return .error .unfinished
  | some .keep => return .ok (sub, false)
  | some turn => do
    match ← update (.sub id) (claimTurn sub.nextResetTime turn) with
    | none => return .error .db
    | some true => return .ok (turn.apply sub, turn.clears)
    | some false =>
      -- somebody else was faster: go on with what is stored
      match ← select with
      | none => return .error .db
      | some d =>
        match d (.sub id) with
        | none => return .error .notFound
        | some fresh => return .ok (fresh, false)

/-- `cache` is what the plan cache answers. -/
def getSubscriptionPlanByIdTx (cache : Int → Option Plan) (id : Int) : SQL (Except Err Plan) :=
  if id ≤ 0 then return .error .invalidPlanId
  else
    match cache id with
    | some plan => return .ok plan
    | none => do
      match ← select with
      | none => return .error .db
      | some d =>
        match d (.plan id) with
        | none => return .error .notFound
        | some plan => return .ok plan

/-- How an UPDATE of a subscription row is issued: inside the caller's transaction, or on its
own. -/
abbrev SubWrite := Int → (Option UserSubscription → Option (Option UserSubscription)) → SQL (Option Bool)

def inTx : SubWrite := fun id f => update (.sub id) f

def onItsOwn : SubWrite := fun id f => autocommit (.sub id) f

def postConsumeUserSubscriptionDeltaTx (write : SubWrite) (id delta : Int) : SQL (Except Err Unit) :=
  if id ≤ 0 then return .error .invalidUserSubscriptionId
  else if delta = 0 then return .ok ()
  else if 0 < delta then do
    match ← write id (chargeRow delta) with
    | none => return .error .db
    | some true => return .ok ()
    | some false =>
      match ← select with
      | none => return .error .db
      | some d =>
        match d (.sub id) with
        | none => return .error .notFound
        | some s => return .error (.exceedsTotal s.amountUsed delta s.amountTotal)
  else do
    match ← write id (giveBackRow delta) with
    | none => return .error .db
    | some true => return .ok ()
    | some false =>
      match ← select with
      | none => return .error .db
      | some d => if (d (.sub id)).isNone then return .error (.subscriptionNotFound id) else return .ok ()

def postConsumeUserSubscriptionDelta (id delta : Int) : SQL (Except Err Unit) :=
  postConsumeUserSubscriptionDeltaTx onItsOwn id delta

structure PreConsumeResult where
  userSubscriptionId : Int
  preConsumed : Int
  amountTotal : Int
  amountUsedBefore : Int
  amountUsedAfter : Int
  deriving DecidableEq, Repr

/-- The row is reported as it was read. -/
def reported (id preConsumed : Int) (sub : UserSubscription) : PreConsumeResult :=
  ⟨id, preConsumed, sub.amountTotal, sub.amountUsed, sub.amountUsed⟩

/-- `WHERE user_id = ? AND status = 'active' AND end_time > ? ORDER BY end_time, id`. -/
def activeSubs (env : Env) (d : Tables) (userId now : Int) : List (Int × UserSubscription) :=
  (env.ids.filterMap fun id => (d (.sub id)).map (id, ·)).filter
      (fun c => c.2.userId = userId ∧ c.2.status = .active ∧ c.2.endTime > now)
    |>.insertionSort fun a b => a.2.endTime < b.2.endTime ∨ (a.2.endTime = b.2.endTime ∧ a.1 ≤ b.1)

/-- Record the request and charge subscription `id`, last seen as `sub`. -/
def consumeFrom (requestId : String) (userId amount id : Int) (sub : UserSubscription) :
    SQL (Except Err PreConsumeResult) := do
  match ← update (.record requestId) (insertRecord ⟨userId, id, amount, .consumed⟩) with
  | some true =>
    match ← postConsumeUserSubscriptionDeltaTx inTx id amount with
    | .error e => return .error e
    | .ok _ => return .ok ⟨id, amount, sub.amountTotal, sub.amountUsed, sub.amountUsed + amount⟩
  | _ =>
    -- the INSERT was refused: answer from the record that is there, if one is
    match ← select with
    | none => return .error .db
    | some d =>
      match d (.record requestId) with
      | none => return .error .db
      | some dup =>
        if dup.status = .refunded then return .error .alreadyRefunded
        else return .ok (reported id dup.preConsumed sub)

/-- The loop over the candidates. -/
def consumeFirst (env : Env) (cache : Int → Option Plan) (requestId : String) (userId amount now : Int) :
    List (Int × UserSubscription) → SQL (Except Err PreConsumeResult)
  | [] => return .error (.insufficient amount)
  | (id, candidate) :: rest => do
    match ← getSubscriptionPlanByIdTx cache candidate.planId with
    | .error e => return .error e
    | .ok plan =>
      match ← maybeResetUserSubscriptionWithPlanTx env id candidate plan now with
      | .error e => return .error e
      | .ok (sub, _) =>
        if 0 < sub.amountTotal ∧ sub.amountTotal - sub.amountUsed < amount then
          consumeFirst env cache requestId userId amount now rest
        else consumeFrom requestId userId amount id sub

def preConsumeTx (env : Env) (cache : Int → Option Plan) (requestId : String) (userId amount now : Int) :
    SQL (Except Err PreConsumeResult) := do
  match ← select with
  | none => return .error .db
  | some d =>
    match d (.record requestId) with
    | some existing =>
      if existing.status = .refunded then return .error .alreadyRefunded
      else
        match ← select with
        | none => return .error .db
        | some d =>
          match d (.sub existing.userSubscriptionId) with
          | none => return .error .notFound
          | some sub => return .ok (reported existing.userSubscriptionId existing.preConsumed sub)
    | none =>
      match ← select with
      | none => return .error .noActiveSubscription
      | some d =>
        if (activeSubs env d userId now).isEmpty then return .error .noActiveSubscription
        else consumeFirst env cache requestId userId amount now (activeSubs env d userId now)

/-- The model name and the quota type the source is handed are not used by it. -/
def preConsumeUserSubscription (env : Env) (cache : Int → Option Plan) (requestId : String)
    (userId amount now : Int) : SQL (Except Err PreConsumeResult) :=
  if userId ≤ 0 then return .error .invalidUserId
  else if Go.trimSpace requestId = "" then return .error .requestIdEmpty
  else if amount ≤ 0 then return .error .amountNotPositive
  else transaction .db (preConsumeTx env cache requestId userId amount now)

def refundTx (requestId : String) : SQL (Except Err Unit) := do
  match ← select with
  | none => return .error .db
  | some d =>
    match d (.record requestId) with
    | none => return .error .notFound
    | some record =>
      if record.status = .refunded then return .ok ()
      else
        match ← update (.record requestId) claimRefund with
        | none => return .error .db
        | some false => return .ok ()
        | some true =>
          if record.preConsumed ≤ 0 then return .ok ()
          else postConsumeUserSubscriptionDeltaTx inTx record.userSubscriptionId (-record.preConsumed)

def refundSubscriptionPreConsume (requestId : String) : SQL (Except Err Unit) :=
  if Go.trimSpace requestId = "" then return .error .requestIdEmpty
  else transaction .db (refundTx requestId)

/-- `WHERE next_reset_time > 0 AND next_reset_time <= ? AND status = 'active'
ORDER BY next_reset_time LIMIT ?`. -/
def dueSubs (env : Env) (d : Tables) (limit : Nat) (now : Int) : List (Int × UserSubscription) :=
  ((env.ids.filterMap fun id => (d (.sub id)).map (id, ·)).filter
      (fun c => 0 < c.2.nextResetTime ∧ c.2.nextResetTime ≤ now ∧ c.2.status = .active)
    |>.insertionSort fun a b => a.2.nextResetTime ≤ b.2.nextResetTime).take limit

/-- The body of the transaction for one subscription: whether it was reset. -/
def resetOneTx (env : Env) (id : Int) (plan : Plan) (now : Int) : SQL (Except Err Bool) := do
  match ← select with
  | none => return .ok false
  | some d =>
    match d (.sub id) with
    | none => return .ok false
    | some locked =>
      if 0 < locked.nextResetTime ∧ locked.nextResetTime ≤ now then
        match ← maybeResetUserSubscriptionWithPlanTx env id locked plan now with
        | .error e => return .error e
        | .ok (_, did) => return .ok did
      else return .ok false

/-- The count goes up inside the transaction, before it is known to commit. -/
def resetAll (env : Env) (cache : Int → Option Plan) (now : Int) :
    List (Int × UserSubscription) → Nat → SQL (Nat × Option Err)
  | [], count => return (count, none)
  | (id, sub) :: rest, count => do
    match ← getSubscriptionPlanByIdTx cache sub.planId with
    | .error _ => resetAll env cache now rest count
    | .ok plan =>
      match ← resetOneTx env id plan now with
      | .error e => do rollback; return (count, some e)
      | .ok did =>
        if ← commit then resetAll env cache now rest (if did then count + 1 else count)
        else return (if did then count + 1 else count, some .db)

def resetDueSubscriptions (env : Env) (cache : Int → Option Plan) (limit now : Int) :
    SQL (Nat × Option Err) := do
  match ← select with
  | none => return (0, some .db)
  | some d => resetAll env cache now (dueSubs env d (if limit ≤ 0 then 200 else limit.toNat) now) 0

/-! The calls on one database. -/

inductive Request
  | preConsume (cache : Int → Option Plan) (requestId : String) (userId amount now : Int)
  | settle (id delta : Int)
  | refund (requestId : String)
  | resetDue (cache : Int → Option Plan) (limit now : Int)

inductive Reply
  | preConsumed (r : Except Err PreConsumeResult)
  | finished (r : Except Err Unit)
  | resets (count : Nat) (e : Option Err)
  deriving DecidableEq

def Request.prog (env : Env) : Request → SQL Reply
  | .preConsume cache requestId userId amount now => do
    return .preConsumed (← preConsumeUserSubscription env cache requestId userId amount now)
  | .settle id delta => do return .finished (← postConsumeUserSubscriptionDelta id delta)
  | .refund requestId => do return .finished (← refundSubscriptionPreConsume requestId)
  | .resetDue cache limit now => do
    let r ← resetDueSubscriptions env cache limit now
    return .resets r.1 r.2

def calls {ι : Type} (env : Env) (req : ι → Request) (d : Tables) : Sys ι Row Empty Reply :=
  start d fun i => (req i).prog env

end AmuxApi.Subscription
