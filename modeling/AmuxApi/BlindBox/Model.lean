import Mathlib.Data.Rat.Floor
import AmuxApi.Go.Library

/- The blind box: users enter a draw, and once a day a task settles it.

   A draw is about a period that ends at the configured time of day, the boundary. The users who
   have entered, have consumed enough in the period and are not blocked take part; winners are
   sampled by weight, and the draw is recorded under the date of its boundary.

   Correspondence (Go ↔ Lean): the functions of `model/blindbox.go`,
   `operation_setting/blindbox_setting.go` and `service/blindbox_draw_task.go` have the
   source's names.
   A date is the day of the calendar, counted from 1970-01-01. Rates and probabilities are floats
   in the source and exact rationals here. A call of `cryptoRandInt63n` takes the next of the
   numbers it is given. The sums that the source takes are `int64` (`addInt64`). Where the read of
   the last draw fails, the draw goes on without it; any other failure of the database ends the run
   with nothing recorded, as if it had not been made, and is left out. -/
namespace AmuxApi.BlindBox
open Go (Location)

/-! Settings. -/

inductive PoolMode
  | fixed | percent
  deriving DecidableEq, Repr

structure BlindBoxPrize where
  name : String
  quota : Int
  deriving DecidableEq, Repr

structure BlindBoxSetting where
  enabled : Bool
  drawTime : String
  thresholdQuota : Int
  poolMode : PoolMode
  prizes : List BlindBoxPrize
  percentRate : Rat
  percentCount : Int
  deriving DecidableEq

def maxBlindBoxPrizes : Nat := 10

/-- `%d` of `fmt.Sscanf`, and what it leaves. -/
def scanInt (text : List Char) : Option (Int × List Char) :=
  let text := text.dropWhile (· = ' ')
  let unsigned := match text with
    | '-' :: rest => rest
    | '+' :: rest => rest
    | _ => text
  let digits := unsigned.takeWhile Char.isDigit
  let n : Int := digits.foldl (fun acc c => acc * 10 + (c.toNat - 48 : Nat)) 0
  if digits = [] then none
  else some (if text.head? = some '-' then -n else n, unsigned.drop digits.length)

/-- `none` is the error. -/
def parseHHMM (v : String) : Option (Int × Int) :=
  let text := (Go.trimSpace v).toList
  if text.count ':' ≠ 1 then none
  else match scanInt text with
    | some (hour, ':' :: rest) =>
      match scanInt rest with
      | some (minute, _) =>
        if hour < 0 ∨ hour > 23 ∨ minute < 0 ∨ minute > 59 then none else some (hour, minute)
      | none => none
    | _ => none

def BlindBoxSetting.parseDrawTime (s : BlindBoxSetting) : Option (Int × Int) := parseHHMM s.drawTime

example : parseHHMM "20:05" = some (20, 5) ∧ parseHHMM "24:00" = none ∧ parseHHMM "20" = none := by decide +kernel

/-! Tables. -/

inductive DrawStatus
  | done | empty
  deriving DecidableEq, Repr

structure BlindBoxDraw where
  drawDate : Int
  periodStart : Int
  periodEnd : Int
  entryCount : Nat := 0
  participantCount : Nat := 0
  blockedCount : Nat := 0
  winnerCount : Nat := 0
  totalConsumeQuota : Int := 0
  totalPrizeQuota : Int := 0
  poolMode : PoolMode
  status : DrawStatus
  createdAt : Int
  deriving DecidableEq, Repr

inductive WinnerStatus
  | pending | claimed | expired
  deriving DecidableEq, Repr

structure BlindBoxWinner where
  drawDate : Int
  userId : Int
  username : String
  prizeName : String
  prizeQuota : Int
  consumeQuota : Int
  winProbability : Rat
  status : WinnerStatus
  expireAt : Int
  claimedAt : Int := 0
  createdAt : Int
  deriving DecidableEq

structure BlindBoxEntry where
  drawDate : Int
  userId : Int
  username : String
  createdAt : Int
  deriving DecidableEq, Repr

/-- A block is for good, or for one draw. -/
inductive BlockScope
  | period (drawDate : Int)
  | permanent
  deriving DecidableEq, Repr

structure BlindBoxBlock where
  scope : BlockScope
  userId : Int
  deriving DecidableEq, Repr

/-- What the draw reads of a row of `logs`. -/
structure Log where
  type : Int
  userId : Int
  username : String
  quota : Int
  createdAt : Int
  deriving DecidableEq, Repr

def logTypeConsume : Int := 2

/-- The tables in the order of their ids, and the settings. -/
structure Store where
  setting : BlindBoxSetting
  draws : List BlindBoxDraw
  winners : List BlindBoxWinner
  entries : List BlindBoxEntry
  blocks : List BlindBoxBlock
  logs : List Log

/-! Boundaries. -/

section
variable (loc : Location)

/-- `time.Date` of the day of `ref`, `dayOffset` days on, at `hour:minute`. -/
def drawBoundaryOn (ref dayOffset hour minute : Int) : Int :=
  loc.instant ((loc.dayOf ref + dayOffset) * Go.day + hour * 3600 + minute * 60)

def mostRecentDrawBoundary (ref hour minute : Int) : Int :=
  if ref < drawBoundaryOn loc ref 0 hour minute then drawBoundaryOn loc ref (-1) hour minute
  else drawBoundaryOn loc ref 0 hour minute

def prevDrawBoundary (boundary hour minute : Int) : Int := drawBoundaryOn loc boundary (-1) hour minute

def nextDrawBoundary (boundary hour minute : Int) : Int := drawBoundaryOn loc boundary 1 hour minute

end

/-! Who takes part. -/

structure Participant where
  userId : Int
  username : String
  quota : Int
  deriving DecidableEq, Repr

/-- One group of `GROUP BY user_id`. -/
def consumption (rows : List Log) (userId : Int) : Participant :=
  let own := rows.filter (·.userId = userId)
  { userId
    username := own.foldl (fun name l => if name < l.username then l.username else name) ""
    quota := own.foldl (fun sum l => sum + l.quota) 0 }

def getBlindBoxParticipants (logs : List Log) (periodStart periodEnd threshold : Int) : List Participant :=
  let rows := logs.filter fun l => l.type = logTypeConsume ∧ periodStart ≤ l.createdAt ∧ l.createdAt < periodEnd
  (((rows.map (·.userId)).eraseDups).map (consumption rows)).filter (threshold ≤ ·.quota)

def getBlindBoxEntryUserIds (entries : List BlindBoxEntry) (drawDate : Int) : List Int :=
  (entries.filter (·.drawDate = drawDate)).map (·.userId)

def getBlindBoxBlockedUserIds (blocks : List BlindBoxBlock) (drawDate : Int) : List Int :=
  (blocks.filter fun b => b.scope = .permanent ∨ b.scope = .period drawDate).map (·.userId)

/-! Prizes and winners. -/

def addInt64 (a b : Int) : Int := Int.bmod (a + b) (2 ^ 64)

/-- `math.Round`: halves away from zero. -/
def round (x : Rat) : Int := if x < 0 then -((-x + 1 / 2).floor) else (x + 1 / 2).floor

/-- The conversion of a float to an integer. -/
def truncate (x : Rat) : Int := if x < 0 then -((-x).floor) else x.floor

def blindBoxWeight (quotaPerUnit : Rat) (quota : Int) : Int :=
  let w := round (quota / quotaPerUnit)
  if w < 1 then 1 else w

/-- The turn of `i` in the two loops that sort the prizes: `x` is swapped with every later prize
that is larger. -/
def exchange (x : BlindBoxPrize) : List BlindBoxPrize → BlindBoxPrize × List BlindBoxPrize
  | [] => (x, [])
  | y :: ys =>
    if y.quota > x.quota then
      let (top, rest) := exchange y ys
      (top, x :: rest)
    else
      let (top, rest) := exchange x ys
      (top, y :: rest)

def sortPrizes : Nat → List BlindBoxPrize → List BlindBoxPrize
  | n + 1, x :: xs =>
    let (top, rest) := exchange x xs
    top :: sortPrizes n rest
  | _, prizes => prizes

def buildBlindBoxPrizePool (setting : BlindBoxSetting) (totalConsume : Int) : List BlindBoxPrize :=
  match setting.poolMode with
  | .percent =>
    if setting.percentCount ≤ 0 then []
    else
      let count := if setting.percentCount > maxBlindBoxPrizes then (maxBlindBoxPrizes : Int) else setting.percentCount
      let pool := truncate (totalConsume * setting.percentRate)
      let each := pool.tdiv count
      if each ≤ 0 then [] else List.replicate count.toNat { name := "盲盒奖励", quota := each }
  | .fixed =>
    let prizes := setting.prizes.filter (·.quota > 0)
    (sortPrizes prizes.length prizes).take maxBlindBoxPrizes

/-- A number below `n`, from any number. -/
def cryptoRandInt63n (random : Nat) (n : Int) : Int := if n ≤ 0 then 0 else random % n

/-- The first place where the weights so far exceed `r`; the last one, if there is none. -/
def selectAt (r : Int) : Int → List (Nat × Int) → Nat
  | _, [] => 0
  | _, [_] => 0
  | acc, (_, w) :: rest => if r < addInt64 acc w then 0 else selectAt r (addInt64 acc w) rest + 1

/-- The loop of `sampleWinnerIndices`, with `k` winners to go. -/
def sampleFrom (random : Nat → Nat) : Nat → List (Nat × Int) → List Nat
  | 0, _ => []
  | k + 1, pool =>
    let total := (pool.map (·.2)).foldl addInt64 0
    if pool = [] ∨ total ≤ 0 then []
    else
      let sel := selectAt (cryptoRandInt63n (random k) total) 0 pool
      (pool[sel]?.map (·.1)).toList ++ sampleFrom random k (pool.eraseIdx sel)

def sampleWinnerIndices (random : Nat → Nat) (weights : List Int) (k : Nat) : List Nat :=
  sampleFrom random k (weights.zipIdx.map fun (w, i) => (i, w))

/-! Settling. -/

/-- `ORDER BY period_end DESC, id LIMIT 1`. -/
def getLastBlindBoxDraw : List BlindBoxDraw → Option BlindBoxDraw
  | [] => none
  | d :: draws =>
    match getLastBlindBoxDraw draws with
    | none => some d
    | some last => if d.periodEnd < last.periodEnd then some last else some d

/-- The start of the period, moved to where the last draw ends if that is within the period.
`lastRead`: the last draw could be read. -/
def periodStartAfter (lastRead : Bool) (draws : List BlindBoxDraw) (periodStart periodEnd : Int) : Int :=
  match if lastRead then getLastBlindBoxDraw draws else none with
  | some last => if last.periodEnd > periodStart ∧ last.periodEnd < periodEnd then last.periodEnd else periodStart
  | none => periodStart

def blindBoxDrawExists (draws : List BlindBoxDraw) (drawDate : Int) : Bool := draws.any (·.drawDate = drawDate)

def winnerOf (pool : List BlindBoxPrize) (participants : List Participant) (weights : List Int) (totalWeight drawDate
    expireAt now : Int) (i idx : Nat) : Option BlindBoxWinner := do
  let p ← participants[idx]?
  let weight ← weights[idx]?
  let prize ← pool[i]?
  return {
    drawDate
    userId := p.userId
    username := p.username
    prizeName := prize.name
    prizeQuota := prize.quota
    consumeQuota := p.quota
    winProbability := if totalWeight > 0 then weight / totalWeight else 0
    status := .pending
    expireAt
    createdAt := now }

/-- Those who have entered and have consumed enough. -/
def qualifiedEntrants (s : Store) (drawDate periodStart periodEnd : Int) : List Participant :=
  let entryIds := getBlindBoxEntryUserIds s.entries drawDate
  if entryIds.length > 0 then
    (getBlindBoxParticipants s.logs periodStart periodEnd s.setting.thresholdQuota).filter (·.userId ∈ entryIds)
  else []

/-- The rest of the draw, among those who take part. -/
def drawAmong (quotaPerUnit : Rat) (random : Nat → Nat) (setting : BlindBoxSetting) (expireAt : Int)
    (participants : List Participant) (draw : BlindBoxDraw) : BlindBoxDraw × List BlindBoxWinner :=
  if participants = [] then (draw, [])
  else
    let totalConsume := (participants.map (·.quota)).foldl addInt64 0
    let weights := participants.map (blindBoxWeight quotaPerUnit ·.quota)
    let totalWeight := weights.foldl addInt64 0
    let pool := buildBlindBoxPrizePool setting totalConsume
    let k := min pool.length participants.length
    let draw := { draw with participantCount := participants.length, totalConsumeQuota := totalConsume }
    if k = 0 then (draw, [])
    else
      let winnerIdx := sampleWinnerIndices random weights k
      let winners := winnerIdx.zipIdx.filterMap fun (idx, i) =>
        winnerOf pool participants weights totalWeight draw.drawDate expireAt draw.createdAt i idx
      ({ draw with
          winnerCount := winners.length
          totalPrizeQuota := (winners.map (·.prizeQuota)).foldl addInt64 0
          status := .done }, winners)

def drawOf (quotaPerUnit : Rat) (random : Nat → Nat) (now : Int) (s : Store) (drawDate periodStart periodEnd
    expireAt : Int) : BlindBoxDraw × List BlindBoxWinner :=
  let entrants := qualifiedEntrants s drawDate periodStart periodEnd
  let blocked := getBlindBoxBlockedUserIds s.blocks drawDate
  let participants := entrants.filter (·.userId ∉ blocked)
  drawAmong quotaPerUnit random s.setting expireAt participants
    { drawDate, periodStart, periodEnd
      entryCount := (getBlindBoxEntryUserIds s.entries drawDate).length
      blockedCount := entrants.length - participants.length
      poolMode := s.setting.poolMode
      status := .empty
      createdAt := now }

def settleBlindBoxDraw (quotaPerUnit : Rat) (random : Nat → Nat) (lastRead : Bool) (now drawDate periodStart periodEnd
    expireAt : Int) (s : Store) : Store :=
  if blindBoxDrawExists s.draws drawDate then s
  else
    let settled := drawOf quotaPerUnit random now s drawDate (periodStartAfter lastRead s.draws periodStart periodEnd)
      periodEnd expireAt
    { s with draws := s.draws ++ [settled.1], winners := s.winners ++ settled.2 }

def expireBlindBoxWinners (now : Int) (s : Store) : Store :=
  { s with winners := s.winners.map fun w =>
      if w.status = .pending ∧ w.expireAt ≤ now then { w with status := .expired } else w }

def runBlindBoxDrawOnce (loc : Location) (quotaPerUnit : Rat) (now : Int) (random : Nat → Nat) (lastRead : Bool)
    (s : Store) : Store :=
  if s.setting.enabled = false then s
  else match s.setting.parseDrawTime with
    | none => s
    | some (hour, minute) =>
      let boundary := mostRecentDrawBoundary loc now hour minute
      settleBlindBoxDraw quotaPerUnit random lastRead now (loc.dayOf boundary)
        (prevDrawBoundary loc boundary hour minute)
        boundary (nextDrawBoundary loc boundary hour minute) (expireBlindBoxWinners now s)

end AmuxApi.BlindBox
