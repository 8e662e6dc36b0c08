import AmuxApi.BlindBox.Model
import AmuxApi.Machine.Run

/- The periods of the recorded draws.

   The task runs every minute, and settles the period that ends at the most recent boundary if no
   draw has that date yet. The start of the period is moved to the end of the last draw only when
   that end is within the period, that is, when the boundary is the later of the two, and when the
   last draw can be read.

   So where a boundary is never before the end of a draw that is recorded, and the last draw is
   read whenever it ends within the period (`InOrder`), no two periods overlap
   (`periods_do_not_overlap`). A change of the draw time to a later hour moves the
   most recent boundary to the day before: if that day has no draw, its period is settled after
   the draw that follows it, and overlaps that one (`later_hour_overlaps`). -/
namespace AmuxApi.BlindBox
open List
open Go (Location)
open Machine

/-! Histories. -/

/-- The task runs; the settings change; users and administrators change the other tables. -/
inductive Event
  | tick (now : Int) (random : Nat → Nat) (lastRead : Bool)
  | configure (setting : BlindBoxSetting)
  | change (winners : List BlindBoxWinner) (entries : List BlindBoxEntry) (blocks : List BlindBoxBlock)
    (logs : List Log)

def step (loc : Location) (quotaPerUnit : Rat) (s : Store) : Event → Store
  | .tick now random lastRead => runBlindBoxDrawOnce loc quotaPerUnit now random lastRead s
  | .configure setting => { s with setting }
  | .change winners entries blocks logs => { s with winners, entries, blocks, logs }

/-- The boundary that the task looks at, the most recent one by the draw time that is set, and the
one before it. -/
def boundariesAt (loc : Location) (s : Store) (now : Int) : Option (Int × Int) :=
  if s.setting.enabled = false then none
  else s.setting.parseDrawTime.map fun (hour, minute) =>
    (prevDrawBoundary loc (mostRecentDrawBoundary loc now hour minute) hour minute,
      mostRecentDrawBoundary loc now hour minute)

/-- When the task runs, the date of the most recent boundary has a draw, or the boundary is not
before the end of any draw, and the last draw can be read or no draw ends after the boundary before. -/
def InOrder (loc : Location) (s : Store) : Event → Prop
  | .tick now _ lastRead => ∀ b ∈ boundariesAt loc s now,
      blindBoxDrawExists s.draws (loc.dayOf b.2) = true ∨
        ∀ d ∈ s.draws, d.periodEnd ≤ b.2 ∧ (lastRead = true ∨ d.periodEnd ≤ b.1)
  | .configure _ => True
  | .change _ _ _ _ => True

/-- The instant `t` is in the period of `d`: what is consumed at `t` counts for `d`. -/
def BlindBoxDraw.Counts (d : BlindBoxDraw) (t : Int) : Prop := d.periodStart ≤ t ∧ t < d.periodEnd

instance countsDecidable (d : BlindBoxDraw) (t : Int) : Decidable (d.Counts t) := instDecidableAnd

def Disjoint (a b : BlindBoxDraw) : Prop := ∀ t, ¬ (a.Counts t ∧ b.Counts t)

/-! What settling records. -/

/-- Two records of one draw: the date and the period are the same. -/
def SamePeriod (a b : BlindBoxDraw) : Prop :=
  a.drawDate = b.drawDate ∧ a.periodStart = b.periodStart ∧ a.periodEnd = b.periodEnd

theorem drawAmong_period (quotaPerUnit : Rat) (random : Nat → Nat) (setting : BlindBoxSetting) (expireAt : Int)
    (participants : List Participant) (draw : BlindBoxDraw) :
    SamePeriod (drawAmong quotaPerUnit random setting expireAt participants draw).1 draw := by
  unfold drawAmong
  split_ifs with hnone
  · exact ⟨rfl, rfl, rfl⟩
  dsimp only
  split <;> exact ⟨rfl, rfl, rfl⟩

/-- The last draw is one of the draws, and none ends later. -/
theorem getLastBlindBoxDraw_last (draws : List BlindBoxDraw) :
    ∀ d ∈ draws, ∃ last ∈ draws, getLastBlindBoxDraw draws = some last ∧ d.periodEnd ≤ last.periodEnd := by
  induction draws with
  | nil =>
    intro d hd
    cases hd
  | cons first draws ih =>
    intro d hd
    cases hlast : getLastBlindBoxDraw draws with
    | none =>
      -- no draws but the first: one more would have a last one
      have hnil : draws = [] := by
        cases draws with
        | nil => rfl
        | cons e rest =>
          obtain ⟨last, -, hsome, -⟩ := ih e mem_cons_self
          rw [hlast] at hsome
          cases hsome
      subst hnil
      rw [mem_singleton] at hd
      exact ⟨first, mem_cons_self, rfl, by rw [hd]⟩
    | some last =>
      have hrest : ∀ e ∈ draws, last ∈ draws ∧ e.periodEnd ≤ last.periodEnd := by
        intro e he
        obtain ⟨last', hmem, hsome, hle⟩ := ih e he
        rw [hlast] at hsome
        cases hsome
        exact ⟨hmem, hle⟩
      have hmem : last ∈ draws := by
        cases draws with
        | nil => cases hlast
        | cons e rest => exact (hrest e mem_cons_self).1
      rw [getLastBlindBoxDraw, hlast]
      dsimp only
      split
      · refine ⟨last, mem_cons_of_mem _ hmem, rfl, ?_⟩
        rcases mem_cons.mp hd with rfl | hd
        · omega
        · exact (hrest d hd).2
      · refine ⟨first, mem_cons_self, rfl, ?_⟩
        rcases mem_cons.mp hd with rfl | hd
        · exact Int.le_refl _
        · have hle := (hrest d hd).2
          omega

/-- A new draw starts after every draw that ends before it does. -/
theorem periodStartAfter_ge {draws : List BlindBoxDraw} {lastRead : Bool} {periodStart periodEnd : Int}
    (h : ∀ d ∈ draws, d.periodEnd < periodEnd) (hread : ∀ d ∈ draws, lastRead = true ∨ d.periodEnd ≤ periodStart) :
    ∀ d ∈ draws, d.periodEnd ≤ periodStartAfter lastRead draws periodStart periodEnd := by
  intro d hd
  unfold periodStartAfter
  cases lastRead with
  | false => exact (hread d hd).resolve_left Bool.false_ne_true
  | true =>
    obtain ⟨last, hmem, hlast, hle⟩ := getLastBlindBoxDraw_last draws d hd
    have hlt := h last hmem
    rw [if_pos rfl, hlast]
    dsimp only
    split
    · exact hle
    · omega

section
variable (loc : Location) (quotaPerUnit : Rat) (now : Int) (random : Nat → Nat) (lastRead : Bool) (s : Store)

/-- What settling does to the draws: nothing, or it records one more. -/
theorem settle_draws (drawDate periodStart periodEnd expireAt : Int) :
    (settleBlindBoxDraw quotaPerUnit random lastRead now drawDate periodStart periodEnd expireAt s).draws = s.draws ∨
      blindBoxDrawExists s.draws drawDate = false ∧ ∃ draw,
        (settleBlindBoxDraw quotaPerUnit random lastRead now drawDate periodStart periodEnd expireAt s).draws =
          s.draws ++ [draw] ∧
        draw.drawDate = drawDate ∧ draw.periodStart = periodStartAfter lastRead s.draws periodStart periodEnd ∧
        draw.periodEnd = periodEnd := by
  unfold settleBlindBoxDraw
  cases hexists : blindBoxDrawExists s.draws drawDate with
  | true => exact .inl rfl
  | false => exact .inr ⟨rfl, _, rfl, drawAmong_period quotaPerUnit random s.setting expireAt _ _⟩

theorem tick_draws :
    (runBlindBoxDrawOnce loc quotaPerUnit now random lastRead s).draws = s.draws ∨
      ∃ draw start, (runBlindBoxDrawOnce loc quotaPerUnit now random lastRead s).draws = s.draws ++ [draw] ∧
        boundariesAt loc s now = some (start, draw.periodEnd) ∧ draw.drawDate = loc.dayOf draw.periodEnd ∧
        blindBoxDrawExists s.draws draw.drawDate = false ∧
        draw.periodStart = periodStartAfter lastRead s.draws start draw.periodEnd := by
  unfold runBlindBoxDrawOnce boundariesAt
  split_ifs with henabled
  · exact .inl rfl
  cases htime : s.setting.parseDrawTime with
  | none => exact .inl rfl
  | some time =>
    rcases settle_draws quotaPerUnit now random lastRead (expireBlindBoxWinners now s) _ _ _ _ with
      hdraws | ⟨hnew, draw, hdraws, hdate, hstart, hend⟩
    · exact .inl hdraws
    refine .inr ⟨draw, prevDrawBoundary loc (mostRecentDrawBoundary loc now time.1 time.2) time.1 time.2, hdraws, ?_⟩
    refine ⟨?_, ?_, ?_, ?_⟩
    · rw [hend]
      rfl
    · rw [hdate, hend]
    · rw [hdate]
      exact hnew
    · rw [hstart, hend]
      rfl

end

/-! What is kept. -/

/-- Every draw is recorded under the date of its end, and the periods are apart. -/
structure Kept (loc : Location) (s : Store) : Prop where
  dated : ∀ d ∈ s.draws, d.drawDate = loc.dayOf d.periodEnd
  apart : s.draws.Pairwise Disjoint

variable {loc : Location} {s : Store}

/-- A draw that is recorded in order ends after every other one. -/
theorem Kept.ends_before (hs : Kept loc s) {draw : BlindBoxDraw}
    (hdate : draw.drawDate = loc.dayOf draw.periodEnd) (hnew : blindBoxDrawExists s.draws draw.drawDate = false)
    (horder : ∀ d ∈ s.draws, d.periodEnd ≤ draw.periodEnd) : ∀ d ∈ s.draws, d.periodEnd < draw.periodEnd := by
  intro d hd
  have hne : d.periodEnd ≠ draw.periodEnd := by
    intro heq
    have hfound : blindBoxDrawExists s.draws d.drawDate = true := any_eq_true.mpr ⟨d, hd, decide_eq_true rfl⟩
    rw [hs.dated d hd, heq, ← hdate, hnew] at hfound
    cases hfound
  have := horder d hd
  omega

theorem Kept.tick {quotaPerUnit : Rat} (hs : Kept loc s) {now : Int} {random : Nat → Nat} {lastRead : Bool}
    (horder : InOrder loc s (.tick now random lastRead)) :
    Kept loc (runBlindBoxDrawOnce loc quotaPerUnit now random lastRead s) := by
  rcases tick_draws loc quotaPerUnit now random lastRead s with
    hdraws | ⟨draw, start, hdraws, hend, hdate, hnew, hstart⟩
  · constructor
    · rw [hdraws]
      exact hs.dated
    · rw [hdraws]
      exact hs.apart
  · have hle : ∀ d ∈ s.draws, d.periodEnd ≤ draw.periodEnd ∧ (lastRead = true ∨ d.periodEnd ≤ start) := by
      rcases horder _ hend with hexists | hle
      · rw [← hdate, hnew] at hexists
        cases hexists
      · exact hle
    have hbefore := hs.ends_before hdate hnew fun d hd => (hle d hd).1
    constructor
    · intro d hd
      rw [hdraws] at hd
      rcases mem_append.mp hd with hd | hd
      · exact hs.dated d hd
      · rw [mem_singleton.mp hd]
        exact hdate
    · rw [hdraws, pairwise_append]
      refine ⟨hs.apart, pairwise_singleton _ _, fun d hd e he t ht => ?_⟩
      -- the older draw ends where the new one starts, or earlier
      rw [mem_singleton.mp he] at ht
      have hge := periodStartAfter_ge hbefore (fun d hd => (hle d hd).2) d hd
      have h1 := ht.1.2
      have h2 := ht.2.1
      omega

theorem Kept.step {quotaPerUnit : Rat} (hs : Kept loc s) (e : Event)
    (horder : InOrder loc s e) : Kept loc (step loc quotaPerUnit s e) := by
  cases e with
  | tick now random lastRead => exact hs.tick horder
  | configure setting | change winners entries blocks logs => exact ⟨hs.dated, hs.apart⟩

/-- **No consumption counts twice.** In every history in which the boundary that the task settles
is not before the end of a draw that is recorded, and the last draw is read where it matters, the
periods of any two draws are apart. -/
theorem periods_do_not_overlap (loc : Location) (quotaPerUnit : Rat) (s₀ s : Store) (h₀ : s₀.draws = [])
    (h : Reach (InOrder loc) (step loc quotaPerUnit) s₀ s) : s.draws.Pairwise Disjoint := by
  have hstart : Kept loc s₀ := by
    constructor
    · rw [h₀]
      exact nofun
    · rw [h₀]
      exact .nil
  exact (h.keeps hstart fun s e hs horder => hs.step e horder).apart

/-! Two histories. -/

def settingAt (drawTime : String) : BlindBoxSetting where
  enabled := true
  drawTime
  thresholdQuota := 500000
  poolMode := .percent
  prizes := []
  percentRate := 1 / 10
  percentCount := 3

def fresh (drawTime : String) : Store := ⟨settingAt drawTime, [], [], [], [], []⟩

/-- An hour of a day, in UTC. -/
def utcHour (days hour : Int) : Int := days * 86400 + hour * 3600

def tickAt (now : Int) : Event := .tick now (fun _ => 0) true

instance inOrderDecidable (loc : Location) (s : Store) : ∀ e, Decidable (InOrder loc s e)
  | .tick _ _ _ => inferInstanceAs (Decidable (∀ b ∈ _, _ = true ∨ ∀ d ∈ s.draws, _ ≤ _ ∧ (_ ∨ _)))
  | .configure _ | .change _ _ _ _ => .isTrue trivial

/-- Two days with the draw at 20:00, and then one with the draw at 10:00. -/
def movedEarlier : List Event :=
  [tickAt (utcHour 1 20), tickAt (utcHour 2 20), .configure (settingAt "10:00"), tickAt (utcHour 3 10)]

theorem moved_earlier_apart :
    ((movedEarlier.foldl (step Go.utc 500000) (fresh "20:00")).draws.map fun d => (d.periodStart, d.periodEnd)) =
        [(utcHour 0 20, utcHour 1 20), (utcHour 1 20, utcHour 2 20), (utcHour 2 20, utcHour 3 10)] ∧
      (movedEarlier.foldl (step Go.utc 500000) (fresh "20:00")).draws.Pairwise Disjoint :=
  ⟨by decide +kernel, periods_do_not_overlap Go.utc 500000 (fresh "20:00") _ rfl
    (reach_foldl .start movedEarlier (by decide +kernel))⟩

/-- The first draw is settled at 20:00; an hour later the draw time becomes 22:00, and the draw of
the day before, which there was none of, is settled too. -/
def movedLater : List Event :=
  [tickAt (utcHour 1 20), .configure (settingAt "22:00"), tickAt (utcHour 1 21)]

def emptyDraw (drawDate periodStart periodEnd createdAt : Int) : BlindBoxDraw :=
  { drawDate, periodStart, periodEnd, poolMode := .percent, status := .empty, createdAt }

/-- What is consumed between 20:00 and 22:00 on day 0 counts for both draws. -/
theorem later_hour_overlaps :
    ∃ s, Reach anyEvent (step Go.utc 500000) (fresh "20:00") s ∧ (fresh "20:00").draws = [] ∧
      ¬ s.draws.Pairwise Disjoint := by
  refine ⟨movedLater.foldl (step Go.utc 500000) (fresh "20:00"), ?_, rfl, ?_⟩
  · exact reach_foldl .start movedLater ⟨trivial, trivial, trivial, trivial⟩
  · have hdraws : (movedLater.foldl (step Go.utc 500000) (fresh "20:00")).draws =
        [emptyDraw 1 (utcHour 0 20) (utcHour 1 20)
        (utcHour 1 20), emptyDraw 0 (utcHour (-1) 22) (utcHour 0 22) (utcHour 1 21)] := by decide +kernel
    rw [hdraws, pairwise_pair]
    intro hdisjoint
    exact hdisjoint (utcHour 0 21) (by decide +kernel)

end AmuxApi.BlindBox
