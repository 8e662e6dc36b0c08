import Mathlib.Data.Int.Order.Lemmas
import AmuxApi.Go.Library

/- Months and days.

   `civil` takes a day apart and `daysOf` puts it together. Both count months from the March of
   year 0: every day is in one month (`civil_month`), and each month starts four weeks after the one
   before, at the least. -/
namespace AmuxApi.Go
open Civil

/-- The first day of month `n`, counted from the March of year 0. -/
def monthStart (n : Int) : Int :=
  n / 12 / 400 * 146097 + (365 * (n / 12 % 400) + n / 12 % 400 / 4 - n / 12 % 400 / 100) +
    (153 * (n % 12) + 2) / 5 - 719468

def Civil.months (c : Civil) : Int := 12 * c.year + c.month - 3

theorem daysOf_eq (c : Civil) : daysOf c = monthStart c.months + c.day - 1 := by
  have hyear : (if (c.month - 1) % 12 + 1 ≤ 2 then c.year + (c.month - 1) / 12 - 1 else c.year + (c.month - 1) / 12) =
      c.months / 12 := by
    unfold months
    split <;> omega
  have hmonth : (if (c.month - 1) % 12 + 1 ≤ 2 then (c.month - 1) % 12 + 1 + 9 else (c.month - 1) % 12 + 1 - 3) =
      c.months % 12 := by
    unfold months
    split <;> omega
  unfold daysOf monthStart
  dsimp only
  rw [hyear]
  omega

theorem monthStart_succ (n : Int) : monthStart n + 28 ≤ monthStart (n + 1) := by
  unfold monthStart
  by_cases hlast : n % 12 = 11
  · rw [show (n + 1) % 12 = 0 by omega, hlast]
    omega
  · rw [show (n + 1) / 12 = n / 12 by omega, show (n + 1) % 12 = n % 12 + 1 by omega]
    omega

variable {m n : Int}

theorem monthStart_le (h : m ≤ n) : monthStart m ≤ monthStart n :=
  (strictMono_int_of_lt_succ fun n => by have := monthStart_succ n; omega).monotone h

theorem monthStart_lt (h : m < n) : monthStart m + 28 ≤ monthStart n := (monthStart_succ m).trans (monthStart_le h)

theorem yearOfEra (doe : Int) {yoe : Int} (h0 : 0 ≤ doe) (h : doe < 146097)
    (hyoe : yoe = (doe - doe / 1460 + doe / 36524 - doe / 146096) / 365) :
    0 ≤ yoe ∧ yoe < 400 ∧ 365 * yoe + yoe / 4 - yoe / 100 ≤ doe ∧
      doe < 365 * (yoe + 1) + (yoe + 1) / 4 - (yoe + 1) / 100 + (yoe + 1) / 400 := by
  obtain ⟨t, ht⟩ : ∃ t, t = (doe % 1460 - doe / 1460 + doe / 36524 - doe / 146096) / 365 := ⟨_, rfl⟩
  have hsplit : yoe = 4 * (doe / 1460) + t := by omega
  have ht : t = -1 ∨ t = 0 ∨ t = 1 ∨ t = 2 ∨ t = 3 := by omega
  have hcentury : doe / 36524 = 0 ∨ doe / 36524 = 1 ∨ doe / 36524 = 2 ∨ doe / 36524 = 3 ∨ doe / 36524 = 4 := by omega
  rcases ht with rfl | rfl | rfl | rfl | rfl <;> rcases hcentury with h | h | h | h | h <;> omega

theorem monthStart_eq {era yoe mp : Int} (h0 : 0 ≤ yoe) (h1 : yoe < 400) (hmp0 : 0 ≤ mp) (hmp1 : mp < 12) :
    monthStart (12 * (yoe + era * 400) + mp) =
      era * 146097 + (365 * yoe + yoe / 4 - yoe / 100) + (153 * mp + 2) / 5 - 719468 := by
  unfold monthStart
  rw [show (12 * (yoe + era * 400) + mp) / 12 = yoe + era * 400 by omega,
    show (12 * (yoe + era * 400) + mp) % 12 = mp by omega,
    show (yoe + era * 400) / 400 = era by omega, show (yoe + era * 400) % 400 = yoe by omega]

theorem months_eq {y mp d : Int} (h0 : 0 ≤ mp) (h1 : mp < 12) : months ⟨y + (if (if mp < 10 then mp + 3
    else mp - 9) ≤ 2 then 1 else 0), if mp < 10 then mp + 3 else mp - 9, d⟩ = 12 * y + mp := by
  unfold months
  dsimp only
  split <;> split <;> omega

/-- The days of a year are before the month that follows theirs. -/
theorem lt_monthStart (era : Int) {yoe doy : Int} (h0 : 0 ≤ yoe) (h1 : yoe < 400)
    (hlt : 365 * yoe + yoe / 4 - yoe / 100 + doy < 365 * (yoe + 1) + (yoe + 1) / 4 - (yoe + 1) / 100 + (yoe + 1) / 400)
    {mp : Int} (hmp : mp = (5 * doy + 2) / 153) (hmp0 : 0 ≤ mp) :
    era * 146097 + (365 * yoe + yoe / 4 - yoe / 100) + doy - 719468 < monthStart (12 * (yoe + era * 400) + mp + 1) := by
  by_cases hlast : mp < 11
  · rw [add_assoc (12 * _), monthStart_eq h0 h1 (by omega) (by omega)]
    omega
  by_cases hera : yoe = 399
  · rw [show 12 * (yoe + era * 400) + mp + 1 = 12 * (0 + (era + 1) * 400) + 0 by omega,
      monthStart_eq (by omega) (by omega) (by omega) (by omega)]
    omega
  · rw [show 12 * (yoe + era * 400) + mp + 1 = 12 * (yoe + 1 + era * 400) + 0 by omega,
      monthStart_eq (by omega) (by omega) (by omega) (by omega)]
    omega

/-- Every day is in the month that its date says. -/
theorem civil_month (days : Int) : days = monthStart (civil days).months + (civil days).day - 1 ∧
    monthStart (civil days).months ≤ days ∧ days < monthStart ((civil days).months + 1) := by
  obtain ⟨h0, h1, hle, hlt⟩ := yearOfEra ((days + 719468) % 146097) (by omega) (by omega) rfl
  have hdays : days = (days + 719468) / 146097 * 146097 + (days + 719468) % 146097 - 719468 := by omega
  unfold civil
  dsimp only
  generalize (days + 719468) / 146097 = era at *
  generalize (days + 719468) % 146097 = doe at *
  generalize (doe - doe / 1460 + doe / 36524 - doe / 146096) / 365 = yoe at *
  generalize hdoy : doe - (365 * yoe + yoe / 4 - yoe / 100) = doy at *
  generalize hmp : (5 * doy + 2) / 153 = mp at *
  have hnext := lt_monthStart era h0 h1 (by omega) hmp.symm (by omega)
  rw [months_eq (by omega) (by omega), monthStart_eq h0 h1 (by omega) (by omega)]
  omega

/-- From the first day of a month, the first day of the next one. -/
theorem lt_daysOf_nextMonth (days : Int) {first : Civil} (h : first = civil (daysOf { civil days with day := 1 })) :
    days < daysOf { first with month := first.month + 1 } := by
  obtain ⟨-, -, hlt⟩ := civil_month days
  obtain ⟨hday, hle, hnext⟩ := civil_month (daysOf { civil days with day := 1 })
  have hfirst : daysOf { civil days with day := 1 } = monthStart (civil days).months := by
    rw [daysOf_eq]
    exact add_sub_cancel_right ..
  rw [← h, hfirst] at hday hle hnext
  have hmonth : first.months = (civil days).months := by
    by_contra hne
    rcases Int.lt_or_gt_of_ne hne with hbefore | hbehind
    · have hstart := monthStart_le (Int.add_one_le_of_lt hbefore)
      omega
    · have hstart := monthStart_lt hbehind
      omega
  have hafter : months { first with month := first.month + 1 } = (civil days).months + 1 := by
    rw [← hmonth]
    unfold months
    dsimp only
    omega
  rw [daysOf_eq, hafter]
  dsimp only
  omega

namespace Location
variable {loc : Location}

/-- Every day starts at a midnight of the wall clock. Where the clock is changed at midnight, some do not. -/
structure Regular (loc : Location) : Prop where
  wall : ∀ days, loc.wall (loc.midnight days) = days * day
  starts : ∀ t days, loc.midnight days ≤ t → days * day ≤ loc.wall t

theorem utc_regular : utc.Regular := by
  constructor <;> simp [Location.wall, midnight, instant, utc]

theorem Regular.lt_midnight (h : loc.Regular) {t days : Int} (hlt : loc.dayOf t < days) : t < loc.midnight days := by
  by_contra hge
  have := h.starts t days (not_lt.mp hge)
  unfold dayOf day at *
  omega

theorem Regular.dayOf_midnight (h : loc.Regular) (days : Int) : loc.dayOf (loc.midnight days) = days := by
  rw [dayOf, h.wall]
  exact Int.mul_ediv_cancel _ (by decide)

/-- Days are added to a midnight. -/
theorem Regular.lt_addDays (h : loc.Regular) (t : Int) (hn : 0 < n) :
    t < loc.addDays (loc.midnight (loc.dayOf t)) n := by
  rw [addDays, h.wall, ← add_mul]
  exact h.lt_midnight (lt_add_of_pos_right _ hn)

theorem Regular.lt_nextMonth (h : loc.Regular) (t : Int) :
    t < loc.addMonths (loc.midnight (daysOf { civil (loc.dayOf t) with day := 1 })) 1 := by
  rw [addMonths, h.dayOf_midnight, h.wall]
  rw [Int.mul_emod_left, add_zero]
  exact h.lt_midnight (lt_daysOf_nextMonth _ rfl)

section
variable (hoffset : ∀ t, -day < loc.offset t ∧ loc.offset t < day)
include hoffset

/-- Months are added to the date; the zone moves the result by less than a day. -/
theorem addMonths_near (t n : Int) {c : Civil} (hc : c = civil (loc.dayOf t)) :
    (monthStart (c.months + n) + c.day - 2) * day + loc.wall t % day < loc.addMonths t n ∧
      loc.addMonths t n < (monthStart (c.months + n) + c.day) * day + loc.wall t % day := by
  have hmonths : months { c with month := c.month + n } = c.months + n := by
    unfold months
    dsimp only
    omega
  unfold addMonths instant
  dsimp only
  rw [← hc, daysOf_eq, hmonths]
  generalize hwall : (monthStart (c.months + n) + c.day - 1) * day + loc.wall t % day = wall
  have := hoffset (wall - loc.offset wall)
  unfold day at *
  omega

theorem addMonths_lt (t : Int) {m : Int} (h : m < n) : loc.addMonths t m < loc.addMonths t n := by
  have hm := addMonths_near hoffset t m rfl
  have hn := addMonths_near hoffset t n rfl
  have hlt := monthStart_lt (Int.add_lt_add_left h (civil (loc.dayOf t)).months)
  unfold day at *
  omega

theorem lt_addMonths (t : Int) (h : 0 < n) : t < loc.addMonths t n := by
  obtain ⟨hdays, -, -⟩ := civil_month (loc.dayOf t)
  have hn := addMonths_near hoffset t n rfl
  have hlt := monthStart_lt (lt_add_of_pos_right (civil (loc.dayOf t)).months h)
  have ht := hoffset t
  have hwall : loc.wall t = t + loc.offset t := rfl
  have hday : loc.dayOf t = loc.wall t / day := rfl
  unfold day at *
  omega

end

end Location

end AmuxApi.Go
