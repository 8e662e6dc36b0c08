import Mathlib.Algebra.Group.Nat.Defs
import Mathlib.Data.List.Infix
import Mathlib.Data.List.DropRight

/- What the server uses of Go's standard library: `strings.TrimSpace`, `strings.CutPrefix`,
   `strings.Contains`, `strconv.Atoi`, and `time` down to the second.

   An instant is its Unix time. A location says how far its clock is ahead of UTC at
   every instant, so summer time and changes of a zone's offset are in it. The wall
   clock at an instant is the Unix time plus that offset, read as seconds since
   1970-01-01 00:00; `time.Date` goes back from a wall clock to an instant, and
   `AddDate` goes through the wall clock.

   Correspondence (Go ↔ Lean):
     `strings.TrimSpace`, `unicode.IsSpace` ↔ `trimSpace`, `isSpace`
     `strings.Contains`, `strings.CutPrefix` ↔ `contains`, `after`
     `strconv.Atoi` ↔ `atoi`
     `time.Date(.., loc)` (its two zone lookups) ↔ `Location.instant`
     `Time.Date`, `Time.Clock` ↔ `Location.wall`, `civil`
     `Time.AddDate(0, 0, n)`, `AddDate(0, n, 0)` ↔ `Location.addDays`, `Location.addMonths`
     `Time.Weekday` ↔ `weekday`
     `t.Add(time.Duration(n) * time.Second)` ↔ `addSeconds`
   A `time.Duration` is an int64 of nanoseconds: the product wraps around. -/
namespace AmuxApi.Go

/-! Strings. -/

def isSpace (c : Char) : Bool :=
  c.toNat ∈ [0x09, 0x0A, 0x0B, 0x0C, 0x0D, 0x20, 0x85, 0xA0, 0x1680, 0x2028, 0x2029, 0x202F, 0x205F, 0x3000] ||
    (0x2000 ≤ c.toNat && c.toNat ≤ 0x200A)

-- irreducible: a comparison with a trimmed text should not be computed while elaborating
@[irreducible]
def trimSpace (s : String) : String :=
  String.ofList (((s.toList.dropWhile isSpace).reverse.dropWhile isSpace).reverse)

/-- What trimming on the right leaves starts as it did before. -/
theorem dropWhile_rdropWhile (p : Char → Bool) (l : List Char) :
    ((l.dropWhile p).rdropWhile p).dropWhile p = (l.dropWhile p).rdropWhile p := by
  rw [List.dropWhile_eq_self_iff]
  intro hl
  have hpre : (l.dropWhile p).rdropWhile p <+: l.dropWhile p := List.rdropWhile_prefix p _
  rw [hpre.getElem hl]
  exact List.dropWhile_get_zero_not p l (Nat.lt_of_lt_of_le hl hpre.length_le)

theorem trimSpace_trimSpace (s : String) : trimSpace (trimSpace s) = trimSpace s := by
  have trimmed : ∀ s, trimSpace s = String.ofList ((s.toList.dropWhile isSpace).rdropWhile isSpace) := fun s => by
    rw [trimSpace, List.rdropWhile]
  rw [trimmed (trimSpace s), trimmed s, String.toList_ofList, dropWhile_rdropWhile, List.rdropWhile_idempotent]

theorem length_trimSpace_le (s : String) : (trimSpace s).length ≤ s.length := by
  rw [trimSpace, String.length_ofList, List.length_reverse]
  calc (List.dropWhile isSpace (s.toList.dropWhile isSpace).reverse).length
      ≤ (s.toList.dropWhile isSpace).reverse.length := (List.dropWhile_sublist _).length_le
    _ = (s.toList.dropWhile isSpace).length := List.length_reverse
    _ ≤ s.toList.length := (List.dropWhile_sublist _).length_le
    _ = s.length := String.length_toList

def after (start s : String) : Option String :=
  if start.toList <+: s.toList then some (String.ofList (s.toList.drop start.length)) else none

def contains (s sub : String) : Bool := decide (sub.toList <:+: s.toList)

/-- `strconv.Atoi`, less the limit of 64 bits. -/
def atoi (s : String) : Option Int :=
  let unsigned := match s.toList with
    | '-' :: rest => rest
    | '+' :: rest => rest
    | text => text
  if unsigned = [] ∨ !unsigned.all Char.isDigit then none
  else
    let n : Int := unsigned.foldl (fun acc c => acc * 10 + (c.toNat - 48 : Nat)) 0
    some (if s.toList.head? = some '-' then -n else n)

/-! The calendar. -/

def day : Int := 86400

/-- A date of the proleptic Gregorian calendar; January is month 1. -/
structure Civil where
  year : Int
  month : Int
  day : Int
  deriving DecidableEq, Repr

/-- The date of a day counted from 1970-01-01. Years are taken to start in March, so that
the leap day is the last of its year. -/
def civil (days : Int) : Civil :=
  let z := days + 719468
  let era := z / 146097
  let doe := z % 146097
  let yoe := (doe - doe / 1460 + doe / 36524 - doe / 146096) / 365
  let doy := doe - (365 * yoe + yoe / 4 - yoe / 100)
  let mp := (5 * doy + 2) / 153
  let month := if mp < 10 then mp + 3 else mp - 9
  { year := yoe + era * 400 + (if month ≤ 2 then 1 else 0)
    month
    day := doy - (153 * mp + 2) / 5 + 1 }

/-- The day counted from 1970-01-01 of a date whose month and day may be out of range, as
`time.Date` takes them. -/
def daysOf (c : Civil) : Int :=
  let year := c.year + (c.month - 1) / 12
  let month := (c.month - 1) % 12 + 1
  let y := if month ≤ 2 then year - 1 else year
  let mp := if month ≤ 2 then month + 9 else month - 3
  let yoe := y % 400
  (y / 400) * 146097 + (365 * yoe + yoe / 4 - yoe / 100 + (153 * mp + 2) / 5) + c.day - 1 - 719468

/-- Sunday is 0; 1970-01-01 was a Thursday. -/
def weekday (days : Int) : Int := (days + 4) % 7

example : civil 20819 = ⟨2027, 1, 1⟩ ∧ civil 19782 = ⟨2024, 2, 29⟩ := by decide
example : daysOf ⟨2026, 13, 1⟩ = 20819 ∧ weekday 20819 = 5 := by decide

/-- Seconds east of UTC at every instant. -/
structure Location where
  offset : Int → Int

def utc : Location := ⟨fun _ => 0⟩

namespace Location
variable (loc : Location)

def wall (t : Int) : Int := t + loc.offset t

/-- The instant of a wall clock: looked up first as if it were UTC, then once more. -/
def instant (wall : Int) : Int := wall - loc.offset (wall - loc.offset wall)

/-- The day of the wall clock, counted from 1970-01-01. -/
def dayOf (t : Int) : Int := loc.wall t / day

def midnight (days : Int) : Int := loc.instant (days * day)

def addDays (t n : Int) : Int := loc.instant (loc.wall t + n * day)

def addMonths (t n : Int) : Int :=
  let c := civil (loc.dayOf t)
  loc.instant (daysOf { c with month := c.month + n } * day + loc.wall t % day)

end Location

/-- What `time.Duration(n) * time.Second` holds, in whole seconds. -/
def durationSeconds (n : Int) : Int := Int.bmod (n * 1000000000) (2 ^ 64) / 1000000000

/-- The whole seconds of `t.Add(time.Duration(n) * time.Second)`. -/
def addSeconds (t n : Int) : Int := t + durationSeconds n

end AmuxApi.Go
