import Mathlib.Data.Int.Order.Basic
import Mathlib.Tactic.ByContra

/-!
# Clock — instants, wall clocks, and times of day

An instant is a count of nanoseconds since some moment. A `Reading` is an instant together with the offset of
the zone it is read in, and its weekday and minute of the day are those of a wall clock
there. **Readings need not follow each other**: a clock may be corrected both ways.

`parse` reads a time of day the way the layout `15:04` of Go's `time.Parse` does, and `hhmm`
writes one the way `Format` does. What is written is read back, and not the other way round:
an hour may be written with one digit, and is read all the same.
-/

namespace Mowgli
namespace Clock

def second : Int := 1000000000
def minute : Int := 60 * second

/-- The time between two instants, which saturates at 64 bits. -/
def sub (t u : Int) : Int :=
  if t - u < -9223372036854775808 then -9223372036854775808
  else if 9223372036854775807 < t - u then 9223372036854775807
  else t - u

theorem sub_lt {t u d : Int} (hlow : -9223372036854775808 < d) (hhigh : d ≤ 9223372036854775807) :
    sub t u < d ↔ t - u < d := by
  unfold sub
  split
  · constructor <;> intro <;> omega
  · split
    · constructor <;> intro <;> omega
    · exact Iff.rfl

theorem sub_mono {t t' u : Int} (h : t ≤ t') : sub t u ≤ sub t' u := by
  unfold sub
  split_ifs <;> omega

theorem sub_anti {t u u' : Int} (h : u ≤ u') : sub t u' ≤ sub t u := by
  unfold sub
  split_ifs <;> omega

structure Reading where
  /-- Since 1970-01-01 00:00 UTC. -/
  instant : Int
  /-- Of the zone, in seconds. -/
  offset : Int
deriving DecidableEq

namespace Reading

/-- The minutes the wall clock has counted. -/
def minutes (r : Reading) : Int := (r.instant / second + r.offset) / 60

/-- 0 is a Sunday; 1970-01-01 was a Thursday. -/
def weekday (r : Reading) : Nat := ((r.minutes / 1440 + 4) % 7).toNat

def minuteOfDay (r : Reading) : Nat := (r.minutes % 1440).toNat

theorem minuteOfDay_lt (r : Reading) : r.minuteOfDay < 1440 := by
  unfold minuteOfDay
  omega

/-- Two readings of one minute of one wall clock are less than a minute apart. -/
theorem near {r r' : Reading} (hoffset : r.offset = r'.offset) (hminutes : r.minutes = r'.minutes) :
    r'.instant - r.instant < minute := by
  unfold minutes second at hminutes
  unfold minute second
  rw [hoffset] at hminutes
  omega

end Reading

/-! ## Times of day -/

def digit (n : Nat) : Char := Char.ofNat (48 + n)

def isDigit (c : Char) : Bool := decide (48 ≤ c.toNat) && decide (c.toNat ≤ 57)

/-- Two digits for the hour, and two for the minute. -/
def hhmm (h m : Nat) : String :=
  String.ofList [digit (h / 10), digit (h % 10), ':', digit (m / 10), digit (m % 10)]

/-- A number of two digits, or of one where that is allowed. -/
def getnum (fixed : Bool) : List Char → Option (Nat × List Char)
  | [] => none
  | c :: rest =>
    if !isDigit c then none
    else
      match rest with
      | [] => if fixed then none else some (c.toNat - 48, [])
      | d :: rest' =>
        if isDigit d then some ((c.toNat - 48) * 10 + (d.toNat - 48), rest')
        else if fixed then none else some (c.toNat - 48, rest)

/-- `time.Parse("15:04", s)`, as the hour and the minute. -/
def parse (s : String) : Option (Nat × Nat) :=
  match getnum false s.toList with
  | some (h, ':' :: rest) =>
    if 24 ≤ h then none
    else
      match getnum true rest with
      | some (m, []) => if 60 ≤ m then none else some (h, m)
      | _ => none
  | _ => none

theorem isDigit_digit : ∀ n < 10, isDigit (digit n) = true ∧ (digit n).toNat - 48 = n := by
  decide

/-- Two digits are read as the number they are of. -/
theorem getnum_digits (fixed : Bool) {n : Nat} (hn : n < 100) (rest : List Char) :
    getnum fixed (digit (n / 10) :: digit (n % 10) :: rest) = some (n, rest) := by
  obtain ⟨htens, hten⟩ := isDigit_digit (n / 10) (by omega)
  obtain ⟨hunits, hunit⟩ := isDigit_digit (n % 10) (by omega)
  have hnumber : n / 10 * 10 + n % 10 = n := by omega
  simp [getnum, htens, hten, hunits, hunit, hnumber]

theorem parse_hhmm {h m : Nat} (hh : h < 24) (hm : m < 60) : parse (hhmm h m) = some (h, m) := by
  unfold parse hhmm
  rw [String.toList_ofList, getnum_digits false (by omega)]
  simp [getnum_digits true (show m < 100 by omega), Nat.not_le.2 hh, Nat.not_le.2 hm]

theorem parse_lt {s : String} {h m : Nat} (hs : parse s = some (h, m)) : h < 24 ∧ m < 60 := by
  unfold parse at hs
  split at hs
  · split at hs
    · cases hs
    · rename_i hhour
      split at hs
      · split at hs
        · cases hs
        · rename_i hminute
          cases hs
          omega
      · cases hs
  · cases hs

/-- The hour may lack its leading zero. -/
example : parse "9:05" = some (9, 5) ∧ hhmm 9 5 = "09:05" ∧ parse "9:5" = none := by decide

/-- The time of day, as `Format("15:04")` writes it. -/
def Reading.format (r : Reading) : String := hhmm (r.minuteOfDay / 60) (r.minuteOfDay % 60)

theorem Reading.parse_format (r : Reading) :
    parse r.format = some (r.minuteOfDay / 60, r.minuteOfDay % 60) :=
  parse_hhmm (by have hlt := r.minuteOfDay_lt; omega) (Nat.mod_lt _ (by decide))

end Clock
end Mowgli
