import Chanserv.Program.Calendar
import Chanserv.Text.Number

/-! Time stamps: `format_datetime_with_offset`.

A stamp is the date and the time of day, to the minute, of a clock that is some hours
ahead. It is read back for every time a 64-bit clock of nanoseconds can show
(`datetime_read_back`), and its date is that of the Gregorian calendar
(`datetime_next_day`). -/
namespace Chanserv
open Text Program

/-! ### The source -/

/-- A minute in ticks of the clock; a tick is a nanosecond. -/
def clockMinute : Int := 60000000000

/-- A number with zeros before it, if it is short. -/
def padded (width n : Nat) : Text := (Nat.toDigits 10 n).leftpad width '0'

/-- `%Y`. -/
def paddedYear (y : Int) : Text := if y < 0 then '-' :: padded 4 y.natAbs else padded 4 y.natAbs

/-- `%d.%m.%Y`. -/
def showDate (date : Date) : Text :=
  padded 2 date.day.toNat ++ of "." ++ padded 2 date.month.toNat ++ of "." ++ paddedYear date.year

/-- `%H:%M`, of the minutes of a day. -/
def showTime (time : Int) : Text := padded 2 (time / 60).toNat ++ of ":" ++ padded 2 (time % 60).toNat

/-- `%d.%m.%Y %H:%M`, of minutes since the first of January 1970. -/
def stamp (minutes : Int) : Text := showDate (Date.ofDays (minutes / 1440)) ++ of " " ++ showTime (minutes % 1440)

/-- The minute begun on a clock that is ahead by these hours. -/
def shiftedMinutes (tp utcOffsetHours : Int) : Int := (tp + utcOffsetHours * (60 * clockMinute)) / clockMinute

def formatDatetimeWithOffset (tp utcOffsetHours : Int) : Text := stamp (shiftedMinutes tp utcOffsetHours)

/-- A time of the source's test: 22:30:45 on the last of January 2026. -/
def january31 : Int := (daysFromCivil 2026 1 31 * 86400 + 81045) * 1000000000

example : [formatDatetimeWithOffset january31 0, formatDatetimeWithOffset january31 3,
    formatDatetimeWithOffset january31 (-5)] =
    [of "31.01.2026 22:30", of "01.02.2026 01:30", of "31.01.2026 17:30"] := by
  decide +kernel

/-! ### Reading a stamp -/

def number (digits : Text) : Nat := Nat.ofDigitChars 10 digits 0

def readStamp : Text → Option Int
  | [d₁, d₂, '.', m₁, m₂, '.', y₁, y₂, y₃, y₄, ' ', h₁, h₂, ':', n₁, n₂] =>
    some (1440 * daysFromCivil (number [y₁, y₂, y₃, y₄]) (number [m₁, m₂]) (number [d₁, d₂]) +
      60 * number [h₁, h₂] + number [n₁, n₂])
  | _ => none

section
variable {width n : Nat} {minutes tp utcOffsetHours : Int}

theorem number_padded (width n : Nat) : number (padded width n) = n := by
  rw [number, padded, List.leftpad, Nat.ofDigitChars_append, Nat.ofDigitChars_replicate_zero, Nat.mul_zero,
    Nat.ofDigitChars_ten_toDigits]

theorem length_padded (width : Nat) (hwidth : 0 < width) (hn : n < 10 ^ width) : (padded width n).length = width := by
  have hdigits : (Nat.toDigits 10 n).length ≤ width := (Nat.length_toDigits_le_iff (by decide) hwidth).mpr hn
  rw [padded, List.length_leftpad, Nat.max_eq_left hdigits]

theorem padded_two (hn : n < 100) : ∃ a b, padded 2 n = [a, b] ∧ number [a, b] = n := by
  obtain ⟨a, b, h⟩ := List.length_eq_two.mp (length_padded 2 (by decide) hn)
  exact ⟨a, b, h, h ▸ number_padded 2 n⟩

theorem padded_four (hn : n < 10000) : ∃ a b c d, padded 4 n = [a, b, c, d] ∧ number [a, b, c, d] = n := by
  have hlength := length_padded 4 (by decide) hn
  have hnumber := number_padded 4 n
  match padded 4 n, hlength, hnumber with
  | [a, b, c, d], _, hnumber => exact ⟨a, b, c, d, rfl, hnumber⟩

/-- A stamp of a year of four digits, character by character. -/
theorem readStamp_stamp (hyear : 0 ≤ (Date.ofDays (minutes / 1440)).year) (hfour : (Date.ofDays (minutes / 1440)).year < 10000) :
    readStamp (stamp minutes) = some minutes ∧ (stamp minutes).length = 16 := by
  have hdays := Date.toDays_ofDays (minutes / 1440)
  rw [stamp, showDate, showTime]
  generalize Date.ofDays (minutes / 1440) = date at *
  have hmonth := date.month_pos
  have hmonths := date.month_le
  have hday := date.day_pos
  have hlength := monthLength_le date.year date.month
  have hlast := date.day_le
  obtain ⟨d₁, d₂, hd, hdn⟩ := padded_two (show date.day.toNat < 100 by omega)
  obtain ⟨m₁, m₂, hm, hmn⟩ := padded_two (show date.month.toNat < 100 by omega)
  obtain ⟨y₁, y₂, y₃, y₄, hy, hyn⟩ := padded_four (show date.year.natAbs < 10000 by omega)
  obtain ⟨h₁, h₂, hh, hhn⟩ := padded_two (show (minutes % 1440 / 60).toNat < 100 by omega)
  obtain ⟨n₁, n₂, hn, hnn⟩ := padded_two (show (minutes % 1440 % 60).toNat < 100 by omega)
  have hsign : paddedYear date.year = padded 4 date.year.natAbs := if_neg (by omega)
  rw [hsign, hd, hm, hy, hh, hn]
  refine ⟨?_, rfl⟩
  show some _ = some minutes
  rw [hdn, hmn, hyn, hhn, hnn]
  have htoDays : daysFromCivil date.year date.month date.day = minutes / 1440 := hdays
  rw [Int.toNat_of_nonneg (by omega), Int.toNat_of_nonneg (by omega), Int.natAbs_of_nonneg hyear, htoDays]
  congr 1
  omega

/-- The years of a clock that counts nanoseconds in 64 bits. -/
theorem year_of_clock {t : Int} (hmin : longMin ≤ t) (hmax : t ≤ longMax) :
    0 ≤ (Date.ofDays (t / clockMinute / 1440)).year ∧ (Date.ofDays (t / clockMinute / 1440)).year < 10000 := by
  unfold longMin at hmin
  unfold longMax at hmax
  have hdays : -106752 ≤ t / clockMinute / 1440 ∧ t / clockMinute / 1440 ≤ 106751 := by
    unfold clockMinute
    omega
  generalize t / clockMinute / 1440 = z at hdays ⊢
  have hstart := years.start_le (z + epoch)
  have hend := years.lt_start (z + epoch)
  have hepoch : epoch = 719468 := rfl
  have hlow : 0 ≤ years.unit (z + epoch) := by
    by_contra h
    have hmono := years.mono (show years.unit (z + epoch) + 1 ≤ 0 by omega)
    have hzero : years.start 0 = 0 := rfl
    omega
  have hhigh : years.unit (z + epoch) ≤ 2262 := by
    by_contra h
    have hmono := years.mono (show 2263 ≤ years.unit (z + epoch) by omega)
    have hstart : years.start 2263 = 826543 := rfl
    omega
  rw [Date.ofDays_year, marchYear]
  split <;> omega

/-- **A stamp is read back.** Whatever time the clock shows, its stamp has sixteen characters, and they say the
minute begun. -/
theorem datetime_read_back (hmin : longMin ≤ tp + utcOffsetHours * (60 * clockMinute))
    (hmax : tp + utcOffsetHours * (60 * clockMinute) ≤ longMax) :
    readStamp (formatDatetimeWithOffset tp utcOffsetHours) = some (shiftedMinutes tp utcOffsetHours) ∧
      (formatDatetimeWithOffset tp utcOffsetHours).length = 16 := by
  obtain ⟨hyear, hfour⟩ := year_of_clock hmin hmax
  exact readStamp_stamp hyear hfour

/-- **The date is that of the calendar.** It is the first of January 1970 at the time the clock counts from, and a
day later it is the next date at the same time of day. Here the clock counts without bounds; the stamps are those
of the source where the shifted time and that a day later are in the range of `datetime_read_back`. -/
theorem datetime_next_day (tp utcOffsetHours : Int) :
    formatDatetimeWithOffset 0 0 = of "01.01.1970 00:00" ∧
      ∃ date time, formatDatetimeWithOffset tp utcOffsetHours = showDate date ++ of " " ++ showTime time ∧
        formatDatetimeWithOffset (tp + 1440 * clockMinute) utcOffsetHours =
          showDate date.next ++ of " " ++ showTime time := by
  have hminutes : shiftedMinutes (tp + 1440 * clockMinute) utcOffsetHours = shiftedMinutes tp utcOffsetHours + 1440 := by
    unfold shiftedMinutes clockMinute
    omega
  refine ⟨by decide +kernel, _, _, rfl, ?_⟩
  rw [formatDatetimeWithOffset, hminutes, stamp, ← Date.ofDays_succ, show (shiftedMinutes tp utcOffsetHours + 1440) / 1440 =
    shiftedMinutes tp utcOffsetHours / 1440 + 1 by omega, Int.add_emod_right]

end

theorem datetime_read_back_january31 :
    readStamp (formatDatetimeWithOffset january31 3) = some (shiftedMinutes january31 3) ∧
      (formatDatetimeWithOffset january31 3).length = 16 :=
  datetime_read_back (by decide) (by decide)

end Chanserv
