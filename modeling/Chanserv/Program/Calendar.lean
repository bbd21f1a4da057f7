import Mathlib.Algebra.Order.Ring.Int
import Mathlib.Tactic.IntervalCases

/-! Time in units, equal or not, and the Gregorian calendar.

A line of integers is cut into units one after another; an integer is then the same as
its unit and its place there. Years and months are such units. The date of a day and the
day of a date undo each other, and the day after a date is the next one in the calendar
(`Date.ofDays_succ`). -/
namespace Chanserv.Program

/-- Where each unit begins, and the unit an integer is in. -/
structure Units where
  start : Int → Int
  unit : Int → Int
  mono : ∀ {i j : Int}, i ≤ j → start i ≤ start j
  start_le : ∀ z, start (unit z) ≤ z
  lt_start : ∀ z, z < start (unit z + 1)

namespace Units
variable (u : Units) {z z' k : Int}

/-- The place of an integer in its unit. -/
def place (z : Int) : Int := z - u.start (u.unit z)

theorem unit_eq_iff : u.unit z = k ↔ u.start k ≤ z ∧ z < u.start (k + 1) := by
  constructor
  · rintro rfl
    exact ⟨u.start_le z, u.lt_start z⟩
  · rintro ⟨hstart, hend⟩
    have hlow : ¬u.unit z < k := by
      intro h
      have hmono := u.mono (show u.unit z + 1 ≤ k from h)
      have hlt := u.lt_start z
      omega
    have hhigh : ¬k < u.unit z := by
      intro h
      have hmono := u.mono (show k + 1 ≤ u.unit z from h)
      have hle := u.start_le z
      omega
    omega

/-- An integer given by its unit and its place there. -/
theorem unit_start_add {i : Int} (hi : 0 ≤ i) (hlt : u.start k + i < u.start (k + 1)) : u.unit (u.start k + i) = k :=
  (u.unit_eq_iff).mpr ⟨by omega, hlt⟩

theorem place_start_add {i : Int} (hi : 0 ≤ i) (hlt : u.start k + i < u.start (k + 1)) : u.place (u.start k + i) = i := by
  rw [place, u.unit_start_add hi hlt]
  omega

theorem start_add_place (z : Int) : u.start (u.unit z) + u.place z = z := by
  rw [place]
  omega

theorem place_nonneg (z : Int) : 0 ≤ u.place z := by
  have hle := u.start_le z
  rw [place]
  omega

theorem place_lt (z : Int) : u.place z < u.start (u.unit z + 1) - u.start (u.unit z) := by
  have hlt := u.lt_start z
  rw [place]
  omega

end Units

/-! ### Years and months, from the first of March -/

/-- The days before a year that begins in March; its day that is left over comes last. -/
def daysBefore (y : Int) : Int := 365 * y + y / 4 - y / 100 + y / 400

/-- 400 years have 146097 days, so the quotient is the year or the one before. -/
def years : Units where
  start := daysBefore
  unit z :=
    let y := 400 * z / 146097
    if daysBefore (y + 1) ≤ z then y + 1 else y
  mono {y y'} h := by
    rw [daysBefore, daysBefore]
    omega
  start_le z := by
    dsimp only
    split
    · assumption
    · rw [daysBefore]
      omega
  lt_start z := by
    dsimp only
    split
    · rw [daysBefore]
      omega
    · omega

/-- The months of such a year, by the days before them. -/
def months : Units where
  start m := (153 * m + 2) / 5
  unit d := (5 * d + 2) / 153
  mono {m m'} h := by
    show (153 * m + 2) / 5 ≤ (153 * m' + 2) / 5
    omega
  start_le d := by
    omega
  lt_start d := by
    omega

/-! ### Dates -/

def IsLeap (y : Int) : Prop := y % 4 = 0 ∧ (y % 100 ≠ 0 ∨ y % 400 = 0)

instance (y : Int) : Decidable (IsLeap y) := inferInstanceAs (Decidable (_ ∧ _))

def monthLength (y m : Int) : Int :=
  if m = 2 then if IsLeap y then 29 else 28
  else if m = 4 ∨ m = 6 ∨ m = 9 ∨ m = 11 then 30
  else 31

@[ext] structure Date where
  year : Int
  month : Int
  day : Int
  month_pos : 1 ≤ month
  month_le : month ≤ 12
  day_pos : 1 ≤ day
  day_le : day ≤ monthLength year month

theorem monthLength_pos (y m : Int) : 1 ≤ monthLength y m := by
  rw [monthLength]
  split
  · split <;> decide
  · split <;> decide

theorem monthLength_le (y m : Int) : monthLength y m ≤ 31 := by
  rw [monthLength]
  split
  · split <;> decide
  · split <;> decide

/-- The year of a month, counted from March. -/
def marchYear (y m : Int) : Int := if m < 10 then y else y + 1

def marchMonth (m : Int) : Int := if m < 10 then m + 3 else m - 9

theorem daysBefore_succ (y : Int) : daysBefore (y + 1) = daysBefore y + if IsLeap (y + 1) then 366 else 365 := by
  by_cases h : IsLeap (y + 1)
  · rw [if_pos h, daysBefore, daysBefore]
    obtain ⟨hfour, hcentury⟩ := h
    omega
  · rw [if_neg h, daysBefore, daysBefore]
    unfold IsLeap at h
    omega

theorem months_start_add_length {m : Int} (hm : 0 ≤ m) (hlast : m < 11) (y : Int) :
    months.start m + monthLength y (marchMonth m) = months.start (m + 1) := by
  interval_cases m <;> rfl

/-- February ends the year. -/
theorem february_start_add_length (y : Int) :
    daysBefore y + (months.start 11 + monthLength (y + 1) 2) = daysBefore (y + 1) := by
  rw [daysBefore_succ, monthLength, if_pos rfl, show months.start 11 = 337 from rfl]
  split <;> omega

/-- The months of a year are the units its days are in. -/
theorem place_lt_monthLength {y d : Int} (hd : 0 ≤ d) (hlt : daysBefore y + d < daysBefore (y + 1)) :
    0 ≤ months.unit d ∧ months.unit d ≤ 11 ∧
      months.place d < monthLength (marchYear y (months.unit d)) (marchMonth (months.unit d)) := by
  have hyear : d < 366 := by
    rw [daysBefore_succ] at hlt
    split at hlt <;> omega
  have hunit : months.unit d = (5 * d + 2) / 153 := rfl
  have hlow : 0 ≤ months.unit d := by omega
  have hhigh : months.unit d ≤ 11 := by omega
  refine ⟨hlow, hhigh, ?_⟩
  have hplace := months.place_lt d
  have hstart := months.start_add_place d
  generalize months.unit d = m at *
  rcases hhigh.lt_or_eq with hlast | rfl
  · have hlength := months_start_add_length hlow hlast (marchYear y m)
    omega
  · have hlength := february_start_add_length y
    show months.place d < monthLength (y + 1) 2
    omega

/-- The month and the day of the month of a day. -/
def monthOf (z : Int) : Int := months.unit (years.place z)

def dayOf (z : Int) : Int := months.place (years.place z)

theorem monthOf_bounds (z : Int) :
    0 ≤ monthOf z ∧ monthOf z ≤ 11 ∧
      dayOf z < monthLength (marchYear (years.unit z) (monthOf z)) (marchMonth (monthOf z)) :=
  place_lt_monthLength (years.place_nonneg z) ((years.start_add_place z).symm ▸ years.lt_start z)

theorem start_add_dayOf (z : Int) : years.start (years.unit z) + (months.start (monthOf z) + dayOf z) = z := by
  rw [monthOf, dayOf, months.start_add_place, years.start_add_place]

/-- The days from the first of January 1970, which is not in the same year as the March after it. -/
def epoch : Int := 719468

def daysFromCivil (y m d : Int) : Int :=
  if m ≤ 2 then years.start (y - 1) + (months.start (m + 9) + (d - 1)) - epoch
  else years.start y + (months.start (m - 3) + (d - 1)) - epoch

theorem daysFromCivil_march {m : Int} (hlow : 0 ≤ m) (hhigh : m ≤ 11) (y i : Int) :
    daysFromCivil (marchYear y m) (marchMonth m) (i + 1) = years.start y + (months.start m + i) - epoch := by
  rw [daysFromCivil, marchYear, marchMonth, add_sub_cancel_right]
  by_cases h : m < 10
  · rw [if_pos h, if_pos h, if_neg (by omega), add_sub_cancel_right]
  · rw [if_neg h, if_neg h, if_pos (by omega), add_sub_cancel_right, sub_add_cancel]

namespace Date

def toDays (d : Date) : Int := daysFromCivil d.year d.month d.day

def ofDays (z : Int) : Date where
  year := marchYear (years.unit (z + epoch)) (monthOf (z + epoch))
  month := marchMonth (monthOf (z + epoch))
  day := dayOf (z + epoch) + 1
  month_pos := by
    obtain ⟨hlow, hhigh, -⟩ := monthOf_bounds (z + epoch)
    rw [marchMonth]
    split <;> omega
  month_le := by
    obtain ⟨hlow, hhigh, -⟩ := monthOf_bounds (z + epoch)
    rw [marchMonth]
    split <;> omega
  day_pos := Int.le_add_of_nonneg_left (months.place_nonneg _)
  day_le := Int.add_one_le_of_lt (monthOf_bounds (z + epoch)).2.2

theorem ofDays_year (z : Int) : (ofDays z).year = marchYear (years.unit (z + epoch)) (monthOf (z + epoch)) := rfl

theorem ofDays_month (z : Int) : (ofDays z).month = marchMonth (monthOf (z + epoch)) := rfl

theorem ofDays_day (z : Int) : (ofDays z).day = dayOf (z + epoch) + 1 := rfl

/-- The day of the date of a day. -/
theorem toDays_ofDays (z : Int) : (ofDays z).toDays = z := by
  obtain ⟨hlow, hhigh, -⟩ := monthOf_bounds (z + epoch)
  rw [toDays, ofDays, daysFromCivil_march hlow hhigh, start_add_dayOf, add_sub_cancel_right]

/-- Where a date is in a year from March. -/
theorem exists_march (d : Date) : ∃ y m, 0 ≤ m ∧ m ≤ 11 ∧ d.year = marchYear y m ∧ d.month = marchMonth m := by
  have hpos := d.month_pos
  have hle := d.month_le
  by_cases h : d.month ≤ 2
  · refine ⟨d.year - 1, d.month + 9, by omega, by omega, ?_, ?_⟩
    · rw [marchYear, if_neg (by omega), sub_add_cancel]
    · rw [marchMonth, if_neg (by omega), add_sub_cancel_right]
  · refine ⟨d.year, d.month - 3, by omega, by omega, ?_, ?_⟩
    · rw [marchYear, if_pos (by omega)]
    · rw [marchMonth, if_pos (by omega), sub_add_cancel]

/-- A day of a month is in the month and in the year. -/
theorem units_of_march {y m i : Int} (hlow : 0 ≤ m) (hhigh : m ≤ 11) (hi : 0 ≤ i)
    (hlt : i < monthLength (marchYear y m) (marchMonth m)) :
    years.unit (years.start y + (months.start m + i)) = y ∧ monthOf (years.start y + (months.start m + i)) = m ∧
      dayOf (years.start y + (months.start m + i)) = i := by
  have hmonth : months.start m + i < months.start (m + 1) := by
    rcases hhigh.lt_or_eq with hlast | rfl
    · rw [← months_start_add_length hlow hlast (marchYear y m)]
      omega
    · have hfebruary : monthLength (y + 1) 2 ≤ 29 := by
        rw [monthLength, if_pos rfl]
        split <;> omega
      have hlt : i < monthLength (y + 1) 2 := hlt
      show (153 * 11 + 2) / 5 + i < (153 * (11 + 1) + 2) / 5
      omega
  have hyear : daysBefore y + (months.start m + i) < daysBefore (y + 1) := by
    rw [← february_start_add_length y]
    rcases hhigh.lt_or_eq with hlast | rfl
    · have hstart := months.mono (show m + 1 ≤ 11 by omega)
      have hfebruary : 28 ≤ monthLength (y + 1) 2 := by
        rw [monthLength, if_pos rfl]
        split <;> omega
      omega
    · have hlt : i < monthLength (y + 1) 2 := hlt
      omega
  have hstart : 0 ≤ months.start m := by
    show 0 ≤ (153 * m + 2) / 5
    omega
  have hplace : years.place (years.start y + (months.start m + i)) = months.start m + i :=
    years.place_start_add (by omega) hyear
  refine ⟨years.unit_start_add (by omega) hyear, ?_, ?_⟩
  · rw [monthOf, hplace, months.unit_start_add hi hmonth]
  · rw [dayOf, hplace, months.place_start_add hi hmonth]

/-- The date of the day of a date. -/
theorem ofDays_toDays (d : Date) : ofDays d.toDays = d := by
  obtain ⟨y, m, hlow, hhigh, hyear, hmonth⟩ := d.exists_march
  have hday := d.day_le
  rw [hyear, hmonth] at hday
  have hpos := d.day_pos
  have hdays : d.toDays = years.start y + (months.start m + (d.day - 1)) - epoch := by
    rw [toDays, hyear, hmonth, ← daysFromCivil_march hlow hhigh, sub_add_cancel]
  have hplace : d.day - 1 < monthLength (marchYear y m) (marchMonth m) := by omega
  obtain ⟨hy, hm, hd⟩ := units_of_march hlow hhigh (show 0 ≤ d.day - 1 by omega) hplace
  rw [hdays]
  ext
  · rw [ofDays_year, sub_add_cancel, hy, hm, hyear]
  · rw [ofDays_month, sub_add_cancel, hm, hmonth]
  · rw [ofDays_day, sub_add_cancel, hd, sub_add_cancel]

/-- The next day in the calendar. -/
def next (d : Date) : Date :=
  if h : d.day < monthLength d.year d.month then
    {d with day := d.day + 1, day_pos := by have hpos := d.day_pos; omega, day_le := h}
  else if h : d.month < 12 then
    { year := d.year
      month := d.month + 1
      day := 1
      month_pos := by have hpos := d.month_pos; omega
      month_le := h
      day_pos := le_refl 1
      day_le := monthLength_pos _ _ }
  else ⟨d.year + 1, 1, 1, le_refl 1, by decide, le_refl 1, monthLength_pos _ _⟩

theorem daysFromCivil_succ_day (y m d : Int) : daysFromCivil y m (d + 1) = daysFromCivil y m d + 1 := by
  rw [daysFromCivil, daysFromCivil]
  split <;> omega

/-- The first of a month comes after the last day of the month before. -/
theorem daysFromCivil_succ_month {y m : Int} (hpos : 1 ≤ m) (hlast : m < 12) :
    daysFromCivil y (m + 1) 1 = daysFromCivil y m (monthLength y m) + 1 := by
  obtain rfl | rfl | hspring : m = 1 ∨ m = 2 ∨ 3 ≤ m := by omega
  · have hjanuary := months_start_add_length (m := 10) (by decide) (by decide) y
    show years.start (y - 1) + (months.start 11 + 0) - epoch =
      years.start (y - 1) + (months.start 10 + (monthLength y 1 - 1)) - epoch + 1
    rw [← show months.start 10 + monthLength y 1 = months.start 11 from hjanuary]
    omega
  · have hfebruary : years.start (y - 1) + (months.start 11 + monthLength (y - 1 + 1) 2) = years.start (y - 1 + 1) :=
      february_start_add_length (y - 1)
    rw [sub_add_cancel] at hfebruary
    show years.start y + (0 + 0) - epoch = years.start (y - 1) + (months.start 11 + (monthLength y 2 - 1)) - epoch + 1
    omega
  · have hmonth := months_start_add_length (m := m - 3) (by omega) (by omega) y
    rw [marchMonth, if_pos (by omega), sub_add_cancel] at hmonth
    rw [daysFromCivil, daysFromCivil, if_neg (by omega), if_neg (by omega), show m + 1 - 3 = m - 3 + 1 by omega, ← hmonth]
    omega

/-- The first of January comes after the last of December. -/
theorem daysFromCivil_succ_year (y : Int) : daysFromCivil (y + 1) 1 1 = daysFromCivil y 12 31 + 1 := by
  show years.start (y + 1 - 1) + (306 + 0) - epoch = years.start y + (275 + 30) - epoch + 1
  rw [add_sub_cancel_right]
  omega

theorem toDays_next (d : Date) : d.next.toDays = d.toDays + 1 := by
  have hpos := d.month_pos
  have hle := d.month_le
  have hday := d.day_le
  rw [next]
  split
  · exact daysFromCivil_succ_day d.year d.month d.day
  · have hlast : d.day = monthLength d.year d.month := by omega
    split
    · next hmonth =>
      rw [toDays, toDays, daysFromCivil_succ_month hpos hmonth, hlast]
    · have hdecember : d.month = 12 := by omega
      rw [hdecember] at hlast
      rw [toDays, toDays, daysFromCivil_succ_year, hdecember, hlast]
      rfl

/-- The day after is the next one in the calendar. -/
theorem ofDays_succ (z : Int) : ofDays (z + 1) = (ofDays z).next := by
  rw [← ofDays_toDays (ofDays z).next, toDays_next, toDays_ofDays]

end Date

end Chanserv.Program
