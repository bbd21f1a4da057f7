import Mathlib.Data.List.Basic

/-! Texts and their UTF-16 length.

A text is the list of its Unicode scalar values; a valid UTF-8 `std::string` and
the `QString` made from it are both such a list. Qt counts and cuts in UTF-16
code units, where a character outside the Basic Multilingual Plane takes two, so
a cut can fall inside one: what is left of it is a lone surrogate, which
becomes a question mark on the way back to UTF-8. -/
namespace Chanserv

/-- A valid UTF-8 string, as its scalar values. -/
abbrev Text := List Char

namespace Text

/-- The text of a literal. -/
def of (s : String) : Text := s.toList

/-- The UTF-16 code units of a character. -/
def units (c : Char) : Nat := if 0x10000 ≤ c.toNat then 2 else 1

/-- `QString::length()`. -/
def utf16Length : Text → Nat
  | [] => 0
  | c :: t => units c + utf16Length t

/-- `toStdString().length()`: the bytes of the UTF-8 form. -/
def utf8Length : Text → Nat
  | [] => 0
  | c :: t => c.utf8Size + utf8Length t

/-- What a lone surrogate turns into. -/
def replacement : Char := '?'

/-- The first `w` code units, a split surrogate pair leaving a question mark. -/
def takeUnits (w : Nat) : Text → Text
  | [] => []
  | c :: t =>
    if units c ≤ w then c :: takeUnits (w - units c) t
    else if w = 0 then [] else [replacement]

theorem units_pos (c : Char) : 0 < units c := by
  unfold units
  split <;> decide

theorem units_le_two (c : Char) : units c ≤ 2 := by
  unfold units
  split <;> decide

theorem units_of_lt {c : Char} (h : c.toNat < 0x10000) : units c = 1 :=
  if_neg (by omega)

@[simp] theorem utf16Length_nil : utf16Length [] = 0 := rfl

@[simp] theorem utf16Length_cons (c : Char) (t : Text) :
    utf16Length (c :: t) = units c + utf16Length t := rfl

@[simp] theorem utf16Length_append (a b : Text) :
    utf16Length (a ++ b) = utf16Length a + utf16Length b := by
  induction a with
  | nil => simp
  | cons c a ih => simp only [List.cons_append, utf16Length_cons, ih, Nat.add_assoc]

@[simp] theorem utf8Length_cons (c : Char) (t : Text) : utf8Length (c :: t) = c.utf8Size + utf8Length t := rfl

@[simp] theorem utf8Length_append (a b : Text) : utf8Length (a ++ b) = utf8Length a + utf8Length b := by
  induction a with
  | nil => exact (Nat.zero_add _).symm
  | cons c a ih => rw [List.cons_append, utf8Length_cons, ih, utf8Length_cons, Nat.add_assoc]

/-- Where every character is of ASCII, bytes are characters. -/
theorem utf8Length_of_ascii {t : Text} (h : ∀ c ∈ t, c.toNat < 0x80) : utf8Length t = t.length := by
  induction t with
  | nil => rfl
  | cons c t ih =>
    rw [List.forall_mem_cons] at h
    have hsize : c.utf8Size = 1 := Char.utf8Size_eq_one_iff.mpr (by
      show c.val.toNat ≤ 127
      exact Nat.le_of_lt_succ h.1)
    rw [utf8Length_cons, hsize, ih h.2, List.length_cons, Nat.add_comm]

@[simp] theorem takeUnits_nil (w : Nat) : takeUnits w [] = [] := rfl

@[simp] theorem takeUnits_zero (t : Text) : takeUnits 0 t = [] := by
  cases t with
  | nil => rfl
  | cons c t => simp [takeUnits, Nat.ne_of_gt (units_pos c)]

/-- The cut leaves a text that fits whole as it is. -/
theorem takeUnits_append_of_le {a : Text} {w : Nat} (h : utf16Length a ≤ w) (b : Text) :
    takeUnits w (a ++ b) = a ++ takeUnits (w - utf16Length a) b := by
  induction a generalizing w with
  | nil => simp
  | cons c a ih =>
    rw [utf16Length_cons] at h
    rw [List.cons_append, takeUnits, if_pos (by omega), ih (by omega), utf16Length_cons,
      Nat.sub_sub, List.cons_append]

/-- The cut does not look behind itself. -/
theorem takeUnits_append_of_lt {a : Text} {w : Nat} (h : w < utf16Length a) (b : Text) :
    takeUnits w (a ++ b) = takeUnits w a := by
  induction a generalizing w with
  | nil => exact absurd h (Nat.not_lt_zero w)
  | cons c a ih =>
    rw [utf16Length_cons] at h
    rw [List.cons_append, takeUnits, takeUnits]
    by_cases hc : units c ≤ w
    · rw [if_pos hc, if_pos hc, ih (by omega)]
    · rw [if_neg hc, if_neg hc]

/-- Where every character is one unit, units are characters. -/
theorem utf16Length_of_units {t : Text} (h : ∀ c ∈ t, units c = 1) : utf16Length t = t.length := by
  induction t with
  | nil => rfl
  | cons c t ih =>
    rw [List.forall_mem_cons] at h
    rw [utf16Length_cons, h.1, ih h.2, List.length_cons, Nat.add_comm]

theorem takeUnits_of_units {t : Text} (h : ∀ c ∈ t, units c = 1) (w : Nat) :
    takeUnits w t = t.take w := by
  induction t generalizing w with
  | nil => simp
  | cons c t ih =>
    rw [List.forall_mem_cons] at h
    cases w with
    | zero => simp
    | succ w => rw [takeUnits, if_pos (by omega), h.1, Nat.add_sub_cancel, ih h.2, List.take_succ_cons]

theorem utf16Length_takeUnits_le (w : Nat) (t : Text) : utf16Length (takeUnits w t) ≤ w := by
  induction t generalizing w with
  | nil => simp
  | cons c t ih =>
    rw [takeUnits]
    split
    · have := ih (w - units c)
      rw [utf16Length_cons]
      omega
    · split
      · simp
      · have : utf16Length [replacement] = 1 := by decide
        omega

end Text

end Chanserv
