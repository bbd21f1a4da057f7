import Chanserv.Text.Utf16

/-! Numbers in texts: the C and Qt conversions the bot uses. -/
namespace Chanserv.Text

def longMin : Int := -9223372036854775808
def longMax : Int := 9223372036854775807

/-- A `long` written in decimal, as `operator<<` writes it. -/
def itoa (l : Int) : Text :=
  if l < 0 then '-' :: Nat.toDigits 10 l.natAbs else Nat.toDigits 10 l.natAbs

/-- `isspace` of the C locale. -/
def isSpace (c : Char) : Bool := c = ' ' || (9 ≤ c.toNat && c.toNat ≤ 13)

/-- The sign `strtol` reads, and what follows it. -/
def sign : Text → Int × Text
  | '-' :: t => (-1, t)
  | '+' :: t => (1, t)
  | t => (1, t)

/-- The number at the front of a text, after blanks and a sign; `none` without a digit. -/
def leadingLong (t : Text) : Option Int :=
  let (s, t) := sign (t.dropWhile isSpace)
  match t.takeWhile Char.isDigit with
  | [] => none
  | digits => some (s * Nat.ofDigitChars 10 digits 0)

/-- `atol`: zero without a number, the nearest `long` outside the range. -/
def atol (t : Text) : Int :=
  match leadingLong t with
  | none => 0
  | some n => max longMin (min n longMax)

/-- `std::stol`: `none` stands for its two exceptions, no number and out of range. -/
def stol (t : Text) : Option Int :=
  match leadingLong t with
  | none => none
  | some n => if longMin ≤ n ∧ n ≤ longMax then some n else none

/-- `QVariant::toLongLong()` of a text: the whole of it is the number, else zero. -/
def toLongLong (t : Text) : Int :=
  let body := ((t.dropWhile isSpace).reverse.dropWhile isSpace).reverse
  if (sign body).2.all Char.isDigit then (stol body).getD 0 else 0

/-- `QString::toULong()`, passed on as a signed number of 64 bits: zero unless all of the text is a
number without a minus that fits. -/
def toULong (t : Text) : Int :=
  let body := ((t.dropWhile isSpace).reverse.dropWhile isSpace).reverse
  if '-' ∉ body ∧ (sign body).2.all Char.isDigit then
    match leadingLong body with
    | some n => if n ≤ 18446744073709551615 then n.bmod 18446744073709551616 else 0
    | none => 0
  else 0

/-- A `long` stored into an `int`. -/
def toInt (l : Int) : Int := l.bmod 4294967296

/-- `text.substr(0, text.find(c))`: all of it when `c` does not occur. -/
def before (c : Char) (t : Text) : Text := t.takeWhile (· ≠ c)

/-- `text.substr(text.find(c) + 1)`: `npos + 1` is zero, so again all of it. -/
def after (c : Char) (t : Text) : Text :=
  if c ∈ t then (t.dropWhile (· ≠ c)).drop 1 else t

/-- `text.substr(text.find_last_of(c) + 1)`. -/
def afterLast (c : Char) (t : Text) : Text := (t.reverse.takeWhile (· ≠ c)).reverse

/-! ### Numbers written are read -/

section
variable {n : Nat} {c : Char} {t : Text}

theorem digit_bounds (h : c.isDigit) : 48 ≤ c.toNat ∧ c.toNat ≤ 57 := Char.isDigit_iff_toNat.mp h

/-- A digit is neither a blank nor a sign. -/
theorem sign_of_digit (h : c.isDigit) : sign ((c :: t).dropWhile isSpace) = (1, c :: t) := by
  obtain ⟨hlow, hhigh⟩ := digit_bounds h
  have hne {d : Char} (hd : d.toNat < 48) : c ≠ d := by
    rintro rfl
    omega
  have hspace : isSpace c = false := by
    rw [isSpace, decide_eq_false (hne (by decide)), Bool.false_or, Bool.and_eq_false_imp]
    intro _
    exact decide_eq_false (by omega)
  rw [List.dropWhile_cons_of_neg (by rw [hspace]; exact Bool.false_ne_true)]
  unfold sign
  split
  · rename_i heq
    exact absurd (List.cons.inj heq).1 (hne (by decide))
  · rename_i heq
    exact absurd (List.cons.inj heq).1 (hne (by decide))
  · rfl

theorem takeWhile_toDigits (n : Nat) : (Nat.toDigits 10 n).takeWhile Char.isDigit = Nat.toDigits 10 n := by
  have hall := @List.takeWhile_append_of_pos _ Char.isDigit (Nat.toDigits 10 n) [] fun c hc =>
    Nat.isDigit_of_mem_toDigits (by decide) (by decide) hc
  rwa [List.append_nil, List.takeWhile_nil, List.append_nil] at hall

/-- A sign and the digits of a number. -/
theorem leadingLong_of_digits {s : Int} (h : sign (t.dropWhile isSpace) = (s, Nat.toDigits 10 n)) :
    leadingLong t = some (s * n) := by
  rw [leadingLong, h]
  dsimp only
  rw [takeWhile_toDigits]
  split
  · rename_i hnil
    exact absurd hnil Nat.toDigits_ne_nil
  · rw [Nat.ofDigitChars_ten_toDigits]

theorem leadingLong_itoa (l : Int) : leadingLong (itoa l) = some l := by
  unfold itoa
  split
  · rw [leadingLong_of_digits (s := -1) (n := l.natAbs) rfl]
    congr 1
    omega
  · obtain ⟨c, t, hdigits⟩ := List.exists_cons_of_ne_nil (Nat.toDigits_ne_nil (n := l.natAbs) (b := 10))
    have hdigit : c.isDigit :=
      Nat.isDigit_of_mem_toDigits (by decide) (by decide) (hdigits ▸ List.mem_cons_self ..)
    have hsign := sign_of_digit (t := t) hdigit
    rw [← hdigits] at hsign
    rw [leadingLong_of_digits hsign]
    congr 1
    omega

theorem itoa_injective {k l : Int} (h : itoa k = itoa l) : k = l := by
  rw [← Option.some_inj, ← leadingLong_itoa k, h, leadingLong_itoa]

theorem itoa_ne_nil (l : Int) : itoa l ≠ [] := by
  intro h
  have hread := leadingLong_itoa l
  rw [h] at hread
  cases hread

/-- A `long` written and read again. -/
theorem stol_itoa {l : Int} (hmin : longMin ≤ l) (hmax : l ≤ longMax) : stol (itoa l) = some l := by
  rw [stol, leadingLong_itoa]
  exact if_pos ⟨hmin, hmax⟩

theorem length_itoa_le {l : Int} (hmin : longMin ≤ l) (hmax : l ≤ longMax) : (itoa l).length ≤ 20 := by
  have hdigits : (Nat.toDigits 10 l.natAbs).length ≤ 19 := by
    rw [Nat.length_toDigits_le_iff (by decide) (by decide)]
    unfold longMin at hmin
    unfold longMax at hmax
    omega
  unfold itoa
  split
  · rw [List.length_cons]
    omega
  · omega

/-- A number is written in characters of one byte. -/
theorem utf8Length_itoa (l : Int) : utf8Length (itoa l) = (itoa l).length := by
  have hdigits (n : Nat) : utf8Length (Nat.toDigits 10 n) = (Nat.toDigits 10 n).length :=
    utf8Length_of_ascii fun c hc => by
      have hbounds := digit_bounds (Nat.isDigit_of_mem_toDigits (by decide) (by decide) hc)
      omega
  unfold itoa
  split
  · rw [utf8Length_cons, hdigits, List.length_cons, Nat.add_comm]
    rfl
  · exact hdigits _

end
example : atol (of "-5") = -5 ∧ atol (of "B-7") = 0 ∧ toInt 4294967301 = 5 := by decide

example : toULong (of " 42 ") = 42 ∧ toULong (of "-42") = 0 := by decide

example : stol (of "42abc") = some 42 ∧ stol (of "") = none := by decide

end Chanserv.Text
