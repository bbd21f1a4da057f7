import Mathlib.Algebra.Group.Nat.Defs

/-! Passwords for one time only, over any hash.

The HMAC of a key and a counter is cut down to 31 bits, at a place it names itself, and
the last decimal digits of these are the password. Where the counter counts steps of
time, that is TOTP. -/
namespace Chanserv.Crypto

/-! ### Numbers -/

/-- The number these bytes are, the highest first. -/
def ofBytes (bytes : List UInt8) : Nat := bytes.foldl (fun n b => n * 256 + b.toNat) 0

/-- The lowest bytes of a number, so many, the highest first. -/
def toBytes : Nat → Nat → List UInt8
  | 0, _ => []
  | width + 1, n => toBytes width (n / 256) ++ [UInt8.ofNat n]

/-- The lowest decimal digits of a number, so many, the highest first. -/
def toDecimal : Nat → Nat → List Char
  | 0, _ => []
  | width + 1, n => toDecimal width (n / 10) ++ [Nat.digitChar (n % 10)]

@[simp] theorem length_toDecimal (width n : Nat) : (toDecimal width n).length = width := by
  induction width generalizing n with
  | zero => rfl
  | succ width ih => rw [toDecimal, List.length_append, ih, List.length_singleton]

theorem isDigit_toDecimal {width n : Nat} : ∀ c ∈ toDecimal width n, c.isDigit := by
  induction width generalizing n with
  | zero => exact fun c hc => absurd hc List.not_mem_nil
  | succ width ih =>
    intro c hc
    rcases List.mem_append.mp hc with hc | hc
    · exact ih c hc
    · have hlt : n % 10 < 10 := Nat.mod_lt n (by decide)
      rw [List.mem_singleton.mp hc, Nat.isDigit_digitChar, decide_eq_true hlt]

theorem toDecimal_zero (width : Nat) : toDecimal width 0 = List.replicate width '0' := by
  induction width with
  | zero => rfl
  | succ width ih => rw [toDecimal, Nat.zero_div, ih, List.replicate_succ']; rfl

/-- A number that fits is written with its own digits, after zeros. -/
theorem toDecimal_of_lt {width n : Nat} (h : n < 10 ^ (width + 1)) :
    toDecimal (width + 1) n =
      List.replicate (width + 1 - (Nat.toDigits 10 n).length) '0' ++ Nat.toDigits 10 n := by
  induction width generalizing n with
  | zero =>
    have hn : n < 10 := h
    rw [toDecimal, toDecimal, Nat.toDigits_of_lt_base hn, Nat.mod_eq_of_lt hn]
    rfl
  | succ width ih =>
    rw [toDecimal]
    by_cases hn : n < 10
    · rw [Nat.div_eq_of_lt hn, toDecimal_zero, Nat.toDigits_of_lt_base hn, Nat.mod_eq_of_lt hn]
      rfl
    · have hbase : 10 ≤ n := Nat.le_of_not_lt hn
      have hdiv : n / 10 < 10 ^ (width + 1) := Nat.div_lt_of_lt_mul (Nat.pow_succ' ▸ h)
      rw [ih hdiv, Nat.toDigits_of_base_le (by decide) hbase, List.length_append, List.length_singleton,
        Nat.add_sub_add_right, List.append_assoc]

/-! ### The code of a hash -/

section
variable (hash : List UInt8 → List UInt8)

/-- A key as long as a block: its hash where it is longer, and zeros behind. -/
def blockKey (block : Nat) (key : List UInt8) : List UInt8 :=
  let key := if block < key.length then hash key else key
  key ++ List.replicate (block - key.length) 0

def hmac (block : Nat) (key message : List UInt8) : List UInt8 :=
  let key := blockKey hash block key
  hash (key.map (· ^^^ 0x5c) ++ hash (key.map (· ^^^ 0x36) ++ message))

theorem length_blockKey {block : Nat} (hhash : ∀ m, (hash m).length ≤ block) (key : List UInt8) :
    (blockKey hash block key).length = block := by
  rw [blockKey, List.length_append, List.length_replicate]
  split
  · have hle := hhash key
    omega
  · omega

end

/-! ### Passwords -/

/-- The 31 bits that start where the low half of the last byte says. -/
def truncate (digest : List UInt8) : Nat :=
  let offset := digest.getLastD 0 % 16
  ofBytes ((digest.drop offset.toNat).take 4) % 2 ^ 31

/-- The password of a counter of eight bytes. -/
def hotp (hash : List UInt8 → List UInt8) (block : Nat) (key : List UInt8) (counter digits : Nat) : List Char :=
  toDecimal digits (truncate (hmac hash block key (toBytes 8 counter)) % 10 ^ digits)

/-- The password of a moment: the counter is of whole steps since the beginning. -/
def totp (hash : List UInt8 → List UInt8) (block : Nat) (key : List UInt8) (time step digits : Nat) : List Char :=
  hotp hash block key (time / step) digits

theorem truncate_lt (digest : List UInt8) : truncate digest < 2 ^ 31 := Nat.mod_lt _ (by decide)

/-- Four bytes, of which the first lost its sign. -/
theorem truncate_eq {digest : List UInt8} {a b c d last : UInt8} (hlast : digest.getLast? = some last)
    (h : (digest.drop (last.toNat % 16)).take 4 = [a, b, c, d]) :
    truncate digest = a.toNat % 2 ^ 7 * 2 ^ 24 + (b.toNat * 2 ^ 16 + (c.toNat * 2 ^ 8 + d.toNat)) := by
  have ha := a.toNat_lt
  have hb := b.toNat_lt
  have hc := c.toNat_lt
  have hd := d.toNat_lt
  have hoffset : (last % 16).toNat = last.toNat % 16 := UInt8.toNat_mod _ _
  rw [truncate, List.getLastD_eq_getLast?, hlast, Option.getD_some, hoffset, h]
  show ((((0 * 256 + a.toNat) * 256 + b.toNat) * 256 + c.toNat) * 256 + d.toNat) % 2 ^ 31 = _
  omega

@[simp] theorem length_totp (hash : List UInt8 → List UInt8) (block : Nat) (key : List UInt8) (time step digits : Nat) :
    (totp hash block key time step digits).length = digits :=
  length_toDecimal digits _

theorem isDigit_totp (hash : List UInt8 → List UInt8) (block : Nat) (key : List UInt8) (time step digits : Nat) :
    ∀ c ∈ totp hash block key time step digits, c.isDigit :=
  isDigit_toDecimal

end Chanserv.Crypto
