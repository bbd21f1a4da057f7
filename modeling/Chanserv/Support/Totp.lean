import Mathlib.Algebra.Group.Int.Defs
import Chanserv.Crypto.Totp
import Chanserv.Text.Number
import Chanserv.Support.EntireText

/-! One-time passwords for the Revit family: `generate_totp`.

The HMAC is made by hand, over chars with a sign and ints that could overflow. For a
secret of any length the password is that of RFC 6238. -/
namespace Chanserv
open Text

/-! ### Numbers -/

abbrev QByteArray := List UInt8

/-- A `char` in an expression: an `int`, which has its sign. -/
def promote (c : UInt8) : Int32 := c.toInt8.toInt32

/-- `static_cast<char>`. -/
def narrow (n : Int32) : UInt8 := n.toInt8.toUInt8

/-- The `int` a number is, if there is one. -/
def intOf (n : Int) : Option Int32 :=
  if -2 ^ 31 ≤ n ∧ n < 2 ^ 31 then some (Int32.ofInt n) else none

def plus (x y : Int32) : Option Int32 := intOf (x.toInt + y.toInt)

/-- `x << n`, which a negative `x` and an overflow leave undefined. -/
def shiftLeft (x : Int32) (n : Nat) : Option Int32 :=
  if 0 ≤ x then intOf (x.toInt * 2 ^ n) else none

/-- `bytes[i]`, as an `int`. -/
def charAt (bytes : QByteArray) (i : Int) : Option Int32 :=
  if 0 ≤ i then bytes[i.toNat]?.map promote else none

/-- `bytes[i] = c`. -/
def setAt (bytes : QByteArray) (i : Nat) (c : UInt8) : Option QByteArray :=
  if i < bytes.length then some (bytes.set i c) else none

/-- `unix_time / time_step`; the `int` is widened first. -/
def timeStepValue (unixTime : Int64) (timeStep : Int32) : Option Int64 :=
  if timeStep = 0 ∨ unixTime = Int64.minValue ∧ timeStep = -1 then none
  else some (unixTime / timeStep.toInt64)

/-- `static_cast<int>(std::pow(10, digits))`; a negative power is below one. -/
def powTen (digits : Int32) : Option Int32 :=
  if 0 ≤ digits then intOf (10 ^ digits.toInt.toNat) else some 0

/-- `QString("%1").arg(otp, digits, 10, '0')` of an `otp` that is not negative. -/
def argFilled (otp digits : Int32) : Text :=
  let written := Nat.toDigits 10 otp.toInt.toNat
  List.replicate (digits.toInt.toNat - written.length) '0' ++ written

/-! ### The password -/

/-- The loop over the counter, from the byte before `i` down. -/
def counterLoop : Nat → QByteArray → Int64 → Option QByteArray
  | 0, timeStepBytes, _ => some timeStepBytes
  | i + 1, timeStepBytes, timeStepValue => do
    let timeStepBytes ← setAt timeStepBytes i (timeStepValue &&& 0xFF).toInt8.toUInt8
    counterLoop i timeStepBytes (timeStepValue >>> 8)

def blockSize : Nat := 64

/-- `pad[i] = pad[i] ^ key[i]`. -/
def xorAt (key pad : QByteArray) (i : Nat) : Option QByteArray := do
  let p ← charAt pad i
  let k ← charAt key i
  setAt pad i (narrow (p ^^^ k))

/-- A turn of the loop over the block: `o_key_pad` and `i_key_pad`. -/
def padTurn (key : QByteArray) (pads : QByteArray × QByteArray) (i : Nat) : Option (QByteArray × QByteArray) := do
  let oKeyPad ← xorAt key pads.1 i
  let iKeyPad ← xorAt key pads.2 i
  some (oKeyPad, iKeyPad)

def keyPads (key : QByteArray) : Option (QByteArray × QByteArray) :=
  (List.range blockSize).foldlM (padTurn key) (List.replicate blockSize 0x5c, List.replicate blockSize 0x36)

def dynamicTruncation (hmac : QByteArray) : Option Int32 := do
  let offset := (← charAt hmac (hmac.length - 1)) &&& 0x0F
  let first ← shiftLeft ((← charAt hmac offset.toInt) &&& 0x7F) 24
  let second ← shiftLeft ((← charAt hmac (← plus offset 1).toInt) &&& 0xFF) 16
  let third ← shiftLeft ((← charAt hmac (← plus offset 2).toInt) &&& 0xFF) 8
  let fourth := (← charAt hmac (← plus offset 3).toInt) &&& 0xFF
  some (first ||| second ||| third ||| fourth)

section
variable (sha1 : List UInt8 → List UInt8) (reencoded : List UInt8 → List UInt8)

/-- The key, hashed if it is too long and filled up if it is too short. -/
def paddedKey (key : QByteArray) : QByteArray :=
  let key := if key.length > blockSize then sha1 key else key
  if key.length < blockSize then key ++ List.replicate (blockSize - key.length) 0 else key

/-- `generate_totp`. `reencoded` is what `QString::fromStdString(_).toUtf8()` makes of bytes. -/
def generateTotp (secretKey : List UInt8) (unixTime : Int64) (digits timeStep : Int32) : Option Text := do
  let timeStepBytes ← counterLoop 8 (List.replicate 8 0) (← timeStepValue unixTime timeStep)
  let pads ← keyPads (paddedKey sha1 (reencoded secretKey))
  let innerHash := sha1 (pads.2 ++ timeStepBytes)
  let hmac := sha1 (pads.1 ++ innerHash)
  let binary ← dynamicTruncation hmac
  let modulus ← powTen digits
  if modulus = 0 then none
  else some (argFilled (binary % modulus) digits)

end

/-! ### Numbers that fit -/

theorem intOf_natCast {n : Nat} (h : n < 2 ^ 31) : intOf n = some (Int32.ofNat n) := by
  rw [intOf, if_pos (by omega)]
  rfl

theorem toInt_ofNat {n : Nat} (h : n < 2 ^ 31) : (Int32.ofNat n).toInt = n := Int32.toInt_ofNat_of_lt h

theorem plus_ofNat {m n : Nat} (h : m + n < 2 ^ 31) :
    plus (Int32.ofNat m) (Int32.ofNat n) = some (Int32.ofNat (m + n)) := by
  rw [plus, toInt_ofNat (by omega), toInt_ofNat (by omega), ← intOf_natCast h, Int.natCast_add]

theorem shiftLeft_ofNat {m n : Nat} (h : m * 2 ^ n < 2 ^ 31) :
    shiftLeft (Int32.ofNat m) n = some (Int32.ofNat (m * 2 ^ n)) := by
  have hm : m < 2 ^ 31 := Nat.lt_of_le_of_lt (Nat.le_mul_of_pos_right m (Nat.two_pow_pos n)) h
  have hpos : 0 ≤ Int32.ofNat m := by
    rw [Int32.le_iff_toInt_le, toInt_ofNat hm]
    exact Int.natCast_nonneg m
  rw [shiftLeft, if_pos hpos, toInt_ofNat hm, ← intOf_natCast h]
  congr 1

theorem or_ofNat (m n : Nat) : Int32.ofNat m ||| Int32.ofNat n = Int32.ofNat (m ||| n) := by
  rw [← Int32.toBitVec_inj]
  exact (BitVec.ofNat_or ..).symm

/-! ### Chars -/

/-- A mask of at most eight bits leaves no sign. -/
theorem and_mask {k : Nat} (hk : k ≤ 8) (b : UInt8) :
    promote b &&& Int32.ofNat (2 ^ k - 1) = Int32.ofNat (b.toNat % 2 ^ k) := by
  have hall : ∀ n < 256, ∀ k < 9,
      promote (UInt8.ofNat n) &&& Int32.ofNat (2 ^ k - 1) = Int32.ofNat ((UInt8.ofNat n).toNat % 2 ^ k) := by
    decide +kernel
  exact Json.forall_byte (P := fun b => ∀ k < 9, promote b &&& Int32.ofNat (2 ^ k - 1) = Int32.ofNat (b.toNat % 2 ^ k))
    hall b k (Nat.lt_succ_of_le hk)

theorem narrow_promote (b c : UInt8) : narrow (promote b ^^^ promote c) = b ^^^ c := by
  rw [narrow, promote, promote, Int32.toInt8_xor, Int8.toInt8_toInt32, Int8.toInt8_toInt32]
  rfl

/-! ### The counter -/

theorem toInt_shiftRight (v : Int64) : (v >>> 8).toInt = v.toInt / 256 := by
  have hlow := v.toBitVec.le_toInt
  have hhigh := v.toBitVec.toInt_lt
  show (BitVec.ofInt 64 (v.toInt >>> (8 : Nat))).toInt = v.toInt / 256
  rw [BitVec.toInt_ofInt, Int.shiftRight_eq_div_pow]
  change -2 ^ 63 ≤ v.toInt at hlow
  change v.toInt < 2 ^ 63 at hhigh
  exact Int.bmod_eq_of_le (by omega) (by omega)

theorem toNat_toBitVec {v : Int64} (h : 0 ≤ v.toInt) : v.toBitVec.toNat = v.toInt.toNat := by
  have hlt := v.toBitVec.isLt
  have hcond := BitVec.toInt_eq_toNat_cond v.toBitVec
  change v.toInt = _ at hcond
  split at hcond <;> omega

theorem low_char {v : Int64} (h : 0 ≤ v.toInt) : (v &&& 0xFF).toInt8.toUInt8 = UInt8.ofNat v.toInt.toNat := by
  have hmask : 255 % 2 ^ 64 = 2 ^ 8 - 1 := rfl
  rw [← UInt8.toNat_inj, UInt8.toNat_ofNat', ← toNat_toBitVec h]
  show ((v.toBitVec &&& 255#64).signExtend 8).toNat = v.toBitVec.toNat % 2 ^ 8
  rw [BitVec.signExtend_eq_setWidth_of_le _ (by decide), BitVec.toNat_setWidth, BitVec.toNat_and, BitVec.toNat_ofNat,
    hmask, Nat.and_two_pow_sub_one_eq_mod, Nat.mod_mod]

theorem setAt_eq {bytes : QByteArray} {i : Nat} (hi : i < bytes.length) (c : UInt8) :
    setAt bytes i c = some (bytes.take i ++ c :: bytes.drop (i + 1)) := by
  rw [setAt, if_pos hi, List.set_eq_take_append_cons_drop, if_pos hi]

/-- The loop leaves the bytes of the counter before those it has passed. -/
theorem counterLoop_eq {bytes : QByteArray} {v : Int64} {i : Nat} (hi : i ≤ bytes.length) (hv : 0 ≤ v.toInt) :
    counterLoop i bytes v = some (Crypto.toBytes i v.toInt.toNat ++ bytes.drop i) := by
  induction i generalizing bytes v with
  | zero => rfl
  | succ i ih =>
    have hnext : (v >>> 8).toInt = v.toInt / 256 := toInt_shiftRight v
    have hnat : (v.toInt / 256).toNat = v.toInt.toNat / 256 := by omega
    have hlen : (bytes.take i).length = i := List.length_take_of_le (Nat.le_of_succ_le hi)
    rw [counterLoop, setAt_eq hi, Option.bind_eq_bind, Option.bind_some,
      ih (by rw [List.length_append, hlen]; exact Nat.le_add_right ..) (by omega),
      List.drop_left' hlen, Crypto.toBytes, List.append_assoc, low_char hv, hnext, hnat]
    rfl

/-! ### The key -/

theorem paddedKey_eq (sha1 : List UInt8 → List UInt8) (key : QByteArray) :
    paddedKey sha1 key = Crypto.blockKey sha1 blockSize key := by
  have hfill : ∀ key : QByteArray,
      (if key.length < blockSize then key ++ List.replicate (blockSize - key.length) 0 else key) =
        key ++ List.replicate (blockSize - key.length) 0 := by
    intro key
    split
    · rfl
    · rw [Nat.sub_eq_zero_of_le (Nat.le_of_not_lt ‹_›)]
      exact (List.append_nil key).symm
  exact hfill _

theorem charAt_eq {bytes : QByteArray} {i : Nat} {c : UInt8} (h : bytes[i]? = some c) :
    charAt bytes i = some (promote c) := by
  rw [charAt, if_pos (Int.natCast_nonneg i), Int.toNat_natCast, h]
  rfl

/-- A pad whose first bytes are done. -/
def partPad (key : QByteArray) (c : UInt8) (n : Nat) : QByteArray :=
  (key.take n).map (· ^^^ c) ++ List.replicate (key.length - n) c

theorem length_partPad {key : QByteArray} {c : UInt8} {n : Nat} (hn : n ≤ key.length) :
    (partPad key c n).length = key.length := by
  rw [partPad, List.length_append, List.length_map, List.length_take_of_le hn, List.length_replicate]
  exact Nat.add_sub_of_le hn

theorem xorAt_partPad {key : QByteArray} {c : UInt8} {n : Nat} (hn : n < key.length) :
    xorAt key (partPad key c n) n = some (partPad key c (n + 1)) := by
  have hlen : ((key.take n).map (· ^^^ c)).length = n := by
    rw [List.length_map, List.length_take_of_le (Nat.le_of_lt hn)]
  have hrest : key.length - n = key.length - (n + 1) + 1 := by omega
  have hpad : (partPad key c n)[n]? = some c := by
    rw [partPad, List.getElem?_append_right (Nat.le_of_eq hlen), hlen, Nat.sub_self, hrest, List.replicate_succ,
      List.getElem?_cons_zero]
  have htake : (partPad key c n).take n = (key.take n).map (· ^^^ c) := List.take_left' hlen
  have hdrop : (partPad key c n).drop (n + 1) = List.replicate (key.length - (n + 1)) c := by
    rw [partPad, List.drop_append, List.drop_eq_nil_of_le (by omega), hlen, List.nil_append, List.drop_replicate]
    congr 1
    omega
  rw [xorAt, charAt_eq hpad, charAt_eq (List.getElem?_eq_getElem hn)]
  show setAt _ n (narrow (promote c ^^^ promote key[n])) = _
  rw [narrow_promote, setAt_eq ((length_partPad (Nat.le_of_lt hn)).symm ▸ hn), htake, hdrop, partPad,
    List.take_succ_eq_append_getElem hn, List.map_append, List.append_assoc, UInt8.xor_comm]
  rfl

/-- The pads after so many turns. -/
theorem foldlM_padTurn {key : QByteArray} (c d : UInt8) {n : Nat} (hn : n ≤ key.length) :
    (List.range n).foldlM (padTurn key) (partPad key c 0, partPad key d 0) = some (partPad key c n, partPad key d n) := by
  induction n with
  | zero => rfl
  | succ n ih =>
    rw [List.range_succ, List.foldlM_append, ih (Nat.le_of_succ_le hn), Option.bind_eq_bind, Option.bind_some,
      List.foldlM_cons, padTurn, xorAt_partPad hn, xorAt_partPad hn]
    rfl

theorem partPad_full (key : QByteArray) (c : UInt8) : partPad key c key.length = key.map (· ^^^ c) := by
  rw [partPad, Nat.sub_self, List.take_length]
  exact List.append_nil _

theorem keyPads_eq {key : QByteArray} (h : key.length = blockSize) :
    keyPads key = some (key.map (· ^^^ 0x5c), key.map (· ^^^ 0x36)) := by
  rw [keyPads, ← h, ← partPad_full, ← partPad_full]
  exact foldlM_padTurn 0x5c 0x36 (Nat.le_refl _)

/-! ### Truncation -/

/-- A masked char, put where it belongs. -/
theorem shiftLeft_mask {k n : Nat} (hk : k ≤ 8) (hn : k + n ≤ 31) (b : UInt8) :
    shiftLeft (promote b &&& Int32.ofNat (2 ^ k - 1)) n = some (Int32.ofNat (b.toNat % 2 ^ k * 2 ^ n)) := by
  have hlt : b.toNat % 2 ^ k * 2 ^ n < 2 ^ k * 2 ^ n :=
    Nat.mul_lt_mul_of_pos_right (Nat.mod_lt _ (Nat.two_pow_pos k)) (Nat.two_pow_pos n)
  have hle : 2 ^ k * 2 ^ n ≤ 2 ^ 31 := Nat.pow_add 2 k n ▸ Nat.pow_le_pow_right (by decide) hn
  rw [and_mask hk, shiftLeft_ofNat (Nat.lt_of_lt_of_le hlt hle)]

theorem or_parts {a b c d : Nat} (hb : b < 2 ^ 8) (hc : c < 2 ^ 8) (hd : d < 2 ^ 8) :
    a * 2 ^ 24 ||| b * 2 ^ 16 ||| c * 2 ^ 8 ||| d = a * 2 ^ 24 + (b * 2 ^ 16 + (c * 2 ^ 8 + d)) := by
  have hplace {x y k : Nat} (hy : y < 2 ^ k) : x * 2 ^ k ||| y = x * 2 ^ k + y := by
    rw [← Nat.shiftLeft_eq, Nat.shiftLeft_add_eq_or_of_lt hy]
  rw [Nat.or_assoc, Nat.or_assoc, hplace hd, hplace (k := 16) (by omega),
    hplace (by omega)]

theorem dynamicTruncation_eq {digest : QByteArray} (h : digest.length = 20) :
    dynamicTruncation digest = some (Int32.ofNat (Crypto.truncate digest)) := by
  obtain ⟨last, hlast⟩ : ∃ last, digest[19]? = some last := ⟨_, List.getElem?_eq_getElem (by omega)⟩
  have hsize : (digest.length : Int) - 1 = (19 : Nat) := by rw [h]; rfl
  have hfinal : digest.getLast? = some last := by rw [List.getLast?_eq_getElem?, h, hlast]
  have ho : last.toNat % 16 < 16 := Nat.mod_lt _ (by decide)
  have hoffset : promote last &&& 0x0F = Int32.ofNat (last.toNat % 16) := and_mask (k := 4) (by decide) last
  generalize hoff : last.toNat % 16 = o at ho hoffset
  -- the offset leaves room for four chars
  have hat : ∀ i, (hi : o + i < digest.length) →
      charAt digest (Int32.ofNat (o + i)).toInt = some (promote digest[o + i]) := by
    intro i hi
    rw [toInt_ofNat (by omega), charAt_eq (List.getElem?_eq_getElem hi)]
  have hfirst : charAt digest (Int32.ofNat o).toInt = some (promote digest[o]) := hat 0 (by omega)
  have hplus : ∀ i < 4, plus (Int32.ofNat o) (Int32.ofNat i) = some (Int32.ofNat (o + i)) :=
    fun i hi => plus_ofNat (by omega)
  have hone : plus (Int32.ofNat o) 1 = some (Int32.ofNat (o + 1)) := hplus 1 (by decide)
  have htwo : plus (Int32.ofNat o) 2 = some (Int32.ofNat (o + 2)) := hplus 2 (by decide)
  have hthree : plus (Int32.ofNat o) 3 = some (Int32.ofNat (o + 3)) := hplus 3 (by decide)
  have htake : (digest.drop (last.toNat % 16)).take 4 = [digest[o], digest[o + 1], digest[o + 2], digest[o + 3]] := by
    rw [hoff, List.drop_eq_getElem_cons (by omega), List.drop_eq_getElem_cons (by omega),
      List.drop_eq_getElem_cons (by omega), List.drop_eq_getElem_cons (by omega)]
    rfl
  have ha : shiftLeft (promote digest[o] &&& 0x7F) 24 = _ := shiftLeft_mask (k := 7) (by decide) (by decide) _
  have hb : shiftLeft (promote digest[o + 1] &&& 0xFF) 16 = _ := shiftLeft_mask (k := 8) (by decide) (by decide) _
  have hc : shiftLeft (promote digest[o + 2] &&& 0xFF) 8 = _ := shiftLeft_mask (k := 8) (by decide) (by decide) _
  have hd : promote digest[o + 3] &&& 0xFF = _ := and_mask (k := 8) (by decide) _
  rw [Nat.mod_eq_of_lt (UInt8.toNat_lt _)] at hb hc hd
  simp only [dynamicTruncation, hsize, charAt_eq hlast, hoffset, hfirst, hone, htwo, hthree, hat 1 (by omega),
    hat 2 (by omega), hat 3 (by omega), ha, hb, hc, hd, Option.bind_eq_bind, Option.bind_some, or_ofNat]
  rw [Crypto.truncate_eq hfinal htake, or_parts (UInt8.toNat_lt _) (UInt8.toNat_lt _) (UInt8.toNat_lt _)]

/-! ### Arithmetic around it -/

theorem timeStepValue_eq {t : Int64} {s : Int32} (ht : 0 ≤ t) (hs : 1 ≤ s) :
    ∃ v, timeStepValue t s = some v ∧ v.toInt = (t.toInt.toNat / s.toInt.toNat : Nat) := by
  have ht0 : 0 ≤ t.toInt := Int64.le_iff_toInt_le.mp ht
  have hs1 : 1 ≤ s.toInt := Int32.le_iff_toInt_le.mp hs
  have hne : ¬ (s = 0 ∨ t = Int64.minValue ∧ s = -1) := by
    rintro (rfl | ⟨-, rfl⟩)
    · exact absurd hs (by decide)
    · exact absurd hs (by decide)
  have hminus : s.toInt64 ≠ -1 := by
    intro h
    have htoInt : s.toInt64.toInt = (-1 : Int64).toInt := by rw [h]
    rw [Int32.toInt_toInt64] at htoInt
    have hone : (-1 : Int64).toInt = -1 := by decide
    omega
  refine ⟨_, if_neg hne, ?_⟩
  rw [Int64.toInt_div_of_ne_right _ _ hminus, Int32.toInt_toInt64, Int.natCast_ediv, Int.toNat_of_nonneg ht0,
    Int.toNat_of_nonneg (by omega), Int.tdiv_eq_ediv_of_nonneg ht0]

theorem powTen_eq {digits : Int32} (h1 : 1 ≤ digits) (h9 : digits ≤ 9) :
    powTen digits = some (Int32.ofNat (10 ^ digits.toInt.toNat)) := by
  have hlow : 1 ≤ digits.toInt := Int32.le_iff_toInt_le.mp h1
  have hhigh : digits.toInt ≤ 9 := Int32.le_iff_toInt_le.mp h9
  have hpos : 0 ≤ digits := Int32.le_iff_toInt_le.mpr (Int.le_trans (by decide) hlow)
  have hpow : 10 ^ digits.toInt.toNat ≤ 10 ^ 9 := Nat.pow_le_pow_right (by decide) (by omega)
  rw [powTen, if_pos hpos, ← intOf_natCast (by omega)]
  congr 1

theorem argFilled_eq {n : Nat} {digits : Int32} (h1 : 1 ≤ digits) (hn : n < 10 ^ digits.toInt.toNat) (hint : n < 2 ^ 31) :
    argFilled (Int32.ofNat n) digits = Crypto.toDecimal digits.toInt.toNat n := by
  have hlow : 1 ≤ digits.toInt := Int32.le_iff_toInt_le.mp h1
  obtain ⟨width, hwidth⟩ : ∃ width, digits.toInt.toNat = width + 1 := ⟨digits.toInt.toNat - 1, by omega⟩
  rw [argFilled, toInt_ofNat hint, hwidth, Crypto.toDecimal_of_lt (hwidth ▸ hn)]
  rfl

theorem mod_ofNat {m n : Nat} (hm : m < 2 ^ 31) (hn : n < 2 ^ 31) :
    Int32.ofNat m % Int32.ofNat n = Int32.ofNat (m % n) := by
  have hle := Nat.mod_le m n
  rw [← Int32.toInt_inj, Int32.toInt_mod, toInt_ofNat hm, toInt_ofNat hn, toInt_ofNat (by omega),
    Int.tmod_eq_emod_of_nonneg (Int.natCast_nonneg m), Int.natCast_emod]

/-! ### The password -/

section
variable {sha1 reencoded : List UInt8 → List UInt8} {secretKey : List UInt8} {unixTime : Int64} {digits timeStep : Int32}

/-- The password, whatever Qt makes of the secret. -/
theorem generateTotp_eq (hsha1 : ∀ m, (sha1 m).length = 20) (htime : 0 ≤ unixTime) (hstep : 1 ≤ timeStep)
    (hone : 1 ≤ digits) (hnine : digits ≤ 9) :
    generateTotp sha1 reencoded secretKey unixTime digits timeStep =
      some (Crypto.totp sha1 blockSize (reencoded secretKey) unixTime.toInt.toNat timeStep.toInt.toNat
        digits.toInt.toNat) := by
  obtain ⟨value, hvalue, htoInt⟩ := timeStepValue_eq htime hstep
  have hhigh : digits.toInt ≤ 9 := Int32.le_iff_toInt_le.mp hnine
  have hpow : 10 ^ digits.toInt.toNat ≤ 10 ^ 9 := Nat.pow_le_pow_right (by decide) (by omega)
  have hpos : 0 < 10 ^ digits.toInt.toNat := Nat.pow_pos (by decide)
  have hmodulus : Int32.ofNat (10 ^ digits.toInt.toNat) ≠ 0 := by
    intro h
    have hzero : (Int32.ofNat (10 ^ digits.toInt.toNat)).toInt = 0 := by
      rw [h]
      rfl
    rw [toInt_ofNat (by omega)] at hzero
    omega
  have hkey : (Crypto.blockKey sha1 blockSize (reencoded secretKey)).length = blockSize :=
    Crypto.length_blockKey sha1 (fun m => by rw [hsha1]; decide) _
  have hcounter : counterLoop 8 (List.replicate 8 0) value =
      some (Crypto.toBytes 8 (unixTime.toInt.toNat / timeStep.toInt.toNat)) := by
    rw [counterLoop_eq (by decide) (htoInt ▸ Int.natCast_nonneg _), htoInt]
    exact congrArg some (List.append_nil _)
  simp only [generateTotp, hvalue, hcounter, paddedKey_eq, keyPads_eq hkey, dynamicTruncation_eq (hsha1 _),
    powTen_eq hone hnine, if_neg hmodulus, Option.bind_eq_bind, Option.bind_some]
  rw [mod_ofNat (Crypto.truncate_lt _) (by omega), argFilled_eq hone (Nat.mod_lt _ hpos)
    (Nat.lt_of_le_of_lt (Nat.mod_le ..) (Crypto.truncate_lt _))]
  rfl

/-- The password is that of the standard, for a secret that Qt gives back as it was. Nothing
is read out of range and no `int` overflows. -/
theorem generateTotp_rfc6238 (hsha1 : ∀ m, (sha1 m).length = 20) (hutf8 : reencoded secretKey = secretKey)
    (htime : 0 ≤ unixTime) (hstep : 1 ≤ timeStep) (hone : 1 ≤ digits) (hnine : digits ≤ 9) :
    ∃ password, generateTotp sha1 reencoded secretKey unixTime digits timeStep = some password ∧
      password = Crypto.totp sha1 64 secretKey unixTime.toInt.toNat timeStep.toInt.toNat digits.toInt.toNat ∧
      (password.length : Int) = digits.toInt ∧ ∀ c ∈ password, c.isDigit := by
  have hlow : 1 ≤ digits.toInt := Int32.le_iff_toInt_le.mp hone
  refine ⟨_, generateTotp_eq hsha1 htime hstep hone hnine, ?_, ?_, Crypto.isDigit_totp _ _ _ _ _ _⟩
  · rw [hutf8]
    rfl
  · rw [Crypto.length_totp]
    omega

end

/-- SHA-1 on the two texts that the first vector of the standard needs. -/
def vectorSha1 (message : List UInt8) : List UInt8 :=
  let secret := (List.range 20).map fun i => UInt8.ofNat (48 + (i + 1) % 10)
  let block := secret ++ List.replicate 44 0
  let inner := [174, 57, 138, 210, 229, 57, 214, 92, 93, 162, 218, 156, 138, 97, 52, 65, 151, 57, 58, 140]
  if message = block.map (· ^^^ 0x36) ++ [0, 0, 0, 0, 0, 0, 0, 1] then inner
  else if message = block.map (· ^^^ 0x5c) ++ inner then
    [117, 164, 138, 25, 212, 203, 225, 0, 100, 78, 138, 193, 57, 126, 234, 116, 122, 45, 51, 171]
  else List.replicate 20 0

theorem length_vectorSha1 (message : List UInt8) : (vectorSha1 message).length = 20 := by
  rw [vectorSha1]
  split
  · rfl
  · split <;> rfl

/-- The first vector: the secret is "12345678901234567890". -/
theorem generateTotp_rfc6238_vector :
    generateTotp vectorSha1 id (Bytes.utf8 (of "12345678901234567890")) 59 8 30 = some (of "94287082") := by
  have hpassword : ∃ password,
      generateTotp vectorSha1 id (Bytes.utf8 (of "12345678901234567890")) 59 8 30 = some password ∧ _ :=
    generateTotp_rfc6238 length_vectorSha1 rfl (by decide) (by decide) (by decide) (by decide)
  obtain ⟨password, hsome, htotp, -, -⟩ := hpassword
  have hvector : Crypto.totp vectorSha1 64 (Bytes.utf8 (of "12345678901234567890")) 59 30 8 = of "94287082" := by
    decide +kernel
  rw [hsome, htotp]
  exact congrArg some hvector

end Chanserv
