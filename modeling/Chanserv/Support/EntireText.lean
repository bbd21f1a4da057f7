import Chanserv.Json.Content
import Chanserv.Support

/-! `escape_json_entire_text`, byte by byte.

The function knows nothing of characters: it takes a byte string of any kind, and what
it makes of it is read by a JSON decoder as the same bytes. On the bytes of a text it
does what `Chanserv.escapeJsonEntireText` does on its characters. -/
namespace Chanserv.Bytes
open Text Json

/-- `std::iscntrl` in a C or UTF-8 locale. -/
def isCntrl (c : UInt8) : Bool := c < 0x20 || c = 0x7F

/-- `std::hex << std::setw(4) << std::setfill('0')` -/
def hexFilled (n : Nat) : List UInt8 :=
  let digits := (Nat.toDigits 16 n).map byte
  List.replicate (4 - digits.length) (byte '0') ++ digits

/-- One turn of the loop. -/
def escapeByte (c : UInt8) : List UInt8 :=
  if c = byte '"' then [byte '\\', byte '"']
  else if c = byte '\\' then [byte '\\', byte '\\']
  else if c = 8 then [byte '\\', byte 'b']
  else if c = 12 then [byte '\\', byte 'f']
  else if c = 10 then [byte '\\', byte 'n']
  else if c = 13 then [byte '\\', byte 'r']
  else if c = 9 then [byte '\\', byte 't']
  else if isCntrl c then byte '\\' :: byte 'u' :: hexFilled c.toNat
  else [c]

def escapeJsonEntireText (inputText : List UInt8) : List UInt8 := inputText.flatMap escapeByte

/-! ### What is written is read -/

theorem hexFilled_of_lt : ∀ n < 0x80,
    hexFilled n = [byte '0', byte '0', byte (hexDigit (n / 16)), byte (hexDigit (n % 16))] ∧
      codeUnit (byte '0') (byte '0') (byte (hexDigit (n / 16))) (byte (hexDigit (n % 16))) = some n := by
  decide +kernel

theorem writes_escapeByte (c : UInt8) : Writes c (escapeByte c) := by
  unfold escapeByte
  split
  case isTrue hc => subst hc; exact .letter (by decide)
  case isFalse hquote =>
    split
    case isTrue hc => subst hc; exact .letter (by decide)
    case isFalse hslash =>
      split
      case isTrue hc => subst hc; exact .letter (by decide)
      split
      case isTrue hc => subst hc; exact .letter (by decide)
      split
      case isTrue hc => subst hc; exact .letter (by decide)
      split
      case isTrue hc => subst hc; exact .letter (by decide)
      split
      case isTrue hc => subst hc; exact .letter (by decide)
      split
      case isTrue hc =>
        have hlow : c.toNat < 0x80 := by
          simp only [isCntrl, Bool.or_eq_true, decide_eq_true_eq] at hc
          rcases hc with hc | rfl
          · exact Nat.lt_trans (UInt8.lt_iff_toNat_lt.mp hc) (by decide)
          · decide
        obtain ⟨hfilled, hcode⟩ := hexFilled_of_lt c.toNat hlow
        rw [hfilled]
        exact .unicode hcode hlow
      case isFalse hc =>
        simp only [isCntrl, Bool.or_eq_true, decide_eq_true_eq, not_or] at hc
        exact .plain ⟨UInt8.not_lt.mp hc.1, hquote, hslash⟩

/-- **The round trip**: what is written may stand in a JSON literal, without controls, stray quotes or
pieces of escapes, and the literal stands for the bytes that were given; so no two are written alike. -/
theorem json_round_trip : (∀ s, (∀ b ∈ escapeJsonEntireText s, 0x20 ≤ b) ∧ Content (escapeJsonEntireText s) ∧
    decode (escapeJsonEntireText s) = some s) ∧ Function.Injective escapeJsonEntireText := by
  have hdecode (s : List UInt8) : decode (escapeJsonEntireText s) = some s := decode_flatMap writes_escapeByte s
  have hcontent (s : List UInt8) : Content (escapeJsonEntireText s) := content_flatMap writes_escapeByte s
  refine ⟨fun s => ⟨(hcontent s).printable, hcontent s, hdecode s⟩, fun s s' hsame => ?_⟩
  have hread := hdecode s
  rw [hsame, hdecode s'] at hread
  exact (Option.some.inj hread).symm

/-! ### On the bytes of a text -/

/-- The UTF-8 form of a text. -/
def utf8 (t : Text) : List UInt8 := t.flatMap String.utf8EncodeChar

theorem high_ofNat {n : Nat} (h : 0x80 ≤ n) (hbyte : n < 0x100) : 0x80 ≤ UInt8.ofNat n := by
  rw [UInt8.le_iff_toNat_le, UInt8.toNat_ofNat_of_lt' hbyte]
  exact h

/-- A character of several bytes has none of ASCII. -/
theorem utf8EncodeChar_high {c : Char} (h : 0x80 ≤ c.toNat) : ∀ b ∈ String.utf8EncodeChar c, 0x80 ≤ b := by
  have hval : ¬c.val.toNat ≤ 0x7f := Nat.not_le.mpr h
  -- every byte has its highest bit among the marks of its place
  have hrest (n : Nat) : (0x80 : UInt8) ≤ UInt8.ofNat (n % 0x40 + 0x80) := high_ofNat (by omega) (by omega)
  simp only [String.utf8EncodeChar, if_neg hval]
  split
  · simp only [List.forall_mem_cons, List.not_mem_nil, false_imp_iff, implies_true, and_true]
    exact ⟨high_ofNat (by omega) (by omega), hrest _⟩
  split
  · simp only [List.forall_mem_cons, List.not_mem_nil, false_imp_iff, implies_true, and_true]
    exact ⟨high_ofNat (by omega) (by omega), hrest _, hrest _⟩
  · simp only [List.forall_mem_cons, List.not_mem_nil, false_imp_iff, implies_true, and_true]
    exact ⟨high_ofNat (by omega) (by omega), hrest _, hrest _, hrest _⟩

theorem escapeByte_high {b : UInt8} (h : 0x80 ≤ b) : escapeByte b = [b] := by
  have hall : ∀ n < 256, 0x80 ≤ UInt8.ofNat n → escapeByte (UInt8.ofNat n) = [UInt8.ofNat n] := by decide +kernel
  exact forall_byte (P := fun b => 0x80 ≤ b → escapeByte b = [b]) hall b h

theorem shortEscape_high {c : Char} (h : 0x80 ≤ c.toNat) : shortEscape c = none := by
  have hne {d : Char} (hd : d.toNat < 0x80) : c ≠ d := by
    rintro rfl
    omega
  have hcode {n : Nat} (hn : n < 0x80) : c.toNat ≠ n := by omega
  simp only [shortEscape, if_neg (hne (d := '"') (by decide)), if_neg (hne (d := '\\') (by decide)),
    if_neg (hcode (n := 8) (by decide)), if_neg (hcode (n := 12) (by decide)),
    if_neg (hne (d := '\n') (by decide)), if_neg (hne (d := '\r') (by decide)),
    if_neg (hne (d := '\t') (by decide))]

theorem escapeChar_high {c : Char} (h : 0x80 ≤ c.toNat) : escapeChar c = [c] := by
  have hcontrol : isControl c = false := by
    simp only [isControl, Bool.or_eq_false_iff, decide_eq_false_iff_not]
    omega
  rw [escapeChar, shortEscape_high h]
  simp only [hcontrol, Bool.false_eq_true, if_false]

/-- What leaves alone all that is not ASCII may be done on the characters or on the bytes. -/
theorem utf8_flatMap {f : Char → Text} {g : UInt8 → List UInt8}
    (hascii : ∀ n < 0x80, utf8 (f (Char.ofNat n)) = (String.utf8EncodeChar (Char.ofNat n)).flatMap g)
    (hchar : ∀ c : Char, 0x80 ≤ c.toNat → f c = [c]) (hbyte : ∀ b : UInt8, 0x80 ≤ b → g b = [b]) (t : Text) :
    utf8 (t.flatMap f) = (utf8 t).flatMap g := by
  have hone (c : Char) : utf8 (f c) = (String.utf8EncodeChar c).flatMap g := by
    by_cases h : c.toNat < 0x80
    · have hc := hascii c.toNat h
      rwa [Char.ofNat_toNat] at hc
    · have hhigh := utf8EncodeChar_high (Nat.le_of_not_lt h)
      calc utf8 (f c) = String.utf8EncodeChar c := by rw [hchar c (Nat.le_of_not_lt h), utf8, List.flatMap_singleton]
        _ = (String.utf8EncodeChar c).flatMap fun b => [b] := (List.flatMap_singleton' _).symm
        _ = (String.utf8EncodeChar c).flatMap g := List.flatMap_congr fun b hb => (hbyte b (hhigh b hb)).symm
  rw [utf8, List.flatMap_assoc, utf8, List.flatMap_assoc]
  exact List.flatMap_congr fun c _ => hone c

/-- The characters of a text and its bytes are escaped alike. -/
theorem utf8_escaped (t : Text) : utf8 (Chanserv.escapeJsonEntireText t) = escapeJsonEntireText (utf8 t) := by
  have hascii : ∀ n < 0x80, utf8 (escapeChar (Char.ofNat n)) =
      (String.utf8EncodeChar (Char.ofNat n)).flatMap escapeByte := by decide +kernel
  exact utf8_flatMap hascii (fun _ => escapeChar_high) (fun _ => escapeByte_high) t

end Chanserv.Bytes
