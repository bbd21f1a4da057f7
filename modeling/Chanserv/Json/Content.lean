import Chanserv.Json.Lexer

/-! The content of a JSON string literal, in bytes.

A byte from 0x20 on stands for itself unless it is a quote or a backslash; the bytes of
longer characters do, whether they form characters or not. An escape is a backslash and
a letter, or a backslash, `u` and four hexadecimal digits, which stand for the bytes of
a code point. -/
namespace Chanserv.Json

/-- A character of ASCII, as a byte. -/
def byte (c : Char) : UInt8 := UInt8.ofNat c.toNat

def charOf (b : UInt8) : Char := Char.ofNat b.toNat

def Plain (b : UInt8) : Prop := 0x20 ≤ b ∧ b ≠ byte '"' ∧ b ≠ byte '\\'

instance (b : UInt8) : Decidable (Plain b) := inferInstanceAs (Decidable (_ ∧ _))

/-- What a letter after a backslash stands for. -/
def letterByte (b : UInt8) : Option UInt8 := (letterEscape (charOf b)).map byte

/-- The code of four hexadecimal digits. -/
def codeUnit (a b c d : UInt8) : Option Nat :=
  match hexValue (charOf a), hexValue (charOf b), hexValue (charOf c), hexValue (charOf d) with
  | some k, some l, some m, some n => some (((k * 16 + l) * 16 + m) * 16 + n)
  | _, _, _, _ => none

/-- Bytes that may stand between two quotes. -/
inductive Content : List UInt8 → Prop
  | nil : Content []
  | plain {b : UInt8} {t : List UInt8} (h : Plain b) (ht : Content t) : Content (b :: t)
  | letter {b c : UInt8} {t : List UInt8} (h : letterByte b = some c) (ht : Content t) :
    Content (byte '\\' :: b :: t)
  | unicode {a b c d : UInt8} {n : Nat} {t : List UInt8} (h : codeUnit a b c d = some n) (ht : Content t) :
    Content (byte '\\' :: byte 'u' :: a :: b :: c :: d :: t)

/-- The bytes a literal stands for. Half of a surrogate pair stands for nothing. -/
def decode : List UInt8 → Option (List UInt8)
  | [] => some []
  | b :: t =>
    if b = byte '\\' then
      match t with
      | [] => none
      | u :: t =>
        if u = byte 'u' then
          match t with
          | a :: b :: c :: d :: t =>
            match codeUnit a b c d with
            | none => none
            | some v =>
              if 0xD800 ≤ v ∧ v < 0xDC00 then
                match t with
                | b' :: u' :: a' :: b'' :: c' :: d' :: t =>
                  match codeUnit a' b'' c' d' with
                  | none => none
                  | some w =>
                    if b' = byte '\\' ∧ u' = byte 'u' ∧ 0xDC00 ≤ w ∧ w < 0xE000 then
                      (decode t).map fun s =>
                        String.utf8EncodeChar (Char.ofNat (0x10000 + (v - 0xD800) * 0x400 + (w - 0xDC00))) ++ s
                    else none
                | _ => none
              else if 0xDC00 ≤ v ∧ v < 0xE000 then none
              else (decode t).map fun s => String.utf8EncodeChar (Char.ofNat v) ++ s
          | _ => none
        else
          match letterByte u with
          | none => none
          | some c => (decode t).map fun s => c :: s
    else if Plain b then (decode t).map fun s => b :: s
    else none

/-! ### Reading -/

/-- A property of all bytes, byte by byte. -/
theorem forall_byte {P : UInt8 → Prop} (h : ∀ n < 256, P (UInt8.ofNat n)) (b : UInt8) : P b := by
  have hb := h b.toNat b.toNat_lt
  rwa [UInt8.ofNat_toNat] at hb

theorem utf8EncodeChar_ascii {n : Nat} (h : n < 0x80) : String.utf8EncodeChar (Char.ofNat n) = [UInt8.ofNat n] := by
  have hall : ∀ n < 0x80, String.utf8EncodeChar (Char.ofNat n) = [UInt8.ofNat n] := by decide +kernel
  exact hall n h

section
variable {b c : UInt8} {s t : List UInt8}

theorem decode_plain (h : Plain b) : decode (b :: t) = (decode t).map fun s => b :: s := by
  rw [decode.eq_def]
  simp only [if_neg h.2.2, if_pos h]

theorem decode_letter (h : letterByte b = some c) : decode (byte '\\' :: b :: t) = (decode t).map fun s => c :: s := by
  have hu : b ≠ byte 'u' := by
    rintro rfl
    cases h
  rw [decode.eq_def]
  simp only [if_pos, if_neg hu, h]

theorem decode_unicode {a b c d : UInt8} {n : Nat} (h : codeUnit a b c d = some n) (hlow : n < 0x80) :
    decode (byte '\\' :: byte 'u' :: a :: b :: c :: d :: t) = (decode t).map fun s => UInt8.ofNat n :: s := by
  have hhigh : ¬(0xD800 ≤ n ∧ n < 0xDC00) := by omega
  have hlow' : ¬(0xDC00 ≤ n ∧ n < 0xE000) := by omega
  rw [decode.eq_def]
  simp only [if_pos, h, if_neg hhigh, if_neg hlow', utf8EncodeChar_ascii hlow, List.singleton_append]

theorem letterByte_printable (h : letterByte b = some c) : 0x20 ≤ b := by
  have hall : ∀ n < 256, (letterByte (UInt8.ofNat n)).isSome → 0x20 ≤ UInt8.ofNat n := by decide +kernel
  exact forall_byte (P := fun b => (letterByte b).isSome → 0x20 ≤ b) hall b (by rw [h]; rfl)

theorem hexValue_printable {n : Nat} (h : hexValue (charOf b) = some n) : 0x20 ≤ b := by
  have hall : ∀ n < 256, (hexValue (charOf (UInt8.ofNat n))).isSome → 0x20 ≤ UInt8.ofNat n := by decide +kernel
  exact forall_byte (P := fun b => (hexValue (charOf b)).isSome → 0x20 ≤ b) hall b (by rw [h]; rfl)

/-- No byte of a literal is a control. -/
theorem Content.printable (h : Content t) : ∀ b ∈ t, 0x20 ≤ b := by
  have hslash : (0x20 : UInt8) ≤ byte '\\' := by decide
  have hu : (0x20 : UInt8) ≤ byte 'u' := by decide
  induction h with
  | nil => exact fun b hb => absurd hb List.not_mem_nil
  | plain h _ ih => exact List.forall_mem_cons.mpr ⟨h.1, ih⟩
  | letter h _ ih =>
    exact List.forall_mem_cons.mpr ⟨hslash, List.forall_mem_cons.mpr ⟨letterByte_printable h, ih⟩⟩
  | unicode h _ ih =>
    unfold codeUnit at h
    split at h
    · next ha hb hc hd =>
      simp only [List.forall_mem_cons]
      exact ⟨hslash, hu, hexValue_printable ha, hexValue_printable hb, hexValue_printable hc, hexValue_printable hd, ih⟩
    · cases h

/-- The ways to write a byte in a literal. -/
inductive Writes (c : UInt8) : List UInt8 → Prop
  | plain (h : Plain c) : Writes c [c]
  | letter {b : UInt8} (h : letterByte b = some c) : Writes c [byte '\\', b]
  | unicode {a b d e : UInt8} (h : codeUnit a b d e = some c.toNat) (hlow : c.toNat < 0x80) :
    Writes c [byte '\\', byte 'u', a, b, d, e]

theorem decode_writes {e : List UInt8} (h : Writes c e) (t : List UInt8) :
    decode (e ++ t) = (decode t).map fun s => c :: s := by
  cases h with
  | plain h => exact decode_plain h
  | letter h => exact decode_letter h
  | unicode h hlow =>
    have hread := decode_unicode (t := t) h hlow
    rwa [UInt8.ofNat_toNat] at hread

theorem Content.writes {e : List UInt8} (h : Writes c e) (ht : Content t) : Content (e ++ t) := by
  cases h with
  | plain h => exact .plain h ht
  | letter h => exact .letter h ht
  | unicode h _ => exact .unicode h ht

variable {f : UInt8 → List UInt8}

/-- A string written byte by byte is read as it was. -/
theorem decode_flatMap (h : ∀ c, Writes c (f c)) (s : List UInt8) : decode (s.flatMap f) = some s := by
  induction s with
  | nil => rw [List.flatMap_nil, decode]
  | cons c s ih => rw [List.flatMap_cons, decode_writes (h c), ih, Option.map_some]

theorem content_flatMap (h : ∀ c, Writes c (f c)) (s : List UInt8) : Content (s.flatMap f) := by
  induction s with
  | nil => exact .nil
  | cons c s ih => exact Content.writes (h c) ih

end

end Chanserv.Json
