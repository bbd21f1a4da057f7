import Chanserv.Support.EntireText

/-! `escape_string`, write by write.

One loop counts the bytes that escaping adds, another writes into a string of that size
which is full of backslashes. What it takes for itself at the end of an escape of six
bytes, the terminator of `sprintf`, it gives back as a backslash; behind the last byte
of the string there is no room for one. -/
namespace Chanserv.Bytes
open Text Json

/-! ### The code -/

/-- `c >= 0x00 and c <= 0x1f`, of a `char` with a sign. -/
def isLowControl (c : UInt8) : Bool := 0 ≤ c.toInt8 ∧ c.toInt8 ≤ 0x1F

/-- One turn of `extra_space`. -/
def countExtra (result : Nat) (c : UInt8) : Nat :=
  if c = byte '"' ∨ c = byte '\\' ∨ c = 8 ∨ c = 12 ∨ c = 10 ∨ c = 13 ∨ c = 9 then result + 1
  else if isLowControl c then result + 5
  else result

def extraSpace (s : List UInt8) : Nat := s.foldl countExtra 0

/-- The second loop under way. -/
structure Escaping where
  pos : Nat
  /-- The bytes of `result`, and behind them the place of its terminator. -/
  memory : List UInt8
  /-- Every write so far: where, and what. -/
  writes : List (Nat × UInt8) := []

namespace Escaping

def write (e : Escaping) (i : Nat) (b : UInt8) : Escaping :=
  {e with memory := e.memory.set i b, writes := e.writes ++ [(i, b)]}

/-- `sprintf(&result[i], ...)` of this text; a zero is written behind it. -/
def print (e : Escaping) (i : Nat) : List UInt8 → Escaping
  | [] => e.write i 0
  | b :: text => (e.write i b).print (i + 1) text

/-- An escape of two bytes; the backslash is there. -/
def letter (e : Escaping) (b : UInt8) : Escaping := {e.write (e.pos + 1) b with pos := e.pos + 2}

/-- One turn of the loop. -/
def turn (e : Escaping) (c : UInt8) : Escaping :=
  if c = byte '"' then e.letter (byte '"')
  else if c = byte '\\' then {e with pos := e.pos + 2}
  else if c = 8 then e.letter (byte 'b')
  else if c = 12 then e.letter (byte 'f')
  else if c = 10 then e.letter (byte 'n')
  else if c = 13 then e.letter (byte 'r')
  else if c = 9 then e.letter (byte 't')
  else if isLowControl c then
    let printed := e.print (e.pos + 1) (byte 'u' :: hexFilled c.toNat)
    -- overwrite trailing null character
    {printed with pos := e.pos + 6}.write (e.pos + 6) (byte '\\')
  else {e.write e.pos c with pos := e.pos + 1}

end Escaping

/-- The second loop. -/
def escapeLoop (s : List UInt8) : Escaping :=
  s.foldl Escaping.turn { pos := 0, memory := List.replicate (s.length + extraSpace s) (byte '\\') ++ [0] }

def escapeString (s : List UInt8) : List UInt8 :=
  if extraSpace s = 0 then s else (escapeLoop s).memory.take (s.length + extraSpace s)

/-- What the two loops are to agree about, where the second runs. -/
structure PassesAgree (s : List UInt8) : Prop where
  pos : extraSpace s ≠ 0 → (escapeLoop s).pos = s.length + extraSpace s
  /-- Inside of the result; a zero may stand at its terminator. -/
  writes : extraSpace s ≠ 0 → ∀ w ∈ (escapeLoop s).writes,
    w.1 < (escapeString s).length ∨ w.1 = (escapeString s).length ∧ w.2 = 0
  decoded : decode (escapeString s) = some s

/-! ### What a byte becomes -/

/-- What the loop makes of a byte: 0x7F is no control here. -/
def escapedByte (c : UInt8) : List UInt8 := if c = 0x7F then [c] else escapeByte c

/-- A byte that is written as `\u` and four digits: a control character without a letter. -/
def IsLong (c : UInt8) : Prop := c < 0x20 ∧ c ∉ [8, 9, 10, 12, 13]

instance (c : UInt8) : Decidable (IsLong c) := inferInstanceAs (Decidable (_ ∧ _))

theorem isLong_iff_length (c : UInt8) : IsLong c ↔ (escapedByte c).length = 6 := by
  have hall : ∀ n < 256, IsLong (UInt8.ofNat n) ↔ (escapedByte (UInt8.ofNat n)).length = 6 := by decide +kernel
  exact forall_byte (P := fun c => IsLong c ↔ (escapedByte c).length = 6) hall c

theorem writes_escapedByte (c : UInt8) : Writes c (escapedByte c) := by
  unfold escapedByte
  split
  case isTrue h => exact .plain (h ▸ by decide)
  case isFalse h => exact writes_escapeByte c

theorem isLowControl_iff (c : UInt8) : isLowControl c = true ↔ c < 0x20 := by
  have hall : ∀ n < 256, isLowControl (UInt8.ofNat n) = true ↔ UInt8.ofNat n < 0x20 := by decide +kernel
  exact forall_byte (P := fun c => isLowControl c = true ↔ c < 0x20) hall c

/-- The bytes that are written with a letter; before a backslash there is one already. -/
def letters : List (UInt8 × UInt8) :=
  [(byte '"', byte '"'), (8, byte 'b'), (12, byte 'f'), (10, byte 'n'), (13, byte 'r'), (9, byte 't')]

theorem turn_letter {p : UInt8 × UInt8} (hp : p ∈ letters) :
    escapedByte p.1 = [byte '\\', p.2] ∧ ∀ e : Escaping, e.turn p.1 = e.letter p.2 := by
  simp only [letters, List.mem_cons, List.not_mem_nil, or_false] at hp
  rcases hp with rfl | rfl | rfl | rfl | rfl | rfl <;> exact ⟨rfl, fun _ => rfl⟩

/-- All other bytes are controls, or written as they are. -/
theorem turn_no_letter {c : UInt8} (hletter : ∀ p ∈ letters, c ≠ p.1) (hslash : c ≠ byte '\\') (e : Escaping) :
    e.turn c = if isLowControl c then
      {e.print (e.pos + 1) (byte 'u' :: hexFilled c.toNat) with pos := e.pos + 6}.write (e.pos + 6) (byte '\\')
    else {e.write e.pos c with pos := e.pos + 1} := by
  simp only [letters, List.forall_mem_cons] at hletter
  obtain ⟨hquote, hb, hf, hn, hr, ht, -⟩ := hletter
  simp only [Escaping.turn, if_neg hquote, if_neg hslash, if_neg hb, if_neg hf, if_neg hn, if_neg hr, if_neg ht]

theorem escapedByte_no_letter {c : UInt8} (hletter : ∀ p ∈ letters, c ≠ p.1) (hslash : c ≠ byte '\\') :
    escapedByte c = if isLowControl c then byte '\\' :: byte 'u' :: hexFilled c.toNat else [c] := by
  simp only [letters, List.forall_mem_cons] at hletter
  obtain ⟨hquote, hb, hf, hn, hr, ht, -⟩ := hletter
  by_cases hdel : c = 0x7F
  · subst hdel
    rfl
  have hlow : isCntrl c = isLowControl c := by
    rw [Bool.eq_iff_iff, isLowControl_iff]
    simp [isCntrl, hdel]
  simp only [escapedByte, if_neg hdel, escapeByte, if_neg hquote, if_neg hslash, if_neg hb, if_neg hf, if_neg hn,
    if_neg hr, if_neg ht, hlow]

/-- The three ways a byte is written: with a letter, with digits, as it is. -/
theorem turn_cases (c : UInt8) :
    (∃ b, escapedByte c = [byte '\\', b] ∧
      ∀ e : Escaping, e.turn c = e.letter b ∨ b = byte '\\' ∧ e.turn c = {e with pos := e.pos + 2}) ∨
    (∃ digits, digits.length = 4 ∧ escapedByte c = byte '\\' :: byte 'u' :: digits ∧
      ∀ e : Escaping, e.turn c =
        {e.print (e.pos + 1) (byte 'u' :: digits) with pos := e.pos + 6}.write (e.pos + 6) (byte '\\')) ∨
    escapedByte c = [c] ∧ ∀ e : Escaping, e.turn c = {e.write e.pos c with pos := e.pos + 1} := by
  by_cases hmem : ∃ p ∈ letters, c = p.1
  · obtain ⟨p, hp, rfl⟩ := hmem
    obtain ⟨hescaped, hturn⟩ := turn_letter hp
    exact .inl ⟨p.2, hescaped, fun e => .inl (hturn e)⟩
  by_cases hslash : c = byte '\\'
  · subst hslash
    exact .inl ⟨byte '\\', rfl, fun e => .inr ⟨rfl, rfl⟩⟩
  have hletter : ∀ p ∈ letters, c ≠ p.1 := fun p hp heq => hmem ⟨p, hp, heq⟩
  rw [escapedByte_no_letter hletter hslash]
  by_cases hlow : isLowControl c = true
  · have hlt : c.toNat < 0x80 :=
      Nat.lt_trans (UInt8.lt_iff_toNat_lt.mp ((isLowControl_iff c).mp hlow)) (by decide)
    have hdigits : (hexFilled c.toNat).length = 4 := by
      rw [(hexFilled_of_lt _ hlt).1]
      rfl
    exact .inr (.inl ⟨hexFilled c.toNat, hdigits, if_pos hlow, fun e => by
      rw [turn_no_letter hletter hslash, if_pos hlow]⟩)
  · exact .inr (.inr ⟨if_neg hlow, fun e => by rw [turn_no_letter hletter hslash, if_neg hlow]⟩)

/-- The first loop counts what the second writes. -/
theorem countExtra_eq (result : Nat) (c : UInt8) : countExtra result c + 1 = result + (escapedByte c).length := by
  have hall : ∀ n < 256, countExtra 0 (UInt8.ofNat n) + 1 = (escapedByte (UInt8.ofNat n)).length := by decide +kernel
  have hzero : countExtra 0 c + 1 = (escapedByte c).length :=
    forall_byte (P := fun c => countExtra 0 c + 1 = (escapedByte c).length) hall c
  have hadd : countExtra result c = result + countExtra 0 c := by
    unfold countExtra
    split
    · rfl
    · split <;> rfl
  omega

theorem length_escaped (s : List UInt8) : (s.flatMap escapedByte).length = s.length + extraSpace s := by
  have hfold (result : Nat) : result + (s.flatMap escapedByte).length = s.length + s.foldl countExtra result := by
    induction s generalizing result with
    | nil => exact (Nat.add_comm ..)
    | cons c s ih =>
      have hnext := ih (countExtra result c)
      have hcount := countExtra_eq result c
      rw [List.flatMap_cons, List.length_append, List.foldl_cons, List.length_cons]
      omega
  have hall := hfold 0
  rwa [Nat.zero_add] at hall

/-! ### The writes -/

namespace Escaping

/-- The writes are in a string of this size, but for a zero at its terminator. -/
def Inside (size : Nat) (e : Escaping) : Prop := ∀ w ∈ e.writes, w.1 < size ∨ w.1 = size ∧ w.2 = 0

section
variable {e : Escaping} {pre old post text : List UInt8} {x b : UInt8} {i size : Nat}

theorem write_memory (h : e.memory = pre ++ x :: post) (hi : i = pre.length) :
    (e.write i b).memory = pre ++ b :: post := by
  show e.memory.set i b = _
  rw [h, hi, List.set_append_right _ _ (Nat.le_refl _), Nat.sub_self, List.set_cons_zero]

theorem print_memory (h : e.memory = pre ++ (old ++ x :: post)) (hi : i = pre.length)
    (hold : old.length = text.length) : (e.print i text).memory = pre ++ (text ++ 0 :: post) := by
  induction text generalizing e pre old i with
  | nil =>
    rw [List.eq_nil_of_length_eq_zero hold] at h
    exact write_memory h hi
  | cons b text ih =>
    obtain ⟨y, old, rfl⟩ := List.exists_cons_of_length_eq_add_one hold
    have hnext : (e.write i b).memory = (pre ++ [b]) ++ (old ++ x :: post) := by
      rw [write_memory h hi, List.append_assoc]
      rfl
    have hplace : i + 1 = (pre ++ [b]).length := by rw [List.length_append, hi, List.length_singleton]
    have hrest := ih hnext hplace (Nat.succ.inj hold)
    rw [List.append_assoc] at hrest
    exact hrest

theorem write_inside : (e.write i b).Inside size ↔ e.Inside size ∧ (i < size ∨ i = size ∧ b = 0) := by
  show (∀ w ∈ e.writes ++ [(i, b)], _) ↔ _
  rw [List.forall_mem_append, List.forall_mem_singleton]
  rfl

theorem print_inside (h : i + text.length ≤ size) : (e.print i text).Inside size ↔ e.Inside size := by
  induction text generalizing e i with
  | nil =>
    show (e.write i 0).Inside size ↔ _
    rw [write_inside, and_iff_left]
    rcases Nat.lt_or_eq_of_le h with hlt | heq
    · exact .inl hlt
    · exact .inr ⟨heq, rfl⟩
  | cons b text ih =>
    rw [List.length_cons] at h
    show ((e.write i b).print (i + 1) text).Inside size ↔ _
    rw [ih (by omega), write_inside, and_iff_left (.inl (by omega))]

end

end Escaping

/-! ### A run of the loop -/

/-- The loop has come so far: what it has written, then backslashes up to the terminator. -/
structure Written (out : List UInt8) (size : Nat) (e : Escaping) : Prop where
  pos : e.pos = out.length
  memory : ∃ last, e.memory = out ++ (List.replicate (size - out.length) (byte '\\') ++ [last])

section
variable {e : Escaping} {out : List UInt8} {size : Nat} {c : UInt8}

/-- The bytes a turn is about to write over. -/
theorem Written.room (h : Written out size e) {k : Nat} (hk : out.length + k ≤ size) :
    ∃ last, e.memory = out ++ (List.replicate k (byte '\\') ++
      (List.replicate (size - (out.length + k)) (byte '\\') ++ [last])) := by
  obtain ⟨last, hmemory⟩ := h.memory
  have hsplit : size - out.length = k + (size - (out.length + k)) := by omega
  rw [hsplit, ← List.replicate_append_replicate, List.append_assoc] at hmemory
  exact ⟨last, hmemory⟩

theorem Written.next {e' : Escaping} {piece : List UInt8} {last : UInt8} {n : Nat} (hpiece : piece.length = n)
    (hpos : e'.pos = out.length + n)
    (hmemory : e'.memory = out ++ (piece ++ (List.replicate (size - (out.length + n)) (byte '\\') ++ [last]))) :
    Written (out ++ piece) size e' where
  pos := by rw [hpos, List.length_append, hpiece]
  memory := ⟨last, by rw [hmemory, List.length_append, hpiece, List.append_assoc]⟩

theorem Written.letter {b : UInt8} (h : Written out size e) (hfits : out.length + 2 ≤ size) :
    Written (out ++ [byte '\\', b]) size (e.letter b) := by
  obtain ⟨last, hmemory⟩ := h.room hfits
  have hout : e.memory = (out ++ [byte '\\']) ++ byte '\\' ::
      (List.replicate (size - (out.length + 2)) (byte '\\') ++ [last]) := by
    rw [hmemory, List.append_assoc]
    rfl
  have hplace : e.pos + 1 = (out ++ [byte '\\']).length := by rw [List.length_append, h.pos, List.length_singleton]
  have hwritten := Escaping.write_memory (b := b) hout hplace
  rw [List.append_assoc] at hwritten
  exact .next rfl (congrArg (· + 2) h.pos) hwritten

theorem Written.skip (h : Written out size e) (hfits : out.length + 2 ≤ size) :
    Written (out ++ [byte '\\', byte '\\']) size {e with pos := e.pos + 2} := by
  obtain ⟨last, hmemory⟩ := h.room hfits
  exact .next rfl (congrArg (· + 2) h.pos) hmemory

theorem Written.plain (h : Written out size e) (hfits : out.length + 1 ≤ size) :
    Written (out ++ [c]) size {e.write e.pos c with pos := e.pos + 1} := by
  obtain ⟨last, hmemory⟩ := h.room hfits
  exact .next rfl (congrArg (· + 1) h.pos) (Escaping.write_memory (b := c) hmemory h.pos)

/-- Where `sprintf` has put its zero, a backslash is there again. -/
theorem Written.digits {digits : List UInt8} (h : Written out size e) (hdigits : digits.length = 4)
    (hfits : out.length + 6 ≤ size) :
    Written (out ++ byte '\\' :: byte 'u' :: digits) size
      ({e.print (e.pos + 1) (byte 'u' :: digits) with pos := e.pos + 6}.write (e.pos + 6) (byte '\\')) := by
  obtain ⟨last, hmemory⟩ := h.room hfits
  -- the zero stands in the place of a backslash, or of the terminator
  obtain ⟨x, post, last', hrest, hagain⟩ : ∃ x post last',
      List.replicate (size - (out.length + 6)) (byte '\\') ++ [last] = x :: post ∧
        byte '\\' :: post = List.replicate (size - (out.length + 6)) (byte '\\') ++ [last'] := by
    cases size - (out.length + 6) with
    | zero => exact ⟨last, [], byte '\\', rfl, rfl⟩
    | succ k => exact ⟨byte '\\', List.replicate k (byte '\\') ++ [last], last, rfl, rfl⟩
  have hout : e.memory = (out ++ [byte '\\']) ++ (List.replicate 5 (byte '\\') ++ x :: post) := by
    rw [hmemory, hrest, List.append_assoc]
    rfl
  have hplace : e.pos + 1 = (out ++ [byte '\\']).length := by rw [List.length_append, h.pos, List.length_singleton]
  have hprinted : (e.print (e.pos + 1) (byte 'u' :: digits)).memory = _ :=
    Escaping.print_memory hout hplace (by rw [List.length_cons, hdigits]; rfl)
  have hzero : (e.print (e.pos + 1) (byte 'u' :: digits)).memory = (out ++ byte '\\' :: byte 'u' :: digits) ++ 0 :: post := by
    rw [hprinted, List.append_assoc, List.append_assoc]
    rfl
  have hlength : (byte '\\' :: byte 'u' :: digits).length = 6 := by rw [List.length_cons, List.length_cons, hdigits]
  have hend : e.pos + 6 = (out ++ byte '\\' :: byte 'u' :: digits).length := by
    rw [List.length_append, h.pos, hlength]
  have hwritten : ({e.print (e.pos + 1) (byte 'u' :: digits) with pos := e.pos + 6}.write (e.pos + 6) (byte '\\')).memory =
      (out ++ byte '\\' :: byte 'u' :: digits) ++ byte '\\' :: post := Escaping.write_memory hzero hend
  rw [hagain, List.append_assoc] at hwritten
  exact .next hlength (congrArg (· + 6) h.pos) hwritten

/-- A turn, and whether its writes were inside: only the backslash behind an escape at the end was not. -/
theorem Written.turn (h : Written out size e) (hfits : out.length + (escapedByte c).length ≤ size) :
    Written (out ++ escapedByte c) size (e.turn c) ∧
      ((e.turn c).Inside size ↔ e.Inside size ∧ ¬(IsLong c ∧ out.length + 6 = size)) := by
  rcases turn_cases c with ⟨b, hc, hturn⟩ | ⟨digits, hdigits, hc, hturn⟩ | ⟨hc, hturn⟩
  · have hshort : ¬IsLong c := by
      rw [isLong_iff_length, hc]
      show ¬2 = 6
      decide
    rw [hc] at hfits ⊢
    rw [and_iff_left fun hlong => hshort hlong.1]
    rcases hturn e with hletter | ⟨rfl, hskip⟩
    · rw [hletter]
      refine ⟨h.letter hfits, ?_⟩
      show (e.write (e.pos + 1) b).Inside size ↔ _
      rw [Escaping.write_inside, and_iff_left (.inl (by rw [h.pos]; exact hfits))]
    · rw [hskip]
      exact ⟨h.skip hfits, Iff.rfl⟩
  · have hlength : (byte '\\' :: byte 'u' :: digits).length = 6 := by rw [List.length_cons, List.length_cons, hdigits]
    have hlong : IsLong c := by rw [isLong_iff_length, hc, hlength]
    rw [hc, hlength] at hfits
    rw [hc, hturn]
    refine ⟨h.digits hdigits hfits, ?_⟩
    have hprinted : (e.print (e.pos + 1) (byte 'u' :: digits)).Inside size ↔ e.Inside size :=
      Escaping.print_inside (by rw [h.pos, List.length_cons, hdigits]; omega)
    rw [Escaping.write_inside]
    refine and_congr hprinted ?_
    rw [h.pos]
    constructor
    · rintro (hlt | ⟨-, hzero⟩) ⟨-, heq⟩
      · omega
      · exact absurd hzero (by decide)
    · intro hnot
      exact .inl (Nat.lt_of_le_of_ne hfits fun heq => hnot ⟨hlong, heq⟩)
  · have hshort : ¬IsLong c := by
      rw [isLong_iff_length, hc]
      show ¬1 = 6
      decide
    rw [hc] at hfits ⊢
    rw [hturn, and_iff_left fun hlong => hshort hlong.1]
    refine ⟨h.plain hfits, ?_⟩
    show (e.write e.pos c).Inside size ↔ _
    rw [Escaping.write_inside, and_iff_left (.inl (by rw [h.pos]; exact hfits))]

/-- All turns, in a string that has the size of what they write. -/
theorem Written.run {s : List UInt8} (h : Written out size e) (hsize : out.length + (s.length + extraSpace s) = size) :
    Written (out ++ s.flatMap escapedByte) size (s.foldl Escaping.turn e) ∧
      ((s.foldl Escaping.turn e).Inside size ↔ e.Inside size ∧ ∀ c, s.getLast? = some c → ¬IsLong c) := by
  induction s generalizing out e with
  | nil =>
    rw [List.flatMap_nil, List.append_nil]
    exact ⟨h, (and_iff_left fun c hc => by cases hc).symm⟩
  | cons c s ih =>
    have hcons := length_escaped (c :: s)
    rw [List.flatMap_cons, List.length_append, length_escaped] at hcons
    have hfits : out.length + (escapedByte c).length ≤ size := by omega
    obtain ⟨hnext, hinside⟩ := h.turn hfits
    obtain ⟨hrun, hrest⟩ := ih hnext (by rw [List.length_append]; omega)
    rw [List.flatMap_cons, ← List.append_assoc, List.foldl_cons, hrest, hinside, and_assoc]
    refine ⟨hrun, and_congr_right fun _ => ?_⟩
    rw [isLong_iff_length c]
    cases s with
    | nil =>
      have hlast : out.length + (escapedByte c).length = size := by rw [← hsize, ← hcons]; rfl
      have hend : (escapedByte c).length = 6 ∧ out.length + 6 = size ↔ IsLong c := by
        rw [isLong_iff_length]
        omega
      simp [hend]
    | cons d s =>
      rw [List.getLast?_cons_cons, and_iff_right]
      have hcount : (d :: s).length = s.length + 1 := List.length_cons
      rw [hcount] at hcons
      omega

end

/-! ### The two passes -/

theorem length_escapedByte_le {s : List UInt8} {c : UInt8} (hc : c ∈ s) :
    (escapedByte c).length ≤ extraSpace s + 1 := by
  obtain ⟨before, after, rfl⟩ := List.append_of_mem hc
  have hall := length_escaped (before ++ c :: after)
  rw [List.flatMap_append, List.flatMap_cons, List.length_append, List.length_append, List.length_append,
    List.length_cons, length_escaped, length_escaped] at hall
  omega

/-- Where nothing is to be escaped, the string is its own escape. -/
theorem escaped_eq_self {s : List UInt8} (h : extraSpace s = 0) : s.flatMap escapedByte = s := by
  have hplain : ∀ c ∈ s, escapedByte c = [c] := by
    intro c hc
    have hle := length_escapedByte_le hc
    rcases turn_cases c with ⟨b, hletter, -⟩ | ⟨digits, -, hdigits, -⟩ | ⟨hsame, -⟩
    · rw [hletter, h] at hle
      exact absurd hle (Nat.not_succ_le_self 1)
    · rw [hdigits, h] at hle
      exact absurd hle (by simp)
    · exact hsame
  rw [List.flatMap_congr hplain, List.flatMap_singleton']

theorem escapeLoop_written (s : List UInt8) :
    Written (s.flatMap escapedByte) (s.length + extraSpace s) (escapeLoop s) ∧
      ((escapeLoop s).Inside (s.length + extraSpace s) ↔ ∀ c, s.getLast? = some c → ¬IsLong c) := by
  have hstart : Written [] (s.length + extraSpace s)
      { pos := 0, memory := List.replicate (s.length + extraSpace s) (byte '\\') ++ [0] } := ⟨rfl, 0, rfl⟩
  obtain ⟨hrun, hinside⟩ := hstart.run (s := s) (Nat.zero_add _)
  exact ⟨hrun, hinside.trans (and_iff_right fun w hw => by cases hw)⟩

theorem escapeString_eq (s : List UInt8) : escapeString s = s.flatMap escapedByte := by
  unfold escapeString
  split
  case isTrue hzero => exact (escaped_eq_self hzero).symm
  case isFalse =>
    obtain ⟨last, hmemory⟩ := (escapeLoop_written s).1.memory
    rw [hmemory, ← length_escaped, List.take_left]

/-- On the bytes of a text it does what `Chanserv.escapeString` does on its characters. -/
theorem utf8_escapeString (t : Text) : utf8 (Chanserv.escapeString t) = escapeString (utf8 t) := by
  have hascii : ∀ n < 0x80, utf8 (escapeStringChar (Char.ofNat n)) =
      (String.utf8EncodeChar (Char.ofNat n)).flatMap escapedByte := by decide +kernel
  have hchar (c : Char) (h : 0x80 ≤ c.toNat) : escapeStringChar c = [c] := by
    rw [escapeStringChar, shortEscape_high h]
    exact if_neg (by omega)
  have hbyte (b : UInt8) (h : 0x80 ≤ b) : escapedByte b = [b] := by
    have hne : b ≠ 0x7F := by
      rintro rfl
      exact absurd h (by decide)
    rw [escapedByte, if_neg hne, escapeByte_high h]
  rw [escapeString_eq]
  exact utf8_flatMap hascii hchar hbyte t

/-- The two loops agree about the size and the meaning of every string. Of the writes one is
outside: the backslash over the zero of `sprintf`, behind an escape that ends the string. -/
theorem passesAgree_iff (s : List UInt8) : PassesAgree s ↔ ∀ c, s.getLast? = some c → ¬IsLong c := by
  obtain ⟨hwritten, hinside⟩ := escapeLoop_written s
  have hsize : (escapeString s).length = s.length + extraSpace s := by rw [escapeString_eq, length_escaped]
  constructor
  · intro h c hc
    by_cases hzero : extraSpace s = 0
    · have hle := length_escapedByte_le (List.mem_of_getLast? hc)
      rw [isLong_iff_length]
      omega
    · refine hinside.mp ?_ c hc
      rw [Escaping.Inside, ← hsize]
      exact h.writes hzero
  · intro h
    exact {
      pos := fun _ => by rw [hwritten.pos, length_escaped]
      writes := fun _ => by
        rw [hsize]
        exact hinside.mpr h
      decoded := by
        rw [escapeString_eq]
        exact decode_flatMap writes_escapedByte s }

/-- Behind `a\u0001`, at its terminator, a backslash is written. -/
theorem escapeString_control_writes_behind : ¬PassesAgree [byte 'a', 1] := by
  intro h
  have hwrite : (7, byte '\\') ∈ (escapeLoop [byte 'a', 1]).writes := by decide +kernel
  have hoff : ¬(7 < (escapeString [byte 'a', 1]).length ∨
      7 = (escapeString [byte 'a', 1]).length ∧ byte '\\' = 0) := by decide +kernel
  exact hoff (h.writes (by decide +kernel) _ hwrite)

end Chanserv.Bytes
