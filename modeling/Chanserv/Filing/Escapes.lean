import Chanserv.Json.Parser
import Chanserv.Support

/-! What a JSON reader makes of the escaped texts, and of those that were cut.

A text escaped by `escape_json_entire_text` decodes to itself. Cut after a
number of UTF-16 units and followed by dots it still decodes, unless the cut
falls inside an escape sequence: then nothing decodes it. -/
namespace Chanserv
open Text

/-! ### The escape of one character -/

/-- A letter after a backslash, a code after `\u`, or the character itself. -/
inductive Escape (c : Char) : Text → Prop
  | short {d : Char} (h : Json.letterEscape d = some c) (hd : d ≠ 'u' ∧ units d = 1) :
      Escape c ['\\', d]
  | hex {a b : Char} {m n : Nat} (ha : Json.hexValue a = some m ∧ units a = 1)
      (hb : Json.hexValue b = some n ∧ units b = 1) (hc : m * 16 + n = c.toNat)
      (hlow : c.toNat < 0x80) : Escape c ['\\', 'u', '0', '0', a, b]
  | plain (h : Json.Unescaped c) : Escape c [c]

theorem hexValue_hexDigit : ∀ n < 16, Json.hexValue (hexDigit n) = some n ∧ units (hexDigit n) = 1 := by
  decide

theorem escape_shortEscape {c : Char} {t : Text} (h : shortEscape c = some t) : Escape c t := by
  unfold shortEscape at h
  have hcode {n : Nat} (h : c.toNat = n) : c = Char.ofNat n := by rw [← h, Char.ofNat_toNat]
  split at h
  case isTrue hc => cases h; subst hc; exact .short rfl (by decide)
  split at h
  case isTrue hc => cases h; subst hc; exact .short rfl (by decide)
  split at h
  case isTrue hc => cases h; rw [hcode hc]; exact .short rfl (by decide)
  split at h
  case isTrue hc => cases h; rw [hcode hc]; exact .short rfl (by decide)
  split at h
  case isTrue hc => cases h; subst hc; exact .short rfl (by decide)
  split at h
  case isTrue hc => cases h; subst hc; exact .short rfl (by decide)
  split at h
  case isTrue hc => cases h; subst hc; exact .short rfl (by decide)
  cases h

theorem unescaped_of_none {c : Char} (h : shortEscape c = none) (hc : 0x20 ≤ c.toNat) :
    Json.Unescaped c := by
  refine ⟨?_, ?_, hc⟩
  · rintro rfl
    cases h
  · rintro rfl
    cases h

theorem escape_hexEscape {c : Char} (h : c.toNat < 0x80) : Escape c (hexEscape c) :=
  .hex (hexValue_hexDigit _ (by omega)) (hexValue_hexDigit _ (by omega)) (by omega) h

theorem escape_escapeChar (c : Char) : Escape c (escapeChar c) := by
  unfold escapeChar
  split
  · next e h => exact escape_shortEscape h
  · next h =>
    split
    · next hc =>
      apply escape_hexEscape
      simp only [isControl, Bool.or_eq_true, decide_eq_true_eq] at hc
      omega
    · next hc =>
      apply Escape.plain (unescaped_of_none h _)
      simp only [isControl, Bool.or_eq_true, decide_eq_true_eq] at hc
      omega

theorem escape_escapeStringChar (c : Char) : Escape c (escapeStringChar c) := by
  unfold escapeStringChar
  split
  · next e h => exact escape_shortEscape h
  · next h =>
    split
    · next hc => exact escape_hexEscape (by omega)
    · next hc => exact .plain (unescaped_of_none h (by omega))

/-! ### Reading escapes -/

theorem run_escape {c : Char} {e : Text} (h : Escape c e) (ts : List Json.Token) (acc : Text) :
    Json.run ⟨ts, .str acc⟩ e = some ⟨ts, .str (acc ++ [c])⟩ := by
  cases h with
  | short h hd => simp [Json.step, hd.1, h]
  | @hex a b m n ha hb hc hlow =>
    have h0 : Json.hexValue '0' = some 0 := by decide
    have hcode : Json.unicodeEscape acc none (m * 16 + n) = some (.str (acc ++ [c])) := by
      rw [hc, Json.unicodeEscape, if_neg (by omega), if_neg (by omega), Char.ofNat_toNat]
    simp [Json.step, h0, ha.1, hb.1, hcode]
  | plain h => rw [Json.run_cons, Json.step_unescaped h, Option.bind_some, Json.run_nil]

theorem spells_escapeChar : Json.Spells escapeChar fun c => [c] :=
  fun c => run_escape (escape_escapeChar c)

/-- An escaped text decodes to itself. -/
theorem run_escaped (t : Text) (ts : List Json.Token) (acc : Text) :
    Json.run ⟨ts, .str acc⟩ (escapeJsonEntireText t) = some ⟨ts, .str (acc ++ t)⟩ := by
  rw [escapeJsonEntireText, Json.run_spelled spells_escapeChar, List.flatMap_singleton']

/-! ### Cutting escapes -/

theorem Escape.units {c : Char} {e : Text} (h : Escape c e) (hlen : 1 < e.length) :
    ∀ d ∈ e, Text.units d = 1 := by
  cases h with
  | short h hd => simp [hd.2, units_of_lt]
  | hex ha hb hc hlow => simp [ha.2, hb.2, units_of_lt]
  | plain h => simp at hlen

theorem Escape.length {c : Char} {e : Text} (h : Escape c e) (hne : e ≠ [c]) : 1 < e.length := by
  cases h with
  | short h hd => simp
  | hex ha hb hc hlow => simp
  | plain h => exact absurd rfl hne

/-- An escape is no shorter than what it stands for. -/
theorem Escape.le {c : Char} {e : Text} (h : Escape c e) : Text.units c ≤ utf16Length e := by
  have hc := units_le_two c
  cases h with
  | short h hd =>
    have := units_pos '\\'
    simp only [utf16Length_cons, hd.2, utf16Length_nil]
    omega
  | hex ha hb hc hlow =>
    have hu : Text.units c = 1 := units_of_lt (by omega)
    simp only [utf16Length_cons, hu]
    have := units_pos '\\'
    omega
  | plain h => simp

/-- A torn escape, followed by dots, decodes to nothing. -/
theorem run_torn {c : Char} {e : Text} (h : Escape c e) {k : Nat} (hpos : 0 < k) (hk : k < e.length)
    (ts : List Json.Token) (acc rest : Text) :
    Json.run ⟨ts, .str acc⟩ (e.take k ++ (of "..." ++ rest)) = none := by
  have hdots : of "..." ++ rest = '.' :: ('.' :: '.' :: rest) := rfl
  have hdot : Json.hexValue '.' = none := by decide
  have hletter : Json.letterEscape '.' = none := rfl
  have h0 : Json.hexValue '0' = some 0 := by decide
  rw [hdots]
  cases h with
  | @short d h hd =>
    have hk1 : k = 1 := by simp at hk; omega
    subst hk1
    simp [Json.step, hletter]
  | @hex a b m n ha hb hc hlow =>
    have hcases : k = 1 ∨ k = 2 ∨ k = 3 ∨ k = 4 ∨ k = 5 := by simp at hk; omega
    rcases hcases with rfl | rfl | rfl | rfl | rfl <;> simp [Json.step, hletter, hdot, h0, ha.1]
  | plain h => simp at hk; omega

/-- No escape sequence lies across the first `w` units of the escaped text. -/
def cutClean (w : Nat) : Text → Bool
  | [] => true
  | c :: t =>
    if utf16Length (escapeChar c) ≤ w then cutClean (w - utf16Length (escapeChar c)) t
    else w = 0 || escapeChar c = [c]

/-- A clean cut leaves the escape of a beginning, and half a character at most. -/
theorem takeUnits_clean {w : Nat} {x : Text} (h : cutClean w x) :
    ∃ p half, p <+: x ∧ (half = [] ∨ half = [replacement]) ∧
      takeUnits w (escapeJsonEntireText x) = escapeJsonEntireText p ++ half := by
  induction x generalizing w with
  | nil => exact ⟨[], [], List.prefix_refl _, .inl rfl, by simp [escapeJsonEntireText]⟩
  | cons c t ih =>
    have hesc : escapeJsonEntireText (c :: t) = escapeChar c ++ escapeJsonEntireText t := rfl
    rw [cutClean] at h
    by_cases hc : utf16Length (escapeChar c) ≤ w
    · rw [if_pos hc] at h
      obtain ⟨p, half, hp, hhalf, htake⟩ := ih h
      refine ⟨c :: p, half, (List.cons_prefix_cons.mpr ⟨rfl, hp⟩), hhalf, ?_⟩
      rw [hesc, takeUnits_append_of_le hc, htake, ← List.append_assoc]
      rfl
    · rw [if_neg hc, Bool.or_eq_true, decide_eq_true_eq, decide_eq_true_eq] at h
      by_cases hw : w = 0
      · subst hw
        exact ⟨[], [], List.nil_prefix, .inl rfl, by simp [escapeJsonEntireText]⟩
      · have hplain := h.resolve_left hw
        refine ⟨[], [replacement], List.nil_prefix, .inr rfl, ?_⟩
        rw [hplain, utf16Length_cons, utf16Length_nil] at hc
        rw [hesc, hplain, List.singleton_append, takeUnits, if_neg (by omega), if_neg hw]
        rfl

/-- A cut that is not clean tears an escape. -/
theorem takeUnits_torn {w : Nat} {x : Text} (h : cutClean w x = false) :
    w < utf16Length (escapeJsonEntireText x) ∧
      ∃ p c k, 0 < k ∧ k < (escapeChar c).length ∧
        takeUnits w (escapeJsonEntireText x) = escapeJsonEntireText p ++ (escapeChar c).take k := by
  induction x generalizing w with
  | nil => cases h
  | cons c t ih =>
    have hesc : escapeJsonEntireText (c :: t) = escapeChar c ++ escapeJsonEntireText t := rfl
    rw [cutClean] at h
    by_cases hc : utf16Length (escapeChar c) ≤ w
    · rw [if_pos hc] at h
      obtain ⟨hlt, p, d, k, hpos, hk, htake⟩ := ih h
      refine ⟨by rw [hesc, utf16Length_append]; omega, c :: p, d, k, hpos, hk, ?_⟩
      rw [hesc, takeUnits_append_of_le hc, htake, ← List.append_assoc]
      rfl
    · rw [if_neg hc, Bool.or_eq_false_iff, decide_eq_false_iff_not, decide_eq_false_iff_not] at h
      have hlen := (escape_escapeChar c).length h.2
      have hunits := (escape_escapeChar c).units hlen
      have hlt : w < utf16Length (escapeChar c) := by omega
      refine ⟨by rw [hesc, utf16Length_append]; omega, [], c, w, by omega, ?_, ?_⟩
      · rwa [utf16Length_of_units hunits] at hlt
      · rw [hesc, takeUnits_append_of_lt hlt, takeUnits_of_units hunits]
        rfl

end Chanserv
