import Chanserv.Text.Utf16
import Mathlib.Data.List.Basic

/-! JSON tokens, read character by character.

The lexer is an automaton: `step` consumes one character, so what it makes of a
text put together from pieces is what it makes of the pieces in turn
(`run_append`). Inside a string literal its state is the text decoded so far.
An escaping that writes, for each character, something the automaton decodes to
`d c` (`Spells`) can then be spliced into any literal (`run_spelled`). -/
namespace Chanserv.Json

inductive Token where
  | lbrace | rbrace | lbracket | rbracket | colon | comma
  | str (t : Text)
  /-- A number or one of the three names, not yet checked. -/
  | word (w : Text)
deriving DecidableEq, Repr

/-- What the lexer is in the middle of. -/
inductive Mode where
  | blank
  | word (w : Text)
  | str (acc : Text)
  | escape (acc : Text)
  /-- `left` hexadecimal digits of an escape are missing; `high` is a first half. -/
  | hex (acc : Text) (high : Option Nat) (left : Nat) (value : Nat)
  /-- After the first half of a surrogate pair: a backslash is due, then `u`. -/
  | pair (acc : Text) (high : Nat) (backslash : Bool)
deriving DecidableEq, Repr

structure Lexer where
  tokens : List Token
  mode : Mode
deriving DecidableEq, Repr

def isBlank (c : Char) : Bool := c = ' ' || c = '\t' || c = '\n' || c = '\r'

def isWord (c : Char) : Bool := c.isAlphanum || c = '-' || c = '+' || c = '.'

def hexValue (c : Char) : Option Nat :=
  if '0' ≤ c ∧ c ≤ '9' then some (c.toNat - 48)
  else if 'a' ≤ c ∧ c ≤ 'f' then some (c.toNat - 87)
  else if 'A' ≤ c ∧ c ≤ 'F' then some (c.toNat - 55)
  else none

/-- The one-letter escapes. -/
def letterEscape (c : Char) : Option Char :=
  match c with
  | '"' => some '"'
  | '\\' => some '\\'
  | '/' => some '/'
  | 'b' => some (Char.ofNat 8)
  | 'f' => some (Char.ofNat 12)
  | 'n' => some '\n'
  | 'r' => some '\r'
  | 't' => some '\t'
  | _ => none

/-- A complete `\uXXXX`: a character, half a pair, or nothing valid. -/
def unicodeEscape (acc : Text) (high : Option Nat) (v : Nat) : Option Mode :=
  match high with
  | none =>
    if 0xD800 ≤ v ∧ v < 0xDC00 then some (.pair acc v false)
    else if 0xDC00 ≤ v ∧ v < 0xE000 then none
    else some (.str (acc ++ [Char.ofNat v]))
  | some h =>
    if 0xDC00 ≤ v ∧ v < 0xE000 then
      some (.str (acc ++ [Char.ofNat (0x10000 + (h - 0xD800) * 0x400 + (v - 0xDC00))]))
    else none

/-- One character between tokens. -/
def stepBlank (ts : List Token) (c : Char) : Option Lexer :=
  if isBlank c then some ⟨ts, .blank⟩
  else if isWord c then some ⟨ts, .word [c]⟩
  else match c with
    | '{' => some ⟨ts ++ [.lbrace], .blank⟩
    | '}' => some ⟨ts ++ [.rbrace], .blank⟩
    | '[' => some ⟨ts ++ [.lbracket], .blank⟩
    | ']' => some ⟨ts ++ [.rbracket], .blank⟩
    | ':' => some ⟨ts ++ [.colon], .blank⟩
    | ',' => some ⟨ts ++ [.comma], .blank⟩
    | '"' => some ⟨ts, .str []⟩
    | _ => none

def step (s : Lexer) (c : Char) : Option Lexer :=
  match s.mode with
  | .blank => stepBlank s.tokens c
  | .word w =>
    if isWord c then some ⟨s.tokens, .word (w ++ [c])⟩
    else stepBlank (s.tokens ++ [.word w]) c
  | .str acc =>
    if c = '"' then some ⟨s.tokens ++ [.str acc], .blank⟩
    else if c = '\\' then some ⟨s.tokens, .escape acc⟩
    else if c.toNat < 0x20 then none
    else some ⟨s.tokens, .str (acc ++ [c])⟩
  | .escape acc =>
    if c = 'u' then some ⟨s.tokens, .hex acc none 4 0⟩
    else (letterEscape c).map fun d => ⟨s.tokens, .str (acc ++ [d])⟩
  | .hex acc high left value =>
    match hexValue c with
    | none => none
    | some d =>
      if left = 1 then (unicodeEscape acc high (value * 16 + d)).map fun m => ⟨s.tokens, m⟩
      else some ⟨s.tokens, .hex acc high (left - 1) (value * 16 + d)⟩
  | .pair acc high backslash =>
    if backslash then
      if c = 'u' then some ⟨s.tokens, .hex acc (some high) 4 0⟩ else none
    else if c = '\\' then some ⟨s.tokens, .pair acc high true⟩ else none

def run (s : Lexer) (t : Text) : Option Lexer := t.foldlM step s

/-- The tokens of a whole text. -/
def tokenize (t : Text) : Option (List Token) :=
  match run ⟨[], .blank⟩ t with
  | some ⟨ts, .blank⟩ => some ts
  | some ⟨ts, .word w⟩ => some (ts ++ [.word w])
  | _ => none

@[simp] theorem run_nil (s : Lexer) : run s [] = some s := rfl

@[simp] theorem run_cons (s : Lexer) (c : Char) (t : Text) :
    run s (c :: t) = (step s c).bind fun s' => run s' t := rfl

theorem run_append (s : Lexer) (a b : Text) :
    run s (a ++ b) = (run s a).bind fun s' => run s' b :=
  List.foldlM_append

theorem run_append_of_some {s s' : Lexer} {a : Text} (h : run s a = some s') (b : Text) :
    run s (a ++ b) = run s' b := by
  rw [run_append, h, Option.bind_some]

theorem run_append_of_none {s : Lexer} {a : Text} (h : run s a = none) (b : Text) :
    run s (a ++ b) = none := by
  rw [run_append, h, Option.bind_none]

/-- Tokens read before are kept, and nothing else depends on them. -/
theorem step_tokens (ts us : List Token) (m : Mode) (c : Char) :
    step ⟨ts ++ us, m⟩ c = (step ⟨us, m⟩ c).map fun s => ⟨ts ++ s.tokens, s.mode⟩ := by
  have hblank (vs : List Token) : stepBlank (ts ++ vs) c =
      (stepBlank vs c).map fun s => ⟨ts ++ s.tokens, s.mode⟩ := by
    unfold stepBlank
    split
    · rfl
    · split
      · rfl
      · split <;> simp
  cases m with
  | blank => exact hblank us
  | word w =>
    simp only [step]
    split
    · rfl
    · rw [List.append_assoc]
      exact hblank _
  | str acc =>
    simp only [step]
    split
    · simp
    · split
      · rfl
      · split <;> rfl
  | escape acc =>
    simp only [step]
    split
    · rfl
    · cases letterEscape c <;> rfl
  | hex acc high left value =>
    simp only [step]
    split
    · rfl
    · split
      · cases unicodeEscape acc high _ <;> rfl
      · rfl
  | pair acc high backslash =>
    simp only [step]
    split
    · split <;> rfl
    · split <;> rfl

theorem run_tokens {us us' : List Token} {m m' : Mode} {t : Text} (h : run ⟨us, m⟩ t = some ⟨us', m'⟩)
    (ts : List Token) : run ⟨ts ++ us, m⟩ t = some ⟨ts ++ us', m'⟩ := by
  induction t generalizing us m with
  | nil =>
    rw [run_nil, Option.some.injEq] at h
    cases h
    rfl
  | cons c t ih =>
    rw [run_cons] at h
    obtain ⟨⟨us₁, m₁⟩, hstep, hrest⟩ := Option.bind_eq_some_iff.mp h
    rw [run_cons, step_tokens, hstep]
    exact ih hrest

/-! ### Inside a string literal -/

/-- `e` writes a character so that a literal decodes it to `d`. -/
def Spells (e d : Char → Text) : Prop :=
  ∀ (c : Char) (ts : List Token) (acc : Text),
    run ⟨ts, .str acc⟩ (e c) = some ⟨ts, .str (acc ++ d c)⟩

theorem run_spelled {e d : Char → Text} (h : Spells e d) (t : Text) (ts : List Token) (acc : Text) :
    run ⟨ts, .str acc⟩ (t.flatMap e) = some ⟨ts, .str (acc ++ t.flatMap d)⟩ := by
  induction t generalizing acc with
  | nil => simp
  | cons c t ih =>
    rw [List.flatMap_cons, run_append_of_some (h c ts acc), ih, List.append_assoc,
      List.flatMap_cons]

/-- A character a literal may hold as it is. -/
def Unescaped (c : Char) : Prop := c ≠ '"' ∧ c ≠ '\\' ∧ 0x20 ≤ c.toNat

instance (c : Char) : Decidable (Unescaped c) := by
  unfold Unescaped
  infer_instance

theorem step_unescaped {c : Char} (h : Unescaped c) (ts : List Token) (acc : Text) :
    step ⟨ts, .str acc⟩ c = some ⟨ts, .str (acc ++ [c])⟩ := by
  obtain ⟨hq, hb, hc⟩ := h
  simp [step, hq, hb, Nat.not_lt.mpr hc]

theorem run_unescaped {t : Text} (h : ∀ c ∈ t, Unescaped c) (ts : List Token) (acc : Text) :
    run ⟨ts, .str acc⟩ t = some ⟨ts, .str (acc ++ t)⟩ := by
  induction t generalizing acc with
  | nil => simp
  | cons c t ih =>
    rw [run_cons, step_unescaped (h c (List.mem_cons_self ..)), Option.bind_some,
      ih fun d hd => h d (List.mem_cons_of_mem c hd), List.append_assoc, List.singleton_append]

/-- The quote ends the literal. -/
theorem step_quote (ts : List Token) (acc : Text) :
    step ⟨ts, .str acc⟩ '"' = some ⟨ts ++ [.str acc], .blank⟩ := by
  simp [step]

/-- The quote that ends a literal, and the tokens after it. -/
theorem run_close {t : Text} {us : List Token} {m : Mode} (h : run ⟨[], .blank⟩ t = some ⟨us, m⟩)
    (ts : List Token) (acc : Text) :
    run ⟨ts, .str acc⟩ ('"' :: t) = some ⟨ts ++ .str acc :: us, m⟩ := by
  have hrest := run_tokens h (ts ++ [.str acc])
  rw [List.append_nil, List.append_assoc] at hrest
  rw [run_cons, step_quote]
  exact hrest

end Chanserv.Json
