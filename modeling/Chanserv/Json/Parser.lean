import Chanserv.Json.Lexer

/-! JSON documents.

`parse` accepts a text exactly when it is a JSON document, and says which value
it writes. Members keep their order and their repetitions, so a theorem about a
parsed object says what all of its members are. -/
namespace Chanserv.Json
open Text

inductive Value where
  | null
  | bool (b : Bool)
  | number (literal : Text)
  | string (t : Text)
  | array (vs : List Value)
  | object (ms : List (Text × Value))

/-- Digits, and nothing else, at least one. -/
def isDigits (t : Text) : Bool := !t.isEmpty && t.all Char.isDigit

def isExponent : Text → Bool
  | [] => true
  | c :: t => (c = 'e' || c = 'E') &&
    match t with
    | '+' :: t => isDigits t
    | '-' :: t => isDigits t
    | t => isDigits t

def isFraction : Text → Bool
  | '.' :: t => isDigits (t.takeWhile Char.isDigit) && isExponent (t.dropWhile Char.isDigit)
  | t => isExponent t

def isUnsigned : Text → Bool
  | '0' :: t => isFraction t
  | t => isDigits (t.takeWhile Char.isDigit) && isFraction (t.dropWhile Char.isDigit)

/-- The number grammar. -/
def isNumber : Text → Bool
  | '-' :: t => isUnsigned t
  | t => isUnsigned t

def literal (w : Text) : Option Value :=
  if w = of "null" then some .null
  else if w = of "true" then some (.bool true)
  else if w = of "false" then some (.bool false)
  else if isNumber w then some (.number w)
  else none

mutual

/-- A value at the front of the tokens, and what follows it. -/
def value : Nat → List Token → Option (Value × List Token)
  | 0, _ => none
  | _ + 1, .str t :: ts => some (.string t, ts)
  | _ + 1, .word w :: ts => (literal w).map (·, ts)
  | _ + 1, .lbracket :: .rbracket :: ts => some (.array [], ts)
  | n + 1, .lbracket :: ts => (elements n ts).map fun (vs, ts) => (.array vs, ts)
  | _ + 1, .lbrace :: .rbrace :: ts => some (.object [], ts)
  | n + 1, .lbrace :: ts => (members n ts).map fun (ms, ts) => (.object ms, ts)
  | _ + 1, _ => none

/-- The values up to the closing bracket. -/
def elements : Nat → List Token → Option (List Value × List Token)
  | 0, _ => none
  | n + 1, ts =>
    match value n ts with
    | some (v, .comma :: ts) => (elements n ts).map fun (vs, ts) => (v :: vs, ts)
    | some (v, .rbracket :: ts) => some ([v], ts)
    | _ => none

/-- The members up to the closing brace. -/
def members : Nat → List Token → Option (List (Text × Value) × List Token)
  | 0, _ => none
  | n + 1, .str k :: .colon :: ts =>
    match value n ts with
    | some (v, .comma :: ts) => (members n ts).map fun (ms, ts) => ((k, v) :: ms, ts)
    | some (v, .rbrace :: ts) => some ([(k, v)], ts)
    | _ => none
  | _ + 1, _ => none

end

/-- The value of a token sequence; every level of nesting and every member
consumes a token, so the fuel does not run out before they do. -/
def document (ts : List Token) : Option Value :=
  match value (2 * ts.length + 1) ts with
  | some (v, []) => some v
  | _ => none

/-- The document a text writes. -/
def parse (t : Text) : Option Value := (tokenize t).bind document

/-- `value.at(key)`: fails on anything but an object with that member. -/
def Value.at (v : Value) (key : Text) : Option Value :=
  match v with
  | .object ms => (ms.find? fun m => m.1 = key).map Prod.snd
  | _ => none

/-- `value_to<std::string>`. -/
def Value.toText : Value → Option Text
  | .string t => some t
  | _ => none

/-- `value_to<bool>`. -/
def Value.toBool : Value → Option Bool
  | .bool b => some b
  | _ => none

theorem parse_of_run {t : Text} {ts : List Token} (h : run ⟨[], .blank⟩ t = some ⟨ts, .blank⟩) :
    parse t = document ts := by
  simp only [parse, tokenize, h, Option.bind_some]

theorem parse_of_run_none {t : Text} (h : run ⟨[], .blank⟩ t = none) : parse t = none := by
  simp only [parse, tokenize, h, Option.bind_none]

end Chanserv.Json
