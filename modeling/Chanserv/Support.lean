import Chanserv.Structures

/-! The text functions of the bot: escaping, cutting, cleaning. -/
namespace Chanserv
open Text

/-- `std::iscntrl` of a byte below 0x80; no byte of a longer character is one. -/
def isControl (c : Char) : Bool := c.toNat < 0x20 || c.toNat = 0x7F

def hexDigit (n : Nat) : Char := if n < 10 then Char.ofNat (48 + n) else Char.ofNat (87 + n)

/-- `\u` and four hexadecimal digits, of a code below 0x100. -/
def hexEscape (c : Char) : Text :=
  ['\\', 'u', '0', '0', hexDigit (c.toNat / 16), hexDigit (c.toNat % 16)]

/-- The escape of a character that has one of two letters. -/
def shortEscape (c : Char) : Option Text :=
  if c = '"' then some ['\\', '"']
  else if c = '\\' then some ['\\', '\\']
  else if c.toNat = 8 then some ['\\', 'b']
  else if c.toNat = 12 then some ['\\', 'f']
  else if c = '\n' then some ['\\', 'n']
  else if c = '\r' then some ['\\', 'r']
  else if c = '\t' then some ['\\', 't']
  else none

/-- One character of `escape_json_entire_text`. -/
def escapeChar (c : Char) : Text :=
  match shortEscape c with
  | some e => e
  | none => if isControl c then hexEscape c else [c]

def escapeJsonEntireText (t : Text) : Text := t.flatMap escapeChar

/-- What goes into a request is escaped in place; a Jira label holds no blanks. -/
def escapeAll (u : UserDispatcher) : UserDispatcher :=
  let section_ := u.jiraTask.section_.filter (· ≠ ' ')
  { u with jiraTask :=
    { u.jiraTask with
      category := escapeJsonEntireText u.jiraTask.category
      consumerName := escapeJsonEntireText u.jiraTask.consumerName
      description := escapeJsonEntireText u.jiraTask.description
      project := escapeJsonEntireText u.jiraTask.project
      section_ := escapeJsonEntireText section_
      subj := escapeJsonEntireText u.jiraTask.subj } }

/-- One character of `escape_string`, which knows the controls below 0x20 only. -/
def escapeStringChar (c : Char) : Text :=
  match shortEscape c with
  | some e => e
  | none => if c.toNat < 0x20 then hexEscape c else [c]

def escapeString (t : Text) : Text := t.flatMap escapeStringChar

/-- `boost::replace_all(t, "{", "\\\\{")`: two backslashes before every brace. -/
def replaceBraces (t : Text) : Text :=
  t.flatMap fun c => if c = '{' then ['\\', '\\', '{'] else [c]

/-- At most `width` UTF-16 units of the text, and three dots if it was cut. -/
def truncateMsgFromUser (t : Text) (width : Nat) : Text :=
  if utf16Length t > width then takeUnits width t ++ of "..." else t

/-- `std::regex_replace(text, std::regex("[\r\t\n]+"), "")`. -/
def stripLineBreaks (t : Text) : Text := t.filter fun c => c ≠ '\r' ∧ c ≠ '\t' ∧ c ≠ '\n'

/-- `QString::toHtmlEscaped()`. -/
def toHtmlEscaped (t : Text) : Text :=
  t.flatMap fun c =>
    if c = '<' then of "&lt;"
    else if c = '>' then of "&gt;"
    else if c = '&' then of "&amp;"
    else if c = '"' then of "&quot;"
    else [c]

/-- `QString::split("\\n", Qt::SkipEmptyParts)`: the separator is a backslash and an `n`. -/
def splitPhotos (t : Text) : List Text := (go t []).filter (· ≠ [])
where
  go : Text → Text → List Text
    | '\\' :: 'n' :: t, part => part.reverse :: go t []
    | c :: t, part => go t (c :: part)
    | [], part => [part.reverse]

/-- Which of the issues shown in the last list a message belongs to. The outer
`none` is a read past the end of `recent_msgs`. -/
def getSelectedIssueId (msgId : Int) (issues : List PgdbIssue) (recentMessageIds : List Int)
    (recentMsgs : List MostRecentMsgs) : Option (Option PgdbIssue) :=
  match recentMessageIds.idxOf? msgId with
  | none => some none
  | some selectedButton =>
    match recentMsgs[selectedButton]? with
    | none => none
    | some recent => some (issues.find? fun issue => issue.id = recent.msQueryRowId)

/-- The outcome of one download. -/
inductive Download where
  | noFile
  | failed
  | answered (status : Int)
deriving DecidableEq, Repr

/-- The local path of a downloaded file, empty if the download failed. -/
def downloadImageFromUrl (r : Download) (uuid fname : Text) : Text :=
  match r with
  | .answered status =>
    if status = 200 ∨ status = 201 then
      of "/tmp/" ++ uuid ++ fname.filter fun c => c ≠ '/' ∧ c ≠ '\\'
    else []
  | _ => []

example : escapeJsonEntireText (of "a\n\"2\"\t\\") = of "a\\n\\\"2\\\"\\t\\\\" := by decide

example : truncateMsgFromUser (of "привет мир") 6 = of "привет..." := by decide

example : splitPhotos (of "a\\nbc\\n") = [of "a", of "bc"] := by decide

end Chanserv
