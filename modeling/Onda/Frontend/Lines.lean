import Mathlib.Data.List.Infix
import Mathlib.Data.List.DropRight

/-!
# Lines of source text

Source text as its characters, and what the parser's scanners see in one line: its code in
front of a comment, the characters outside quotes, and its indentation.  Positions in a
line count characters.
-/

namespace Onda.Frontend

/-- Source text. -/
abbrev Text := List Char

/-! ### White space -/

/-- `char::is_whitespace`: the characters with the property `White_Space`. -/
def isWhitespace (char : Char) : Bool :=
  let code := char.toNat
  (9 ≤ code ∧ code ≤ 13) ∨ code = 0x20 ∨ code = 0x85 ∨ code = 0xA0 ∨ code = 0x1680
    ∨ (0x2000 ≤ code ∧ code ≤ 0x200A) ∨ code = 0x2028 ∨ code = 0x2029 ∨ code = 0x202F
    ∨ code = 0x205F ∨ code = 0x3000

/-- `str::trim_start`. -/
def trimStart (text : Text) : Text := text.dropWhile isWhitespace

/-- `str::trim_end`. -/
def trimEnd (text : Text) : Text := text.rdropWhile isWhitespace

/-- `str::trim`. -/
def trim (text : Text) : Text := trimEnd (trimStart text)

/-! ### Lines -/

/-- `str::split_inclusive('\n')`. -/
def splitInclusive : Text → List Text
  | [] => []
  | '\n' :: text => ['\n'] :: splitInclusive text
  | char :: text =>
    match splitInclusive text with
    | [] => [[char]]
    | line :: lines => (char :: line) :: lines

/-- `str::strip_suffix` of one character. -/
def stripSuffix (suffix : Char) (text : Text) : Option Text :=
  if text.getLast? = some suffix then some text.dropLast else none

/-- A line without its end, as `str::lines` yields it. -/
def stripLineEnd (line : Text) : Text :=
  match stripSuffix '\n' line with
  | none => line
  | some line => (stripSuffix '\r' line).getD line

/-- `str::lines`. -/
def lines (source : Text) : List Text := (splitInclusive source).map stripLineEnd

/-- A line without a carriage return at its end. -/
def withoutReturn (line : Text) : Text := (stripSuffix '\r' line).getD line

/-! ### Quotes -/

/-- Whether a scanner is in quoted text, and behind a backslash there. -/
structure Quoting where
  quoted : Bool
  escaped : Bool
deriving DecidableEq

def Quoting.outside : Quoting := ⟨false, false⟩

/-- The state behind a character, and whether the character is outside quoted text. -/
def Quoting.next : Quoting → Char → Quoting × Bool
  | ⟨true, true⟩, _ => (⟨true, false⟩, false)
  | ⟨true, false⟩, '\\' => (⟨true, true⟩, false)
  | ⟨true, false⟩, '"' => (⟨false, false⟩, false)
  | ⟨true, false⟩, _ => (⟨true, false⟩, false)
  | ⟨false, escaped⟩, '"' => (⟨true, escaped⟩, false)
  | ⟨false, escaped⟩, _ => (⟨false, escaped⟩, true)

/-- The characters outside quotes from a position on. -/
def unquotedFrom (quoting : Quoting) (position : Nat) : Text → List (Nat × Char)
  | [] => []
  | char :: text =>
    if (quoting.next char).2 then
      (position, char) :: unquotedFrom (quoting.next char).1 (position + 1) text
    else unquotedFrom (quoting.next char).1 (position + 1) text

/-- `unquoted_chars`. -/
def unquotedChars (line : Text) : List (Nat × Char) := unquotedFrom Quoting.outside 0 line

/-- `split_comment`: the code of a line and its comment. -/
def splitComment (line : Text) : Text × Option Text :=
  match (unquotedChars line).find? fun entry => entry.2 = '#' with
  | some (position, _) => (line.take position, some (line.drop (position + 1)))
  | none => (line, none)

/-- The code of a line. -/
def code (line : Text) : Text := (splitComment line).1

/-! ### Indentation -/

/-- `leading_indent_width`. -/
def leadingIndentWidth : Text → Nat
  | ' ' :: text => leadingIndentWidth text + 1
  | '\t' :: text => leadingIndentWidth text + 2
  | _ => 0

/-! ### Continuations -/

/-- `ContinuationDelimiter`. -/
inductive ContinuationDelimiter where
  | parenthesis | bracket | brace
deriving DecidableEq, Repr

/-- `contains_assignment_operator`, behind a character. -/
def assignmentBehind (prev : Option Char) : Text → Bool
  | [] => false
  | char :: text =>
    if char = '=' ∧ prev ∉ [some '!', some '<', some '>', some '=']
        ∧ text.head? ∉ [some '=', some '>'] then true
    else assignmentBehind (some char) text

/-- `contains_assignment_operator`. -/
def containsAssignmentOperator (text : Text) : Bool := assignmentBehind none text

/-- `is_continuation_opening_brace`, for what stands in front of the brace. -/
def opensContinuation (front : Text) : Bool :=
  let before := trimEnd front
  if (trim before).isEmpty then true
  else if ['>', '>'] <:+: before ∨ ['<', '<'] <:+: before then true
  else if containsAssignmentOperator before then true
  else before.getLast? ∈ [some ',', some '(', some '[', some '{']

/-- `close_continuation`; the delimiters are innermost first. -/
def closeContinuation (delimiters : List ContinuationDelimiter) (expected : ContinuationDelimiter) :
    List ContinuationDelimiter :=
  if delimiters.head? = some expected then delimiters.tail else delimiters

/-- One character of `apply_continuation_delimiters`. -/
def applyDelimiter (line : Text) (delimiters : List ContinuationDelimiter) (entry : Nat × Char) :
    List ContinuationDelimiter :=
  match entry.2 with
  | '(' => .parenthesis :: delimiters
  | '[' => .bracket :: delimiters
  | '{' =>
    if opensContinuation (line.take entry.1) then .brace :: delimiters else delimiters
  | ')' => closeContinuation delimiters .parenthesis
  | ']' => closeContinuation delimiters .bracket
  | '}' => closeContinuation delimiters .brace
  | _ => delimiters

/-- `apply_continuation_delimiters`. -/
def applyContinuationDelimiters (delimiters : List ContinuationDelimiter) (line : Text) :
    List ContinuationDelimiter :=
  (unquotedChars line).foldl (applyDelimiter line) delimiters

/-- `ends_angle_continuation`. -/
def endsAngleContinuation (line : Text) : Bool :=
  let trimmed := trimEnd line
  match ((unquotedChars trimmed).filter fun entry => !isWhitespace entry.2).getLast? with
  | some (position, char) => position + 1 = trimmed.length ∧ char ∈ ['<', ',', '=']
  | none => false

/-- `starts_angle_continuation`. -/
def startsAngleContinuation (line : Text) : Bool :=
  match (unquotedChars line).find? fun entry => !isWhitespace entry.2 with
  | some (_, char) => char ∈ ['>', ',', '=']
  | none => false

end Onda.Frontend
