import Onda.Frontend.Lines

/-!
# The indentation preprocessor

A line whose code ends in `:` opens a block: the preprocessor writes ` {` for the colon,
and a line `}` where the indentation says that the block is over.  Two stacks decide: the
indentations of the open blocks, and the delimiters that the code so far leaves open, inside
which a line belongs to the statement before it.
-/

namespace Onda.Frontend

/-- `Diagnostic::syntax`. -/
structure Diagnostic where
  message : String
  line : Nat
  column : Nat
deriving DecidableEq, Repr

def Diagnostic.syntaxError (message : String) (line column : Nat) : Diagnostic :=
  ⟨message, line, column⟩

/-- The text written so far, and the source line of each of its lines. -/
structure MappedText where
  out : Text
  lineMap : List Nat
deriving DecidableEq

/-- `push_mapped_line`. -/
def MappedText.push (mapped : MappedText) (text : Text) (sourceLine : Nat) : MappedText where
  out := mapped.out ++ text ++ ['\n']
  lineMap := mapped.lineMap ++ [sourceLine]

/-- `PendingIndentBlock`: a header whose block has no line yet. -/
structure PendingIndentBlock where
  line : Nat
  indent : Nat
deriving DecidableEq

/-- The variables of `preprocess_indentation_blocks`; both stacks are innermost first. -/
structure Preprocessor where
  mapped : MappedText
  indentStack : List Nat
  pending : Option PendingIndentBlock
  continuationDelimiters : List ContinuationDelimiter
  continuesFromPreviousLine : Bool
  logicalLine : Nat
  logicalIndent : Nat
  lastSourceLine : Nat
deriving DecidableEq

def Preprocessor.start : Preprocessor where
  mapped := ⟨[], []⟩
  indentStack := [0]
  pending := none
  continuationDelimiters := []
  continuesFromPreviousLine := false
  logicalLine := 1
  logicalIndent := 0
  lastSourceLine := 1

/-- The header of a block, when the code of a line ends in a colon. -/
def headerOf (code : Text) : Option Text :=
  (stripSuffix ':' (trimEnd code)).map trimEnd

/-- The blocks that a line with this indentation is behind are closed. -/
def closeBlocks (indentWidth lineNo : Nat) : List Nat → MappedText → List Nat × MappedText
  | top :: below :: stack, mapped =>
    if indentWidth < top then closeBlocks indentWidth lineNo (below :: stack) (mapped.push ['}'] lineNo)
    else (top :: below :: stack, mapped)
  | stack, mapped => (stack, mapped)

/-- All blocks are closed. -/
def closeAll (lineNo : Nat) : List Nat → MappedText → MappedText
  | _ :: below :: stack, mapped => closeAll lineNo (below :: stack) (mapped.push ['}'] lineNo)
  | _, mapped => mapped

namespace Preprocessor

/-- Where the line stands among the open blocks. -/
def indent (state : Preprocessor) (lineNo indentWidth : Nat) (continuesStatement : Bool) :
    Except (List Diagnostic) Preprocessor :=
  match state.pending with
  | some block =>
    if indentWidth ≤ block.indent then
      .error [.syntaxError "expected indented block after ':'" block.line 1]
    else .ok { state with pending := none, indentStack := indentWidth :: state.indentStack }
  | none =>
    if continuesStatement = false ∧ 1 < state.indentStack.length then
      let (stack, mapped) := closeBlocks indentWidth lineNo state.indentStack state.mapped
      if 1 < stack.length ∧ stack.head? ≠ some indentWidth then
        .error [.syntaxError "inconsistent indentation level" lineNo 1]
      else .ok { state with indentStack := stack, mapped := mapped }
    else .ok state

/-- The line is written. -/
def emit (state : Preprocessor) (lineNo : Nat) (line code : Text) :
    Except (List Diagnostic) Preprocessor :=
  match if state.continuationDelimiters.isEmpty then headerOf code else none with
  | some header =>
    if header.isEmpty then .error [.syntaxError "missing block header before ':'" lineNo 1]
    else .ok { state with
      mapped := state.mapped.push (header ++ [' ', '{']) lineNo
      pending := some ⟨state.logicalLine, state.logicalIndent⟩ }
  | none => .ok { state with mapped := state.mapped.push line lineNo }

/-- Whether a line belongs to the statement before it. -/
def continuesStatement (state : Preprocessor) (code : Text) : Bool :=
  !state.continuationDelimiters.isEmpty || state.continuesFromPreviousLine
    || startsAngleContinuation code

/-- The statement that the line begins, if it begins one. -/
def beginStatement (state : Preprocessor) (lineNo indentWidth : Nat) (continues : Bool) :
    Preprocessor :=
  if continues then state else { state with logicalLine := lineNo, logicalIndent := indentWidth }

/-- What the code of a line leaves open. -/
def scan (state : Preprocessor) (code : Text) : Preprocessor :=
  { state with
    continuationDelimiters := applyContinuationDelimiters state.continuationDelimiters code
    continuesFromPreviousLine := endsAngleContinuation code }

/-- One turn of the loop over the source's lines. -/
def step (state : Preprocessor) (lineNo : Nat) (rawLine : Text) :
    Except (List Diagnostic) Preprocessor :=
  let state := { state with lastSourceLine := lineNo }
  let line := withoutReturn rawLine
  let code := code line
  if (trim code).isEmpty then .ok { state with mapped := state.mapped.push line lineNo }
  else do
    let indentWidth := leadingIndentWidth code
    let continues := state.continuesStatement code
    let state ← state.indent lineNo indentWidth continues
    ((state.beginStatement lineNo indentWidth continues).scan code).emit lineNo line code

/-- The loop, from a line number on. -/
def run : Preprocessor → Nat → List Text → Except (List Diagnostic) Preprocessor
  | state, _, [] => .ok state
  | state, lineNo, rawLine :: rest => do (← state.step lineNo rawLine).run (lineNo + 1) rest

/-- What stands behind the loop. -/
def finish (state : Preprocessor) : Except (List Diagnostic) (Text × List Nat) :=
  match state.pending with
  | some block => .error [.syntaxError "expected indented block after ':'" block.line 1]
  | none =>
    let mapped := closeAll state.lastSourceLine state.indentStack state.mapped
    .ok (mapped.out, mapped.lineMap)

end Preprocessor

/-- `preprocess_indentation_blocks`. -/
def preprocessIndentationBlocks (source : Text) : Except (List Diagnostic) (Text × List Nat) := do
  (← Preprocessor.start.run 1 (lines source)).finish

end Onda.Frontend
