import Onda.Frontend.Layout
import Onda.Lib.Effects

/-!
# The indentation preprocessor writes layouts

A run of the preprocessor is a run of the stack of open blocks over the lines that it reads
(`Preprocessor.run_lays`), so what it writes down is a nested layout of the source's lines.
-/

namespace Onda.Frontend

/-! ### Entries of the text -/

namespace MappedText

/-- Lines are written one behind the other. -/
def pushAll (mapped : MappedText) (entries : List (Text × Nat)) : MappedText where
  out := mapped.out ++ entries.flatMap fun entry => entry.1 ++ ['\n']
  lineMap := mapped.lineMap ++ entries.map Prod.snd

variable (mapped : MappedText)

@[simp]
theorem pushAll_nil : mapped.pushAll [] = mapped := by
  simp [pushAll]

theorem push_pushAll (text : Text) (line : Nat) (entries : List (Text × Nat)) :
    (mapped.push text line).pushAll entries = mapped.pushAll ((text, line) :: entries) := by
  simp [pushAll, push]

theorem push_eq (text : Text) (line : Nat) :
    mapped.push text line = mapped.pushAll [(text, line)] := by
  simp [pushAll, push]

theorem pushAll_append (first rest : List (Text × Nat)) :
    mapped.pushAll (first ++ rest) = (mapped.pushAll first).pushAll rest := by
  simp [pushAll]

end MappedText

/-! ### The stack of indentations -/

/-- Braces for closed blocks. -/
def braces (count lineNo : Nat) : List (Text × Nat) := List.replicate count (['}'], lineNo)

/-- The closed blocks are those that the line is in front of. -/
theorem closeBlocks_eq (indentWidth lineNo : Nat) (widths : List Nat) (mapped : MappedText) :
    ∃ closed left, widths = closed ++ left ∧ (∀ width ∈ closed, indentWidth < width)
      ∧ (∀ width ∈ left.head?, width ≤ indentWidth)
      ∧ closeBlocks indentWidth lineNo (widths ++ [0]) mapped
        = (left ++ [0], mapped.pushAll (braces closed.length lineNo)) := by
  induction widths generalizing mapped with
  | nil => exact ⟨[], [], rfl, by simp, by simp, by simp [closeBlocks, braces]⟩
  | cons width widths ih =>
    obtain ⟨below, stack, under⟩ : ∃ below stack, widths ++ [0] = below :: stack :=
      List.exists_cons_of_ne_nil (by simp)
    by_cases less : indentWidth < width
    · obtain ⟨closed, left, rfl, all, head, run⟩ := ih (mapped.push ['}'] lineNo)
      refine ⟨width :: closed, left, rfl, by simpa [less] using all, head, ?_⟩
      rw [List.cons_append, under, closeBlocks, if_pos less, ← under, run]
      rw [MappedText.push_pushAll, braces, braces, List.length_cons, List.replicate_succ]
    · refine ⟨[], width :: widths, rfl, by simp, by simpa using less, ?_⟩
      rw [List.cons_append, under, closeBlocks, if_neg less]
      simp [braces]

theorem closeAll_eq (lineNo : Nat) (widths : List Nat) (mapped : MappedText) :
    closeAll lineNo (widths ++ [0]) mapped = mapped.pushAll (braces widths.length lineNo) := by
  induction widths generalizing mapped with
  | nil => simp [closeAll, braces]
  | cons width widths ih =>
    obtain ⟨below, stack, under⟩ : ∃ below stack, widths ++ [0] = below :: stack :=
      List.exists_cons_of_ne_nil (by simp)
    rw [List.cons_append, under, closeAll, ← under, ih, MappedText.push_pushAll, braces, braces,
      List.length_cons, List.replicate_succ]

/-! ### One line -/

namespace Preprocessor

variable {state state' : Preprocessor} {lineNo indentWidth : Nat}

/-- What the state says about the next line. -/
def carry (state : Preprocessor) : Carry :=
  ⟨state.continuationDelimiters, state.continuesFromPreviousLine, state.logicalIndent⟩

/-- The blocks that are open, and the block that a header has announced. -/
structure Stands (state : Preprocessor) (widths : List Nat) (pending : Bool) : Prop where
  stack : state.indentStack = widths ++ [0]
  announced : state.pending.isSome = pending
  header : ∀ block ∈ state.pending, block.indent = state.logicalIndent

variable {continues pending : Bool} {widths : List Nat}

theorem indent_pending {block : PendingIndentBlock} (pending : state.pending = some block)
    (run : state.indent lineNo indentWidth continues = .ok state') :
    block.indent < indentWidth
      ∧ state' = { state with pending := none, indentStack := indentWidth :: state.indentStack } := by
  rw [indent, pending] at run
  dsimp only at run
  split at run
  · cases run
  · exact ⟨by omega, (Except.ok.inj run).symm⟩

/-- A line with no header in front of it closes the blocks that it is behind, and stands at
the indentation of the innermost block that is left. -/
theorem indent_open (stack : state.indentStack = widths ++ [0]) (pending : state.pending = none)
    (run : state.indent lineNo indentWidth continues = .ok state') :
    ∃ closed left, widths = closed ++ left ∧ (∀ width ∈ closed, indentWidth < width)
      ∧ (closed ≠ [] → continues = false)
      ∧ (continues = false → ∀ width ∈ left.head?, indentWidth = width)
      ∧ state' = { state with
          pending := none
          indentStack := left ++ [0]
          mapped := state.mapped.pushAll (braces closed.length lineNo) } := by
  rw [indent, pending] at run
  dsimp only at run
  split at run
  case isFalse unmoved =>
    cases run
    refine ⟨[], widths, rfl, by simp, by simp, fun statement => ?_, ?_⟩
    swap
    · rw [← stack, ← pending]
      simp [braces]
    have bottom : widths = [] := by
      cases widths with
      | nil => rfl
      | cons => exact absurd ⟨statement, by simp [stack]⟩ unmoved
    simp [bottom]
  case isTrue moved =>
    obtain ⟨closed, left, whole, less, head, closes⟩ :=
      closeBlocks_eq indentWidth lineNo widths state.mapped
    rw [stack, closes] at run
    dsimp only at run
    split at run
    case isTrue => cases run
    case isFalse level =>
      refine ⟨closed, left, whole, less, fun _ => moved.1, fun _ width top => ?_,
        (Except.ok.inj run).symm⟩
      cases left with
      | nil => simp at top
      | cons first left =>
        rw [List.head?_cons, Option.mem_some_iff] at top
        simpa [← top, eq_comm] using level

theorem beginStatement_scan (continues : Bool) (code : Text) :
    (state.beginStatement lineNo indentWidth continues).scan code = { state with
      continuationDelimiters := applyContinuationDelimiters state.continuationDelimiters code
      continuesFromPreviousLine := endsAngleContinuation code
      logicalLine := if continues then state.logicalLine else lineNo
      logicalIndent := if continues then state.logicalIndent else indentWidth } := by
  cases continues <;> rfl

/-- The line that is written. -/
theorem emit_ok {line code : Text} {header : Option Text}
    (header_eq : (if state.continuationDelimiters.isEmpty then headerOf code else none) = header)
    (run : state.emit lineNo line code = .ok state') :
    state'.carry = state.carry ∧ state'.indentStack = state.indentStack
      ∧ state'.lastSourceLine = state.lastSourceLine
      ∧ state'.mapped = state.mapped.push
        (match header with
          | some header => header ++ [' ', '{']
          | none => line) lineNo
      ∧ state'.pending = match header with
        | some _ => some ⟨state.logicalLine, state.logicalIndent⟩
        | none => state.pending := by
  rw [emit, header_eq] at run
  cases header with
  | none =>
    cases run
    exact ⟨rfl, rfl, rfl, rfl, rfl⟩
  | some header =>
    dsimp only at run
    split at run
    · cases run
    · cases run
      exact ⟨rfl, rfl, rfl, rfl, rfl⟩

/-- Braces in front of a statement close the blocks that it is behind. -/
theorem closed_lays {last : Nat} {closed left : List Nat} {logical : Nat} {line : SourceLine}
    {lines : List SourceLine} {out : List (Text × Nat)} (less : ∀ width ∈ closed, line.indent < width)
    (statement : closed ≠ [] → line.Statement)
    (rest : Lays last left false logical (line :: lines) out) :
    Lays last (closed ++ left) false logical (line :: lines)
      (braces closed.length line.number ++ out) := by
  induction closed with
  | nil => exact rest
  | cons width closed ih =>
    rw [List.cons_append, List.length_cons, braces, List.replicate_succ, List.cons_append]
    exact .close (statement (by simp)) (less width (by simp))
      (ih (fun other among => less other (by simp [among])) fun _ => statement (by simp))

theorem closedLast_lays (last : Nat) (widths : List Nat) (logical : Nat) :
    Lays last widths false logical [] (braces widths.length last) := by
  induction widths with
  | nil => exact .done
  | cons width widths ih =>
    rw [List.length_cons, braces, List.replicate_succ]
    exact .closeLast ih

/-- A line of code finds its place among the open blocks. -/
theorem indent_lays (stands : state.Stands widths pending)
    (run : state.indent lineNo indentWidth continues = .ok state') :
    ∃ widths' written,
      state' = { state with
          pending := none
          indentStack := widths' ++ [0]
          mapped := state.mapped.pushAll written }
        ∧ ∀ (line : SourceLine) (last : Nat) (lines : List SourceLine) (out : List (Text × Nat)),
          line.number = lineNo → line.blank = false → line.indent = indentWidth →
          line.continues = continues →
          line.logicalIndent = (if continues then state.logicalIndent else indentWidth) →
          Lays last widths' line.header.isSome line.logicalIndent lines out →
          Lays last widths pending state.logicalIndent (line :: lines)
            (written ++ line.entry :: out) := by
  obtain ⟨stack, announced, header⟩ := stands
  cases awaited : state.pending with
  | some block =>
    obtain ⟨deeper, rfl⟩ := indent_pending awaited run
    rw [← announced, awaited]
    rw [header block awaited] at deeper
    refine ⟨indentWidth :: widths, [], by simp [stack], ?_⟩
    rintro line last lines out rfl code rfl rfl own rest
    exact .first code deeper own rest
  | none =>
    obtain ⟨closed, left, rfl, less, closes, level, rfl⟩ := indent_open stack awaited run
    rw [← announced, awaited]
    refine ⟨left, _, rfl, ?_⟩
    rintro line last lines out rfl code rfl rfl own rest
    exact closed_lays less (fun some => ⟨code, closes some⟩) (.code code level own rest)

/-- A turn of the loop is a turn of the stack. -/
theorem step_lays {raw : Text} (stands : state.Stands widths pending)
    (run : state.step lineNo raw = .ok state') :
    let read := state.carry.read lineNo (withoutReturn raw)
    state'.carry = read.2 ∧ state'.lastSourceLine = lineNo
      ∧ ∃ widths' pending' written, state'.Stands widths' pending'
        ∧ state'.mapped = state.mapped.pushAll written
        ∧ ∀ last lines out, Lays last widths' pending' state'.logicalIndent lines out →
          Lays last widths pending state.logicalIndent (read.1 :: lines) (written ++ out) := by
  rw [step] at run
  intro read
  dsimp only at run
  split at run
  case isTrue blank =>
    have read_eq : read = _ := if_pos blank
    rw [read_eq]
    cases run
    refine ⟨rfl, rfl, widths, pending, [(withoutReturn raw, lineNo)],
      ⟨stands.stack, stands.announced, stands.header⟩, ?_, fun last lines out lays => ?_⟩
    · exact MappedText.push_eq _ _ _
    · exact .blank rfl rfl lays
  case isFalse code =>
    have read_eq : read = _ := if_neg code
    rw [read_eq]
    obtain ⟨placed, place, run⟩ := Effects.ok_of_bind run
    have stands' : ({ state with lastSourceLine := lineNo } : Preprocessor).Stands widths pending :=
      ⟨stands.stack, stands.announced, stands.header⟩
    obtain ⟨widths', written, rfl, lays⟩ := indent_lays stands' place
    rw [beginStatement_scan] at run
    generalize header_eq : (if (state.carry.behind (Frontend.code (withoutReturn raw))).delimiters.isEmpty
      then headerOf (Frontend.code (withoutReturn raw)) else none) = header
    obtain ⟨carry_eq, stack_eq, last_eq, mapped_eq, pending_eq⟩ := emit_ok header_eq run
    dsimp only
    refine ⟨carry_eq, last_eq, widths', header.isSome,
      written ++ [(SourceLine.mk lineNo (withoutReturn raw) false 0 false 0 header).entry],
      ⟨stack_eq, ?_, ?_⟩, ?_, fun last lines out rest => ?_⟩
    · rw [pending_eq]
      cases header <;> rfl
    · intro block announced
      rw [pending_eq] at announced
      cases header with
      | none => cases announced
      | some header =>
        cases announced
        exact (congrArg Carry.logicalIndent carry_eq).symm
    · rw [mapped_eq, MappedText.pushAll_append]
      cases header <;> exact MappedText.push_eq _ _ _
    · rw [List.append_assoc]
      refine lays ⟨lineNo, withoutReturn raw, false, _, _, _, header⟩ last lines out rfl rfl rfl rfl rfl ?_
      exact congrArg Carry.logicalIndent carry_eq ▸ rest

/-- The loop is a run of the stack. -/
theorem run_lays {raws : List Text} {out : Text} {lineMap : List Nat}
    (stands : state.Stands widths pending) (run : state.run lineNo raws = .ok state')
    (finished : state'.finish = .ok (out, lineMap)) :
    ∃ entries,
      Lays state'.lastSourceLine widths pending state.logicalIndent
          (readLines state.carry lineNo (raws.map withoutReturn)) entries
        ∧ ⟨out, lineMap⟩ = state.mapped.pushAll entries := by
  induction raws generalizing state widths pending lineNo with
  | nil =>
    cases run
    rw [finish] at finished
    split at finished
    next => cases finished
    next awaited =>
      cases finished
      rw [← stands.announced, awaited]
      refine ⟨_, closedLast_lays _ widths _, ?_⟩
      rw [stands.stack]
      exact closeAll_eq _ widths _
  | cons raw raws ih =>
    obtain ⟨next, step, run⟩ := Effects.ok_of_bind run
    obtain ⟨carry_eq, -, widths', pending', written, stands', mapped_eq, lays⟩ :=
      step_lays stands step
    obtain ⟨entries, rest, whole⟩ := ih stands' run
    rw [carry_eq] at rest
    refine ⟨written ++ entries, lays _ _ _ rest, ?_⟩
    rw [whole, mapped_eq, MappedText.pushAll_append]

theorem run_last {raws : List Text} {raw : Text} (stands : state.Stands widths pending)
    (run : state.run lineNo (raw :: raws) = .ok state') :
    state'.lastSourceLine = lineNo + raws.length := by
  induction raws generalizing state widths pending raw lineNo with
  | nil =>
    obtain ⟨next, step, run⟩ := Effects.ok_of_bind run
    obtain ⟨-, last_eq, -⟩ := step_lays stands step
    cases run
    exact last_eq
  | cons other raws ih =>
    obtain ⟨next, step, run⟩ := Effects.ok_of_bind run
    obtain ⟨-, -, widths', pending', written, stands', -, -⟩ := step_lays stands step
    rw [ih stands' run, List.length_cons]
    omega

end Preprocessor

/-- What the preprocessor writes for a source it accepts. -/
theorem preprocess_lays {source out : Text} {lineMap : List Nat}
    (accepted : preprocessIndentationBlocks source = .ok (out, lineMap)) :
    ∃ entries, Lays (lines source).length [] false 0 (sourceLines source) entries
      ∧ out = (entries.flatMap fun entry => entry.1 ++ ['\n']) ∧ lineMap = entries.map Prod.snd := by
  obtain ⟨state, run, finished⟩ := Effects.ok_of_bind accepted
  have stands : Preprocessor.start.Stands [] false := ⟨rfl, rfl, by simp [Preprocessor.start]⟩
  obtain ⟨entries, lays, whole⟩ := Preprocessor.run_lays stands run finished
  refine ⟨entries, ?_, congrArg MappedText.out whole, congrArg MappedText.lineMap whole⟩
  rw [sourceLines]
  cases read : lines source with
  | nil =>
    rw [read] at lays
    cases lays
    exact .done
  | cons raw raws =>
    rw [read] at run lays
    rwa [Preprocessor.run_last stands run, Nat.add_comm] at lays

end Onda.Frontend
