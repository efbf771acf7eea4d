import Onda.Frontend.Preprocess

/-!
# Layouts

What the indentation of a text means, apart from how it is found: a sequence of lines and
blocks, where a block has a header and a body.  `Layout.Nested` says which lines a block
holds.  `Lays` is the run of the preprocessor's stack over lines that have been read, and
every such run writes down a nested layout (`Lays.exists_layout`).
-/

namespace Onda.Frontend

/-! ### Lines that have been read -/

/-- What the lines before say about the next line. -/
structure Carry where
  delimiters : List ContinuationDelimiter
  continues : Bool
  logicalIndent : Nat

def Carry.start : Carry := ⟨[], false, 0⟩

/-- A line of the source, as its place behind other lines says. -/
structure SourceLine where
  number : Nat
  text : Text
  /-- The line has no code. -/
  blank : Bool
  indent : Nat
  /-- The line belongs to the statement before it. -/
  continues : Bool
  /-- The indentation of the statement that the line belongs to. -/
  logicalIndent : Nat
  /-- What the line says in front of a colon that opens a block. -/
  header : Option Text

namespace SourceLine

/-- The line begins a statement. -/
def Statement (line : SourceLine) : Prop := line.blank = false ∧ line.continues = false

/-- The line as the preprocessor writes it. -/
def written (line : SourceLine) : Text :=
  match line.header with
  | some header => header ++ [' ', '{']
  | none => line.text

end SourceLine

namespace Carry

/-- Whether a line with this code belongs to the statement before it. -/
def continuesInto (carry : Carry) (code : Text) : Bool :=
  !carry.delimiters.isEmpty || carry.continues || startsAngleContinuation code

/-- What is said about the line behind a line with this code. -/
def behind (carry : Carry) (code : Text) : Carry where
  delimiters := applyContinuationDelimiters carry.delimiters code
  continues := endsAngleContinuation code
  logicalIndent :=
    if carry.continuesInto code then carry.logicalIndent else leadingIndentWidth code

/-- A line is read, and what is said about the next one. -/
def read (carry : Carry) (number : Nat) (text : Text) : SourceLine × Carry :=
  let code := code text
  if (trim code).isEmpty then
    (⟨number, text, true, 0, false, carry.logicalIndent, none⟩, carry)
  else
    (⟨number, text, false, leadingIndentWidth code, carry.continuesInto code,
      (carry.behind code).logicalIndent,
      if (carry.behind code).delimiters.isEmpty then headerOf code else none⟩, carry.behind code)

end Carry

/-- Lines read from a line number on. -/
def readLines : Carry → Nat → List Text → List SourceLine
  | _, _, [] => []
  | carry, number, text :: rest =>
    (carry.read number text).1 :: readLines (carry.read number text).2 (number + 1) rest

/-- The lines of a source text. -/
def sourceLines (source : Text) : List SourceLine :=
  readLines Carry.start 1 ((lines source).map withoutReturn)

/-! ### Lines and blocks -/

/-- Lines and blocks, one behind the other. -/
inductive Layout where
  | done
  | row (line : SourceLine) (rest : Layout)
  | block (header : SourceLine) (body rest : Layout)

/-- The number that a block's last brace gets: that of the line behind the block. -/
def closer (last : Nat) (behind : Option SourceLine) : Text × Nat :=
  (['}'], (behind.map SourceLine.number).getD last)

/-- The entry of a line in the preprocessed text. -/
def SourceLine.entry (line : SourceLine) : Text × Nat := (line.written, line.number)

/-- A block holds lines to the right of the statement of its header.  It ends in front of a
statement that is less indented than its first line of code; when that line begins a
statement, no other statement of the block is. -/
def Encloses (logicalIndent : Nat) (body : List SourceLine) (behind : Option SourceLine) : Prop :=
  ∃ lead first inner, body = lead ++ first :: inner ∧ (∀ line ∈ lead, line.blank = true)
    ∧ first.blank = false ∧ logicalIndent < first.indent
    ∧ (∀ line ∈ inner, line.Statement → logicalIndent < line.indent)
    ∧ (first.continues = false → ∀ line ∈ inner, line.Statement → first.indent ≤ line.indent)
    ∧ ∀ line ∈ behind, line.Statement ∧ line.indent < first.indent

namespace Layout

/-- The lines of a layout, in order. -/
def lines : Layout → List SourceLine
  | done => []
  | row line rest => line :: rest.lines
  | block header body rest => header :: (body.lines ++ rest.lines)

/-- A layout in front of a line, written with braces: the text of each line and its number
in the source. -/
def render (last : Nat) : Layout → Option SourceLine → List (Text × Nat)
  | done, _ => []
  | row line rest, next => line.entry :: rest.render last next
  | block header body rest, next =>
    let behind := rest.lines.head?.or next
    header.entry :: (body.render last behind ++ closer last behind :: rest.render last next)

/-- The headers are the lines that open a block, and each block holds its lines. -/
def Nested : Layout → Option SourceLine → Prop
  | done, _ => True
  | row line rest, next => line.header = none ∧ rest.Nested next
  | block header body rest, next =>
    let behind := rest.lines.head?.or next
    header.header.isSome ∧ Encloses header.logicalIndent body.lines behind
      ∧ body.Nested behind ∧ rest.Nested next

end Layout

/-! ### The stack of open blocks -/

/-- What the preprocessor writes for lines, from the indentations of the open blocks on,
innermost first.  A flag says that the next line of code is the first one of a block, and
`logical` is the indentation of the statement before. -/
inductive Lays (last : Nat) : List Nat → Bool → Nat → List SourceLine → List (Text × Nat) → Prop
  | done {logical : Nat} : Lays last [] false logical [] []
  | closeLast {width : Nat} {widths : List Nat} {logical : Nat} {out : List (Text × Nat)}
      (rest : Lays last widths false logical [] out) :
      Lays last (width :: widths) false logical [] ((['}'], last) :: out)
  | blank {widths : List Nat} {pending : Bool} {logical : Nat} {line : SourceLine}
      {lines : List SourceLine} {out : List (Text × Nat)} (blank : line.blank = true)
      (header : line.header = none) (rest : Lays last widths pending logical lines out) :
      Lays last widths pending logical (line :: lines) (line.entry :: out)
  | close {width : Nat} {widths : List Nat} {logical : Nat} {line : SourceLine}
      {lines : List SourceLine} {out : List (Text × Nat)} (statement : line.Statement)
      (less : line.indent < width) (rest : Lays last widths false logical (line :: lines) out) :
      Lays last (width :: widths) false logical (line :: lines) ((['}'], line.number) :: out)
  | first {widths : List Nat} {logical : Nat} {line : SourceLine} {lines : List SourceLine}
      {out : List (Text × Nat)} (code : line.blank = false) (deeper : logical < line.indent)
      (own : line.logicalIndent = if line.continues then logical else line.indent)
      (rest : Lays last (line.indent :: widths) line.header.isSome line.logicalIndent lines out) :
      Lays last widths true logical (line :: lines) (line.entry :: out)
  | code {widths : List Nat} {logical : Nat} {line : SourceLine} {lines : List SourceLine}
      {out : List (Text × Nat)} (code : line.blank = false)
      (level : line.continues = false → ∀ width ∈ widths.head?, line.indent = width)
      (own : line.logicalIndent = if line.continues then logical else line.indent)
      (rest : Lays last widths line.header.isSome line.logicalIndent lines out) :
      Lays last widths false logical (line :: lines) (line.entry :: out)

/-! ### From the stack to the layout -/

/-- An open block: the indentation of its first line, and a bound below the statements in it. -/
structure OpenBlock where
  width : Nat
  bound : Nat

/-- The bounds are below the indentations of the blocks inside, and below the next line that
opens a block. -/
structure Bounded (blocks : List OpenBlock) (logical : Nat) : Prop where
  inside : blocks.Pairwise fun inner outer => outer.bound ≤ inner.width
  own : ∀ block ∈ blocks, block.bound ≤ block.width
  next : ∀ block ∈ blocks, block.bound ≤ logical + 1

/-- No statement of the lines is less indented than an open block allows. -/
def Above (blocks : List OpenBlock) (lines : List SourceLine) : Prop :=
  ∀ line ∈ lines, line.Statement → ∀ block ∈ blocks, block.bound ≤ line.indent

/-- The lines are a layout for each open block and one behind them all. -/
def Unfolds (last : Nat) : List OpenBlock → List SourceLine → List (Text × Nat) → Prop
  | [], lines, out =>
    ∃ layout : Layout, layout.lines = lines ∧ layout.render last none = out ∧ layout.Nested none
  | block :: blocks, lines, out =>
    ∃ (layout : Layout) (rest : List SourceLine) (restOut : List (Text × Nat)),
      layout.lines ++ rest = lines
        ∧ layout.render last rest.head? ++ closer last rest.head? :: restOut = out
        ∧ layout.Nested rest.head? ∧ Above (block :: blocks) layout.lines
        ∧ (∀ line ∈ rest.head?, line.Statement ∧ line.indent < block.width)
        ∧ Unfolds last blocks rest restOut

/-- The lines are the body of a block, and then a layout for each open block. -/
def Opens (last : Nat) (blocks : List OpenBlock) (logical : Nat) (lines : List SourceLine)
    (out : List (Text × Nat)) : Prop :=
  ∃ (body : Layout) (rest : List SourceLine) (restOut : List (Text × Nat)),
    body.lines ++ rest = lines
      ∧ body.render last rest.head? ++ closer last rest.head? :: restOut = out
      ∧ body.Nested rest.head? ∧ Encloses logical body.lines rest.head?
      ∧ Above blocks body.lines ∧ Unfolds last blocks rest restOut

/-- Where a layout goes on. -/
def GoesOn (last : Nat) (blocks : List OpenBlock) (pending : Bool) (logical : Nat)
    (lines : List SourceLine) (out : List (Text × Nat)) : Prop :=
  if pending then Opens last blocks logical lines out else Unfolds last blocks lines out

variable {last : Nat} {blocks : List OpenBlock} {line : SourceLine} {lines : List SourceLine}
  {out : List (Text × Nat)} {logical : Nat}

theorem Above.cons (here : line.Statement → ∀ block ∈ blocks, block.bound ≤ line.indent)
    (rest : Above blocks lines) : Above blocks (line :: lines) := by
  intro other among
  rcases List.mem_cons.1 among with rfl | among
  · exact here
  · exact rest other among

theorem Above.append {more : List SourceLine} (first : Above blocks lines)
    (rest : Above blocks more) : Above blocks (lines ++ more) := by
  intro other among
  rcases List.mem_append.1 among with among | among
  · exact first other among
  · exact rest other among

/-- A line that opens no block goes in front. -/
theorem Unfolds.row (header : line.header = none)
    (here : line.Statement → ∀ block ∈ blocks, block.bound ≤ line.indent)
    (unfolds : Unfolds last blocks lines out) :
    Unfolds last blocks (line :: lines) (line.entry :: out) := by
  cases blocks with
  | nil =>
    obtain ⟨layout, rfl, rfl, nested⟩ := unfolds
    exact ⟨.row line layout, rfl, rfl, header, nested⟩
  | cons block blocks =>
    obtain ⟨layout, rest, restOut, rfl, rfl, nested, above, behind, unfolds⟩ := unfolds
    exact ⟨.row line layout, rest, restOut, rfl, rfl, ⟨header, nested⟩, above.cons here, behind,
      unfolds⟩

/-- A header goes in front, with the block it opens. -/
theorem Opens.block (header : line.header.isSome)
    (here : line.Statement → ∀ block ∈ blocks, block.bound ≤ line.indent)
    (opens : Opens last blocks line.logicalIndent lines out) :
    Unfolds last blocks (line :: lines) (line.entry :: out) := by
  obtain ⟨body, rest, restOut, rfl, rfl, bodyNested, encloses, inside, unfolds⟩ := opens
  cases blocks with
  | nil =>
    obtain ⟨layout, rfl, rfl, nested⟩ := unfolds
    refine ⟨.block line body layout, rfl, ?_, header, ?_, ?_, nested⟩
    · simp [Layout.render]
    · simpa using encloses
    · simpa using bodyNested
  | cons block blocks =>
    obtain ⟨layout, rest, restOut, rfl, rfl, nested, above, behind, unfolds⟩ := unfolds
    have next : (layout.lines ++ rest).head? = layout.lines.head?.or rest.head? :=
      List.head?_append
    rw [next] at bodyNested encloses
    refine ⟨.block line body layout, rest, restOut, ?_, ?_, ⟨header, encloses, bodyNested, nested⟩,
      (inside.append above).cons here, behind, unfolds⟩
    · simp [Layout.lines]
    · simp [Layout.render, next]

theorem GoesOn.own (here : line.Statement → ∀ block ∈ blocks, block.bound ≤ line.indent)
    (goesOn : GoesOn last blocks line.header.isSome line.logicalIndent lines out) :
    Unfolds last blocks (line :: lines) (line.entry :: out) := by
  by_cases header : line.header.isSome
  · rw [GoesOn, if_pos header] at goesOn
    exact goesOn.block header here
  · rw [GoesOn, if_neg header] at goesOn
    exact Unfolds.row (by simpa using header) here goesOn

/-- The first line of a block: the open blocks go on with the new one. -/
theorem Unfolds.begins {bound : Nat} (code : line.blank = false) (deeper : logical < line.indent)
    (bounded : if line.continues then bound = logical + 1 else bound = line.indent)
    (unfolds : Unfolds last (⟨line.indent, bound⟩ :: blocks) (line :: lines) out) :
    Opens last blocks logical (line :: lines) out := by
  obtain ⟨layout, rest, restOut, split, rfl, nested, above, behind, unfolds⟩ := unfolds
  have begun : ∃ inner, layout.lines = line :: inner := by
    cases held : layout.lines with
    | nil =>
      -- a block is not over in front of its own first line
      rw [held, List.nil_append] at split
      exact absurd (behind line (by simp [split])).2 (Nat.lt_irrefl _)
    | cons other inner =>
      rw [held] at split
      exact ⟨inner, by rw [(List.cons.inj split).1]⟩
  obtain ⟨inner, begun⟩ := begun
  have within : ∀ other ∈ inner, other.Statement → bound ≤ other.indent :=
    fun other among statement =>
      above other (by simp [begun, among]) statement ⟨line.indent, bound⟩ (by simp)
  refine ⟨layout, rest, restOut, split, rfl, nested, ⟨[], line, inner, begun, by simp, code, deeper,
    ?_, ?_, behind⟩, ?_, unfolds⟩
  · intro other among statement
    have := within other among statement
    split at bounded <;> omega
  · intro statement other among within'
    rw [if_neg (by simp [statement])] at bounded
    exact bounded ▸ within other among within'
  · exact fun other among statement block held =>
      above other among statement block (List.mem_cons_of_mem _ held)

/-- A blank line in front of a block's first line of code. -/
theorem Opens.blank (blank : line.blank = true) (header : line.header = none)
    (opens : Opens last blocks logical lines out) :
    Opens last blocks logical (line :: lines) (line.entry :: out) := by
  obtain ⟨body, rest, restOut, rfl, rfl, nested, encloses, inside, unfolds⟩ := opens
  obtain ⟨lead, first, inner, body_eq, leading, encloses⟩ := encloses
  refine ⟨.row line body, rest, restOut, rfl, rfl, ⟨header, nested⟩,
    ⟨line :: lead, first, inner, ?_, ?_, encloses⟩, inside.cons ?_, unfolds⟩
  · simp [Layout.lines, body_eq]
  · simpa [blank] using leading
  · exact fun statement => by simp [SourceLine.Statement, blank] at statement

/-- What the stack writes is a layout for each open block. -/
theorem Lays.goesOn {widths : List Nat} {pending : Bool}
    (lays : Lays last widths pending logical lines out) :
    ∀ blocks : List OpenBlock, blocks.map OpenBlock.width = widths → Bounded blocks logical →
      GoesOn last blocks pending logical lines out := by
  induction lays with
  | done =>
    intro blocks same bounded
    rw [List.map_eq_nil_iff.1 same]
    exact ⟨.done, rfl, rfl, trivial⟩
  | closeLast _ ih =>
    intro blocks same bounded
    obtain ⟨block, blocks, rfl, rfl, rfl⟩ := List.map_eq_cons_iff.1 same
    have := ih blocks rfl ⟨bounded.inside.of_cons, fun other among => bounded.own other (by simp [among]),
      fun other among => bounded.next other (by simp [among])⟩
    exact ⟨.done, [], _, rfl, rfl, trivial, by simp [Above, Layout.lines], by simp, this⟩
  | @blank widths pending logical line lines out blank header _ ih =>
    intro blocks same bounded
    have statement : line.Statement → ∀ block ∈ blocks, block.bound ≤ line.indent :=
      fun statement => by simp [SourceLine.Statement, blank] at statement
    cases pending with
    | false => exact Unfolds.row header statement (ih blocks same bounded)
    | true => exact Opens.blank blank header (ih blocks same bounded)
  | close statement less _ ih =>
    intro blocks same bounded
    obtain ⟨block, blocks, rfl, rfl, rfl⟩ := List.map_eq_cons_iff.1 same
    have := ih blocks rfl ⟨bounded.inside.of_cons, fun other among => bounded.own other (by simp [among]),
      fun other among => bounded.next other (by simp [among])⟩
    refine ⟨.done, _, _, rfl, rfl, trivial, by simp [Above, Layout.lines], ?_, this⟩
    simpa using ⟨statement, less⟩
  | @first widths logical line lines out code deeper own _ ih =>
    intro blocks same bounded
    -- a block that begins with a continuation is bounded by the statement of its header only
    obtain ⟨bound, bound_eq⟩ : ∃ bound, if line.continues then bound = logical + 1
        else bound = line.indent := by
      split
      · exact ⟨_, rfl⟩
      · exact ⟨_, rfl⟩
    have room : ∀ block ∈ blocks, block.bound ≤ line.indent := fun block among =>
      (bounded.next block among).trans deeper
    refine Unfolds.begins code deeper bound_eq (GoesOn.own ?_ (ih (⟨line.indent, bound⟩ :: blocks)
      (by simp [same]) ⟨?_, ?_, ?_⟩))
    · intro statement block among
      rw [if_neg (by simp [statement.2])] at bound_eq
      rcases List.mem_cons.1 among with rfl | among
      · exact bound_eq.le
      · exact room block among
    · exact List.pairwise_cons.2 ⟨room, bounded.inside⟩
    · intro block among
      rcases List.mem_cons.1 among with rfl | among
      · show bound ≤ line.indent
        split at bound_eq <;> omega
      · exact bounded.own block among
    · intro block among
      rw [own]
      rcases List.mem_cons.1 among with rfl | among
      · show bound ≤ (if line.continues then logical else line.indent) + 1
        by_cases continues : line.continues = true
        · rw [if_pos continues] at bound_eq ⊢
          exact bound_eq.le
        · rw [if_neg continues] at bound_eq ⊢
          omega
      · have := bounded.next block among
        split <;> omega
  | @code widths logical line lines out code level own _ ih =>
    intro blocks same bounded
    have room : line.Statement → ∀ block ∈ blocks, block.bound ≤ line.indent := by
      intro statement block among
      cases blocks with
      | nil => simp at among
      | cons top blocks =>
        have here : line.indent = top.width := level statement.2 _ (by simp [← same])
        rw [here]
        rcases List.mem_cons.1 among with rfl | among
        · exact bounded.own _ (by simp)
        · exact (List.pairwise_cons.1 bounded.inside).1 block among
    refine GoesOn.own room (ih blocks same ⟨bounded.inside, bounded.own, fun block among => ?_⟩)
    rw [own]
    by_cases continues : line.continues = true
    · rw [if_pos continues]
      exact bounded.next block among
    · rw [if_neg continues]
      exact (room ⟨code, by simpa using continues⟩ block among).trans (Nat.le_succ _)

/-- The preprocessor writes a nested layout of all lines. -/
theorem Lays.exists_layout (lays : Lays last [] false logical lines out) :
    ∃ layout : Layout, layout.lines = lines ∧ layout.render last none = out
      ∧ layout.Nested none :=
  lays.goesOn [] rfl ⟨.nil, by simp, by simp⟩

end Onda.Frontend
