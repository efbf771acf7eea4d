import Mathlib.Data.List.Range
import Onda.Frontend.Repeated

/-!
# The preprocessor is faithful

For each text that it accepts, the preprocessor writes the lines of a nested layout, in order
and with their numbers, and it leaves what it has written as it is.
-/

namespace Onda.Frontend

/-! ### Lines that are read -/

theorem numbers_readLines (carry : Carry) (number : Nat) (texts : List Text) :
    (readLines carry number texts).map SourceLine.number = List.range' number texts.length := by
  induction texts generalizing carry number with
  | nil => rfl
  | cons text texts ih =>
    have own : (carry.read number text).1.number = number := by
      rw [Carry.read]
      split <;> rfl
    rw [readLines_cons, List.map_cons, own, ih, List.length_cons, List.range'_succ]

theorem texts_readLines (carry : Carry) (number : Nat) (texts : List Text) :
    (readLines carry number texts).map SourceLine.text = texts := by
  induction texts generalizing carry number with
  | nil => rfl
  | cons text texts ih =>
    have own : (carry.read number text).1.text = text := by
      rw [Carry.read]
      split <;> rfl
    rw [readLines_cons, List.map_cons, own, ih]

/-- The text of a header is the beginning of its line. -/
theorem header_readLines {carry : Carry} {number : Nat} {texts : List Text} {line : SourceLine}
    (among : line ∈ readLines carry number texts) {header : Text} (opens : line.header = some header) :
    header <+: line.text := by
  induction texts generalizing carry number with
  | nil => cases among
  | cons text texts ih =>
    rw [readLines_cons] at among
    rcases List.mem_cons.1 among with rfl | among
    · rw [Carry.read] at opens ⊢
      split at opens
      case isTrue => cases opens
      case isFalse solid =>
        rw [if_neg solid]
        dsimp only at opens ⊢
        split at opens
        case isFalse => cases opens
        case isTrue =>
          obtain ⟨tail, whole, -⟩ := headerOf_append opens
          exact (whole ▸ List.prefix_append header tail).trans (code_begins text)
    · exact ih among

/-! ### What is written -/

variable {last : Nat} {widths : List Nat} {pending : Bool} {logical : Nat}
  {lines : List SourceLine} {out : List (Text × Nat)}

theorem Lays.mem_out (lays : Lays last widths pending logical lines out) {entry : Text × Nat}
    (among : entry ∈ out) : entry.1 = ['}'] ∨ ∃ line ∈ lines, entry = line.entry := by
  have own : ∀ {line : SourceLine} {lines : List SourceLine} {out : List (Text × Nat)},
      (entry ∈ out → entry.1 = ['}'] ∨ ∃ line ∈ lines, entry = line.entry) →
      entry ∈ line.entry :: out → entry.1 = ['}'] ∨ ∃ other ∈ line :: lines, entry = other.entry := by
    intro line lines out rest among
    rcases List.mem_cons.1 among with rfl | among
    · exact .inr ⟨line, by simp, rfl⟩
    · rcases rest among with brace | ⟨other, inside, same⟩
      · exact .inl brace
      · exact .inr ⟨other, by simp [inside], same⟩
  induction lays with
  | done => cases among
  | closeLast _ ih =>
    rcases List.mem_cons.1 among with rfl | among
    · exact .inl rfl
    · exact ih among
  | close _ _ _ ih =>
    rcases List.mem_cons.1 among with rfl | among
    · exact .inl rfl
    · exact ih among
  | blank _ _ _ ih => exact own ih among
  | first _ _ _ _ ih => exact own ih among
  | code _ _ _ _ ih => exact own ih among

/-- Numbers of lines that ascend are written in ascending order. -/
theorem Lays.ascending (lays : Lays last widths pending logical lines out)
    (sorted : (lines.map SourceLine.number).Pairwise (· ≤ ·))
    (bound : ∀ line ∈ lines, line.number ≤ last) :
    (out.map Prod.snd).Pairwise (· ≤ ·) ∧ ∀ entry ∈ out, (closer last lines.head?).2 ≤ entry.2 := by
  have own : ∀ {line : SourceLine} {lines : List SourceLine} {out : List (Text × Nat)},
      ((line :: lines).map SourceLine.number).Pairwise (· ≤ ·) →
      (∀ other ∈ line :: lines, other.number ≤ last) →
      ((out.map Prod.snd).Pairwise (· ≤ ·) ∧ ∀ entry ∈ out, (closer last lines.head?).2 ≤ entry.2) →
      ((line.entry :: out).map Prod.snd).Pairwise (· ≤ ·)
        ∧ ∀ entry ∈ line.entry :: out, (closer last (line :: lines).head?).2 ≤ entry.2 := by
    rintro line lines out sorted bound ⟨rest, after⟩
    have least : line.number ≤ (closer last lines.head?).2 := by
      cases lines with
      | nil => exact bound line (by simp)
      | cons next lines =>
        exact (List.pairwise_cons.1 sorted).1 next.number (List.mem_map_of_mem List.mem_cons_self)
    refine ⟨List.pairwise_cons.2 ⟨?_, rest⟩, ?_⟩
    · intro number among
      obtain ⟨entry, inside, rfl⟩ := List.mem_map.1 among
      exact least.trans (after entry inside)
    · intro entry among
      rcases List.mem_cons.1 among with rfl | among
      · exact Nat.le_refl _
      · exact least.trans (after entry among)
  induction lays with
  | done => exact ⟨.nil, by simp⟩
  | closeLast _ ih =>
    obtain ⟨rest, after⟩ := ih sorted bound
    refine ⟨List.pairwise_cons.2 ⟨?_, rest⟩, by simpa [closer] using after⟩
    intro number among
    obtain ⟨entry, inside, rfl⟩ := List.mem_map.1 among
    exact after entry inside
  | close _ _ _ ih =>
    obtain ⟨rest, after⟩ := ih sorted bound
    refine ⟨List.pairwise_cons.2 ⟨?_, rest⟩, by simpa [closer] using after⟩
    intro number among
    obtain ⟨entry, inside, rfl⟩ := List.mem_map.1 among
    exact after entry inside
  | blank _ _ _ ih =>
    exact own sorted bound (ih (List.pairwise_cons.1 sorted).2 fun other among =>
      bound other (by simp [among]))
  | first _ _ _ _ ih =>
    exact own sorted bound (ih (List.pairwise_cons.1 sorted).2 fun other among =>
      bound other (by simp [among]))
  | code _ _ _ _ ih =>
    exact own sorted bound (ih (List.pairwise_cons.1 sorted).2 fun other among =>
      bound other (by simp [among]))

/-! ### Text in which no line opens a block -/

namespace Preprocessor

/-- Outside blocks a line that opens no block is written as it is. -/
theorem step_headerless {state : Preprocessor} {lineNo : Nat} {raw : Text}
    (stack : state.indentStack = [0]) (pending : state.pending = none)
    (header : (state.carry.read lineNo (withoutReturn raw)).1.header = none) :
    ∃ state', state.step lineNo raw = .ok state' ∧ state'.indentStack = [0] ∧ state'.pending = none
      ∧ state'.carry = (state.carry.read lineNo (withoutReturn raw)).2
      ∧ state'.mapped.out = state.mapped.out ++ (withoutReturn raw ++ ['\n']) := by
  rw [step]
  dsimp only
  by_cases blank : (trim (code (withoutReturn raw))).isEmpty = true
  · rw [if_pos blank]
    refine ⟨_, rfl, stack, pending, ?_, List.append_assoc _ _ _⟩
    rw [Carry.read, if_pos blank]
    rfl
  · rw [if_neg blank]
    rw [Carry.read, if_neg blank] at header ⊢
    dsimp only at header
    have unmoved : ({ state with lastSourceLine := lineNo } : Preprocessor).indent lineNo
        (leadingIndentWidth (code (withoutReturn raw)))
        (({ state with lastSourceLine := lineNo } : Preprocessor).continuesStatement
          (code (withoutReturn raw))) = .ok { state with lastSourceLine := lineNo } := by
      rw [indent, pending]
      dsimp only
      rw [if_neg (by simp [stack])]
    rw [unmoved]
    show ∃ state', emit _ _ _ _ = _ ∧ _
    rw [beginStatement_scan, emit]
    have none : (if (applyContinuationDelimiters state.continuationDelimiters
        (code (withoutReturn raw))).isEmpty then headerOf (code (withoutReturn raw)) else Option.none)
          = Option.none := header
    simp only [none]
    exact ⟨_, rfl, stack, pending, rfl, List.append_assoc _ _ _⟩

theorem run_headerless {state : Preprocessor} {lineNo : Nat} {raws : List Text}
    (stack : state.indentStack = [0]) (pending : state.pending = none)
    (headers : ∀ line ∈ readLines state.carry lineNo (raws.map withoutReturn), line.header = none) :
    ∃ state', state.run lineNo raws = .ok state' ∧ state'.indentStack = [0] ∧ state'.pending = none
      ∧ state'.mapped.out = state.mapped.out ++ joinLines (raws.map withoutReturn) := by
  induction raws generalizing state lineNo with
  | nil => exact ⟨state, rfl, stack, pending, by simp [joinLines]⟩
  | cons raw raws ih =>
    rw [List.map_cons, readLines_cons] at headers
    obtain ⟨next, step, stack', pending', carry_eq, out_eq⟩ :=
      step_headerless stack pending (headers _ List.mem_cons_self)
    rw [← carry_eq] at headers
    obtain ⟨state', run, stack'', pending'', whole⟩ :=
      ih stack' pending' fun line among => headers line (List.mem_cons_of_mem _ among)
    refine ⟨state', ?_, stack'', pending'', ?_⟩
    · rw [Preprocessor.run, step]
      exact run
    · rw [whole, out_eq]
      simp [joinLines]

end Preprocessor

/-- A text in which no line opens a block stays as it is. -/
theorem preprocess_headerless {source : Text}
    (headers : ∀ line ∈ sourceLines source, line.header = none) :
    ∃ lineMap, preprocessIndentationBlocks source
      = .ok (joinLines ((Frontend.lines source).map withoutReturn), lineMap) := by
  obtain ⟨state, run, stack, pending, whole⟩ :=
    @Preprocessor.run_headerless Preprocessor.start 1 (Frontend.lines source) rfl rfl headers
  refine ⟨state.mapped.lineMap, ?_⟩
  rw [preprocessIndentationBlocks, run]
  show state.finish = _
  rw [Preprocessor.finish, pending]
  dsimp only
  rw [stack]
  show Except.ok (state.mapped.out, state.mapped.lineMap) = _
  rw [whole]
  rfl

/-! ### The whole preprocessor -/

/-- A line of the source, as it is written, has no line feed. -/
theorem notMem_written {source : Text} {line : SourceLine} (among : line ∈ sourceLines source) :
    '\n' ∉ line.written ∧ ((∀ text ∈ Frontend.lines source, (withoutReturn text).getLast? ≠ some '\r') →
      line.written.getLast? ≠ some '\r') := by
  have inside : line.text ∈ (Frontend.lines source).map withoutReturn := by
    rw [← texts_readLines Carry.start 1 ((Frontend.lines source).map withoutReturn)]
    exact List.mem_map_of_mem among
  obtain ⟨text, inside, text_eq⟩ := List.mem_map.1 inside
  have free : '\n' ∉ line.text := by
    rw [← text_eq]
    exact fun feed => notMem_lines inside ((prefix_withoutReturn text).subset feed)
  rw [SourceLine.written]
  cases opens : line.header with
  | none => exact ⟨free, fun ends => text_eq ▸ ends text inside⟩
  | some header =>
    refine ⟨?_, fun _ => by simp⟩
    have front := header_readLines among opens
    simpa using fun feed => free (front.subset feed)

/-- The preprocessor writes each line of the source in order, with its number, and a brace
where a block is over; blocks hold their lines as the indentation says.  What it has written
it leaves as it is, if no line still ends in a carriage return. -/
theorem preprocess_faithful {source out : Text} {lineMap : List Nat}
    (accepted : preprocessIndentationBlocks source = .ok (out, lineMap)) :
    (Frontend.lines out).length = lineMap.length ∧ lineMap.Pairwise (· ≤ ·)
      ∧ (∃ layout : Layout, layout.lines = sourceLines source
        ∧ layout.lines.map SourceLine.text = (Frontend.lines source).map withoutReturn
        ∧ layout.lines.map SourceLine.number = List.range' 1 (Frontend.lines source).length
        ∧ layout.Nested none
        ∧ out = joinLines ((layout.render (Frontend.lines source).length none).map Prod.fst)
        ∧ lineMap = (layout.render (Frontend.lines source).length none).map Prod.snd)
      ∧ ((∀ line ∈ Frontend.lines source, (withoutReturn line).getLast? ≠ some '\r') →
        ∃ again, preprocessIndentationBlocks out = .ok (out, again)) := by
  obtain ⟨entries, lays, rfl, rfl⟩ := preprocess_lays accepted
  have joined : (entries.flatMap fun entry => entry.1 ++ ['\n']) = joinLines (entries.map Prod.fst) := by
    rw [joinLines, List.flatMap_map]
  have numbers : (sourceLines source).map SourceLine.number
      = List.range' 1 (Frontend.lines source).length := by
    rw [sourceLines, numbers_readLines, List.length_map]
  have free : ∀ text ∈ entries.map Prod.fst, '\n' ∉ text
      ∧ ((∀ line ∈ Frontend.lines source, (withoutReturn line).getLast? ≠ some '\r') →
        text.getLast? ≠ some '\r') := by
    intro text among
    obtain ⟨entry, inside, rfl⟩ := List.mem_map.1 among
    rcases lays.mem_out inside with brace | ⟨line, held, rfl⟩
    · rw [brace]
      simp
    · exact notMem_written held
  rw [joined]
  refine ⟨?_, ?_, ?_, fun ends => ?_⟩
  · rw [length_lines_joinLines fun text among => (free text among).1, List.length_map,
      List.length_map]
  · refine (lays.ascending ?_ ?_).1
    · rw [numbers]
      exact List.pairwise_le_range'
    · intro line among
      have : line.number ∈ (sourceLines source).map SourceLine.number := List.mem_map_of_mem among
      rw [numbers, List.mem_range'_1] at this
      omega
  · obtain ⟨layout, lines_eq, render_eq, nested⟩ := lays.exists_layout
    refine ⟨layout, lines_eq, ?_, ?_, nested, by rw [render_eq], by rw [render_eq]⟩
    · rw [lines_eq, sourceLines, texts_readLines]
    · rw [lines_eq, numbers]
  · have same : Frontend.lines (joinLines (entries.map Prod.fst)) = entries.map Prod.fst :=
      lines_joinLines (fun text among => (free text among).1) fun text among =>
        (free text among).2 ends
    have plain : (entries.map Prod.fst).map withoutReturn = entries.map Prod.fst := by
      calc (entries.map Prod.fst).map withoutReturn
          = (entries.map Prod.fst).map id := List.map_congr_left fun text among =>
            withoutReturn_eq ((free text among).2 ends)
        _ = entries.map Prod.fst := List.map_id _
    obtain ⟨again, run⟩ := @preprocess_headerless (joinLines (entries.map Prod.fst)) (by
      rw [sourceLines, same, plain]
      exact lays.headerless Carry.start Carry.start 1 1 _ rfl fun _ => ⟨[], by simp [Braces], rfl⟩)
    rw [same, plain] at run
    exact ⟨again, run⟩

/-- A source with a block, and its text with braces. -/
theorem preprocess_faithful_block :
    (Frontend.lines "a \x7b\n  b\n\x7d\nc\n".toList).length = [1, 2, 3, 3].length
      ∧ ∃ again, preprocessIndentationBlocks "a \x7b\n  b\n\x7d\nc\n".toList
        = .ok ("a \x7b\n  b\n\x7d\nc\n".toList, again) := by
  have accepted : preprocessIndentationBlocks "a:\n  b\nc".toList
      = .ok ("a \x7b\n  b\n\x7d\nc\n".toList, [1, 2, 3, 3]) := by decide
  obtain ⟨length, -, -, again⟩ := preprocess_faithful accepted
  exact ⟨length, again (by decide)⟩

/-- A block that begins with a continuation is not closed by the next less indented statement, a
header loses its comment, and of two carriage returns at the end of a text one is left, which
the next run takes away. -/
theorem preprocess_unfaithful :
    preprocessIndentationBlocks "foo:\n      , bar:\n   x\n".toList
        = .ok ("foo \x7b\n      , bar \x7b\n   x\n\x7d\n\x7d\n".toList, [1, 2, 3, 3, 3])
      ∧ preprocessIndentationBlocks "foo: # c\n  x\n".toList
        = .ok ("foo \x7b\n  x\n\x7d\n".toList, [1, 2, 2])
      ∧ preprocessIndentationBlocks "a\r\r".toList = .ok ("a\r\n".toList, [1])
      ∧ preprocessIndentationBlocks "a\r\n".toList = .ok ("a\n".toList, [1]) := by
  refine ⟨?_, ?_, ?_, ?_⟩ <;> decide

end Onda.Frontend
