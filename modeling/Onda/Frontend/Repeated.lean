import Onda.Frontend.Indentation
import Onda.Frontend.LineFacts

/-!
# The preprocessor on its own output

In a text that the preprocessor has written no line opens a block again.  On the way through
it, the delimiters are those of the source with the braces that the preprocessor has added
below them (`read_written`), so a colon that did not open a block in the source does not open
one now, and the text is left as it is.
-/

namespace Onda.Frontend

/-! ### Delimiters over braces -/

/-- The delimiters are braces only. -/
def Braces (delimiters : List ContinuationDelimiter) : Prop :=
  ∀ delimiter ∈ delimiters, delimiter = .brace

theorem Braces.tail {delimiters : List ContinuationDelimiter} (braces : Braces delimiters) :
    Braces delimiters.tail :=
  fun delimiter among => braces delimiter (List.mem_of_mem_tail among)

variable {entries : List (Nat × Char)} {base : List ContinuationDelimiter} {entry : Nat × Char}

theorem Braces.close {base : List ContinuationDelimiter} (braces : Braces base)
    (expected : ContinuationDelimiter)
    : Braces (closeContinuation base expected) := by
  rw [closeContinuation]
  split
  · exact braces.tail
  · exact braces

theorem closeContinuation_append (braces : Braces base) (delimiters : List ContinuationDelimiter)
    (expected : ContinuationDelimiter) :
    ∃ base', Braces base' ∧ closeContinuation (delimiters ++ base) expected
      = closeContinuation delimiters expected ++ base' := by
  cases delimiters with
  | nil => exact ⟨_, braces.close expected, by simp [closeContinuation]⟩
  | cons delimiter delimiters =>
    refine ⟨base, braces, ?_⟩
    by_cases same : delimiter = expected
    · simp [closeContinuation, same]
    · simp [closeContinuation, same]

/-- A character acts on the delimiters above the braces. -/
theorem applyDelimiter_append (braces : Braces base) (line : Text)
    (delimiters : List ContinuationDelimiter) (entry : Nat × Char) :
    ∃ base', Braces base' ∧ applyDelimiter line (delimiters ++ base) entry
      = applyDelimiter line delimiters entry ++ base' := by
  unfold applyDelimiter
  split
  · exact ⟨base, braces, rfl⟩
  · exact ⟨base, braces, rfl⟩
  · refine ⟨base, braces, ?_⟩
    split <;> rfl
  · exact closeContinuation_append braces delimiters _
  · exact closeContinuation_append braces delimiters _
  · exact closeContinuation_append braces delimiters _
  · exact ⟨base, braces, rfl⟩

theorem foldl_applyDelimiter_append (braces : Braces base) (line : Text)
    (entries : List (Nat × Char)) (delimiters : List ContinuationDelimiter) :
    ∃ base', Braces base' ∧ entries.foldl (applyDelimiter line) (delimiters ++ base)
      = entries.foldl (applyDelimiter line) delimiters ++ base' := by
  induction entries generalizing delimiters base with
  | nil => exact ⟨base, braces, rfl⟩
  | cons entry entries ih =>
    obtain ⟨base', braces', one⟩ := applyDelimiter_append braces line delimiters entry
    rw [List.foldl_cons, one]
    exact ih braces' _

/-- What a character does to the delimiters depends on what stands in front of it. -/
theorem applyDelimiter_congr {line line' : Text} (front : line.take entry.1 = line'.take entry.1)
    (delimiters : List ContinuationDelimiter) :
    applyDelimiter line delimiters entry = applyDelimiter line' delimiters entry := by
  unfold applyDelimiter
  rw [front]

theorem foldl_applyDelimiter_congr {line line' : Text}
    (front : ∀ entry ∈ entries, line.take entry.1 = line'.take entry.1)
    (delimiters : List ContinuationDelimiter) :
    entries.foldl (applyDelimiter line) delimiters
      = entries.foldl (applyDelimiter line') delimiters := by
  induction entries generalizing delimiters with
  | nil => rfl
  | cons entry entries ih =>
    rw [List.foldl_cons, List.foldl_cons, applyDelimiter_congr (front entry (by simp)),
      ih fun other among => front other (by simp [among])]

/-- A line acts on the delimiters piece by piece. -/
theorem applyContinuationDelimiters_append (delimiters : List ContinuationDelimiter)
    (front rest : Text) :
    applyContinuationDelimiters delimiters (front ++ rest)
      = (unquotedFrom (Quoting.outside.after front) (0 + front.length) rest).foldl
        (applyDelimiter (front ++ rest)) (applyContinuationDelimiters delimiters front) := by
  rw [applyContinuationDelimiters, unquotedChars, unquotedFrom_append, List.foldl_append,
    applyContinuationDelimiters]
  congr 1
  apply foldl_applyDelimiter_congr
  intro entry among
  have bound := (mem_unquotedFrom among).2.1
  rw [List.take_append_of_le_length (by omega)]

/-- The delimiters are left alone. -/
theorem applyDelimiter_inert (line : Text) (delimiters : List ContinuationDelimiter)
    (other : entry.2 ∉ ['(', '[', '{', ')', ']', '}']) :
    applyDelimiter line delimiters entry = delimiters := by
  unfold applyDelimiter
  split
  case h_7 => rfl
  all_goals
    rename_i char
    simp [char] at other

theorem foldl_applyDelimiter_inert (line : Text)
    (other : ∀ entry ∈ entries, entry.2 ∉ ['(', '[', '{', ')', ']', '}'])
    (delimiters : List ContinuationDelimiter) :
    entries.foldl (applyDelimiter line) delimiters = delimiters := by
  induction entries with
  | nil => rfl
  | cons entry entries ih =>
    rw [List.foldl_cons, applyDelimiter_inert line delimiters (other entry (by simp)),
      ih fun other' among => other other' (by simp [among])]

theorem isWhitespace_inert {char : Char} (white : isWhitespace char = true) :
    char ∉ ['(', '[', '{', ')', ']', '}'] := by
  intro among
  simp only [List.mem_cons, List.not_mem_nil, or_false] at among
  rcases among with rfl | rfl | rfl | rfl | rfl | rfl <;> exact absurd white (by decide)

/-- Opening braces are braces. -/
theorem Braces.opened {base : List ContinuationDelimiter} (braces : Braces base) (line : Text)
    {entries : List (Nat × Char)} (opening : ∀ entry ∈ entries, entry.2 = ' ' ∨ entry.2 = '{') :
    Braces (entries.foldl (applyDelimiter line) base) := by
  induction entries generalizing base with
  | nil => exact braces
  | cons entry entries ih =>
    rw [List.foldl_cons]
    refine ih ?_ fun other among => opening other (by simp [among])
    rcases opening entry (by simp) with space | brace
    · rw [applyDelimiter_inert line base (by rw [space]; decide)]
      exact braces
    · rw [applyDelimiter, brace]
      show Braces (if opensContinuation (line.take entry.1) then .brace :: base else base)
      split
      · simpa [Braces] using braces
      · exact braces

/-! ### One line -/

theorem isEmpty_trim_iff (text : Text) :
    (trim text).isEmpty = true ↔ ∀ char ∈ text, isWhitespace char = true := by
  rw [List.isEmpty_iff, trim, trimEnd, List.rdropWhile_eq_nil_iff, trimStart]
  constructor
  · intro white char among
    rw [← @List.takeWhile_append_dropWhile _ isWhitespace text] at among
    rcases List.mem_append.1 among with among | among
    · exact List.mem_takeWhile_imp among
    · exact white char among
  · exact fun white char among => white char ((List.dropWhile_suffix _).subset among)

/-- Text with a last character that is not white is its own end. -/
theorem trimEnd_concat {char : Char} (front : Text) (solid : isWhitespace char = false) :
    trimEnd (front ++ [char]) = front ++ [char] :=
  List.rdropWhile_concat_neg _ _ _ (by simp [solid])

/-- A header as it is written is all code, and opens no block. -/
theorem code_header {header : Text} (plain : ∀ entry ∈ unquotedChars header, entry.2 ≠ '#') :
    code (header ++ [' ', '{']) = header ++ [' ', '{'] := by
  refine code_eq_self fun entry among => ?_
  rw [unquotedChars, unquotedFrom_append] at among
  rcases List.mem_append.1 among with among | among
  · exact plain entry among
  · have := List.mem_of_getElem? (mem_unquotedFrom among).2.2
    simp only [List.mem_cons, List.not_mem_nil, or_false] at this
    rcases this with space | brace
    · rw [space]
      decide
    · rw [brace]
      decide

theorem headerOf_header (header : Text) : headerOf (header ++ [' ', '{']) = none := by
  have split : header ++ [' ', '{'] = (header ++ [' ']) ++ ['{'] := by simp
  rw [headerOf, split, trimEnd_concat _ (by decide), stripSuffix_eq_none (by simp), Option.map_none]

/-- Where the delimiters of a scan stand over those of another one. -/
def Over (carry below : Carry) : Prop :=
  ∃ base, Braces base ∧ below.delimiters = carry.delimiters ++ base

/-- A line that is read again, as it was written, opens no block and leaves the braces below
the delimiters. -/
theorem read_written {carry again : Carry} (stacked : Over carry again) (number number' : Nat)
    (text : Text) :
    let read := carry.read number text
    (again.read number' read.1.written).1.header = none
      ∧ Over read.2 (again.read number' read.1.written).2 := by
  intro read
  obtain ⟨base, braces, stacked⟩ := stacked
  by_cases blank : (trim (code text)).isEmpty = true
  · have read_eq : read = _ := if_pos blank
    rw [read_eq]
    have again_eq : again.read number' text = _ := if_pos blank
    show (again.read number' text).1.header = none ∧ Over carry (again.read number' text).2
    rw [again_eq]
    exact ⟨rfl, base, braces, stacked⟩
  · have read_eq : read = _ := if_neg blank
    rw [read_eq]
    generalize opened : (if (carry.behind (code text)).delimiters.isEmpty then headerOf (code text)
      else none) = header
    cases header with
    | none =>
      have again_eq : again.read number' text = _ := if_neg blank
      show (again.read number' text).1.header = none
        ∧ Over (carry.behind (code text)) (again.read number' text).2
      rw [again_eq]
      obtain ⟨base', braces', after⟩ := foldl_applyDelimiter_append braces (code text)
        (unquotedChars (code text)) carry.delimiters
      rw [← stacked] at after
      refine ⟨?_, base', braces', after⟩
      show (if (again.behind (code text)).delimiters.isEmpty then headerOf (code text) else none) = none
      split
      case isFalse => rfl
      case isTrue closed =>
        have none : (carry.behind (code text)).delimiters.isEmpty = true := by
          rw [List.isEmpty_iff] at closed ⊢
          have whole : (again.behind (code text)).delimiters
            = (carry.behind (code text)).delimiters ++ base' := after
          rw [closed] at whole
          exact (List.append_eq_nil_iff.1 whole.symm).1
        rwa [if_pos none] at opened
    | some header =>
      have closed : (carry.behind (code text)).delimiters = [] := by
        by_contra other
        rw [if_neg (by simpa using other)] at opened
        cases opened
      rw [if_pos (by simp [closed])] at opened
      obtain ⟨tail, whole, inert⟩ := headerOf_append opened
      have plain : ∀ entry ∈ unquotedChars header, entry.2 ≠ '#' := by
        refine @plain_of_append header tail fun entry among => ?_
        rw [← whole] at among
        exact plain_code among
      have code_eq := code_header plain
      have solid : ¬(trim (code (header ++ [' ', '{']))).isEmpty = true := by
        rw [code_eq, isEmpty_trim_iff]
        intro white
        exact absurd (white '{' (by simp)) (by decide)
      have again_eq : again.read number' (header ++ [' ', '{']) = _ := if_neg solid
      show (again.read number' (header ++ [' ', '{'])).1.header = none
        ∧ Over (carry.behind (code text)) (again.read number' (header ++ [' ', '{'])).2
      rw [again_eq, code_eq]
      refine ⟨?_, (again.behind (header ++ [' ', '{'])).delimiters, ?_, by rw [closed]; rfl⟩
      · show (if _ then headerOf (header ++ [' ', '{']) else none) = none
        rw [headerOf_header, ite_self]
      · -- the header leaves the delimiters of the source empty, so braces only are below it
        have above : applyContinuationDelimiters carry.delimiters header = [] := by
          rw [← closed]
          show _ = applyContinuationDelimiters carry.delimiters (code text)
          rw [whole, applyContinuationDelimiters_append, foldl_applyDelimiter_inert]
          intro entry among
          rcases inert entry.2 (List.mem_of_getElem? (mem_unquotedFrom among).2.2) with white | colon
          · exact isWhitespace_inert white
          · rw [colon]
            decide
        obtain ⟨base', braces', after⟩ := foldl_applyDelimiter_append braces header
          (unquotedChars header) carry.delimiters
        have after : applyContinuationDelimiters again.delimiters header = base' := by
          rw [stacked]
          exact after.trans (by rw [← applyContinuationDelimiters, above, List.nil_append])
        show Braces (applyContinuationDelimiters again.delimiters (header ++ [' ', '{']))
        rw [applyContinuationDelimiters_append, after]
        refine braces'.opened _ fun entry among => ?_
        simpa using List.mem_of_getElem? (mem_unquotedFrom among).2.2

/-! ### The whole text -/

theorem readLines_cons (carry : Carry) (number : Nat) (text : Text) (texts : List Text) :
    readLines carry number (text :: texts)
      = (carry.read number text).1 :: readLines (carry.read number text).2 (number + 1) texts :=
  rfl

theorem read_brace (carry : Carry) (number : Nat) :
    (carry.read number ['}']).1.header = none
      ∧ (carry.read number ['}']).2.delimiters = closeContinuation carry.delimiters .brace := by
  have solid : ¬(trim (code ['}'])).isEmpty = true := by decide
  rw [Carry.read, if_neg solid]
  refine ⟨?_, rfl⟩
  have none : headerOf (code ['}']) = none := by decide
  show (if _ then headerOf (code ['}']) else Option.none) = Option.none
  rw [none, ite_self]

/-- In front of a statement no delimiter is open. -/
theorem delimiters_of_statement {carry : Carry} {number : Nat} {text : Text}
    (statement : (carry.read number text).1.Statement) : carry.delimiters = [] := by
  obtain ⟨solid, begins⟩ := statement
  by_cases blank : (trim (code text)).isEmpty = true
  · rw [show carry.read number text = _ from if_pos blank] at solid
    cases solid
  · rw [show carry.read number text = _ from if_neg blank] at begins
    simp only [Carry.continuesInto, Bool.or_eq_false_iff, Bool.not_eq_false', List.isEmpty_iff]
      at begins
    exact begins.1.1

/-- No line opens a block in what the stack has written. -/
theorem Lays.headerless {last : Nat} {widths : List Nat} {pending : Bool} {logical : Nat}
    {lines : List SourceLine} {out : List (Text × Nat)}
    (lays : Lays last widths pending logical lines out) :
    ∀ (carry again : Carry) (number number' : Nat) (texts : List Text),
      lines = readLines carry number texts → (texts ≠ [] → Over carry again) →
      ∀ line ∈ readLines again number' (out.map Prod.fst), line.header = none := by
  -- a line that the stack writes is read again over what has been written
  have own : ∀ {line : SourceLine} {lines : List SourceLine} {out : List (Text × Nat)},
      (∀ (carry again : Carry) (number number' : Nat) (texts : List Text),
        lines = readLines carry number texts → (texts ≠ [] → Over carry again) →
        ∀ line ∈ readLines again number' (out.map Prod.fst), line.header = none) →
      ∀ (carry again : Carry) (number number' : Nat) (texts : List Text),
        line :: lines = readLines carry number texts → (texts ≠ [] → Over carry again) →
        ∀ other ∈ readLines again number' ((line.entry :: out).map Prod.fst), other.header = none := by
    intro line lines out rest carry again number number' texts read stacked
    cases texts with
    | nil => cases read
    | cons text texts =>
      rw [readLines_cons] at read
      obtain ⟨rfl, rfl⟩ := List.cons.inj read
      have once := read_written (stacked (by simp)) number number' text
      rw [List.map_cons, readLines_cons]
      intro other among
      rcases List.mem_cons.1 among with rfl | among
      · exact once.1
      · exact rest _ _ _ _ texts rfl (fun _ => once.2) other among
  induction lays with
  | done => simp [readLines]
  | @closeLast width widths logical out _ ih =>
    intro carry again number number' texts read stacked
    have none : texts = [] := by
      cases texts with
      | nil => rfl
      | cons => cases read
    subst none
    rw [List.map_cons, readLines_cons]
    intro other among
    rcases List.mem_cons.1 among with rfl | among
    · exact (read_brace again number').1
    · exact ih carry _ number _ [] read (by simp) other among
  | blank _ _ _ ih => exact own ih
  | @close width widths logical line lines out statement _ _ ih =>
    intro carry again number number' texts read stacked
    have some : texts ≠ [] := by
      rintro rfl
      cases read
    have free : carry.delimiters = [] := by
      cases texts with
      | nil => cases read
      | cons text texts =>
        rw [readLines_cons] at read
        obtain ⟨rfl, -⟩ := List.cons.inj read
        exact delimiters_of_statement statement
    obtain ⟨base, braces, below⟩ := stacked some
    rw [List.map_cons, readLines_cons]
    intro other among
    rcases List.mem_cons.1 among with rfl | among
    · exact (read_brace again number').1
    · refine ih carry _ number _ texts read (fun _ => ⟨_, braces.close .brace, ?_⟩) other among
      rw [(read_brace again number').2, below, free]
      rfl
  | first _ _ _ _ ih => exact own ih
  | code _ _ _ _ ih => exact own ih

end Onda.Frontend
