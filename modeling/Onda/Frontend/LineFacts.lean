import Onda.Frontend.Preprocess

/-!
# Facts about lines

Lines that are joined are split into the same lines again, and what the scanners see in a
line that is cut off is what they saw in it before.
-/

namespace Onda.Frontend

/-! ### Splitting and joining -/

theorem stripSuffix_concat (suffix : Char) (text : Text) :
    stripSuffix suffix (text ++ [suffix]) = some text := by
  simp [stripSuffix]

variable {texts : List Text} {entry : Nat × Char} {line text : Text}

theorem stripSuffix_eq_none {suffix : Char} (other : text.getLast? ≠ some suffix) :
    stripSuffix suffix text = none :=
  if_neg other

/-- A suffix that can be stripped is there. -/
theorem eq_of_stripSuffix {suffix : Char} {front : Text}
    (stripped : stripSuffix suffix text = some front) : text = front ++ [suffix] := by
  rw [stripSuffix] at stripped
  split at stripped
  case isTrue last =>
    cases stripped
    exact (List.dropLast_append_getLast? suffix last).symm
  case isFalse => cases stripped

theorem withoutReturn_eq (other : line.getLast? ≠ some '\r') :
    withoutReturn line = line := by
  rw [withoutReturn, stripSuffix_eq_none other, Option.getD_none]

theorem prefix_withoutReturn (line : Text) : withoutReturn line <+: line := by
  rw [withoutReturn]
  cases stripped : stripSuffix '\r' line with
  | none => exact List.prefix_rfl
  | some front =>
    rw [eq_of_stripSuffix stripped]
    exact List.prefix_append _ _

/-- Lines as they are written one behind the other. -/
def joinLines (texts : List Text) : Text := texts.flatMap fun text => text ++ ['\n']

theorem splitInclusive_cons {char : Char} (other : char ≠ '\n') (text : Text) :
    splitInclusive (char :: text)
      = match splitInclusive text with
        | [] => [[char]]
        | line :: lines => (char :: line) :: lines :=
  splitInclusive.eq_3 char text other

theorem splitInclusive_line (rest : Text) (within : '\n' ∉ text) :
    splitInclusive (text ++ '\n' :: rest) = (text ++ ['\n']) :: splitInclusive rest := by
  induction text with
  | nil => rfl
  | cons char text ih =>
    rw [List.mem_cons, not_or] at within
    rw [List.cons_append, splitInclusive_cons (Ne.symm within.1), ih within.2]
    rfl

theorem splitInclusive_joinLines (within : ∀ text ∈ texts, '\n' ∉ text) :
    splitInclusive (joinLines texts) = texts.map fun text => text ++ ['\n'] := by
  induction texts with
  | nil => rfl
  | cons text texts ih =>
    rw [joinLines, List.flatMap_cons, List.append_assoc, List.singleton_append,
      splitInclusive_line _ (within text (by simp)), List.map_cons]
    exact congrArg _ (ih fun other among => within other (by simp [among]))

theorem stripLineEnd_concat (text : Text) : stripLineEnd (text ++ ['\n']) = withoutReturn text := by
  rw [stripLineEnd, stripSuffix_concat]
  rfl

/-- Joined lines are as many lines. -/
theorem length_lines_joinLines (within : ∀ text ∈ texts, '\n' ∉ text) :
    (lines (joinLines texts)).length = texts.length := by
  rw [lines, splitInclusive_joinLines within, List.length_map, List.length_map]

/-- Joined lines are the same lines. -/
theorem lines_joinLines (within : ∀ text ∈ texts, '\n' ∉ text)
    (ends : ∀ text ∈ texts, text.getLast? ≠ some '\r') : lines (joinLines texts) = texts := by
  rw [lines, splitInclusive_joinLines within, List.map_map]
  calc texts.map (stripLineEnd ∘ fun text => text ++ ['\n'])
      = texts.map id := List.map_congr_left fun text among => by
        rw [Function.comp_apply, stripLineEnd_concat, withoutReturn_eq (ends text among), id]
    _ = texts := List.map_id _

/-- The pieces of a text have a line feed at their end only. -/
theorem mem_splitInclusive (among : line ∈ splitInclusive text) :
    ∃ front, '\n' ∉ front ∧ (line = front ∨ line = front ++ ['\n']) := by
  induction text generalizing line with
  | nil => simp [splitInclusive] at among
  | cons char text ih =>
    by_cases feed : char = '\n'
    · subst feed
      rw [splitInclusive, List.mem_cons] at among
      rcases among with rfl | among
      · exact ⟨[], by simp, .inr rfl⟩
      · exact ih among
    · rw [splitInclusive_cons feed] at among
      cases pieces : splitInclusive text with
      | nil =>
        rw [pieces] at among
        simp only [List.mem_singleton] at among
        exact ⟨[char], by simpa [eq_comm] using feed, .inl among⟩
      | cons piece pieces' =>
        rw [pieces] at among ih
        rcases List.mem_cons.1 among with rfl | among
        · obtain ⟨front, free, rfl | rfl⟩ := ih (List.mem_cons_self)
          · exact ⟨char :: piece, by simp [free, Ne.symm feed], .inl rfl⟩
          · exact ⟨char :: front, by simp [free, Ne.symm feed], .inr rfl⟩
        · exact ih (List.mem_cons_of_mem _ among)

/-- A line of a text has no line feed. -/
theorem notMem_lines {source : Text} (among : line ∈ lines source) : '\n' ∉ line := by
  obtain ⟨piece, inside, rfl⟩ := List.mem_map.1 among
  obtain ⟨front, free, rfl | rfl⟩ := mem_splitInclusive inside
  · rw [stripLineEnd, stripSuffix_eq_none]
    · exact free
    · exact fun last => free (List.mem_of_getLast? last)
  · rw [stripLineEnd_concat]
    exact fun feed => free ((prefix_withoutReturn front).subset feed)

/-! ### Characters outside quotes -/

/-- The state of a scanner behind a text. -/
def Quoting.after (quoting : Quoting) (text : Text) : Quoting :=
  text.foldl (fun quoting char => (quoting.next char).1) quoting

theorem unquotedFrom_append (quoting : Quoting) (position : Nat) (front rest : Text) :
    unquotedFrom quoting position (front ++ rest)
      = unquotedFrom quoting position front
        ++ unquotedFrom (quoting.after front) (position + front.length) rest := by
  induction front generalizing quoting position with
  | nil => rfl
  | cons char front ih =>
    have length : position + 1 + front.length = position + (char :: front).length := by
      rw [List.length_cons, Nat.add_assoc, Nat.add_comm 1]
    rw [List.cons_append, unquotedFrom, unquotedFrom, ih, length]
    split <;> rfl

/-- An entry is a character of the text at its place. -/
theorem mem_unquotedFrom {quoting : Quoting} {position : Nat}
    (among : entry ∈ unquotedFrom quoting position text) :
    position ≤ entry.1 ∧ entry.1 < position + text.length ∧ text[entry.1 - position]? = some entry.2 := by
  induction text generalizing quoting position with
  | nil => simp [unquotedFrom] at among
  | cons char text ih =>
    rw [unquotedFrom] at among
    have later : entry ∈ unquotedFrom (quoting.next char).1 (position + 1) text →
        position ≤ entry.1 ∧ entry.1 < position + (char :: text).length
          ∧ (char :: text)[entry.1 - position]? = some entry.2 := by
      intro among
      obtain ⟨first, last, at'⟩ := ih among
      refine ⟨by omega, by rw [List.length_cons]; omega, ?_⟩
      rw [show entry.1 - position = entry.1 - (position + 1) + 1 by omega, List.getElem?_cons_succ]
      exact at'
    split at among
    · rcases List.mem_cons.1 among with rfl | among
      · simp
      · exact later among
    · exact later among

/-- Positions outside quotes ascend. -/
theorem pairwise_unquotedFrom (quoting : Quoting) (position : Nat) (text : Text) :
    (unquotedFrom quoting position text).Pairwise fun before behind => before.1 < behind.1 := by
  induction text generalizing quoting position with
  | nil => exact .nil
  | cons char text ih =>
    rw [unquotedFrom]
    split
    · refine List.pairwise_cons.2 ⟨fun entry among => ?_, ih _ _⟩
      have := (mem_unquotedFrom among).1
      exact this
    · exact ih _ _

/-! ### Code -/

theorem code_begins (line : Text) : code line <+: line := by
  rw [code, splitComment]
  split
  · exact List.take_prefix _ _
  · exact List.prefix_rfl

/-- A line without a comment is all code. -/
theorem code_eq_self (plain : ∀ entry ∈ unquotedChars line, entry.2 ≠ '#') :
    code line = line := by
  have none : (unquotedChars line).find? (fun entry => entry.2 = '#') = none := by
    rw [List.find?_eq_none]
    simpa using plain
  rw [code, splitComment, none]

/-- Code has no comment. -/
theorem plain_code (among : entry ∈ unquotedChars (code line)) :
    entry.2 ≠ '#' := by
  rw [code, splitComment] at among
  split at among
  case h_2 found =>
    rw [List.find?_eq_none] at found
    simpa using found entry among
  case h_1 position char found =>
    obtain ⟨-, before, behind, whole, others⟩ := List.find?_eq_some_iff_append.1 found
    have ascending : (unquotedChars line).Pairwise fun before behind => before.1 < behind.1 :=
      pairwise_unquotedFrom _ _ _
    have inside : entry ∈ unquotedChars line := by
      rw [← List.take_append_drop position line, unquotedChars, unquotedFrom_append]
      exact List.mem_append_left _ among
    have bound : entry.1 < position := by
      have := (mem_unquotedFrom among).2.1
      rw [List.length_take] at this
      omega
    rw [whole] at inside ascending
    rcases List.mem_append.1 inside with inside | inside
    · simpa using others entry inside
    · -- what is behind the first comment sign stands at later positions
      exfalso
      rcases List.mem_cons.1 inside with rfl | inside
      · exact absurd bound (Nat.lt_irrefl _)
      · have := (List.pairwise_cons.1 (List.pairwise_append.1 ascending).2.1).1 entry inside
        exact absurd (this.trans bound) (Nat.lt_irrefl _)

/-- What is in front of a text without a comment has none. -/
theorem plain_of_append {front rest : Text}
    (plain : ∀ entry ∈ unquotedChars (front ++ rest), entry.2 ≠ '#') :
    ∀ entry ∈ unquotedChars front, entry.2 ≠ '#' := by
  intro entry among
  refine plain entry ?_
  rw [unquotedChars, unquotedFrom_append]
  exact List.mem_append_left _ among

theorem trimEnd_append (text : Text) :
    ∃ white, text = trimEnd text ++ white ∧ ∀ char ∈ white, isWhitespace char = true := by
  refine ⟨text.rtakeWhile isWhitespace, ?_, fun char among => ?_⟩
  · exact (List.rdropWhile_append_rtakeWhile ..).symm
  · exact List.mem_rtakeWhile_imp among

/-- In front of a header's colon is its text. -/
theorem headerOf_append {code header : Text} (opens : headerOf code = some header) :
    ∃ tail, code = header ++ tail ∧ ∀ char ∈ tail, isWhitespace char = true ∨ char = ':' := by
  obtain ⟨front, stripped, rfl⟩ := Option.map_eq_some_iff.1 opens
  obtain ⟨white, whole, behind⟩ := trimEnd_append code
  obtain ⟨inner, whole', between⟩ := trimEnd_append front
  refine ⟨inner ++ ':' :: white, ?_, fun char among => ?_⟩
  · rw [eq_of_stripSuffix stripped] at whole
    calc code = front ++ [':'] ++ white := whole
      _ = trimEnd front ++ inner ++ [':'] ++ white := by rw [← whole']
      _ = trimEnd front ++ (inner ++ ':' :: white) := by simp
  · rcases List.mem_append.1 among with among | among
    · exact .inl (between char among)
    · rcases List.mem_cons.1 among with rfl | among
      · exact .inr rfl
      · exact .inl (behind char among)

end Onda.Frontend
