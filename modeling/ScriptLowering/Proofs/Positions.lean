import Mathlib.Data.List.TakeWhile
import ScriptLowering.Text.Lines

/-! # Rows, columns and lines agree

An offset that falls between two characters cuts a text in two. Its row counts the line feeds
before it, its column the characters since the last of them, and the line of its row is the
line feed separated segment the offset falls in, without the carriage return of a `\r\n`
ending. Only the very end of a text that is empty or ends in a line feed has no line.
Main statement: `rows_columns_lines`.

The proofs read the text before the offset as whole lines, each ended by its line feed, and
then the start of one more line (`exists_terminated_split`). Splitting at line feeds and reading
lines both take the whole lines one at a time (`splitOn_terminated`, `lines_terminated`), so
the row of the offset picks the segment that follows them.
-/

namespace ScriptLowering.Text

/-- Lines written one after another, each ended by a line feed. -/
def terminated (complete : List (List Char)) : List Char := (complete.map (· ++ ['\n'])).flatten

@[simp] theorem terminated_nil : terminated [] = [] := rfl

@[simp] theorem terminated_cons (line : List Char) (more : List (List Char)) :
    terminated (line :: more) = line ++ '\n' :: terminated more := by
  simp [terminated]

theorem terminated_append (first second : List (List Char)) :
    terminated (first ++ second) = terminated first ++ terminated second := by
  simp [terminated]

/-- Nothing of a text without a line feed is one. -/
theorem ne_newline_of_not_mem {text : List Char} (noFeed : '\n' ∉ text) :
    ∀ c ∈ text, (c != '\n') = true := by
  intro c member
  simpa using fun same : c = '\n' => noFeed (same ▸ member)

/-- A text that holds a line feed is a line without one, that line feed, and the rest. -/
theorem exists_first_newline {text : List Char} (feed : '\n' ∈ text) :
    ∃ line rest, '\n' ∉ line ∧ text = line ++ '\n' :: rest := by
  induction text with
  | nil => exact absurd feed List.not_mem_nil
  | cons c more ih =>
    by_cases isFeed : c = '\n'
    · exact ⟨[], more, List.not_mem_nil, by simp [isFeed]⟩
    · have later : '\n' ∈ more := by
        rcases List.mem_cons.mp feed with same | later
        · exact absurd same.symm isFeed
        · exact later
      obtain ⟨line, rest, noFeed, split⟩ := ih later
      refine ⟨c :: line, rest, ?_, by simp [split]⟩
      simp only [List.mem_cons, not_or]
      exact ⟨Ne.symm isFeed, noFeed⟩

section Terminated

variable {complete : List (List Char)}

theorem count_terminated (noFeed : ∀ line ∈ complete, '\n' ∉ line) :
    (terminated complete).count '\n' = complete.length := by
  induction complete with
  | nil => rfl
  | cons line more ih =>
    have lineCount : line.count '\n' = 0 := List.count_eq_zero.mpr (noFeed line List.mem_cons_self)
    have moreCount := ih fun other member => noFeed other (List.mem_cons_of_mem _ member)
    simp only [terminated_cons, List.count_append, List.count_cons_self, lineCount, moreCount,
      List.length_cons]
    omega

/-- Splitting at line feeds gives the whole lines back one by one. -/
theorem splitOn_terminated (noFeed : ∀ line ∈ complete, '\n' ∉ line) (rest : List Char) :
    (terminated complete ++ rest).splitOn '\n' = complete ++ rest.splitOn '\n' := by
  induction complete with
  | nil => rfl
  | cons line more ih =>
    rw [terminated_cons, List.append_assoc, List.cons_append,
      List.splitOn_append_cons_self_of_not_mem (noFeed line List.mem_cons_self),
      ih fun other member => noFeed other (List.mem_cons_of_mem _ member), List.cons_append]

/-- A text of whole lines ends with a line feed, so no character follows the last one. -/
theorem takeWhile_reverse_terminated :
    (terminated complete).reverse.takeWhile (· != '\n') = [] := by
  rcases List.eq_nil_or_concat complete with empty | ⟨front, line, split⟩
  · simp [empty]
  · rw [split, List.concat_eq_append, terminated_append]
    simp [terminated]

end Terminated

/-! ## Reading lines -/

/-- A line ended by a line feed is read without it and without a carriage return before it. -/
theorem lines_append_newline {line : List Char} (noFeed : '\n' ∉ line) (rest : List Char) :
    lines (line ++ '\n' :: rest) = dropCarriageReturn line :: lines rest := by
  have inside := ne_newline_of_not_mem noFeed
  obtain ⟨c, tail, split⟩ : ∃ c tail, line ++ '\n' :: rest = c :: tail := by
    cases line <;> simp
  rw [split, lines]
  split
  · rename_i dropped
    rw [← split, List.dropWhile_append_of_pos inside] at dropped
    simp at dropped
  · rename_i feed after dropped
    rw [← split, List.dropWhile_append_of_pos inside] at dropped
    simp only [bne_self_eq_false, Bool.false_eq_true, not_false_eq_true, List.dropWhile_cons_of_neg,
      List.cons.injEq] at dropped
    rw [← split, List.takeWhile_append_of_pos inside, ← dropped.2]
    simp

/-- A text without a line feed is one line, unless it is empty. -/
theorem lines_of_not_mem {text : List Char} (noFeed : '\n' ∉ text) :
    lines text = if text = [] then [] else [text] := by
  cases text with
  | nil => simp [lines]
  | cons c rest =>
    rw [lines]
    split
    · simp
    · rename_i feed after dropped
      rw [← List.append_nil (c :: rest), List.dropWhile_append_of_pos (ne_newline_of_not_mem noFeed)]
        at dropped
      simp at dropped

theorem lines_terminated {complete : List (List Char)} (noFeed : ∀ line ∈ complete, '\n' ∉ line)
    (rest : List Char) :
    lines (terminated complete ++ rest) = complete.map dropCarriageReturn ++ lines rest := by
  induction complete with
  | nil => rfl
  | cons line more ih =>
    rw [terminated_cons, List.append_assoc, List.cons_append,
      lines_append_newline (noFeed line List.mem_cons_self),
      ih fun other member => noFeed other (List.mem_cons_of_mem _ member)]
    rfl

theorem dropCarriageReturn_eq (line : List Char) :
    dropCarriageReturn line = if line.getLast? = some '\r' then line.dropLast else line := by
  simp [dropCarriageReturn]

/-! ## The text before an offset -/

/-- Every text is whole lines, each ended by its line feed, and then the start of one more line. -/
theorem exists_terminated_split (front : List Char) :
    ∃ complete last, (∀ line ∈ complete, '\n' ∉ line) ∧ '\n' ∉ last ∧
      front = terminated complete ++ last := by
  induction front with
  | nil => exact ⟨[], [], fun _ member => absurd member List.not_mem_nil, List.not_mem_nil, rfl⟩
  | cons c more ih =>
    obtain ⟨complete, last, noFeed, lastNoFeed, split⟩ := ih
    by_cases isFeed : c = '\n'
    · -- the line feed ends an empty line
      refine ⟨[] :: complete, last, ?_, lastNoFeed, by simp [isFeed, split]⟩
      intro line member
      rcases List.mem_cons.mp member with rfl | later
      · exact List.not_mem_nil
      · exact noFeed line later
    · have notFeed : '\n' ≠ c := Ne.symm isFeed
      cases complete with
      | nil => exact ⟨[], c :: last, noFeed, by simp [notFeed, lastNoFeed], by simp [split]⟩
      | cons line rest =>
        refine ⟨(c :: line) :: rest, last, ?_, lastNoFeed, by simp [split]⟩
        intro other member
        rcases List.mem_cons.mp member with rfl | later
        · simp [notFeed, noFeed line List.mem_cons_self]
        · exact noFeed other (List.mem_cons_of_mem _ later)

/-- The part of the last line before the offset is empty exactly when the text before the
offset is empty or ends with a line feed. -/
theorem last_eq_nil_iff {front last : List Char} {complete : List (List Char)}
    (lastNoFeed : '\n' ∉ last) (split : front = terminated complete ++ last) :
    last = [] ↔ front = [] ∨ front.getLast? = some '\n' := by
  constructor
  · rintro rfl
    rcases List.eq_nil_or_concat complete with empty | ⟨lines, line, rfl⟩
    · simp [split, empty]
    · right
      rw [split, List.append_nil, List.concat_eq_append, terminated_append]
      simp [terminated]
  · rintro (empty | endsFeed)
    · rw [split] at empty
      exact (List.append_eq_nil_iff.mp empty).2
    · cases last with
      | nil => rfl
      | cons c more =>
        -- the last character of the text is the last of `last`, which is no line feed
        rw [split, List.getLast?_append, List.getLast?_eq_some_getLast (List.cons_ne_nil c more),
          Option.some_or] at endsFeed
        exact absurd (Option.some.inj endsFeed ▸ List.getLast_mem _) lastNoFeed

/-- A text that can be taken whole within `count` bytes is taken whole. -/
theorem takeBytes_of_byteSize_le {text : List Char} {count : Nat} (fits : byteSize text ≤ count) :
    takeBytes count text = text := by
  induction text generalizing count with
  | nil => simp [takeBytes]
  | cons c rest ih =>
    simp only [byteSize_cons] at fits
    rw [takeBytes, if_pos (by omega), ih (by omega)]

/-- The characters before an offset that falls between two characters are the first part. -/
theorem before_split {front back : List Char} {p : Nat}
    (boundary : byteSize front = min p (byteSize (front ++ back))) : before (front ++ back) p = front := by
  cases back with
  | nil =>
    rw [List.append_nil] at boundary ⊢
    exact takeBytes_of_byteSize_le (by omega)
  | cons c rest =>
    have size := c.utf8Size_pos
    have offset : p = byteSize front := by
      simp only [byteSize_append, byteSize_cons] at boundary
      omega
    rw [before, offset]
    exact takeBytes_byteSize_append front rest c

section Split

variable {front back : List Char} {p : Nat}

theorem rowAt_split (boundary : byteSize front = min p (byteSize (front ++ back))) :
    rowAt (front ++ back) p = front.count '\n' + 1 := by
  rw [rowAt, before_split boundary]

theorem columnAt_split {complete : List (List Char)} {last : List Char}
    (boundary : byteSize front = min p (byteSize (front ++ back))) (lastNoFeed : '\n' ∉ last)
    (split : front = terminated complete ++ last) : columnAt (front ++ back) p = last.length + 1 := by
  rw [columnAt, before_split boundary, split, List.reverse_append,
    List.takeWhile_append_of_pos (by simpa using ne_newline_of_not_mem lastNoFeed),
    takeWhile_reverse_terminated]
  simp

end Split

/-- The first segment of a text split at line feeds runs up to its first line feed. -/
theorem splitOn_head {last : List Char} (lastNoFeed : '\n' ∉ last) (back : List Char) :
    ((last ++ back).splitOn '\n')[0]? = some (last ++ back.takeWhile (· != '\n')) := by
  by_cases feed : '\n' ∈ back
  · obtain ⟨line, rest, noFeed, rfl⟩ := exists_first_newline feed
    rw [← List.append_assoc, List.splitOn_append_cons_self_of_not_mem (by simp [lastNoFeed, noFeed]),
      List.takeWhile_append_of_pos (ne_newline_of_not_mem noFeed)]
    simp
  · rw [List.splitOn_eq_singleton (by simp [lastNoFeed, feed]),
      List.takeWhile_eq_self_iff.mpr (ne_newline_of_not_mem feed)]
    rfl

/-- The row of an offset between two characters is one more than the line feeds before it, and
its column one more than the characters after the last of them, which are the first characters
of the segment of the text between line feeds that the row numbers: the segments before it,
each with its line feed, come before them. The line of the row is that segment without the
carriage return of a `\r\n` ending, and there is none exactly at the end of a text that is
empty or ends with a line feed. There is no line zero. -/
theorem rows_columns_lines (front back : List Char) (p : Nat)
    (boundary : byteSize front = min p (byteSize (front ++ back))) :
    rowAt (front ++ back) p - 1 = front.count '\n' ∧
    (∃ pre seg, front = pre ++ seg ∧ '\n' ∉ seg ∧ seg.length = columnAt (front ++ back) p - 1 ∧
      pre = terminated (((front ++ back).splitOn '\n').take (rowAt (front ++ back) p - 1)) ∧
      ((front ++ back).splitOn '\n')[rowAt (front ++ back) p - 1]? =
        some (seg ++ back.takeWhile (· != '\n'))) ∧
    line? (front ++ back) (rowAt (front ++ back) p) =
      (if back = [] ∧ (front = [] ∨ front.getLast? = some '\n') then none
        else ((front ++ back).splitOn '\n')[rowAt (front ++ back) p - 1]?.map fun segment =>
          if '\n' ∈ back ∧ segment.getLast? = some '\r' then segment.dropLast else segment) ∧
    line? (front ++ back) 0 = none := by
  obtain ⟨complete, last, noFeed, lastNoFeed, split⟩ := exists_terminated_split front
  have row : rowAt (front ++ back) p = complete.length + 1 := by
    rw [rowAt_split boundary, split, List.count_append, count_terminated noFeed,
      List.count_eq_zero.mpr lastNoFeed]
  have column := columnAt_split boundary lastNoFeed split
  have segments : (front ++ back).splitOn '\n' = complete ++ (last ++ back).splitOn '\n' := by
    rw [split, List.append_assoc, splitOn_terminated noFeed]
  have segment : ((front ++ back).splitOn '\n')[complete.length]? =
      some (last ++ back.takeWhile (· != '\n')) := by
    rw [segments, List.getElem?_append_right (Nat.le_refl _), Nat.sub_self]
    exact splitOn_head lastNoFeed back
  have line : line? (front ++ back) (complete.length + 1) = (lines (last ++ back))[0]? := by
    rw [line?, split, List.append_assoc, lines_terminated noFeed,
      List.getElem?_append_right (by simp), List.length_map, Nat.sub_self]
  rw [row, Nat.add_sub_cancel]
  refine ⟨by rw [split, List.count_append, count_terminated noFeed, List.count_eq_zero.mpr lastNoFeed,
      Nat.add_zero],
    ⟨terminated complete, last, split, lastNoFeed, by omega, by rw [segments, List.take_left], segment⟩,
    ?_, rfl⟩
  rw [line, segment]
  simp only [← last_eq_nil_iff lastNoFeed split]
  by_cases feed : '\n' ∈ back
  · -- the segment ends at the first line feed after the offset
    obtain ⟨rest, after, restNoFeed, rfl⟩ := exists_first_newline feed
    rw [← List.append_assoc, lines_append_newline (by simp [lastNoFeed, restNoFeed]),
      List.takeWhile_append_of_pos (ne_newline_of_not_mem restNoFeed)]
    simp [dropCarriageReturn_eq]
  · -- the segment runs to the end of the text
    rw [lines_of_not_mem (by simp [lastNoFeed, feed]),
      List.takeWhile_eq_self_iff.mpr (ne_newline_of_not_mem feed)]
    by_cases empty : back = [] ∧ last = []
    · obtain ⟨rfl, rfl⟩ := empty
      rfl
    · have kept : last ++ back ≠ [] := by
        intro both
        exact empty ⟨(List.append_eq_nil_iff.mp both).2, (List.append_eq_nil_iff.mp both).1⟩
      simp [kept, feed, empty]

/-- At offset 3 of `a⏎bc\r⏎`, between `b` and `c`, the row is 2, the column 2, and the line
`bc` without its carriage return. -/
theorem rows_columns_lines_secondLine :
    byteSize "a\nb".toList = min 3 (byteSize ("a\nb".toList ++ "c\r\n".toList)) ∧
    (rowAt ("a\nb".toList ++ "c\r\n".toList) 3 - 1 = "a\nb".toList.count '\n' ∧
    (∃ pre seg, "a\nb".toList = pre ++ seg ∧ '\n' ∉ seg ∧
      seg.length = columnAt ("a\nb".toList ++ "c\r\n".toList) 3 - 1 ∧
      pre = terminated ((("a\nb".toList ++ "c\r\n".toList).splitOn '\n').take
        (rowAt ("a\nb".toList ++ "c\r\n".toList) 3 - 1)) ∧
      (("a\nb".toList ++ "c\r\n".toList).splitOn '\n')[rowAt ("a\nb".toList ++ "c\r\n".toList) 3 - 1]? =
        some (seg ++ "c\r\n".toList.takeWhile (· != '\n'))) ∧
    line? ("a\nb".toList ++ "c\r\n".toList) (rowAt ("a\nb".toList ++ "c\r\n".toList) 3) =
      (if "c\r\n".toList = [] ∧ ("a\nb".toList = [] ∨ "a\nb".toList.getLast? = some '\n') then none
        else (("a\nb".toList ++ "c\r\n".toList).splitOn '\n')[rowAt ("a\nb".toList ++ "c\r\n".toList) 3 - 1]?.map
          fun segment => if '\n' ∈ "c\r\n".toList ∧ segment.getLast? = some '\r' then segment.dropLast
            else segment) ∧
    line? ("a\nb".toList ++ "c\r\n".toList) 0 = none) :=
  ⟨by decide, rows_columns_lines "a\nb".toList "c\r\n".toList 3 (by decide)⟩

end ScriptLowering.Text
