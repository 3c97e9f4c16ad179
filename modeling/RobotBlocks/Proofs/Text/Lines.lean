import RobotBlocks.Text.Blank

/-!
# Lines and trimming

A line feed after a text without one ends its first line, and trimming leaves a text alone that
has no blank character at either end.
-/

namespace RobotBlocks.Text

theorem lines_append {line : List Char} (single : '\n' ∉ line) (rest : List Char) :
    lines (line ++ '\n' :: rest) = line :: lines rest := by
  induction line with
  | nil => simp [lines]
  | cons c line ih =>
      rw [List.mem_cons, not_or] at single
      rw [List.cons_append, lines, if_neg fun same => single.1 same.symm, ih single.2]

theorem trimStart_blank {indent : List Char} (blank : ∀ c ∈ indent, isBlank c = true)
    (text : List Char) : trimStart (indent ++ text) = trimStart text :=
  List.dropWhile_append_of_pos blank

theorem trimStart_of_head {first : Char} (solid : isBlank first = false) (rest : List Char) :
    trimStart (first :: rest) = first :: rest := by
  unfold trimStart
  rw [List.dropWhile_cons_of_neg (by rw [solid]; exact Bool.false_ne_true)]

theorem trimEnd_of_last {last : Char} (solid : isBlank last = false) (body : List Char) :
    trimEnd (body ++ [last]) = body ++ [last] := by
  unfold trimEnd
  rw [List.reverse_append, List.reverse_singleton, List.singleton_append,
    List.dropWhile_cons_of_neg (by rw [solid]; exact Bool.false_ne_true), List.reverse_cons,
    List.reverse_reverse]

theorem dropWhile_blank_append_singleton (text : List Char) {last : Char}
    (solid : isBlank last = false) :
    ∃ body, (text ++ [last]).dropWhile isBlank = body ++ [last] := by
  induction text with
  | nil =>
      rw [List.nil_append,
        List.dropWhile_cons_of_neg (by rw [solid]; exact Bool.false_ne_true)]
      exact ⟨[], rfl⟩
  | cons c text ih =>
      rw [List.cons_append, List.dropWhile_cons]
      split
      · exact ih
      · exact ⟨c :: text, rfl⟩

/-- A text keeps its first character when that is not blank. -/
theorem trim_of_head {first : Char} (solid : isBlank first = false) (rest : List Char) :
    ∃ more, trim (first :: rest) = first :: more := by
  obtain ⟨body, kept⟩ := dropWhile_blank_append_singleton rest.reverse solid
  unfold trim trimEnd
  rw [trimStart_of_head solid, List.reverse_cons, kept, List.reverse_append]
  exact ⟨body.reverse, rfl⟩

/-- Trimming an indented text takes the indentation off and nothing else. -/
theorem trim_indented {indent text body : List Char} {first last : Char} {rest : List Char}
    (blank : ∀ c ∈ indent, isBlank c = true) (starts : text = first :: rest)
    (ends : text = body ++ [last]) (solid : isBlank first = false)
    (solidLast : isBlank last = false) : trim (indent ++ text) = text := by
  unfold trim
  rw [trimStart_blank blank, starts, trimStart_of_head solid, ← starts, ends,
    trimEnd_of_last solidLast]

theorem trimEnd_blank {tail : List Char} (blank : ∀ c ∈ tail, isBlank c = true)
    (text : List Char) : trimEnd (text ++ tail) = trimEnd text := by
  unfold trimEnd
  rw [List.reverse_append,
    List.dropWhile_append_of_pos fun c mem => blank c (List.mem_reverse.mp mem)]

/-- Trimming takes off what is blank around a text that has no blank character. -/
theorem trim_surrounded {before text after : List Char}
    (blankBefore : ∀ c ∈ before, isBlank c = true) (solid : ∀ c ∈ text, isBlank c = false)
    (blankAfter : ∀ c ∈ after, isBlank c = true) : trim (before ++ text ++ after) = text := by
  unfold trim
  rw [List.append_assoc, trimStart_blank blankBefore]
  cases text with
  | nil =>
      rw [List.nil_append, ← List.append_nil after, trimStart_blank blankAfter]
      rfl
  | cons first rest =>
      have ends := List.dropLast_concat_getLast (List.cons_ne_nil first rest)
      have solidLast := solid _ (List.getLast_mem (List.cons_ne_nil first rest))
      rw [List.cons_append, trimStart_of_head (solid first List.mem_cons_self),
        ← List.cons_append, trimEnd_blank blankAfter, ← ends, trimEnd_of_last solidLast]

end RobotBlocks.Text
