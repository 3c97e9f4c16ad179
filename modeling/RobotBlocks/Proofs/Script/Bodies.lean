import Mathlib.Data.List.Forall2
import RobotBlocks.Proofs.Script.Grammar

/-!
# The grammar of scripts

A program flattens to the lines that say it: a loop is its opening, its body and a closing.  Such lines
are balanced, no closing comes without an opening and every loop is closed, and as many loops are open
at once as the program nests.  No other program flattens to them.  A text says what its lines say one
after the other.
-/

namespace RobotBlocks.Script

open Statement (nesting nestingOne)

/-! ## Lines of a program -/

mutual

def flatten : List Statement → List Line
  | [] => []
  | first :: rest => flattenOne first ++ flatten rest

/-- The lines that say a statement: a loop stands between an opening and a closing. -/
def flattenOne : Statement → List Line
  | .loop times body => .opening times :: (flatten body ++ [.closing])
  | statement => [.statement statement]

end

theorem flatten_append (front back : List Statement) :
    flatten (front ++ back) = flatten front ++ flatten back := by
  induction front with
  | nil => rfl
  | cons first rest ih => rw [List.cons_append, flatten, flatten, ih, List.append_assoc]

theorem flatten_singleton (statement : Statement) : flatten [statement] = flattenOne statement :=
  List.append_nil _

theorem flattenOne_flat {statement : Statement} (flat : nestingOne statement = 0) :
    flattenOne statement = [.statement statement] := by
  cases statement with
  | loop times body => exact absurd flat (Nat.succ_ne_zero _)
  | begin | command | wait | log | fail => rfl

/-- No statement starts with a closing. -/
theorem flattenOne_ne_closing (statement : Statement) (rest more : List Line) :
    flattenOne statement ++ rest ≠ .closing :: more := by
  cases statement <;> exact nofun

mutual

/-- The lines up to the closing of a body are the lines of one program only. -/
theorem flatten_cancel : (first : List Statement) → ∀ (other : List Statement) (rest more : List Line),
    flatten first ++ .closing :: rest = flatten other ++ .closing :: more →
      first = other ∧ rest = more
  | [], [], rest, more, same => ⟨rfl, (List.cons.inj same).2⟩
  | [], one :: others, rest, more, same => by
      rw [flatten, flatten, List.append_assoc] at same
      exact absurd same.symm (flattenOne_ne_closing one _ _)
  | one :: others, [], rest, more, same => by
      rw [flatten, flatten, List.append_assoc] at same
      exact absurd same (flattenOne_ne_closing one _ _)
  | one :: others, two :: third, rest, more, same => by
      rw [flatten, flatten, List.append_assoc, List.append_assoc] at same
      obtain ⟨rfl, later⟩ := flattenOne_cancel one two _ _ same
      obtain ⟨rfl, tails⟩ := flatten_cancel others third _ _ later
      exact ⟨rfl, tails⟩

theorem flattenOne_cancel : (first : Statement) → ∀ (other : Statement) (rest more : List Line),
    flattenOne first ++ rest = flattenOne other ++ more → first = other ∧ rest = more
  | .loop times body, other, rest, more, same => by
      cases other with
      | loop otherTimes otherBody =>
          simp only [flattenOne, List.cons_append, List.append_assoc, List.nil_append] at same
          obtain ⟨counts, bodies⟩ := List.cons.inj same
          cases counts
          obtain ⟨rfl, tails⟩ := flatten_cancel body otherBody _ _ bodies
          exact ⟨rfl, tails⟩
      | begin | command | wait | log | fail => cases (List.cons.inj same).1
  | .begin, other, rest, more, same | .command _, other, rest, more, same
  | .wait _, other, rest, more, same | .log _, other, rest, more, same
  | .fail _, other, rest, more, same => by
      cases other with
      | loop => cases (List.cons.inj same).1
      | begin | command | wait | log | fail =>
          obtain ⟨here, tails⟩ := List.cons.inj same
          exact ⟨Line.statement.inj here, tails⟩

end

/-- Lines say one program only: nothing in them can be attached to another body. -/
theorem flatten_injective {first other : List Statement} (same : flatten first = flatten other) :
    first = other :=
  (flatten_cancel first other [] [] (by rw [same])).1

/-! ## Open loops -/

/-- How a line changes the number of loops that are open. -/
def Line.rise : Line → Int
  | .opening _ => 1
  | .closing => -1
  | _ => 0

/-- The number of loops that are open after lines. -/
def height : List Line → Int
  | [] => 0
  | first :: rest => first.rise + height rest

/-- No closing comes without an open loop, and every loop is closed at the end. -/
structure Balanced (contents : List Line) : Prop where
  above : ∀ n, 0 ≤ height (contents.take n)
  closed : height contents = 0

/-- The lines are balanced, and there are never more loops open than the limit. -/
structure Nested (limit : Nat) (contents : List Line) : Prop extends Balanced contents where
  within : ∀ n, height (contents.take n) ≤ limit

theorem height_append (front back : List Line) :
    height (front ++ back) = height front + height back := by
  induction front with
  | nil => exact (Int.zero_add _).symm
  | cons first rest ih => rw [List.cons_append, height, height, ih, Int.add_assoc]

mutual

theorem height_flatten : (statements : List Statement) → height (flatten statements) = 0
  | [] => rfl
  | first :: rest => by
      rw [flatten, height_append, height_flattenOne first, height_flatten rest, Int.add_zero]

theorem height_flattenOne : (statement : Statement) → height (flattenOne statement) = 0
  | .loop times body => by
      rw [flattenOne, height, height_append, height_flatten body]
      rfl
  | .begin | .command _ | .wait _ | .log _ | .fail _ => rfl

end

/-- Between two lines of a program the height is that of one of its two parts. -/
theorem height_take_append {front : List Line} (closed : height front = 0) (back : List Line)
    (n : Nat) :
    height ((front ++ back).take n) = height (front.take n) ∨
      height ((front ++ back).take n) = height (back.take (n - front.length)) := by
  rw [List.take_append, height_append]
  rcases Nat.le_total n front.length with short | long
  · rw [Nat.sub_eq_zero_of_le short]
    exact .inl (Int.add_zero _)
  · rw [List.take_of_length_le long, closed]
    exact .inr (Int.zero_add _)

theorem height_take_flat {statement : Statement} (flat : nestingOne statement = 0) (n : Nat) :
    height ((flattenOne statement).take n) = 0 := by
  rw [flattenOne_flat flat]
  cases n with
  | zero => rfl
  | succ n =>
      rw [List.take_succ_cons, List.take_nil]
      rfl

mutual

/-- While a program is read, as many loops are open as it nests at most. -/
theorem height_take_flatten : (statements : List Statement) → ∀ n,
    0 ≤ height ((flatten statements).take n) ∧
      height ((flatten statements).take n) ≤ nesting statements
  | [], n => by
      rw [flatten, List.take_nil]
      exact ⟨Int.le_refl 0, Int.le_refl 0⟩
  | first :: rest, n => by
      have here := height_take_flattenOne first n
      have later := height_take_flatten rest (n - (flattenOne first).length)
      rw [flatten, nesting]
      rcases height_take_append (height_flattenOne first) (flatten rest) n with same | same <;>
        rw [same] <;> omega

theorem height_take_flattenOne : (statement : Statement) → ∀ n,
    0 ≤ height ((flattenOne statement).take n) ∧
      height ((flattenOne statement).take n) ≤ nestingOne statement
  | .loop times body, 0 => ⟨Int.le_refl 0, Int.natCast_nonneg _⟩
  | .loop times body, n + 1 => by
      have inside := height_take_flatten body n
      have opened : Line.rise (.opening times) = 1 := rfl
      have closed : height [Line.closing] = -1 := rfl
      rw [flattenOne, nestingOne, List.take_succ_cons, height, opened, List.take_append,
        height_append]
      rcases Nat.lt_or_ge (flatten body).length n with long | short
      · rw [List.take_of_length_le (Nat.le_of_lt long), height_flatten,
          List.take_of_length_le (Nat.sub_pos_of_lt long), closed]
        omega
      · rw [Nat.sub_eq_zero_of_le short, List.take_zero]
        have nothing : height [] = 0 := rfl
        omega
  | .begin, n | .command _, n | .wait _, n | .log _, n | .fail _, n => by
      rw [height_take_flat rfl]
      exact ⟨Int.le_refl 0, Int.natCast_nonneg _⟩

end

theorem balanced_flatten (statements : List Statement) : Balanced (flatten statements) :=
  ⟨fun n => (height_take_flatten statements n).1, height_flatten statements⟩

theorem nested_flatten {limit : Nat} {statements : List Statement}
    (fits : nesting statements ≤ limit) : Nested limit (flatten statements) :=
  ⟨balanced_flatten statements, fun n =>
    Int.le_trans (height_take_flatten statements n).2 (Int.ofNat_le.mpr fits)⟩

/-! ## What the lines of a text say -/

/-- What lines say one after the other, silent lines left out. -/
def SaysAll (lines : List (List Char)) (contents : List Line) : Prop :=
  List.Forall₂ Says (lines.filter fun line => ¬Silent line) contents

theorem SaysAll.append {front back : List (List Char)} {first last : List Line}
    (here : SaysAll front first) (later : SaysAll back last) :
    SaysAll (front ++ back) (first ++ last) := by
  unfold SaysAll
  rw [List.filter_append]
  exact List.rel_append here later

theorem saysAll_silent {line : List Char} (silent : Silent line) : SaysAll [line] [] := by
  unfold SaysAll
  rw [List.filter_singleton, decide_eq_false (not_not.mpr silent)]
  exact .nil

theorem saysAll_single {line : List Char} {meaning : Line} (speaks : ¬Silent line)
    (meant : Says line meaning) : SaysAll [line] [meaning] := by
  unfold SaysAll
  rw [List.filter_singleton, decide_eq_true speaks]
  exact .cons meant .nil

/-- The first line of a text is silent or says the first content. -/
theorem saysAll_cons {line : List Char} {rest : List (List Char)} {contents : List Line} :
    SaysAll (line :: rest) contents ↔ Silent line ∧ SaysAll rest contents ∨
      ¬Silent line ∧ ∃ meaning more, contents = meaning :: more ∧ Says line meaning ∧
        SaysAll rest more := by
  unfold SaysAll
  by_cases silent : Silent line
  · rw [List.filter_cons_of_neg (by rw [decide_eq_true_iff]; exact not_not.mpr silent)]
    simp [silent]
  · rw [List.filter_cons_of_pos (by rw [decide_eq_true_iff]; exact silent), List.forall₂_cons_left_iff]
    simp only [silent, false_and, false_or, not_false_eq_true, true_and]
    constructor
    · rintro ⟨meaning, more, meant, later, rfl⟩
      exact ⟨meaning, more, rfl, meant, later⟩
    · rintro ⟨meaning, more, rfl, meant, later⟩
      exact ⟨meaning, more, meant, later, rfl⟩

/-- What a text says is said by its parts one after the other. -/
theorem saysAll_append {front back : List (List Char)} {contents : List Line} :
    SaysAll (front ++ back) contents ↔
      ∃ first last, contents = first ++ last ∧ SaysAll front first ∧ SaysAll back last := by
  constructor
  · intro spoken
    induction front generalizing contents with
    | nil => exact ⟨[], contents, rfl, .nil, spoken⟩
    | cons line rest ih =>
        rcases saysAll_cons.mp spoken with ⟨silent, later⟩ | ⟨speaks, meaning, more, rfl, meant, later⟩
        · obtain ⟨first, last, rfl, here, there⟩ := ih later
          exact ⟨first, last, rfl, saysAll_cons.mpr (.inl ⟨silent, here⟩), there⟩
        · obtain ⟨first, last, rfl, here, there⟩ := ih later
          exact ⟨meaning :: first, last, rfl,
            saysAll_cons.mpr (.inr ⟨speaks, meaning, first, rfl, meant, here⟩), there⟩
  · rintro ⟨first, last, rfl, here, there⟩
    exact here.append there

theorem Says.unique {line : List Char} (speaks : ¬Silent line) {first other : Line}
    (one : Says line first) (two : Says line other) : first = other := by
  have read := read_eq_ok.mpr (.inr ⟨speaks, one⟩)
  exact Except.ok.inj (read.symm.trans (read_eq_ok.mpr (.inr ⟨speaks, two⟩)))

theorem SaysAll.unique {lines : List (List Char)} {first other : List Line}
    (one : SaysAll lines first) (two : SaysAll lines other) : first = other := by
  induction lines generalizing first other with
  | nil =>
      cases one
      cases two
      rfl
  | cons line rest ih =>
      rcases saysAll_cons.mp one with ⟨silent, later⟩ | ⟨speaks, meaning, more, rfl, meant, later⟩
      · rcases saysAll_cons.mp two with ⟨_, later'⟩ | ⟨speaks, _⟩
        · exact ih later later'
        · exact absurd silent speaks
      · rcases saysAll_cons.mp two with ⟨silent, _⟩ | ⟨_, meaning', more', rfl, meant', later'⟩
        · exact absurd silent speaks
        · rw [Says.unique speaks meant meant', ih later later']

end RobotBlocks.Script
