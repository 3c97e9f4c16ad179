import RobotBlocks.Program.Statement

/-!
# Nesting of statements

The loops of a program stand inside each other, and each starts on a line of its own in the printed
text.  How deep they nest, and where each of them starts, is said here from the statements alone.
-/

namespace RobotBlocks

/-- A finite duration that is not below zero, as a program may wait for. -/
def IsDuration (seconds : Binary64) : Prop :=
  seconds.isFinite = true ∧ seconds.isNonNegative = true

namespace Statement

mutual

/-- The largest number of loops of a list that are inside each other. -/
def nesting : List Statement → Nat
  | [] => 0
  | first :: rest => max (nestingOne first) (nesting rest)

def nestingOne : Statement → Nat
  | .loop _ body => nesting body + 1
  | _ => 0

end

mutual

/-- Every wait of a list, at any depth, is for a duration. -/
def Waitable : List Statement → Prop
  | [] => True
  | first :: rest => WaitableOne first ∧ Waitable rest

def WaitableOne : Statement → Prop
  | .wait seconds => IsDuration seconds
  | .loop _ body => Waitable body
  | _ => True

end

theorem nesting_le {statements : List Statement} {limit : Nat} :
    nesting statements ≤ limit ↔ ∀ statement ∈ statements, nestingOne statement ≤ limit := by
  induction statements with
  | nil => simp [nesting]
  | cons first rest ih =>
      rw [nesting, Nat.max_le, ih, List.forall_mem_cons]

theorem waitable_iff {statements : List Statement} :
    Waitable statements ↔ ∀ statement ∈ statements, WaitableOne statement := by
  induction statements with
  | nil => simp [Waitable]
  | cons first rest ih =>
      rw [Waitable, ih, List.forall_mem_cons]

theorem nesting_append (front back : List Statement) :
    nesting (front ++ back) = max (nesting front) (nesting back) := by
  induction front with
  | nil => rw [List.nil_append, nesting, Nat.zero_max]
  | cons first rest ih =>
      rw [List.cons_append, nesting, nesting, ih, Nat.max_assoc]

/-! ## Lines of loops -/

mutual

def lineCount : List Statement → Nat
  | [] => 0
  | first :: rest => lineCountOne first + lineCount rest

/-- The number of lines of a statement: a loop has one more at either end of its body. -/
def lineCountOne : Statement → Nat
  | .loop _ body => lineCount body + 2
  | _ => 1

end

/-- A loop of a printed program: the line it starts on, the loops it stands in with itself counted,
and how often it repeats its body. -/
structure Opening where
  line : Nat
  depth : Nat
  times : UInt32

mutual

/-- The loops of a list in the order of the text, when its first line has the given number. -/
def openings (line depth : Nat) : List Statement → List Opening
  | [] => []
  | first :: rest =>
      openingsOne line depth first ++ openings (line + lineCountOne first) depth rest

def openingsOne (line depth : Nat) : Statement → List Opening
  | .loop times body => ⟨line, depth + 1, times⟩ :: openings (line + 1) (depth + 1) body
  | _ => []

end

mutual

/-- Loops nest deeper than a limit exactly when one of them stands deeper. -/
theorem exists_deep_opening (limit line depth : Nat) : (statements : List Statement) →
    ((∃ opening ∈ openings line depth statements, limit < opening.depth) ↔
      limit < depth + nesting statements ∧ 0 < nesting statements)
  | [] => by simp [openings, nesting]
  | first :: rest => by
      have here := exists_deep_openingOne limit line depth first
      have later := exists_deep_opening limit (line + lineCountOne first) depth rest
      simp only [openings, nesting, List.mem_append, or_and_right, exists_or, here, later]
      omega

theorem exists_deep_openingOne (limit line depth : Nat) : (statement : Statement) →
    ((∃ opening ∈ openingsOne line depth statement, limit < opening.depth) ↔
      limit < depth + nestingOne statement ∧ 0 < nestingOne statement)
  | .loop times body => by
      have inside := exists_deep_opening limit (line + 1) (depth + 1) body
      simp only [openingsOne, nestingOne, List.mem_cons, or_and_right, exists_or, inside,
        exists_eq_left]
      omega
  | .begin | .command _ | .wait _ | .log _ | .fail _ => by simp [openingsOne, nestingOne]

end

/-- No loop stands deeper than the loops nest. -/
theorem find_deep_opening_eq_none {limit : Nat} {statements : List Statement}
    (fits : nesting statements ≤ limit) (line : Nat) :
    (openings line 0 statements).find? (fun opening => limit < opening.depth) = none := by
  refine List.find?_eq_none.mpr fun opening mem deep => ?_
  have deeper := (exists_deep_opening limit line 0 statements).mp
    ⟨opening, mem, of_decide_eq_true deep⟩
  omega

/-- Some loop stands deeper than a limit when the loops nest deeper. -/
theorem find_deep_opening_isSome {limit : Nat} {statements : List Statement}
    (deep : limit < nesting statements) (line : Nat) :
    ∃ opening, (openings line 0 statements).find? (fun opening => limit < opening.depth) =
      some opening := by
  obtain ⟨opening, mem, deeper⟩ := (exists_deep_opening limit line 0 statements).mpr (by omega)
  exact Option.isSome_iff_exists.mp
    (List.find?_isSome.mpr ⟨opening, mem, decide_eq_true deeper⟩)

end Statement

end RobotBlocks
