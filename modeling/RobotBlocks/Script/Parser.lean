import RobotBlocks.Script.Line

/-!
# Parsing a script

The lines of a script are read in order and put together: an opening starts a body, a closing
turns it into a loop of the body around it.  The first problem ends the reading, so what follows
a problem does not change it.
-/

namespace RobotBlocks.Script

/-- No script nests its loops deeper than this, whatever limit is asked for. -/
def nestingCeiling : Nat := 256

def defaultMaxDepth : Nat := 32

/-- A loop that has been opened, with the statements of its body so far, last one first. -/
structure Frame where
  line : Nat
  times : UInt32
  reversed : List Statement

/-- The loops that are open, innermost first, and the program so far, last statement first. -/
structure Assembly where
  frames : List Frame := []
  reversed : List Statement := []

namespace Assembly

/-- Adds a statement to the innermost open body. -/
def place (assembly : Assembly) (statement : Statement) : Assembly :=
  match assembly.frames with
  | [] => { assembly with reversed := statement :: assembly.reversed }
  | frame :: outer =>
      { assembly with frames := { frame with reversed := statement :: frame.reversed } :: outer }

def add (limit number : Nat) (assembly : Assembly) : Line → Except Problem Assembly
  | .blank => .ok assembly
  | .statement statement => .ok (assembly.place statement)
  | .opening times =>
      if limit ≤ assembly.frames.length then
        .error (.tooDeep limit)
      else
        .ok { assembly with frames := ⟨number, times, []⟩ :: assembly.frames }
  | .closing =>
      match assembly.frames with
      | [] => .error .strayClosing
      | frame :: outer =>
          .ok ({ assembly with frames := outer }.place
            (.loop frame.times frame.reversed.reverse))

/-- Adds the lines of a text, the first of which has the given number. -/
def addLines (limit : Nat) : Nat → Assembly → List (List Char) → Except Fault Assembly
  | _, assembly, [] => .ok assembly
  | number, assembly, line :: rest =>
      match Line.read line >>= assembly.add limit number with
      | .error problem => .error ⟨number, problem⟩
      | .ok next => addLines limit (number + 1) next rest

/-- The program, if no loop is left open; `last` is the number of the last line. -/
def program (assembly : Assembly) (last : Nat) : Except Fault (List Statement) :=
  match assembly.frames with
  | [] => .ok assembly.reversed.reverse
  | frame :: _ => .error ⟨last, .neverClosed frame.line⟩

end Assembly

/-- Parses a script with at most `maxDepth` nested loops, and never more than the ceiling. -/
def parse (code : String) (maxDepth : Nat) : Except Fault (List Statement) := do
  let lines := Text.lines code.toList
  let assembly ← Assembly.addLines (min maxDepth nestingCeiling) 1 {} lines
  assembly.program lines.length

end RobotBlocks.Script
