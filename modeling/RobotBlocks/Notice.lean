/-!
# Notices

A notice is what the user gets to see of a call: one sentence and how serious it is.
-/

namespace RobotBlocks

inductive Severity where
  | info
  | warning
  | error
deriving DecidableEq, Inhabited

def Severity.word : Severity → String
  | .info => "Info"
  | .warning => "Warning"
  | .error => "Error"

/-- One sentence for the user. -/
structure Notice where
  severity : Severity
  message : String
deriving DecidableEq, Inhabited

namespace Notice

def info (message : String) : Notice := ⟨.info, message⟩

def warning (message : String) : Notice := ⟨.warning, message⟩

def error (message : String) : Notice := ⟨.error, message⟩

end Notice

end RobotBlocks
