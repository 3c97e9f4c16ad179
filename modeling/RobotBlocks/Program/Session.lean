import RobotBlocks.Program.Generator

/-!
# Compile sessions

A session has a model and a robot and keeps the generator built for them.  Changing either drops
the generator, so what is compiled afterwards only uses the blocks of the new model.
-/

namespace RobotBlocks

/-- The model and robot of an editing session, with the generator built for them. -/
structure Session where
  model : Option String := none
  serial : String := ""
  generator : Option Generator := none
deriving DecidableEq, Inhabited

namespace Session

/-- Changes the model; says whether it was another one. -/
def setModel (session : Session) (model : String) : Bool × Session :=
  if session.model = some model then (false, session)
  else (true, { session with model := some model, generator := none })

/-- Changes the robot; says whether it was another one. -/
def setSerial (session : Session) (serial : String) : Bool × Session :=
  if session.serial = serial then (false, session)
  else (true, { session with serial, generator := none })

def hasGenerator (session : Session) : Bool :=
  session.generator.isSome

/-- The kept generator, if it was built for the current model and robot. -/
def current? (session : Session) : Option Generator :=
  session.generator.filter fun generator =>
    session.model == some generator.model && generator.serial == session.serial

/-- The generator of the session, built if there is none for the current model and robot. -/
def build (session : Session) (registry : Registry) :
    Except CompileError Generator × Session :=
  match session.model with
  | none => (.error .noModel, session)
  | some model =>
      match session.current? with
      | some generator => (.ok generator, session)
      | none =>
          match registry.generator model session.serial with
          | .ok generator => (.ok generator, { session with generator := some generator })
          | .error problem => (.error problem, session)

def compile (session : Session) (registry : Registry) (diagram : Diagram) :
    Except CompileError Program × Session :=
  let (built, session) := session.build registry
  (built.bind fun generator => generator.compile diagram, session)

end Session

end RobotBlocks
