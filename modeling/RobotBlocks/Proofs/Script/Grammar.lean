import RobotBlocks.Proofs.Program.Nesting
import RobotBlocks.Proofs.Script.Lexical
import RobotBlocks.Script.Line

/-!
# The grammar of lines

Which tokens make which line is said here without a reader: every kind of statement has its form, and
a command is any row of arguments in which each key occurs, the last value of a key being the one that
counts.  A line is read exactly as what it says.
-/

namespace RobotBlocks.Script

/-! ## Arguments of a command -/

inductive Argument where
  | serial (value : String)
  | kind (value : Kind)
  | code (value : String)
  | duration (value : UInt32)
  | interruptible (value : Bool)
  | awaited (value : Bool)

namespace Argument

def serial? : Argument → Option String
  | serial value => some value
  | _ => none

def kind? : Argument → Option Kind
  | kind value => some value
  | _ => none

def code? : Argument → Option String
  | code value => some value
  | _ => none

def duration? : Argument → Option UInt32
  | duration value => some value
  | _ => none

def interruptible? : Argument → Option Bool
  | interruptible value => some value
  | _ => none

def awaited? : Argument → Option Bool
  | awaited value => some value
  | _ => none

end Argument

def flagText (flag : Bool) : String :=
  if flag then "true" else "false"

/-- The key of an argument and the token of its value. -/
inductive Argument.Spelled : Argument → String → Token → Prop where
  | serial (value : String) : Spelled (.serial value) "serial" (.text value)
  | kind (value : Kind) : Spelled (.kind value) "kind" (.word value.word)
  | code (value : String) : Spelled (.code value) "code" (.text value)
  | duration {word : String} {value : UInt32}
      (count : Numeric.readCount32 word.toList = some value) :
      Spelled (.duration value) "duration" (.word word)
  | interruptible (value : Bool) :
      Spelled (.interruptible value) "interrupt" (.word (flagText value))
  | awaited (value : Bool) : Spelled (.awaited value) "wait" (.word (flagText value))

/-- Arguments in a row, each a key, an equals sign and a value. -/
inductive Listed : List Argument → List Token → Prop where
  | nil : Listed [] []
  | cons {argument : Argument} {key : String} {value : Token} {given : List Argument}
      {tokens : List Token} (spelled : argument.Spelled key value) (later : Listed given tokens) :
      Listed (argument :: given) (.word key :: .equals :: value :: tokens)

/-- Every key is given, and a command has the last value that is given for each. -/
structure GivenBy (given : List Argument) (command : Command) : Prop where
  serial : (given.filterMap Argument.serial?).getLast? = some command.serial
  kind : (given.filterMap Argument.kind?).getLast? = some command.kind
  code : (given.filterMap Argument.code?).getLast? = some command.code
  duration : (given.filterMap Argument.duration?).getLast? = some command.duration
  interruptible : (given.filterMap Argument.interruptible?).getLast? = some command.interruptible
  awaited : (given.filterMap Argument.awaited?).getLast? = some command.awaited

/-! ## Lines -/

inductive Line.Spelled : Line → List Token → Prop where
  | begin : Spelled (.statement .begin) [.word "begin"]
  | wait {word : String} {seconds : Binary64} (real : Numeric.readReal word.toList = some seconds)
      (duration : IsDuration seconds) :
      Spelled (.statement (.wait seconds)) [.word "wait", .word word]
  | log (message : String) : Spelled (.statement (.log message)) [.word "log", .text message]
  | fail (message : String) : Spelled (.statement (.fail message)) [.word "fail", .text message]
  | command {given : List Argument} {tokens : List Token} {command : Command}
      (listed : Listed given tokens) (last : GivenBy given command) :
      Spelled (.statement (.command command)) (.word "command" :: tokens)
  | opening {word : String} {times : UInt32}
      (count : Numeric.readCount32 word.toList = some times) :
      Spelled (.opening times) [.word "repeat", .word word, .opening]
  | closing : Spelled .closing [.closing]

/-- A line of blank characters or a comment. -/
def Silent (line : List Char) : Prop :=
  Text.trim line = [] ∨ (Text.trim line).head? = some '#'

instance : DecidablePred Silent := fun _ => inferInstanceAs (Decidable (_ ∨ _))

/-- What a line that is not silent says. -/
def Says (line : List Char) (meaning : Line) : Prop :=
  ∃ tokens, Lexes (Text.trim line) tokens ∧ meaning.Spelled tokens

/-! ## Reading arguments -/

namespace Arguments

/-- The arguments with one more argument, in place of an earlier one of its sort. -/
def store (arguments : Arguments) : Argument → Arguments
  | .serial value => { arguments with serial := some value }
  | .kind value => { arguments with kind := some value }
  | .code value => { arguments with code := some value }
  | .duration value => { arguments with duration := some value }
  | .interruptible value => { arguments with interruptible := some value }
  | .awaited value => { arguments with awaited := some value }

theorem orProblem_eq_ok {α : Type} {problem : Problem} {option : Option α} {value : α} :
    orProblem problem option = .ok value ↔ option = some value := by
  cases option <;> simp [orProblem]

theorem readFlag_eq_ok {key word : String} {flag : Bool} :
    readFlag key word = .ok flag ↔ word = flagText flag := by
  unfold readFlag
  split_ifs with isTrue isFalse
  · subst isTrue
    cases flag <;> simp [flagText]
  · subst isFalse
    cases flag <;> simp [flagText]
  · cases flag <;> simp [flagText, isTrue, isFalse]

theorem ofWord?_eq_some {word : String} {kind : Kind} :
    Kind.ofWord? word = some kind ↔ word = kind.word := by
  constructor
  · intro found
    have same := List.find?_some found
    exact (beq_iff_eq.mp same).symm
  · rintro rfl
    exact Kind.ofWord?_word kind

theorem set_eq_ok {arguments next : Arguments} {key : String} {value : Token} :
    arguments.set key value = .ok next ↔
      ∃ argument : Argument, argument.Spelled key value ∧ next = arguments.store argument := by
  constructor
  · intro stored
    unfold set at stored
    split at stored
    · split_ifs at stored with serial code
      · subst serial
        cases stored
        exact ⟨_, .serial _, rfl⟩
      · subst code
        cases stored
        exact ⟨_, .code _, rfl⟩
    · split_ifs at stored with kind duration interrupt wait
      · subst kind
        obtain ⟨value, found, made⟩ := bind_eq_ok.mp stored
        cases made
        cases ofWord?_eq_some.mp (orProblem_eq_ok.mp found)
        exact ⟨_, .kind value, rfl⟩
      · subst duration
        obtain ⟨value, found, made⟩ := bind_eq_ok.mp stored
        cases made
        exact ⟨_, .duration (orProblem_eq_ok.mp found), rfl⟩
      · subst interrupt
        obtain ⟨flag, found, made⟩ := bind_eq_ok.mp stored
        cases made
        cases readFlag_eq_ok.mp found
        exact ⟨_, .interruptible flag, rfl⟩
      · subst wait
        obtain ⟨flag, found, made⟩ := bind_eq_ok.mp stored
        cases made
        cases readFlag_eq_ok.mp found
        exact ⟨_, .awaited flag, rfl⟩
    · cases stored
  · rintro ⟨argument, spelled, rfl⟩
    cases spelled with
    | serial | code => rfl
    | kind value =>
        exact bind_eq_ok.mpr ⟨value, orProblem_eq_ok.mpr (Kind.ofWord?_word value), rfl⟩
    | duration count => exact bind_eq_ok.mpr ⟨_, orProblem_eq_ok.mpr count, rfl⟩
    | interruptible value => exact bind_eq_ok.mpr ⟨value, readFlag_eq_ok.mpr rfl, rfl⟩
    | awaited value => exact bind_eq_ok.mpr ⟨value, readFlag_eq_ok.mpr rfl, rfl⟩

theorem read_of_listed {given : List Argument} {tokens : List Token} (listed : Listed given tokens)
    (arguments : Arguments) : arguments.read tokens = .ok (given.foldl store arguments) := by
  induction listed generalizing arguments with
  | nil => rfl
  | cons spelled later ih =>
      rw [read, set_eq_ok.mpr ⟨_, spelled, rfl⟩]
      exact ih _

theorem listed_of_read {arguments result : Arguments} {tokens : List Token}
    (found : arguments.read tokens = .ok result) :
    ∃ given, Listed given tokens ∧ result = given.foldl store arguments := by
  induction arguments, tokens using read.induct generalizing result with
  | case1 arguments =>
      cases found
      exact ⟨[], .nil, rfl⟩
  | case2 arguments key value rest ih =>
      obtain ⟨next, stored, later⟩ := bind_eq_ok.mp found
      obtain ⟨argument, spelled, rfl⟩ := set_eq_ok.mp stored
      obtain ⟨given, listed, rfl⟩ := ih _ later
      exact ⟨argument :: given, .cons spelled listed, rfl⟩
  | case3 arguments tokens notEmpty notListed =>
      rw [read.eq_3 _ _ notEmpty notListed] at found
      cases found

/-- A key has the last value that is given for it. -/
theorem foldl_store {α : Type} {get : Arguments → Option α} {select : Argument → Option α}
    (stored : ∀ arguments argument,
      get (store arguments argument) = (select argument).or (get arguments))
    (given : List Argument) (start : Arguments) :
    get (given.foldl store start) = (given.filterMap select).getLast?.or (get start) := by
  induction given generalizing start with
  | nil => rfl
  | cons first rest ih =>
      rw [List.foldl_cons, ih, stored, List.filterMap_cons]
      cases select first with
      | none => rfl
      | some value =>
          rw [Option.some_or, List.getLast?_cons]
          cases (rest.filterMap select).getLast? <;> rfl

theorem toCommand_eq_ok {arguments : Arguments} {command : Command} :
    arguments.toCommand = .ok command ↔
      arguments.serial = some command.serial ∧ arguments.kind = some command.kind ∧
        arguments.code = some command.code ∧ arguments.duration = some command.duration ∧
        arguments.interruptible = some command.interruptible ∧
        arguments.awaited = some command.awaited := by
  unfold toCommand
  simp only [bind_eq_ok, orProblem_eq_ok]
  constructor
  · rintro ⟨serial, hasSerial, kind, hasKind, code, hasCode, duration, hasDuration, interruptible,
      hasInterruptible, awaited, hasAwaited, made⟩
    cases made
    exact ⟨hasSerial, hasKind, hasCode, hasDuration, hasInterruptible, hasAwaited⟩
  · rintro ⟨hasSerial, hasKind, hasCode, hasDuration, hasInterruptible, hasAwaited⟩
    exact ⟨_, hasSerial, _, hasKind, _, hasCode, _, hasDuration, _, hasInterruptible, _, hasAwaited,
      rfl⟩

end Arguments

/-- A command is read exactly from arguments that give it. -/
theorem readCommand_eq_ok {tokens : List Token} {command : Command} :
    readCommand tokens = .ok command ↔
      ∃ given, Listed given tokens ∧ GivenBy given command := by
  have given_iff (given : List Argument) :
      (given.foldl Arguments.store {}).toCommand = .ok command ↔ GivenBy given command := by
    have last {α : Type} {get : Arguments → Option α} {select : Argument → Option α}
        (stored : ∀ arguments argument,
          get (Arguments.store arguments argument) = (select argument).or (get arguments))
        (empty : get {} = none) :
        get (given.foldl Arguments.store {}) = (given.filterMap select).getLast? := by
      rw [Arguments.foldl_store stored, empty, Option.or_none]
    rw [Arguments.toCommand_eq_ok,
      @last _ Arguments.serial Argument.serial? (fun _ argument => by cases argument <;> rfl) rfl,
      @last _ Arguments.kind Argument.kind? (fun _ argument => by cases argument <;> rfl) rfl,
      @last _ Arguments.code Argument.code? (fun _ argument => by cases argument <;> rfl) rfl,
      @last _ Arguments.duration Argument.duration?
        (fun _ argument => by cases argument <;> rfl) rfl,
      @last _ Arguments.interruptible Argument.interruptible?
        (fun _ argument => by cases argument <;> rfl) rfl,
      @last _ Arguments.awaited Argument.awaited? (fun _ argument => by cases argument <;> rfl) rfl]
    exact ⟨fun ⟨serial, kind, code, duration, interruptible, awaited⟩ =>
        ⟨serial, kind, code, duration, interruptible, awaited⟩,
      fun ⟨serial, kind, code, duration, interruptible, awaited⟩ =>
        ⟨serial, kind, code, duration, interruptible, awaited⟩⟩
  unfold readCommand
  rw [bind_eq_ok]
  constructor
  · rintro ⟨arguments, found, made⟩
    obtain ⟨given, listed, rfl⟩ := Arguments.listed_of_read found
    exact ⟨given, listed, (given_iff given).mp made⟩
  · rintro ⟨given, listed, last⟩
    exact ⟨_, Arguments.read_of_listed listed {}, (given_iff given).mpr last⟩

/-! ## Reading lines -/

theorem readSeconds_eq_ok {word : String} {seconds : Binary64} :
    readSeconds word = .ok seconds ↔
      Numeric.readReal word.toList = some seconds ∧ IsDuration seconds := by
  unfold readSeconds IsDuration
  cases Numeric.readReal word.toList with
  | none => simp
  | some value =>
      by_cases duration : (value.isFinite && value.isNonNegative) = true
      · have both := Bool.and_eq_true_iff.mp duration
        simp only [duration, if_true, Except.ok.injEq, Option.some.injEq]
        constructor
        · rintro rfl
          exact ⟨rfl, both⟩
        · exact And.left
      · simp only [duration, Option.some.injEq]
        constructor
        · rintro ⟨⟩
        · rintro ⟨rfl, both⟩
          exact absurd (Bool.and_eq_true_iff.mpr both) duration

theorem readMessage_eq_ok {keyword message : String} {arguments : List Token} :
    readMessage keyword arguments = .ok message ↔ arguments = [.text message] := by
  unfold readMessage
  split
  · simp
  · rename_i other
    exact iff_of_false nofun fun same => other message same

theorem ofKeyword_spelled {keyword : String} {arguments : List Token} {line : Line}
    (made : Line.ofKeyword keyword arguments = .ok line) :
    line.Spelled (.word keyword :: arguments) := by
  unfold Line.ofKeyword at made
  split_ifs at made with begin alone wait log fail command loop
  · cases List.isEmpty_iff.mp alone
    cases made
    cases begin
    exact .begin
  · cases wait
    split at made
    · obtain ⟨seconds, read, made⟩ := bind_eq_ok.mp made
      cases made
      obtain ⟨real, duration⟩ := readSeconds_eq_ok.mp read
      exact .wait real duration
    · cases made
  · cases log
    obtain ⟨message, read, made⟩ := bind_eq_ok.mp made
    cases made
    cases readMessage_eq_ok.mp read
    exact .log message
  · cases fail
    obtain ⟨message, read, made⟩ := bind_eq_ok.mp made
    cases made
    cases readMessage_eq_ok.mp read
    exact .fail message
  · cases command
    obtain ⟨command, read, made⟩ := bind_eq_ok.mp made
    cases made
    obtain ⟨given, listed, last⟩ := readCommand_eq_ok.mp read
    exact .command listed last
  · cases loop
    split at made
    · obtain ⟨times, read, made⟩ := bind_eq_ok.mp made
      cases made
      exact .opening (Arguments.orProblem_eq_ok.mp read)
    · cases made

/-- Tokens make exactly the line that they spell. -/
theorem ofTokens_eq_ok {tokens : List Token} {line : Line} :
    Line.ofTokens tokens = .ok line ↔ line.Spelled tokens := by
  constructor
  · intro made
    unfold Line.ofTokens at made
    split at made
    · exact ofKeyword_spelled made
    · cases made
      exact .closing
    · cases made
  · intro spelled
    cases spelled with
    | begin | closing => rfl
    | wait real duration =>
        exact bind_eq_ok.mpr ⟨_, readSeconds_eq_ok.mpr ⟨real, duration⟩, rfl⟩
    | log message => rfl
    | fail message => rfl
    | command listed last =>
        exact bind_eq_ok.mpr ⟨_, readCommand_eq_ok.mpr ⟨_, listed, last⟩, rfl⟩
    | opening count =>
        exact bind_eq_ok.mpr ⟨_, Arguments.orProblem_eq_ok.mpr count, rfl⟩

/-- A silent line is read as blank, and any other as what it says. -/
theorem read_eq_ok {line : List Char} {meaning : Line} :
    Line.read line = .ok meaning ↔
      Silent line ∧ meaning = .blank ∨ ¬Silent line ∧ Says line meaning := by
  unfold Line.read Silent Says
  split
  · rename_i trimmed
    rw [trimmed]
    simp [eq_comm]
  · rename_i rest trimmed
    rw [trimmed]
    simp [eq_comm]
  · rename_i notEmpty notComment
    have speaks : ¬(Text.trim line = [] ∨ (Text.trim line).head? = some '#') := by
      rintro (empty | comment)
      · exact notEmpty empty
      · obtain ⟨rest, trimmed⟩ := List.head?_eq_some_iff.mp comment
        exact notComment rest trimmed
    simp only [speaks, false_and, false_or, not_false_eq_true, true_and, bind_eq_ok,
      tokenize_eq_ok, ofTokens_eq_ok]

end RobotBlocks.Script
