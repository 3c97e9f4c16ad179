import Mathlib.Data.List.Induction
import RobotBlocks.Proofs.Script.Grammar

/-!
# Settings of a command

After its keyword a command has settings, each a key, an equals sign and a token for the value.
They are read from the first to the last: a setting that is not proper is refused where it stands,
and of several settings for one key the last one counts.  So a command depends only on the values
that are given for each key and their order, and not on the order of the keys.
-/

namespace RobotBlocks.Script

/-! ## Settings -/

structure Setting where
  key : String
  value : Token

def settingTokens (settings : List Setting) : List Token :=
  settings.flatMap fun setting => [.word setting.key, .equals, setting.value]

/-- The tokens that are given for a key, in their order. -/
def valuesFor (settings : List Setting) (key : String) : List Token :=
  settings.filterMap fun setting => if setting.key = key then some setting.value else none

/-- The setting gives an argument: its key is known, and its value is of the sort that the key takes
and well formed. -/
def Setting.IsProper (setting : Setting) : Prop :=
  ∃ argument : Argument, argument.Spelled setting.key setting.value

def Argument.key : Argument → String
  | serial _ => "serial"
  | kind _ => "kind"
  | code _ => "code"
  | duration _ => "duration"
  | interruptible _ => "interrupt"
  | awaited _ => "wait"

/-- The keys that a command must have, in the order in which they are asked for. -/
def commandKeys : List String :=
  ["serial", "kind", "code", "duration", "interrupt", "wait"]

def argumentsOf (command : Command) : List Argument := [
  .serial command.serial, .kind command.kind, .code command.code, .duration command.duration,
  .interruptible command.interruptible, .awaited command.awaited]

/-- Of the values that are given for each key, the last one spells what the command says. -/
def TakesLast (settings : List Setting) (command : Command) : Prop :=
  ∀ argument ∈ argumentsOf command, ∃ value,
    (valuesFor settings argument.key).getLast? = some value ∧ argument.Spelled argument.key value

/-! ## What is refused -/

/-- The sort of token that a key takes. -/
def Takes (key : String) : Token → Prop
  | .text _ => key = "serial" ∨ key = "code"
  | .word _ => key = "kind" ∨ key = "duration" ∨ key = "interrupt" ∨ key = "wait"
  | _ => False

/-- What is wrong with a value that is given for a key. -/
inductive Refused : String → Token → Problem → Prop where
  | unknown {key : String} {value : Token} (other : ¬Takes key value) :
      Refused key value (.unknownArgument key)
  | kind {word : String} (other : ∀ kind : Kind, word ≠ kind.word) :
      Refused "kind" (.word word) (.unknownKind word)
  | duration {word : String} (other : Numeric.readCount32 word.toList = none) :
      Refused "duration" (.word word) (.badDuration word)
  | flag {key word : String} (flagged : key = "interrupt" ∨ key = "wait")
      (other : ∀ flag, word ≠ flagText flag) : Refused key (.word word) (.badFlag key)

/-- What is wrong with tokens that do not start with a proper setting. -/
inductive BadStart : List Token → Problem → Prop where
  | noPair {tokens : List Token} (some : tokens ≠ [])
      (other : ∀ key value rest, tokens ≠ .word key :: .equals :: value :: rest) :
      BadStart tokens .noPair
  | refused {key : String} {value : Token} {rest : List Token} {problem : Problem}
      (refused : Refused key value problem) :
      BadStart (.word key :: .equals :: value :: rest) problem

theorem orProblem_eq_error {α : Type} {problem other : Problem} {option : Option α} :
    orProblem problem option = .error other ↔ option = none ∧ problem = other := by
  cases option <;> simp [orProblem]

theorem readFlag_eq_error {key word : String} {problem : Problem} :
    readFlag key word = .error problem ↔
      (∀ flag, word ≠ flagText flag) ∧ problem = .badFlag key := by
  unfold readFlag
  split_ifs with isTrue isFalse
  · simp [flagText, isTrue]
  · simp [flagText, isFalse]
  · simp [flagText, isTrue, isFalse, eq_comm]

theorem ofWord?_eq_none {word : String} :
    Kind.ofWord? word = none ↔ ∀ kind : Kind, word ≠ kind.word := by
  simp only [Option.eq_none_iff_forall_not_mem, Option.mem_def, ne_eq, Arguments.ofWord?_eq_some]

/-- A value is refused for what is wrong with it, whatever was read before it. -/
theorem set_eq_error {arguments : Arguments} {key : String} {value : Token} {problem : Problem} :
    arguments.set key value = .error problem ↔ Refused key value problem := by
  constructor
  · intro failed
    unfold Arguments.set at failed
    split at failed
    · split_ifs at failed with serial code
      cases failed
      exact .unknown (not_or.mpr ⟨serial, code⟩)
    · split_ifs at failed with kind duration interrupt wait
      · subst kind
        obtain ⟨other, rfl⟩ := orProblem_eq_error.mp (bind_return_eq_error.mp failed)
        exact .kind (ofWord?_eq_none.mp other)
      · subst duration
        obtain ⟨other, rfl⟩ := orProblem_eq_error.mp (bind_return_eq_error.mp failed)
        exact .duration other
      · obtain ⟨other, rfl⟩ := readFlag_eq_error.mp (bind_return_eq_error.mp failed)
        exact .flag (.inl interrupt) other
      · obtain ⟨other, rfl⟩ := readFlag_eq_error.mp (bind_return_eq_error.mp failed)
        exact .flag (.inr wait) other
      · cases failed
        exact .unknown (not_or.mpr ⟨kind, not_or.mpr ⟨duration, not_or.mpr ⟨interrupt, wait⟩⟩⟩)
    · rename_i notText notWord
      cases failed
      cases value with
      | text content => exact absurd rfl (notText content)
      | word word => exact absurd rfl (notWord word)
      | equals | opening | closing => exact .unknown not_false
  · intro refused
    cases refused with
    | unknown other =>
        cases value with
        | text content =>
            obtain ⟨serial, code⟩ := not_or.mp other
            simp [Arguments.set, serial, code]
        | word word =>
            simp only [Takes, not_or] at other
            obtain ⟨kind, duration, interrupt, wait⟩ := other
            simp [Arguments.set, kind, duration, interrupt, wait]
        | equals | opening | closing => rfl
    | kind other =>
        exact bind_return_eq_error.mpr (orProblem_eq_error.mpr ⟨ofWord?_eq_none.mpr other, rfl⟩)
    | duration other =>
        exact bind_return_eq_error.mpr (orProblem_eq_error.mpr ⟨other, rfl⟩)
    | flag flagged other =>
        rcases flagged with rfl | rfl <;>
          exact bind_return_eq_error.mpr (readFlag_eq_error.mpr ⟨other, rfl⟩)

/-! ## Reading settings one after the other -/

theorem Argument.Spelled.key_eq {argument : Argument} {key : String} {value : Token}
    (spelled : argument.Spelled key value) : key = argument.key := by
  cases spelled <;> rfl

namespace Arguments

/-- An argument has been stored, and no later one for its key. -/
def Holds (arguments : Arguments) : Argument → Prop
  | .serial value => arguments.serial = some value
  | .kind value => arguments.kind = some value
  | .code value => arguments.code = some value
  | .duration value => arguments.duration = some value
  | .interruptible value => arguments.interruptible = some value
  | .awaited value => arguments.awaited = some value

/-- Nothing has been stored for a key. -/
def lacks (arguments : Arguments) : String → Bool
  | "serial" => arguments.serial.isNone
  | "kind" => arguments.kind.isNone
  | "code" => arguments.code.isNone
  | "duration" => arguments.duration.isNone
  | "interrupt" => arguments.interruptible.isNone
  | "wait" => arguments.awaited.isNone
  | _ => true

theorem holds_store {arguments : Arguments} {stored argument : Argument} :
    (arguments.store stored).Holds argument ↔
      if stored.key = argument.key then stored = argument else arguments.Holds argument := by
  cases stored <;> cases argument <;> simp [store, Holds, Argument.key]

theorem lacks_store (arguments : Arguments) (stored : Argument) (key : String) :
    (arguments.store stored).lacks key = (decide (key ≠ stored.key) && arguments.lacks key) := by
  cases stored <;> simp only [store, lacks, Argument.key] <;> split <;> simp_all

theorem store_empty_injective {first other : Argument}
    (same : store {} first = store {} other) : first = other := by
  cases first <;> cases other <;> simp_all [store]

end Arguments

/-- A key and a value spell one argument at most. -/
theorem Argument.Spelled.unique {first other : Argument} {key : String} {value : Token}
    (one : first.Spelled key value) (two : other.Spelled key value) : first = other := by
  have stored {argument : Argument} (spelled : argument.Spelled key value) :
      Arguments.set {} key value = .ok (Arguments.store {} argument) :=
    Arguments.set_eq_ok.mpr ⟨argument, spelled, rfl⟩
  exact Arguments.store_empty_injective (Except.ok.inj ((stored one).symm.trans (stored two)))

section Lists

variable {settings others : List Setting}

theorem settingTokens_cons (setting : Setting) (rest : List Setting) :
    settingTokens (setting :: rest) =
      .word setting.key :: .equals :: setting.value :: settingTokens rest :=
  rfl

theorem settingTokens_append (front back : List Setting) :
    settingTokens (front ++ back) = settingTokens front ++ settingTokens back :=
  List.flatMap_append

theorem valuesFor_cons (setting : Setting) (rest : List Setting) (key : String) :
    valuesFor (setting :: rest) key =
      if setting.key = key then setting.value :: valuesFor rest key else valuesFor rest key := by
  unfold valuesFor
  rw [List.filterMap_cons]
  split_ifs <;> rfl

theorem valuesFor_concat (front : List Setting) (last : Setting) (key : String) :
    valuesFor (front ++ [last]) key =
      if last.key = key then valuesFor front key ++ [last.value] else valuesFor front key := by
  unfold valuesFor
  rw [List.filterMap_append, List.filterMap_cons]
  split_ifs
  · rfl
  · exact List.append_nil _

theorem mem_valuesFor {key : String} {value : Token} :
    value ∈ valuesFor settings key ↔ ⟨key, value⟩ ∈ settings := by
  unfold valuesFor
  rw [List.mem_filterMap]
  constructor
  · rintro ⟨⟨other, given⟩, mem, found⟩
    split_ifs at found with same
    cases same
    cases found
    exact mem
  · intro mem
    exact ⟨⟨key, value⟩, mem, if_pos rfl⟩

theorem isEmpty_valuesFor (settings : List Setting) (key : String) :
    (valuesFor settings key).isEmpty = decide (key ∉ settings.map Setting.key) := by
  induction settings with
  | nil => rfl
  | cons first rest ih =>
      rw [valuesFor_cons]
      by_cases same : first.key = key
      · simp [same]
      · simp [same, Ne.symm same, ih]

/-- Settings with distinct keys give the same values for each key in any order. -/
theorem valuesFor_perm (permuted : settings.Perm others)
    (distinct : (settings.map Setting.key).Nodup) (key : String) :
    valuesFor others key = valuesFor settings key := by
  induction permuted with
  | nil => rfl
  | cons setting later ih =>
      rw [valuesFor_cons, valuesFor_cons, ih (List.nodup_cons.mp distinct).2]
  | swap first second rest =>
      have differ : second.key ≠ first.key := fun same =>
        (List.nodup_cons.mp distinct).1 (same ▸ List.mem_cons_self)
      simp only [valuesFor_cons]
      split_ifs with one two
      · exact absurd (two.trans one.symm) differ
      · rfl
      · rfl
      · rfl
  | trans first later ihFirst ihLater =>
      rw [ihLater ((first.map Setting.key).nodup distinct), ihFirst distinct]

theorem isProper_of_valuesFor (same : ∀ key, valuesFor others key = valuesFor settings key)
    (proper : ∀ setting ∈ settings, setting.IsProper) : ∀ setting ∈ others, setting.IsProper := by
  intro setting mem
  have given : setting.value ∈ valuesFor others setting.key := mem_valuesFor.mpr mem
  rw [same] at given
  exact proper setting (mem_valuesFor.mp given)

end Lists

namespace Arguments

variable {settings : List Setting} {arguments next : Arguments}

/-- Settings in front of other tokens are read before them. -/
theorem read_append (settings : List Setting) (rest : List Token) (arguments : Arguments) :
    arguments.read (settingTokens settings ++ rest) =
      arguments.read (settingTokens settings) >>= fun next => next.read rest := by
  induction settings generalizing arguments with
  | nil => rfl
  | cons setting later ih =>
      rw [settingTokens_cons, List.cons_append, List.cons_append, List.cons_append, read, read]
      cases arguments.set setting.key setting.value with
      | error problem => rfl
      | ok next => exact ih next

/-- One more setting stores the argument that it gives. -/
theorem read_setting {setting : Setting} :
    arguments.read (settingTokens [setting]) = .ok next ↔
      ∃ given : Argument, given.Spelled setting.key setting.value ∧
        next = arguments.store given := by
  have single : arguments.read (settingTokens [setting]) =
      arguments.set setting.key setting.value >>= .ok := rfl
  rw [single, ← set_eq_ok]
  cases arguments.set setting.key setting.value <;> exact Iff.rfl

/-- Settings are read exactly when each of them is proper. -/
theorem exists_read :
    (∃ next, arguments.read (settingTokens settings) = .ok next) ↔
      ∀ setting ∈ settings, setting.IsProper := by
  induction settings generalizing arguments with
  | nil => exact ⟨fun _ => List.forall_mem_nil _, fun _ => ⟨arguments, rfl⟩⟩
  | cons setting rest ih =>
      rw [List.forall_mem_cons]
      constructor
      · rintro ⟨last, found⟩
        obtain ⟨next, stored, later⟩ := bind_eq_ok.mp found
        obtain ⟨given, spelled, rfl⟩ := set_eq_ok.mp stored
        exact ⟨⟨given, spelled⟩, ih.mp ⟨last, later⟩⟩
      · rintro ⟨⟨given, spelled⟩, proper⟩
        obtain ⟨last, later⟩ := ih.mpr proper
        exact ⟨last, bind_eq_ok.mpr ⟨_, set_eq_ok.mpr ⟨given, spelled, rfl⟩, later⟩⟩

/-- What is held for a key is spelled by the last value that was given for it. -/
theorem holds_read (found : read {} (settingTokens settings) = .ok next) (argument : Argument) :
    next.Holds argument ↔ ∃ value,
      (valuesFor settings argument.key).getLast? = some value ∧
        argument.Spelled argument.key value := by
  induction settings using List.reverseRecOn generalizing next with
  | nil =>
      cases found
      cases argument <;> simp [Holds, valuesFor]
  | append_singleton front last ih =>
      rw [settingTokens_append, read_append] at found
      obtain ⟨middle, before, here⟩ := bind_eq_ok.mp found
      obtain ⟨given, spelled, rfl⟩ := read_setting.mp here
      rw [holds_store, valuesFor_concat, spelled.key_eq]
      by_cases same : given.key = argument.key
      · rw [if_pos same, if_pos same, List.getLast?_concat]
        rw [spelled.key_eq, same] at spelled
        constructor
        · rintro rfl
          exact ⟨last.value, rfl, spelled⟩
        · rintro ⟨value, taken, again⟩
          cases taken
          exact spelled.unique again
      · rw [if_neg same, if_neg same]
        exact ih before

/-- Nothing is held for a key exactly when no value was given for it. -/
theorem lacks_read (found : arguments.read (settingTokens settings) = .ok next) (key : String) :
    next.lacks key = ((valuesFor settings key).isEmpty && arguments.lacks key) := by
  induction settings generalizing arguments with
  | nil =>
      cases found
      rfl
  | cons setting rest ih =>
      obtain ⟨middle, stored, later⟩ := bind_eq_ok.mp found
      obtain ⟨given, spelled, rfl⟩ := set_eq_ok.mp stored
      rw [ih later, lacks_store, valuesFor_cons, spelled.key_eq]
      by_cases same : given.key = key
      · simp [same]
      · simp [same, Ne.symm same]

end Arguments

/-! ## Commands -/

/-- A command is made from arguments that hold everything it says. -/
theorem toCommand_eq_ok_iff_holds {arguments : Arguments} {command : Command} :
    arguments.toCommand = .ok command ↔
      ∀ argument ∈ argumentsOf command, arguments.Holds argument := by
  rw [Arguments.toCommand_eq_ok]
  simp [argumentsOf, Arguments.Holds]

theorem problem?_orProblem {α : Type} (problem : Problem) (option : Option α) :
    problem? (orProblem problem option) = if option.isNone then some problem else none := by
  cases option <;> rfl

/-- Of the keys that are missing the first one is named. -/
theorem problem?_toCommand (arguments : Arguments) :
    problem? arguments.toCommand =
      (commandKeys.find? arguments.lacks).map .missingArgument := by
  unfold Arguments.toCommand
  rw [problem?_bind fun _ => problem?_bind fun _ => problem?_bind fun _ => problem?_bind fun _ =>
    problem?_bind fun _ => problem?_bind_ok fun _ => rfl]
  have further (key : String) (rest : List String) :
      ((key :: rest).find? arguments.lacks).map Problem.missingArgument =
        (if arguments.lacks key then some (.missingArgument key) else none).or
          ((rest.find? arguments.lacks).map .missingArgument) := by
    rw [List.find?_cons]
    cases arguments.lacks key <;> rfl
  simp only [problem?_orProblem, commandKeys, further, List.find?_nil, Option.map_none,
    Option.or_none]
  rfl

/-- The first key of a command for which no setting stands in a list. -/
def firstMissing? (settings : List Setting) : Option String :=
  commandKeys.find? fun key => key ∉ settings.map Setting.key

section Commands

variable {settings others : List Setting}

/-- Proper settings fail at most for a key that is missing. -/
theorem problem?_readCommand (proper : ∀ setting ∈ settings, setting.IsProper) :
    problem? (readCommand (settingTokens settings)) =
      (firstMissing? settings).map .missingArgument := by
  obtain ⟨next, found⟩ := (@Arguments.exists_read settings {}).mpr proper
  have lacks : next.lacks = fun key => decide (key ∉ settings.map Setting.key) := by
    funext key
    have nothing : Arguments.lacks {} key = true := by
      unfold Arguments.lacks
      split <;> rfl
    rw [Arguments.lacks_read found, nothing, Bool.and_true, isEmpty_valuesFor]
  have read : readCommand (settingTokens settings) = next.toCommand := by
    unfold readCommand
    rw [found]
    rfl
  rw [read, problem?_toCommand, lacks]
  rfl

/-- Settings give a command exactly when they are proper and the last value for each key is what the
command says. -/
theorem readCommand_settings_eq_ok {command : Command} :
    readCommand (settingTokens settings) = .ok command ↔
      (∀ setting ∈ settings, setting.IsProper) ∧ TakesLast settings command := by
  unfold readCommand
  rw [bind_eq_ok]
  constructor
  · rintro ⟨next, found, made⟩
    refine ⟨Arguments.exists_read.mp ⟨next, found⟩, fun argument mem => ?_⟩
    exact (Arguments.holds_read found argument).mp (toCommand_eq_ok_iff_holds.mp made argument mem)
  · rintro ⟨proper, last⟩
    obtain ⟨next, found⟩ := Arguments.exists_read.mpr proper
    refine ⟨next, found, toCommand_eq_ok_iff_holds.mpr fun argument mem => ?_⟩
    exact (Arguments.holds_read found argument).mpr (last argument mem)

/-- Which command settings give depends only on the values for each key and their order. -/
theorem readCommand_congr (same : ∀ key, valuesFor others key = valuesFor settings key)
    (command : Command) :
    readCommand (settingTokens others) = .ok command ↔
      readCommand (settingTokens settings) = .ok command := by
  have proper : (∀ setting ∈ others, setting.IsProper) ↔ ∀ setting ∈ settings, setting.IsProper :=
    ⟨isProper_of_valuesFor fun key => (same key).symm, isProper_of_valuesFor same⟩
  rw [readCommand_settings_eq_ok, readCommand_settings_eq_ok, proper]
  simp only [TakesLast, same]

/-- When all settings are proper, a missing key is reported alike in any order. -/
theorem readCommand_congr_of_proper (same : ∀ key, valuesFor others key = valuesFor settings key)
    (proper : ∀ setting ∈ settings, setting.IsProper) :
    readCommand (settingTokens others) = readCommand (settingTokens settings) := by
  have missing : firstMissing? others = firstMissing? settings := by
    simp only [firstMissing?, ← isEmpty_valuesFor, same]
  have problems := problem?_readCommand (isProper_of_valuesFor same proper)
  rw [missing, ← problem?_readCommand proper] at problems
  cases given : readCommand (settingTokens settings) with
  | ok command => exact (readCommand_congr same command).mpr given
  | error problem =>
      rw [given] at problems
      exact problem?_eq_some.mp problems

end Commands

/-! ## The first problem -/

/-- Tokens start with settings up to the end or to tokens that are no setting. -/
theorem read_eq_error {arguments : Arguments} {tokens : List Token} {problem : Problem} :
    arguments.read tokens = .error problem ↔
      ∃ settings bad, tokens = settingTokens settings ++ bad ∧
        (∀ setting ∈ settings, setting.IsProper) ∧ BadStart bad problem := by
  constructor
  · intro failed
    induction arguments, tokens using Arguments.read.induct with
    | case1 arguments => cases failed
    | case2 arguments key value rest ih =>
        rcases bind_eq_error.mp failed with refused | ⟨next, stored, later⟩
        · exact ⟨[], _, rfl, List.forall_mem_nil _, .refused (set_eq_error.mp refused)⟩
        · obtain ⟨given, spelled, _⟩ := Arguments.set_eq_ok.mp stored
          obtain ⟨settings, bad, rfl, proper, starts⟩ := ih next later
          exact ⟨⟨key, value⟩ :: settings, bad, rfl,
            List.forall_mem_cons.mpr ⟨⟨given, spelled⟩, proper⟩, starts⟩
    | case3 tokens arguments notEmpty notListed =>
        rw [Arguments.read.eq_3 _ _ notEmpty notListed] at failed
        cases failed
        exact ⟨[], tokens, rfl, List.forall_mem_nil _, .noPair notEmpty notListed⟩
  · rintro ⟨settings, bad, rfl, proper, starts⟩
    obtain ⟨next, found⟩ := Arguments.exists_read.mpr proper
    rw [Arguments.read_append]
    refine bind_eq_error.mpr (.inr ⟨next, found, ?_⟩)
    cases starts with
    | noPair notEmpty notListed => exact Arguments.read.eq_3 _ _ notEmpty notListed
    | refused refused => exact bind_eq_error.mpr (.inl (set_eq_error.mpr refused))

/-- Arguments in a row are settings, each of them proper. -/
theorem Listed.exists_settings {given : List Argument} {tokens : List Token}
    (listed : Listed given tokens) :
    ∃ settings, tokens = settingTokens settings ∧ ∀ setting ∈ settings, setting.IsProper := by
  induction listed with
  | nil => exact ⟨[], rfl, List.forall_mem_nil _⟩
  | @cons argument key value _ _ spelled later ih =>
      obtain ⟨settings, rfl, proper⟩ := ih
      exact ⟨⟨key, value⟩ :: settings, rfl,
        List.forall_mem_cons.mpr ⟨⟨argument, spelled⟩, proper⟩⟩

theorem exists_settings_of_read {tokens : List Token} {next : Arguments}
    (found : Arguments.read {} tokens = .ok next) :
    ∃ settings, tokens = settingTokens settings ∧ ∀ setting ∈ settings, setting.IsProper := by
  obtain ⟨given, listed, _⟩ := Arguments.listed_of_read found
  exact listed.exists_settings

theorem readCommand_eq_error {tokens : List Token} {problem : Problem} :
    readCommand tokens = .error problem ↔
      (∃ settings bad, tokens = settingTokens settings ++ bad ∧
        (∀ setting ∈ settings, setting.IsProper) ∧ BadStart bad problem) ∨
      ∃ settings key, tokens = settingTokens settings ∧
        (∀ setting ∈ settings, setting.IsProper) ∧ firstMissing? settings = some key ∧
        problem = .missingArgument key := by
  rw [← @read_eq_error {}]
  constructor
  · intro failed
    rcases bind_eq_error.mp failed with refused | ⟨next, found, _⟩
    · exact .inl refused
    · obtain ⟨settings, rfl, proper⟩ := exists_settings_of_read found
      rw [← problem?_eq_some, problem?_readCommand proper, Option.map_eq_some_iff] at failed
      obtain ⟨key, missing, rfl⟩ := failed
      exact .inr ⟨settings, key, rfl, proper, missing, rfl⟩
  · rintro (refused | ⟨settings, key, rfl, proper, missing, rfl⟩)
    · exact bind_eq_error.mpr (.inl refused)
    · rw [← problem?_eq_some, problem?_readCommand proper, missing]
      rfl

/-- A command is read exactly from proper settings in which each key occurs, and takes the last
value of each key.  Settings with distinct keys may change places, and so may any two settings as
long as those of the same key stay in their order: the command stays the same, and so does the
missing key if all settings are proper.  Tokens that give no command are refused for the first place
at which they are no proper setting, or else for the first key that is missing. -/
theorem readCommand_by_settings (tokens : List Token) :
    (∀ command, readCommand tokens = .ok command ↔
      ∃ settings, tokens = settingTokens settings ∧ (∀ setting ∈ settings, setting.IsProper) ∧
        TakesLast settings command) ∧
    ((∃ command, readCommand tokens = .ok command) ↔
      ∃ settings, tokens = settingTokens settings ∧ (∀ setting ∈ settings, setting.IsProper) ∧
        ∀ key ∈ commandKeys, key ∈ settings.map Setting.key) ∧
    (∀ settings others, tokens = settingTokens settings →
      (settings.map Setting.key).Nodup ∧ settings.Perm others ∨
        (∀ key, valuesFor others key = valuesFor settings key) →
      (∀ command, readCommand (settingTokens others) = .ok command ↔
        readCommand tokens = .ok command) ∧
      ((∀ setting ∈ settings, setting.IsProper) →
        readCommand (settingTokens others) = readCommand tokens)) ∧
    ∀ problem, readCommand tokens = .error problem ↔
      (∃ settings bad, tokens = settingTokens settings ++ bad ∧
        (∀ setting ∈ settings, setting.IsProper) ∧ BadStart bad problem) ∨
      ∃ settings key, tokens = settingTokens settings ∧
        (∀ setting ∈ settings, setting.IsProper) ∧ firstMissing? settings = some key ∧
        problem = .missingArgument key := by
  have complete {settings : List Setting} (proper : ∀ setting ∈ settings, setting.IsProper) :
      (∃ command, readCommand (settingTokens settings) = .ok command) ↔
        ∀ key ∈ commandKeys, key ∈ settings.map Setting.key := by
    rw [← problem?_eq_none, problem?_readCommand proper, Option.map_eq_none_iff, firstMissing?,
      List.find?_eq_none]
    simp only [decide_eq_true_eq, not_not]
  have settingsOf {command : Command} (made : readCommand tokens = .ok command) :
      ∃ settings, tokens = settingTokens settings ∧
        ∀ setting ∈ settings, setting.IsProper := by
    obtain ⟨next, found, _⟩ := bind_eq_ok.mp made
    exact exists_settings_of_read found
  refine ⟨fun command => ⟨fun made => ?_, ?_⟩, ⟨fun ⟨command, made⟩ => ?_, ?_⟩, ?_,
    fun problem => readCommand_eq_error⟩
  · obtain ⟨settings, rfl, _⟩ := settingsOf made
    exact ⟨settings, rfl, readCommand_settings_eq_ok.mp made⟩
  · rintro ⟨settings, rfl, given⟩
    exact readCommand_settings_eq_ok.mpr given
  · obtain ⟨settings, rfl, proper⟩ := settingsOf made
    exact ⟨settings, rfl, proper, (complete proper).mp ⟨command, made⟩⟩
  · rintro ⟨settings, rfl, proper, all⟩
    exact (complete proper).mpr all
  · rintro settings others rfl rearranged
    have same : ∀ key, valuesFor others key = valuesFor settings key := by
      rcases rearranged with ⟨distinct, permuted⟩ | same
      · exact valuesFor_perm permuted distinct
      · exact same
    exact ⟨readCommand_congr same, readCommand_congr_of_proper same⟩

def waveSettings : List Setting := [
  ⟨"interrupt", .word "true"⟩, ⟨"duration", .word "+7"⟩, ⟨"wait", .word "false"⟩,
  ⟨"code", .text "wave"⟩, ⟨"serial", .text "S 1"⟩, ⟨"kind", .word "dance"⟩]

/-- The settings of a command may be reversed, and without the first of them the same key is missing
either way.  Of two settings that are refused the first one is reported. -/
theorem readCommand_by_settings_reversed :
    ((waveSettings.map Setting.key).Nodup ∧ waveSettings.Perm waveSettings.reverse ∧
      readCommand (settingTokens waveSettings) = .ok ⟨"S 1", .dance, "wave", 7, true, false⟩ ∧
      readCommand (settingTokens waveSettings.reverse) =
        .ok ⟨"S 1", .dance, "wave", 7, true, false⟩) ∧
    ((waveSettings.tail.map Setting.key).Nodup ∧
      waveSettings.tail.Perm waveSettings.tail.reverse ∧
      (∀ setting ∈ waveSettings.tail, setting.IsProper) ∧
      readCommand (settingTokens waveSettings.tail) = .error (.missingArgument "interrupt") ∧
      readCommand (settingTokens waveSettings.tail.reverse) =
        .error (.missingArgument "interrupt") ∧
      (Problem.missingArgument "interrupt").message = "command is missing `interrupt`") ∧
    readCommand (settingTokens
      [⟨"code", .text "wave"⟩, ⟨"kind", .word "jig"⟩, ⟨"duration", .word "long"⟩]) =
        .error (.unknownKind "jig") := by
  have wave : readCommand (settingTokens waveSettings) =
      .ok ⟨"S 1", .dance, "wave", 7, true, false⟩ := by
    rfl
  have short : readCommand (settingTokens waveSettings.tail) =
      .error (.missingArgument "interrupt") := by
    rfl
  have distinct : (waveSettings.map Setting.key).Nodup := by decide
  have shortDistinct : (waveSettings.tail.map Setting.key).Nodup := by decide
  have proper : ∀ setting ∈ waveSettings.tail, setting.IsProper :=
    Arguments.exists_read.mp ⟨_, (rfl : Arguments.read {} _ = .ok _)⟩
  have reversed (settings : List Setting) : settings.Perm settings.reverse :=
    (List.reverse_perm settings).symm
  refine ⟨⟨distinct, reversed _, wave, ?_⟩,
    ⟨shortDistinct, reversed _, proper, short, ?_, by rfl⟩, ?_⟩
  · obtain ⟨_, _, rearranged, _⟩ := readCommand_by_settings (settingTokens waveSettings)
    exact ((rearranged _ _ rfl (.inl ⟨distinct, reversed _⟩)).1 _).mpr wave
  · obtain ⟨_, _, rearranged, _⟩ := readCommand_by_settings (settingTokens waveSettings.tail)
    exact ((rearranged _ _ rfl (.inl ⟨shortDistinct, reversed _⟩)).2 proper).trans short
  · refine ((readCommand_by_settings _).2.2.2 _).mpr
      (.inl ⟨[⟨"code", .text "wave"⟩], _, rfl, ?_, .refused (.kind ?_)⟩)
    · exact List.forall_mem_singleton.mpr ⟨_, .code "wave"⟩
    · intro kind
      cases kind <;> decide

end RobotBlocks.Script
