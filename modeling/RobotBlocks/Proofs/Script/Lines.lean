import RobotBlocks.Proofs.Numeric.Digits
import RobotBlocks.Proofs.Program.Nesting
import RobotBlocks.Proofs.Script.Tokens
import RobotBlocks.Proofs.Text.Lines
import RobotBlocks.Script.Line

/-!
# Printed lines are read back

Every line that the printer writes is read as what it was written for: a statement, the opening of
a loop or its closing.  The comment at the top says nothing, whatever the names in it hold.
-/

namespace RobotBlocks.Script

/-! ## Indentation -/

theorem indentation_blank (level : Nat) : ∀ c ∈ indentation level, Text.isBlank c = true := by
  intro c mem
  rw [List.eq_of_mem_replicate mem]
  decide

/-- The text starts with a character that trimming keeps and that starts no comment. -/
def StartsSolid (text : List Char) : Prop :=
  ∃ first rest, text = first :: rest ∧ Text.isBlank first = false ∧ first ≠ '#'

/-- The text ends with a character that trimming keeps. -/
def EndsSolid (text : List Char) : Prop :=
  ∃ body last, text = body ++ [last] ∧ Text.isBlank last = false

theorem EndsSolid.append {text : List Char} (solid : EndsSolid text) (front : List Char) :
    EndsSolid (front ++ text) := by
  obtain ⟨body, last, rfl, notBlank⟩ := solid
  exact ⟨front ++ body, last, (List.append_assoc _ _ _).symm, notBlank⟩

theorem endsSolid_singleton {last : Char} (notBlank : Text.isBlank last = false) :
    EndsSolid [last] :=
  ⟨[], last, rfl, notBlank⟩

theorem isBlank_of_plain {c : Char} (plain : endsWord c = false) : Text.isBlank c = false := by
  simp only [endsWord, Bool.or_eq_false_iff] at plain
  exact plain.1.1.1.1

theorem IsWord.endsSolid {word : List Char} (isWord : IsWord word) : EndsSolid word :=
  ⟨word.dropLast, word.getLast isWord.1, (List.dropLast_append_getLast isWord.1).symm,
    isBlank_of_plain (isWord.2 _ (List.getLast_mem isWord.1))⟩

theorem startsSolid_keyword {keyword : String} (isWord : IsWord keyword.toList)
    (noComment : keyword.toList.head? ≠ some '#') (rest : List Char) :
    StartsSolid (keyword.toList ++ rest) := by
  obtain ⟨nonempty, plain⟩ := isWord
  obtain ⟨first, more, split⟩ := List.exists_cons_of_ne_nil nonempty
  rw [split] at noComment plain ⊢
  exact ⟨first, more ++ rest, rfl, isBlank_of_plain (plain first List.mem_cons_self),
    fun same => noComment (congrArg some same)⟩

theorem endsSolid_quote (text : String) : EndsSolid (quote text) :=
  (endsSolid_singleton (by decide)).append ('"' :: text.toList.flatMap quoteChar)

/-- A line is read by its tokens when it neither starts nor ends with a blank character. -/
theorem read_indented (level : Nat) {content : List Char} (starts : StartsSolid content)
    (ends : EndsSolid content) :
    Line.read (indentation level ++ content) = (scan .between content).bind Line.ofTokens := by
  obtain ⟨first, rest, start, solid, noComment⟩ := starts
  obtain ⟨body, last, finish, solidLast⟩ := ends
  have trimmed := Text.trim_indented (indentation_blank level) start finish solid solidLast
  unfold Line.read
  rw [trimmed]
  split
  · cases start
  · cases start
    exact absurd rfl noComment
  · rfl

/-- A keyword decides how the rest of its line is read. -/
theorem read_keyword (level : Nat) (keyword : String) (isWord : IsWord keyword.toList)
    (noComment : keyword.toList.head? ≠ some '#') {arguments : List Char}
    (ends : EndsSolid arguments) :
    Line.read (indentation level ++ (keyword.toList ++ ' ' :: arguments)) =
      (scan .between arguments).bind (Line.ofKeyword keyword) := by
  have starts := startsSolid_keyword isWord noComment (' ' :: arguments)
  have ends' : EndsSolid (keyword.toList ++ ' ' :: arguments) := (ends.append [' ']).append _
  rw [read_indented level starts ends', scan_keyword isWord (by rintro c ⟨⟩; rfl), scan_space]
  cases scan .between arguments <;> rfl

/-! ## Statements -/

theorem read_begin (level : Nat) :
    Line.read (indentation level ++ "begin".toList) = .ok (.statement .begin) := by
  have isWord : IsWord "begin".toList := by decide
  have starts := startsSolid_keyword isWord (by decide) []
  rw [List.append_nil] at starts
  rw [read_indented level starts isWord.endsSolid, scan_lastWord isWord]
  rfl

theorem isWord_digits {digits : List Char} (all : Numeric.AllDigits digits)
    (nonempty : digits ≠ []) : IsWord digits := by
  refine ⟨nonempty, fun c mem => ?_⟩
  obtain ⟨n, small, rfl⟩ := Numeric.exists_digit (all c mem)
  interval_cases n <;> decide

theorem isWord_countChars (count : UInt32) : IsWord (countChars count) :=
  isWord_digits (Numeric.allDigits_digitChars _) (Numeric.digitChars_ne_nil _)

theorem isWord_plain {seconds : Binary64} (finite : seconds.isFinite = true) :
    IsWord seconds.plain := by
  obtain ⟨first, rest, text, digit, chars, _⟩ := Binary64.plain_forms finite
  have digitChar {c : Char} (isDigit : c.isDigit = true) : endsWord c = false :=
    (@isWord_digits [c] (by simpa [Numeric.AllDigits] using isDigit)
      (List.cons_ne_nil _ _)).2 c List.mem_cons_self
  have sign : ∀ c ∈ seconds.signChars, endsWord c = false := by
    intro c mem
    unfold Binary64.signChars at mem
    split at mem
    · rw [List.mem_singleton.mp mem]
      decide
    · cases mem
  rw [text]
  refine ⟨by simp, fun c mem => ?_⟩
  rcases List.mem_append.mp mem with left | right
  · exact sign c left
  · rcases List.mem_cons.mp right with here | there
    · rw [here]
      exact digitChar digit
    · rcases chars c there with isDigit | point
      · exact digitChar isDigit
      · rw [point]
        decide

theorem readSeconds_plain {seconds : Binary64} (duration : IsDuration seconds) :
    readSeconds (String.ofList seconds.plain) = .ok seconds := by
  unfold readSeconds
  rw [String.toList_ofList, Binary64.readReal_plain duration.1]
  simp [duration.1, duration.2]

theorem read_wait (level : Nat) {seconds : Binary64} (duration : IsDuration seconds) :
    Line.read (indentation level ++ ("wait ".toList ++ seconds.plain)) =
      .ok (.statement (.wait seconds)) := by
  have isWord := isWord_plain duration.1
  refine (read_keyword level "wait" (by decide) (by decide) isWord.endsSolid).trans ?_
  have keyword (word : String) : Line.ofKeyword "wait" [.word word] =
      (readSeconds word).map fun seconds => .statement (.wait seconds) := rfl
  rw [scan_lastWord isWord, Except.bind, keyword, readSeconds_plain duration]
  rfl

theorem read_log (level : Nat) (message : String) :
    Line.read (indentation level ++ ("log ".toList ++ quote message)) =
      .ok (.statement (.log message)) := by
  refine (read_keyword level "log" (by decide) (by decide)
    (endsSolid_quote message)).trans ?_
  rw [scan_lastQuote]
  rfl

theorem read_fail (level : Nat) (message : String) :
    Line.read (indentation level ++ ("fail ".toList ++ quote message)) =
      .ok (.statement (.fail message)) := by
  refine (read_keyword level "fail" (by decide) (by decide)
    (endsSolid_quote message)).trans ?_
  rw [scan_lastQuote]
  rfl

/-! ## Commands -/

/-- One argument of a command gives three tokens when its value is one token. -/
theorem scan_argument {key : String} (isWord : IsWord key.toList) {value rest : List Char}
    {token : Token}
    (one : scan .between (value ++ rest) = (scan .between rest).map (token :: ·)) :
    scan .between (' ' :: (key.toList ++ '=' :: (value ++ rest))) =
      (scan .between rest).map fun more => .word key :: .equals :: token :: more := by
  rw [scan_key isWord, one]
  cases scan .between rest <;> rfl

theorem isWord_kind (kind : Kind) : IsWord kind.word.toList := by
  cases kind <;> decide

theorem isWord_flagWord (flag : Bool) : IsWord (flagWord flag) := by
  cases flag <;> decide

theorem endsWords_space (rest : List Char) : EndsWords (' ' :: rest) := by
  rintro c ⟨⟩
  rfl

def commandTokens (command : Command) : List Token := [
  .word "serial", .equals, .text command.serial,
  .word "kind", .equals, .word command.kind.word,
  .word "code", .equals, .text command.code,
  .word "duration", .equals, .word (String.ofList (countChars command.duration)),
  .word "interrupt", .equals, .word (String.ofList (flagWord command.interruptible)),
  .word "wait", .equals, .word (String.ofList (flagWord command.awaited))]

def commandArguments (command : Command) : List Char :=
  "serial".toList ++ '=' :: (quote command.serial ++
    ' ' :: ("kind".toList ++ '=' :: (command.kind.word.toList ++
    ' ' :: ("code".toList ++ '=' :: (quote command.code ++
    ' ' :: ("duration".toList ++ '=' :: (countChars command.duration ++
    ' ' :: ("interrupt".toList ++ '=' :: (flagWord command.interruptible ++
    ' ' :: ("wait".toList ++ '=' :: flagWord command.awaited))))))))))

theorem printCommand_eq (command : Command) :
    printCommand command = "command".toList ++ ' ' :: commandArguments command := by
  unfold printCommand commandArguments
  simp only [List.append_assoc]
  rfl

theorem scan_commandArguments (command : Command) :
    scan .between (commandArguments command) = .ok (commandTokens command) := by
  have spaced := scan_space (commandArguments command)
  rw [← spaced]
  unfold commandArguments
  rw [scan_argument (by decide) (scan_quote command.serial _),
    scan_argument (by decide) (scan_word (isWord_kind _) (endsWords_space _)),
    scan_argument (by decide) (scan_quote command.code _),
    scan_argument (by decide) (scan_word (isWord_countChars _) (endsWords_space _)),
    scan_argument (by decide) (scan_word (isWord_flagWord _) (endsWords_space _)),
    scan_key (by decide), scan_lastWord (isWord_flagWord _), String.ofList_toList]
  rfl

theorem EndsSolid.argument {rest : List Char} (ends : EndsSolid rest) (key : String)
    (value : List Char) : EndsSolid (key.toList ++ '=' :: (value ++ ' ' :: rest)) :=
  (((ends.append [' ']).append value).append ['=']).append key.toList

theorem endsSolid_commandArguments (command : Command) : EndsSolid (commandArguments command) :=
  have last : EndsSolid ("wait".toList ++ '=' :: flagWord command.awaited) :=
    ((isWord_flagWord command.awaited).endsSolid.append ['=']).append "wait".toList
  ((((last.argument _ _).argument _ _).argument _ _).argument _ _).argument _ _

theorem readFlag_flagWord (key : String) (flag : Bool) :
    readFlag key (String.ofList (flagWord flag)) = .ok flag := by
  cases flag <;> rfl

/-- Arguments are taken one by one, each stored under its key. -/
theorem readArguments_cons {arguments next : Arguments} {key : String} {value : Token}
    (stored : arguments.set key value = .ok next) (rest : List Token) :
    arguments.read (.word key :: .equals :: value :: rest) = next.read rest := by
  rw [Arguments.read, stored]
  rfl

theorem readCommand_commandTokens (command : Command) :
    readCommand (commandTokens command) = .ok command := by
  obtain ⟨serial, kind, code, duration, interruptible, awaited⟩ := command
  have kindRead (arguments : Arguments) : arguments.set "kind" (.word kind.word) =
      .ok { arguments with kind := some kind } := by
    change (orProblem _ (Kind.ofWord? kind.word)).map _ = _
    rw [Kind.ofWord?_word]
    rfl
  have durationRead (arguments : Arguments) :
      arguments.set "duration" (.word (String.ofList (countChars duration))) =
        .ok { arguments with duration := some duration } := by
    change (orProblem _
      (Numeric.readCount32 (String.ofList (countChars duration)).toList)).map _ = _
    rw [String.toList_ofList, countChars, Numeric.readCount32_digitChars]
    rfl
  have interruptibleRead (arguments : Arguments) :
      arguments.set "interrupt" (.word (String.ofList (flagWord interruptible))) =
        .ok { arguments with interruptible := some interruptible } := by
    change (readFlag "interrupt" _).map _ = _
    rw [readFlag_flagWord]
    rfl
  have awaitedRead (arguments : Arguments) :
      arguments.set "wait" (.word (String.ofList (flagWord awaited))) =
        .ok { arguments with awaited := some awaited } := by
    change (readFlag "wait" _).map _ = _
    rw [readFlag_flagWord]
    rfl
  unfold readCommand commandTokens
  rw [readArguments_cons rfl, readArguments_cons (kindRead _), readArguments_cons rfl,
    readArguments_cons (durationRead _), readArguments_cons (interruptibleRead _),
    readArguments_cons (awaitedRead _)]
  rfl

theorem read_command (level : Nat) (command : Command) :
    Line.read (indentation level ++ printCommand command) =
      .ok (.statement (.command command)) := by
  have keyword (tokens : List Token) : Line.ofKeyword "command" tokens =
      (readCommand tokens).map fun command => .statement (.command command) := rfl
  rw [printCommand_eq]
  refine (read_keyword level "command" (by decide) (by decide)
    (endsSolid_commandArguments command)).trans ?_
  rw [scan_commandArguments, Except.bind, keyword, readCommand_commandTokens]
  rfl

/-! ## Loops -/

theorem read_opening (level : Nat) (times : UInt32) :
    Line.read (indentation level ++ ("repeat ".toList ++ countChars times ++ " \x7b".toList)) =
      .ok (.opening times) := by
  have isWord := isWord_countChars times
  have ends : EndsSolid (countChars times ++ [' ', '\x7b']) :=
    ((@endsSolid_singleton '\x7b' (by decide)).append [' ']).append (countChars times)
  rw [List.append_assoc]
  refine (read_keyword level "repeat" (by decide) (by decide) ends).trans ?_
  have keyword (word : String) : Line.ofKeyword "repeat" [.word word, .opening] =
      (orProblem (.badCount word) (Numeric.readCount32 word.toList)).map .opening := rfl
  have tokens : scan .between (countChars times ++ [' ', '\x7b']) =
      .ok [.word (String.ofList (countChars times)), .opening] := by
    rw [scan_word isWord (by rintro c ⟨⟩; rfl), scan_space, scan_opening]
    rfl
  rw [tokens, Except.bind, keyword, String.toList_ofList, countChars,
    Numeric.readCount32_digitChars]
  rfl

theorem read_closing (level : Nat) :
    Line.read (indentation level ++ "\x7d".toList) = .ok .closing := by
  have starts : StartsSolid "\x7d".toList := ⟨'\x7d', [], rfl, by decide, by decide⟩
  have ends : EndsSolid "\x7d".toList := @endsSolid_singleton '\x7d' (by decide)
  rw [read_indented level starts ends]
  rfl

/-! ## Whole lines -/

/-- The first line of a statement without its indentation. -/
def firstLine : Statement → List Char
  | .begin => "begin".toList
  | .command command => printCommand command
  | .wait seconds => "wait ".toList ++ seconds.plain
  | .loop times _ => "repeat ".toList ++ countChars times ++ " \x7b".toList
  | .log message => "log ".toList ++ quote message
  | .fail message => "fail ".toList ++ quote message

def firstMeaning : Statement → Line
  | .loop times _ => .opening times
  | statement => .statement statement

theorem read_firstLine (level : Nat) (statement : Statement)
    (waitable : statement.WaitableOne) :
    Line.read (indentation level ++ firstLine statement) = .ok (firstMeaning statement) := by
  cases statement with
  | begin => exact read_begin level
  | command command => exact read_command level command
  | wait seconds => exact read_wait level waitable
  | loop times body => exact read_opening level times
  | log message => exact read_log level message
  | fail message => exact read_fail level message

/-- The header of a script is a comment, whatever names it holds. -/
theorem read_header (names : List Char) :
    Line.read ("# blocklink program model=".toList ++ names) = .ok .blank := by
  obtain ⟨more, trimmed⟩ := @Text.trim_of_head '#' (by decide)
    (" blocklink program model=".toList ++ names)
  change Line.read ('#' :: (" blocklink program model=".toList ++ names)) = _
  unfold Line.read
  rw [trimmed]
  rfl

/-! ## No line breaks -/

theorem IsWord.oneLine {word : List Char} (isWord : IsWord word) : '\n' ∉ word := fun mem =>
  Bool.false_ne_true ((isWord.2 '\n' mem).symm.trans (by decide))

theorem oneLine_indentation (level : Nat) : '\n' ∉ indentation level := fun mem => by
  have same := List.eq_of_mem_replicate mem
  exact absurd same (by decide)

theorem oneLine_quote (text : String) : '\n' ∉ quote text :=
  break_notMem_quote (.inl rfl) text

theorem oneLine_onOneLine (text : String) : '\n' ∉ onOneLine text := by
  intro mem
  obtain ⟨c, _, image⟩ := List.mem_map.mp mem
  split_ifs at image with breaks
  · exact absurd image (by decide)
  · exact breaks (.inl image)

theorem oneLine_append {front back : List Char} (first : '\n' ∉ front) (last : '\n' ∉ back) :
    '\n' ∉ front ++ back := by
  intro mem
  rcases List.mem_append.mp mem with inFront | inBack
  · exact first inFront
  · exact last inBack

theorem oneLine_cons {c : Char} {rest : List Char} (other : '\n' ≠ c) (last : '\n' ∉ rest) :
    '\n' ∉ c :: rest :=
  List.not_mem_cons_of_ne_of_not_mem other last

/-- A name, an equals sign and a value without line breaks. -/
theorem oneLine_argument {key : String} (isWord : IsWord key.toList) {rest : List Char}
    (value : '\n' ∉ rest) : '\n' ∉ key.toList ++ '=' :: rest :=
  oneLine_append isWord.oneLine (oneLine_cons (by decide) value)

theorem oneLine_commandArguments (command : Command) : '\n' ∉ commandArguments command := by
  have further {value rest : List Char} (first : '\n' ∉ value) (last : '\n' ∉ rest) :
      '\n' ∉ value ++ ' ' :: rest := oneLine_append first (oneLine_cons (by decide) last)
  unfold commandArguments
  refine oneLine_argument (by decide) (further (oneLine_quote command.serial) ?_)
  refine oneLine_argument (by decide) (further (isWord_kind command.kind).oneLine ?_)
  refine oneLine_argument (by decide) (further (oneLine_quote command.code) ?_)
  refine oneLine_argument (by decide) (further (isWord_countChars command.duration).oneLine ?_)
  refine oneLine_argument (by decide)
    (further (isWord_flagWord command.interruptible).oneLine ?_)
  exact oneLine_argument (by decide) (isWord_flagWord command.awaited).oneLine

theorem oneLine_firstLine (statement : Statement) (waitable : statement.WaitableOne) :
    '\n' ∉ firstLine statement := by
  cases statement with
  | begin => exact (by decide : '\n' ∉ "begin".toList)
  | command command =>
      have printed : firstLine (.command command) = printCommand command := rfl
      rw [printed, printCommand_eq]
      exact oneLine_append (by decide)
        (oneLine_cons (by decide) (oneLine_commandArguments command))
  | wait seconds => exact oneLine_append (by decide) (isWord_plain waitable.1).oneLine
  | loop times body =>
      exact oneLine_append (oneLine_append (by decide) (isWord_countChars times).oneLine)
        (by decide)
  | log message => exact oneLine_append (by decide) (oneLine_quote message)
  | fail message => exact oneLine_append (by decide) (oneLine_quote message)

end RobotBlocks.Script
