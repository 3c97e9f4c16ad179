import RobotBlocks.Config
import RobotBlocks.Proofs.Store.FileTrees
import RobotBlocks.Proofs.Toml.Statements

/-!
# Saved configurations

The settings text of a configuration is read back as the configuration, whatever the limits and the
root are.  A save does not check the limits though, and a load does, so a configuration that lets
nothing be done at all is saved in a file that no load accepts.
-/

namespace RobotBlocks.Config

open Binary64 (digitChars)
open Text (fromUTF8?_eq_some)
open Toml (IsBareName printsAs_count printsAs_text)

/-! ## The settings text -/

def statements (config : Config) : List Toml.Statement := [
  .header [] "dispatch",
  .entry [] "max_concurrency" (.integer config.maxConcurrency.toNat),
  .header [] "sandbox",
  .entry [] "max_steps" (.integer config.maxSteps.toNat),
  .entry [] "max_repeat" (.integer config.maxRepeat.toNat),
  .entry [] "max_depth" (.integer config.maxDepth.toNat),
  .header [] "store",
  .entry [] "root" (.text config.root),
  .entry [] "format" (.text config.format.word)]

def sections (config : Config) : List (String × Toml.Value) := [
  ("dispatch", .table [("max_concurrency", .integer config.maxConcurrency.toNat)]),
  ("sandbox", .table [
    ("max_steps", .integer config.maxSteps.toNat),
    ("max_repeat", .integer config.maxRepeat.toNat),
    ("max_depth", .integer config.maxDepth.toNat)]),
  ("store", .table [
    ("root", .text config.root),
    ("format", .text config.format.word)])]

theorem build_statements (config : Config) :
    Toml.build config.statements = some config.sections := by
  rfl

theorem count?_toNat (count : UInt64) : count? (.integer count.toNat) = some count := by
  have whole : (0 : Int) ≤ count.toNat := Int.natCast_nonneg _
  simp only [count?]
  rw [if_pos whole, Int.toNat_natCast, UInt64.ofNat_toNat]

theorem count32?_toNat (count : UInt32) : count32? (.integer count.toNat) = some count := by
  have whole : (0 : Int) ≤ count.toNat ∧ (count.toNat : Int) < 2 ^ (32 : Nat) := by
    have bound := count.toNat_lt
    exact ⟨Int.natCast_nonneg _, by exact_mod_cast bound⟩
  simp only [count32?]
  rw [if_pos whole, Int.toNat_natCast, UInt32.ofNat_toNat]

theorem format?_word (format : Format) : format? (.text format.word) = some format := by
  cases format <;> decide

theorem field?_of_lookup {α : Type} {read : Toml.Value → Option α} {default : α} {name : String}
    {entries : List (String × Toml.Value)} {value : Toml.Value}
    (found : Toml.lookup name entries = some value) :
    field? read default name entries = read value := by
  unfold field?
  rw [found]

theorem entries?_of_lookup {name : String} {names : List String}
    {sections entries : List (String × Toml.Value)}
    (found : Toml.lookup name sections = some (.table entries)) :
    entries? name names sections = some entries := by
  unfold entries?
  rw [field?_of_lookup found]
  rfl

/-- The sections of a configuration give the configuration. -/
theorem ofSections?_sections (config : Config) : ofSections? config.sections = some config := by
  -- No default counts, since every field is given.
  have concurrency (default : UInt64) : field? count? default "max_concurrency"
      [("max_concurrency", .integer config.maxConcurrency.toNat)] = some config.maxConcurrency :=
    (field?_of_lookup rfl).trans (count?_toNat config.maxConcurrency)
  let sandbox : List (String × Toml.Value) := [("max_steps", .integer config.maxSteps.toNat),
    ("max_repeat", .integer config.maxRepeat.toNat), ("max_depth", .integer config.maxDepth.toNat)]
  have steps (default : UInt64) : field? count? default "max_steps" sandbox =
      some config.maxSteps := (field?_of_lookup rfl).trans (count?_toNat config.maxSteps)
  have turns (default : UInt32) : field? count32? default "max_repeat" sandbox =
      some config.maxRepeat := (field?_of_lookup rfl).trans (count32?_toNat config.maxRepeat)
  have depth (default : UInt64) : field? count? default "max_depth" sandbox =
      some config.maxDepth := (field?_of_lookup rfl).trans (count?_toNat config.maxDepth)
  let store : List (String × Toml.Value) :=
    [("root", .text config.root), ("format", .text config.format.word)]
  have root (default : String) : field? text? default "root" store = some config.root :=
    (field?_of_lookup rfl).trans (rfl : text? (.text config.root) = some config.root)
  have format (default : Format) : field? format? default "format" store = some config.format :=
    (field?_of_lookup rfl).trans (format?_word config.format)
  unfold ofSections?
  refine Option.bind_eq_some_iff.mpr ⟨_, entries?_of_lookup rfl, ?_⟩
  refine Option.bind_eq_some_iff.mpr ⟨sandbox, entries?_of_lookup rfl, ?_⟩
  refine Option.bind_eq_some_iff.mpr ⟨store, entries?_of_lookup rfl, ?_⟩
  refine Option.bind_eq_some_iff.mpr ⟨_, concurrency _, ?_⟩
  refine Option.bind_eq_some_iff.mpr ⟨_, steps _, ?_⟩
  refine Option.bind_eq_some_iff.mpr ⟨_, turns _, ?_⟩
  refine Option.bind_eq_some_iff.mpr ⟨_, depth _, ?_⟩
  refine Option.bind_eq_some_iff.mpr ⟨_, root _, ?_⟩
  exact Option.bind_eq_some_iff.mpr ⟨_, format _, rfl⟩

/-! ## Reading the settings text -/

/-- The counts of a configuration fit in sixty-four bits with a sign. -/
structure Fits (config : Config) : Prop where
  concurrency : config.maxConcurrency.toNat < 2 ^ (63 : Nat)
  steps : config.maxSteps.toNat < 2 ^ (63 : Nat)
  depth : config.maxDepth.toNat < 2 ^ (63 : Nat)

def lines (config : Config) : List Char :=
  Toml.printHeader "dispatch" ++
  (Toml.printEntry "max_concurrency" (digitChars config.maxConcurrency.toNat) ++ '\n' ::
  (Toml.printHeader "sandbox" ++
  (Toml.printEntry "max_steps" (digitChars config.maxSteps.toNat) ++
  (Toml.printEntry "max_repeat" (digitChars config.maxRepeat.toNat) ++
  (Toml.printEntry "max_depth" (digitChars config.maxDepth.toNat) ++ '\n' ::
  (Toml.printHeader "store" ++
  (Toml.printEntry "root" (Toml.printText config.root.toList) ++
  (Toml.printEntry "format" (Toml.printText config.format.word.toList) ++ []))))))))

theorem countText?_eq_some {count : UInt64} {printed : List Char} :
    countText? count = some printed ↔
      count.toNat < 2 ^ (63 : Nat) ∧ digitChars count.toNat = printed := by
  unfold countText?
  rw [Option.ite_none_right_eq_some, Option.some_inj]

/-- A configuration has a settings text if its counts fit. -/
theorem toText?_eq_some {config : Config} {text : String} :
    config.toText? = some text ↔ config.Fits ∧ text = String.ofList config.lines := by
  have whole : config.lines = Toml.printHeader "dispatch" ++
      Toml.printEntry "max_concurrency" (digitChars config.maxConcurrency.toNat) ++ ['\n'] ++
      Toml.printHeader "sandbox" ++
      Toml.printEntry "max_steps" (digitChars config.maxSteps.toNat) ++
      Toml.printEntry "max_repeat" (digitChars config.maxRepeat.toNat) ++
      Toml.printEntry "max_depth" (digitChars config.maxDepth.toNat) ++ ['\n'] ++
      Toml.printHeader "store" ++
      Toml.printEntry "root" (Toml.printText config.root.toList) ++
      Toml.printEntry "format" (Toml.printText config.format.word.toList) := by
    simp only [lines, List.append_assoc, List.cons_append, List.nil_append, List.append_nil]
  unfold toText?
  simp only [Option.bind_eq_bind, Option.bind_eq_some_iff, countText?_eq_some, Option.pure_def,
    Option.some_inj]
  constructor
  · rintro ⟨_, ⟨concurrency, rfl⟩, _, ⟨steps, rfl⟩, _, ⟨depth, rfl⟩, rfl⟩
    exact ⟨⟨concurrency, steps, depth⟩, congrArg String.ofList whole.symm⟩
  · rintro ⟨⟨concurrency, steps, depth⟩, rfl⟩
    exact ⟨_, ⟨concurrency, rfl⟩, _, ⟨steps, rfl⟩, _, ⟨depth, rfl⟩,
      congrArg String.ofList whole.symm⟩

theorem isBareName_of_all {name : String} (filled : name.toList ≠ [])
    (bare : name.toList.all Toml.isBare = true) : IsBareName name :=
  ⟨filled, List.all_eq_true.mp bare⟩

/-- The lines of a configuration are its statements, with two empty lines between sections. -/
theorem readStatements_lines {config : Config} (fits : config.Fits) (fuel : Nat) :
    Toml.readStatements (fuel + 12) config.lines = some config.statements := by
  have turns : config.maxRepeat.toNat < 2 ^ (63 : Nat) :=
    Nat.lt_of_lt_of_le config.maxRepeat.toNat_lt (by decide)
  have named {name : String} := @isBareName_of_all name
  unfold lines
  rw [Toml.readStatements_header (named (by decide) (by decide)),
    Toml.readStatements_entry (named (by decide) (by decide)) (printsAs_count fits.concurrency),
    Toml.readStatements_blank,
    Toml.readStatements_header (named (by decide) (by decide)),
    Toml.readStatements_entry (named (by decide) (by decide)) (printsAs_count fits.steps),
    Toml.readStatements_entry (named (by decide) (by decide)) (printsAs_count turns),
    Toml.readStatements_entry (named (by decide) (by decide)) (printsAs_count fits.depth),
    Toml.readStatements_blank,
    Toml.readStatements_header (named (by decide) (by decide)),
    Toml.readStatements_entry (named (by decide) (by decide)) (printsAs_text config.root),
    Toml.readStatements_entry (named (by decide) (by decide)) (printsAs_text config.format.word),
    Toml.readStatements_nil]
  rfl

/-- The settings text of a configuration is read back as its sections. -/
theorem read_toText {config : Config} {text : String} (written : config.toText? = some text) :
    Toml.read text = some config.sections := by
  obtain ⟨fits, rfl⟩ := toText?_eq_some.mp written
  have start : Toml.dropOrderMark config.lines = config.lines := rfl
  obtain ⟨fuel, enough⟩ : ∃ fuel, config.lines.length + 1 = fuel + 12 := by
    have header : (Toml.printHeader "dispatch").length = 11 := by decide
    refine ⟨config.lines.length + 1 - 12, ?_⟩
    unfold lines
    rw [List.length_append, header]
    omega
  unfold Toml.read
  simp only
  rw [String.toList_ofList, start, enough, readStatements_lines fits, Option.bind_some,
    build_statements]

/-- A settings text that was written is read back as the configuration, but for its limits. -/
theorem ofText_toText {config : Config} {text : String} (written : config.toText? = some text) :
    ofText text = config.validate := by
  unfold ofText
  rw [read_toText written, Option.bind_some, ofSections?_sections]

/-! ## Files -/

/-- What was saved is read back and then checked. -/
theorem load_save {config : Config} {path : String} {tree next : Store.FileTree}
    (saved : config.save path tree = (.ok (), next)) :
    load path next = inContext ("Invalid configuration in " ++ path) config.validate := by
  unfold save at saved
  cases written : config.toText? with
  | none =>
      rw [written] at saved
      exact nomatch (Prod.mk.inj saved).1
  | some text =>
      rw [written] at saved
      have content := Store.FileTree.bytesAt_of_save saved
      have spelled : String.fromUTF8? text.toUTF8.toList.toByteArray = some text :=
        fromUTF8?_eq_some.mpr rfl
      have file : fileText path (.ok text.toUTF8.toList) = .ok text := by
        unfold fileText
        simp only [spelled]
      unfold load
      rw [content]
      change (fileText path (.ok text.toUTF8.toList) >>= _) = _
      rw [file]
      exact congrArg (inContext ("Invalid configuration in " ++ path)) (ofText_toText written)

/--
A configuration that was saved is loaded as it was, unless it lets no robot be sent to or no
statement be executed: such a configuration is saved too, but its file is refused.
-/
theorem load_after_save {config : Config} {path : String} {tree next : Store.FileTree}
    (saved : config.save path tree = (.ok (), next)) :
    load path next =
      if config.maxConcurrency = 0 then
        .error ⟨["Invalid configuration in " ++ path],
          .text "dispatch.max_concurrency must be at least 1"⟩
      else if config.maxSteps = 0 then
        .error ⟨["Invalid configuration in " ++ path], .text "sandbox.max_steps must be at least 1"⟩
      else
        .ok config := by
  rw [load_save saved]
  unfold validate
  by_cases concurrency : config.maxConcurrency = 0
  · rw [if_pos concurrency, if_pos concurrency]
    rfl
  rw [if_neg concurrency, if_neg concurrency]
  by_cases steps : config.maxSteps = 0
  · rw [if_pos steps, if_pos steps]
    rfl
  · rw [if_neg steps, if_neg steps]
    rfl

/-- A save that succeeds leaves some tree. -/
theorem exists_saved (config : Config) (path : String) (tree : Store.FileTree)
    (succeeds : (config.save path tree).1.toOption = some ()) :
    ∃ next, config.save path tree = (.ok (), next) := by
  rcases saved : config.save path tree with ⟨failure | ⟨⟩, next⟩
  · rw [saved] at succeeds
    exact nomatch succeeds
  · exact ⟨next, rfl⟩

theorem load_after_save_usual :
    ∃ next, ({} : Config).save "conf.toml" {} = (.ok (), next) ∧
      load "conf.toml" next = .ok {} := by
  obtain ⟨next, saved⟩ := exists_saved {} "conf.toml" {} (by decide +kernel)
  exact ⟨next, saved, load_after_save saved⟩

/-- A configuration that lets no robot be sent to is saved, but never loaded again. -/
theorem saved_idle_not_loaded :
    ¬∀ (config : Config) (path : String) (tree next : Store.FileTree),
      config.save path tree = (.ok (), next) → load path next = .ok config := by
  intro always
  obtain ⟨next, saved⟩ := exists_saved { maxConcurrency := 0 } "conf.toml" {} (by decide +kernel)
  have refused : validate { maxConcurrency := 0 } =
      .error (.ofText "dispatch.max_concurrency must be at least 1") := if_pos rfl
  have loaded := always _ _ _ _ saved
  rw [load_save saved, refused] at loaded
  exact nomatch loaded

end RobotBlocks.Config
