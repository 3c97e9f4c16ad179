import RobotBlocks.Proofs.Robots.Selections

/-!
# The order of the selected robots

The selected robots stand in the order in which they became selected.  A robot that is taken out
and selected again becomes selected anew, and then stands behind all that stayed selected.  A
return to single mode keeps the robot that has been selected for longest.
-/

namespace RobotBlocks.Selection

open scoped List

/-! ## Since when a robot is selected -/

/-- The robot became selected by the operation of this number, and has been selected ever since. -/
structure SelectedSince (operations : List Operation) (robot : String) (number : ℕ) : Prop where
  absent : robot ∉ (after (operations.take number)).targets
  made : number < operations.length
  kept : ∀ count, number < count → count ≤ operations.length →
    robot ∈ (after (operations.take count)).targets

theorem SelectedSince.selected {operations : List Operation} {robot : String} {number : ℕ}
    (since : SelectedSince operations robot number) : robot ∈ (after operations).targets := by
  have now := since.kept operations.length since.made (Nat.le_refl _)
  rw [List.take_length] at now
  exact now

theorem SelectedSince.unique {operations : List Operation} {robot : String} {first second : ℕ}
    (since : SelectedSince operations robot first)
    (other : SelectedSince operations robot second) : first = second := by
  rcases Nat.lt_trichotomy first second with less | same | greater
  · exact absurd (since.kept second less (Nat.le_of_lt other.made)) other.absent
  · exact same
  · exact absurd (other.kept first greater (Nat.le_of_lt since.made)) since.absent

/-- A robot that stays selected has been selected since the same operation. -/
theorem SelectedSince.append {operations later : List Operation} {robot : String} {number : ℕ}
    (since : SelectedSince operations robot number)
    (stays : ∀ count ≤ later.length, robot ∈ (after (operations ++ later.take count)).targets) :
    SelectedSince (operations ++ later) robot number where
  absent := by
    rw [List.take_append_of_le_length (Nat.le_of_lt since.made)]
    exact since.absent
  made := by
    have made := since.made
    rw [List.length_append]
    omega
  kept := by
    intro count after_number bound
    rw [List.length_append] at bound
    rcases Nat.le_total count operations.length with early | late
    · rw [List.take_append_of_le_length early]
      exact since.kept count after_number early
    · obtain ⟨more, rfl⟩ := Nat.exists_eq_add_of_le late
      rw [List.take_length_add_append]
      apply stays
      omega

theorem SelectedSince.concat {operations : List Operation} {operation : Operation}
    {robot : String} {number : ℕ} (since : SelectedSince operations robot number)
    (still : robot ∈ (operation.perform (after operations)).targets) :
    SelectedSince (operations ++ [operation]) robot number := by
  apply since.append
  intro count bound
  cases count with
  | zero =>
      rw [List.take_zero, List.append_nil]
      exact since.selected
  | succ count =>
      rw [List.take_succ_cons, List.take_nil, after_concat]
      exact still

/-- A robot that was not selected before an operation, and is after it, became selected by it. -/
theorem selectedSince_last {operations : List Operation} {operation : Operation} {robot : String}
    (absent : robot ∉ (after operations).targets)
    (present : robot ∈ (operation.perform (after operations)).targets) :
    SelectedSince (operations ++ [operation]) robot operations.length where
  absent := by
    rw [List.take_left]
    exact absent
  made := by
    rw [List.length_append]
    exact Nat.lt_succ_self _
  kept := by
    intro count after_number bound
    have whole : (operations ++ [operation]).length ≤ count := by
      rw [List.length_append]
      exact after_number
    rw [List.take_of_length_le whole, after_concat]
    exact present

/-- Every selected robot has been selected since some operation. -/
theorem exists_selectedSince (operations : List Operation) {robot : String}
    (selected : robot ∈ (after operations).targets) :
    ∃ number, SelectedSince operations robot number := by
  induction operations using List.reverseRecOn with
  | nil => cases selected
  | append_singleton operations operation ih =>
      rw [after_concat] at selected
      by_cases before : robot ∈ (after operations).targets
      · obtain ⟨number, since⟩ := ih before
        exact ⟨number, since.concat selected⟩
      · exact ⟨operations.length, selectedSince_last before selected⟩

/-- What is not selected at one point can only become selected after it. -/
theorem SelectedSince.later {operations later : List Operation} {robot : String} {number : ℕ}
    (since : SelectedSince (operations ++ later) robot number)
    (absent : robot ∉ (after operations).targets) : operations.length ≤ number := by
  by_contra early
  apply absent
  have kept := since.kept operations.length (Nat.lt_of_not_le early)
    (by rw [List.length_append]; exact Nat.le_add_right _ _)
  rw [List.take_left] at kept
  exact kept

/-! ## What an operation does to the order -/

theorem isSelected_iff (selection : Selection) (robot : String) :
    selection.isSelected robot = true ↔ robot ∈ selection.targets :=
  List.contains_iff_mem

theorem targets_select_multi {selection : Selection} (multi : selection.mode = .multi)
    (serial : String) :
    (selection.select serial).targets =
      if serial ∈ selection.targets then selection.targets.filter (· != serial)
      else selection.targets ++ [serial] := by
  unfold select
  split
  · rename_i single
    cases single.symm.trans multi
  · by_cases selected : serial ∈ selection.targets
    · rw [if_pos selected, dif_pos ((selection.isSelected_iff serial).mpr selected)]
    · have absent : ¬selection.isSelected serial = true :=
        fun found => selected ((selection.isSelected_iff serial).mp found)
      rw [if_neg selected, dif_neg absent]

theorem targets_setMode_multi (selection : Selection) (entitlement : Entitlement) :
    (selection.setMode .multi entitlement).2.targets = selection.targets := by
  unfold setMode
  cases selection.mode <;> cases entitlement <;> rfl

/-- An operation leaves some robots in their order, and selects at most one more, as the last. -/
theorem targets_perform (selection : Selection) (operation : Operation) :
    ∃ kept, kept <+ selection.targets ∧
      ((operation.perform selection).targets = kept ∨
        ∃ robot, robot ∉ selection.targets ∧
          (operation.perform selection).targets = kept ++ [robot]) := by
  cases operation with
  | select serial =>
      by_cases selected : serial ∈ selection.targets
      · cases mode : selection.mode with
        | single =>
            refine ⟨[serial], List.singleton_sublist.mpr selected, .inl ?_⟩
            exact targets_select_single mode serial
        | multi =>
            refine ⟨selection.targets.filter (· != serial), List.filter_sublist, .inl ?_⟩
            exact (targets_select_multi mode serial).trans (if_pos selected)
      · cases mode : selection.mode with
        | single =>
            refine ⟨[], List.nil_sublist _, .inr ⟨serial, selected, ?_⟩⟩
            exact targets_select_single mode serial
        | multi =>
            refine ⟨selection.targets, List.Sublist.refl _, .inr ⟨serial, selected, ?_⟩⟩
            exact (targets_select_multi mode serial).trans (if_neg selected)
  | setMode mode entitlement =>
      cases mode with
      | single => exact ⟨selection.targets.take 1, List.take_sublist _ _, .inl rfl⟩
      | multi =>
          refine ⟨selection.targets, List.Sublist.refl _, .inl ?_⟩
          exact targets_setMode_multi selection entitlement
  | clear => exact ⟨[], List.nil_sublist _, .inl rfl⟩
  | retainKnown known => exact ⟨_, List.filter_sublist, .inl rfl⟩

/-- The robot became selected before the other one, and both have been selected ever since. -/
def Precedes (operations : List Operation) (robot other : String) : Prop :=
  ∃ first second, SelectedSince operations robot first ∧
    SelectedSince operations other second ∧ first < second

theorem Precedes.asymm {operations : List Operation} {robot other : String}
    (precedes : Precedes operations robot other) : ¬Precedes operations other robot := by
  obtain ⟨first, second, since, otherSince, less⟩ := precedes
  rintro ⟨otherFirst, otherSecond, otherAgain, again, greater⟩
  rw [otherAgain.unique otherSince, again.unique since] at greater
  exact Nat.lt_asymm less greater

/-- The robots stand in the order in which they became selected. -/
theorem ordered_after (operations : List Operation) :
    (after operations).targets.Pairwise (Precedes operations) := by
  induction operations using List.reverseRecOn with
  | nil => exact List.Pairwise.nil
  | append_singleton operations operation ih =>
      obtain ⟨kept, sublist, shape⟩ := targets_perform (after operations) operation
      rw [after_concat]
      have older (stays : ∀ robot ∈ kept, robot ∈ (operation.perform (after operations)).targets) :
          kept.Pairwise (Precedes (operations ++ [operation])) := by
        refine (ih.sublist sublist).imp_of_mem ?_
        rintro robot other mem otherMem ⟨first, second, since, otherSince, less⟩
        exact ⟨first, second, since.concat (stays robot mem),
          otherSince.concat (stays other otherMem), less⟩
      rcases shape with same | ⟨robot, absent, more⟩
      · rw [same] at older ⊢
        exact older fun robot mem => mem
      · rw [more] at older ⊢
        refine List.pairwise_append.mpr ⟨older fun robot mem => List.mem_append_left _ mem,
          List.pairwise_singleton _ _, ?_⟩
        -- The new robot became selected by the last operation, and the others earlier.
        intro other mem last memLast
        obtain rfl := List.mem_singleton.mp memLast
        obtain ⟨number, since⟩ := exists_selectedSince operations (sublist.subset mem)
        refine ⟨number, operations.length, since.concat ?_, selectedSince_last absent ?_,
          since.made⟩
        · rw [more]
          exact List.mem_append_left _ mem
        · rw [more]
          exact List.mem_append_right _ memLast

theorem pair_sublist_or_swap {items : List String} {first second : String}
    (different : first ≠ second) (mem : first ∈ items) (otherMem : second ∈ items) :
    [first, second] <+ items ∨ [second, first] <+ items := by
  induction items with
  | nil => cases mem
  | cons item items ih =>
      rcases List.mem_cons.mp mem with rfl | later
      · rcases List.mem_cons.mp otherMem with same | otherLater
        · exact absurd same.symm different
        · exact .inl ((List.singleton_sublist.mpr otherLater).cons_cons _)
      · rcases List.mem_cons.mp otherMem with rfl | otherLater
        · exact .inr ((List.singleton_sublist.mpr later).cons_cons _)
        · exact (ih later otherLater).imp (.cons _) (.cons _)

/-- One robot stands before another exactly when it became selected before it. -/
theorem pair_sublist_iff {operations : List Operation} {robot other : String} :
    [robot, other] <+ (after operations).targets ↔ Precedes operations robot other := by
  have ordered {first second : String} (pair : [first, second] <+ (after operations).targets) :
      Precedes operations first second :=
    List.pairwise_iff_forall_sublist.mp (ordered_after operations) pair
  constructor
  · exact ordered
  · intro precedes
    have different : robot ≠ other := by
      rintro rfl
      exact precedes.asymm precedes
    have notSwapped := precedes.asymm
    obtain ⟨first, second, since, otherSince, _⟩ := precedes
    rcases pair_sublist_or_swap different since.selected otherSince.selected with found | swapped
    · exact found
    · exact absurd (ordered swapped) notSwapped

/-! ## Who is selected -/

/-- The robot became selected before every other robot that is selected. -/
def LongestSelected (operations : List Operation) (robot : String) : Prop :=
  robot ∈ (after operations).targets ∧
    ∀ other ∈ (after operations).targets, other ≠ robot → Precedes operations robot other

theorem longestSelected_iff {operations : List Operation} {robot : String} :
    LongestSelected operations robot ↔ (after operations).targets.take 1 = [robot] := by
  have ordered := ordered_after operations
  unfold LongestSelected
  revert ordered
  cases (after operations).targets with
  | nil => simp
  | cons first others =>
      intro ordered
      have ahead := (List.pairwise_cons.mp ordered).1
      rw [List.take_succ_cons, List.take_zero, List.singleton_inj]
      constructor
      · rintro ⟨mem, longest⟩
        rcases List.mem_cons.mp mem with same | later
        · exact same.symm
        · by_contra different
          exact (ahead robot later).asymm (longest first List.mem_cons_self different)
      · rintro rfl
        refine ⟨List.mem_cons_self, ?_⟩
        intro other mem different
        rcases List.mem_cons.mp mem with same | later
        · exact absurd same different
        · exact ahead other later

/-- Whether the robot is selected after one more operation, by what was selected before it. -/
def SelectedNext (operations : List Operation) (robot : String) : Operation → Prop
  | .select serial =>
      if (after operations).mode = .single then robot = serial
      else (robot ∈ (after operations).targets ↔ robot ≠ serial)
  | .setMode .single _ => LongestSelected operations robot
  | .setMode .multi _ => robot ∈ (after operations).targets
  | .clear => False
  | .retainKnown known => robot ∈ (after operations).targets ∧ robot ∈ known

theorem mem_select_multi {selection : Selection} (multi : selection.mode = .multi)
    (serial robot : String) :
    robot ∈ (selection.select serial).targets ↔
      (robot ∈ selection.targets ↔ robot ≠ serial) := by
  rw [targets_select_multi multi]
  by_cases same : robot = serial
  · subst same
    by_cases selected : robot ∈ selection.targets <;> simp [selected]
  · by_cases selected : serial ∈ selection.targets <;> simp [selected, same]

theorem mem_perform (operations : List Operation) (operation : Operation) (robot : String) :
    robot ∈ (operation.perform (after operations)).targets ↔
      SelectedNext operations robot operation := by
  cases operation with
  | select serial =>
      cases mode : (after operations).mode with
      | single =>
          have rule : SelectedNext operations robot (.select serial) = (robot = serial) :=
            if_pos mode
          rw [rule, Operation.perform, targets_select_single mode, List.mem_singleton]
      | multi =>
          have other : (after operations).mode ≠ .single := by
            rw [mode]
            decide
          have rule : SelectedNext operations robot (.select serial) =
              (robot ∈ (after operations).targets ↔ robot ≠ serial) :=
            if_neg other
          rw [rule]
          exact mem_select_multi mode serial robot
  | setMode mode entitlement =>
      cases mode with
      | single =>
          have only : robot ∈ (after operations).targets.take 1 ↔
              (after operations).targets.take 1 = [robot] := by
            cases (after operations).targets with
            | nil => simp
            | cons first others => simp [eq_comm]
          exact only.trans longestSelected_iff.symm
      | multi =>
          rw [Operation.perform, targets_setMode_multi]
          exact Iff.rfl
  | clear => exact List.mem_nil_iff robot
  | retainKnown known =>
      exact List.mem_filter.trans (and_congr_right fun _ => List.contains_iff_mem)

/-- The robot is selected now, and after each of the later operations. -/
def StaysSelected (operations later : List Operation) (robot : String) : Prop :=
  ∀ count ≤ later.length, robot ∈ (after (operations ++ later.take count)).targets

/--
Robots that stay selected keep their order, and whoever becomes selected later stands behind them.
-/
theorem pair_sublist_append {operations later : List Operation} {robot other : String}
    (stays : StaysSelected operations later robot) :
    ([robot, other] <+ (after operations).targets → StaysSelected operations later other →
      [robot, other] <+ (after (operations ++ later)).targets) ∧
    (other ∉ (after operations).targets → other ∈ (after (operations ++ later)).targets →
      [robot, other] <+ (after (operations ++ later)).targets) := by
  constructor
  · intro before otherStays
    obtain ⟨first, second, since, otherSince, less⟩ := pair_sublist_iff.mp before
    exact pair_sublist_iff.mpr
      ⟨first, second, since.append stays, otherSince.append otherStays, less⟩
  · intro absent present
    have now : robot ∈ (after operations).targets := by
      have first := stays 0 (Nat.zero_le _)
      rw [List.take_zero, List.append_nil] at first
      exact first
    obtain ⟨number, since⟩ := exists_selectedSince operations now
    obtain ⟨otherNumber, otherSince⟩ := exists_selectedSince (operations ++ later) present
    exact pair_sublist_iff.mpr ⟨number, otherNumber, since.append stays, otherSince,
      Nat.lt_of_lt_of_le since.made (otherSince.later absent)⟩

/--
After any operations the targets are the selected robots, each once, in the order in which they
became selected.  That order stays as long as they stay selected, and a robot that becomes selected
later stands behind them.  Single mode keeps the robot that has been selected for longest.
-/
theorem targets_by_history (operations : List Operation) :
    let selection := after operations
    selection.targets.Nodup ∧
    (∀ robot, robot ∈ selection.targets ↔ ∃ number, SelectedSince operations robot number) ∧
    (∀ robot other, [robot, other] <+ selection.targets ↔ Precedes operations robot other) ∧
    (∀ operation robot, robot ∈ (operation.perform selection).targets ↔
      SelectedNext operations robot operation) ∧
    (∀ later robot other, StaysSelected operations later robot →
      ([robot, other] <+ selection.targets → StaysSelected operations later other →
        [robot, other] <+ (after (operations ++ later)).targets) ∧
      (other ∉ selection.targets → other ∈ (after (operations ++ later)).targets →
        [robot, other] <+ (after (operations ++ later)).targets)) ∧
    (∀ entitlement, (selection.setMode .single entitlement).1 = .ok () ∧
      (selection.targets = [] ∧ (selection.setMode .single entitlement).2.targets = [] ∨
        ∃ robot, LongestSelected operations robot ∧
          (selection.setMode .single entitlement).2.targets = [robot])) ∧
    (∀ robot, selection.isSelected robot = true ↔ robot ∈ selection.targets) ∧
    (∀ robots, selection.flags robots =
      robots.map fun robot => (robot, decide (robot ∈ selection.targets))) ∧
    selection.count = selection.targets.length ∧
    (selection.isEmpty = true ↔ selection.targets = []) := by
  intro selection
  refine ⟨selection.distinct, ?_, fun robot other => pair_sublist_iff, mem_perform operations,
    fun later robot other => pair_sublist_append, ?_, selection.isSelected_iff, ?_, rfl,
    List.isEmpty_iff⟩
  · intro robot
    constructor
    · exact exists_selectedSince operations
    · rintro ⟨number, since⟩
      exact since.selected
  · intro entitlement
    refine ⟨rfl, ?_⟩
    cases found : selection.targets with
    | nil => exact .inl ⟨rfl, congrArg (List.take 1) found⟩
    | cons robot others =>
        have kept : selection.targets.take 1 = [robot] := by
          rw [found, List.take_succ_cons, List.take_zero]
        exact .inr ⟨robot, longestSelected_iff.mpr kept, kept⟩
  · intro robots
    apply List.map_congr_left
    intro robot _
    rw [← Bool.decide_coe (selection.isSelected robot), decide_eq_decide.mpr
      (selection.isSelected_iff robot)]

def takenOut : List Operation :=
  [.setMode .multi (.ok ()), .select "R1", .select "R2", .select "R1"]

/-- It is selected again, and robots that are not known are dropped. -/
def selectedAgain : List Operation :=
  [.select "R1", .select "R3", .retainKnown ["R1", "R2"]]

theorem targets_by_history_selectedAgain :
    StaysSelected takenOut selectedAgain "R2" ∧ "R1" ∉ (after takenOut).targets ∧
      ["R2", "R1"] <+ (after (takenOut ++ selectedAgain)).targets ∧
      LongestSelected (takenOut ++ selectedAgain) "R2" := by
  have stays : StaysSelected takenOut selectedAgain "R2" := by
    unfold StaysSelected
    decide
  have absent : "R1" ∉ (after takenOut).targets := by decide
  have behind := ((targets_by_history takenOut).2.2.2.2.1 selectedAgain "R2" "R1" stays).2 absent
    (by decide)
  have single := (targets_by_history (takenOut ++ selectedAgain)).2.2.2.1
    (.setMode .single (.ok ())) "R2"
  exact ⟨stays, absent, behind, single.mp (by decide)⟩

end RobotBlocks.Selection
