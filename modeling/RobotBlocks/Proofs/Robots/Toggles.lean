import Mathlib.Algebra.Ring.Parity
import Mathlib.Data.List.Dedup
import RobotBlocks.Proofs.Robots.SelectionOrder

/-!
# Toggling robots

In multi mode every selection of a robot takes it out or puts it in.  Who is selected after many of
them depends only on how often each robot was selected, but the order of the selected robots depends
on when: a robot that was toggled stands where its last toggle put it, behind all that were left
alone.
-/

namespace RobotBlocks.Selection

open scoped List

def selectAll (selection : Selection) (robots : List String) : Selection :=
  robots.foldl select selection

theorem eq_of_targets {selection other : Selection} (mode : selection.mode = other.mode)
    (targets : selection.targets = other.targets) : selection = other := by
  obtain ⟨_, _, _⟩ := selection
  obtain ⟨_, _, _⟩ := other
  cases mode
  cases targets
  rfl

theorem mode_selectAll (selection : Selection) (robots : List String) :
    (selection.selectAll robots).mode = selection.mode := by
  induction robots generalizing selection with
  | nil => rfl
  | cons first rest ih => exact (ih (selection.select first)).trans (mode_select selection first)

/-! ## Who is selected -/

/-- A robot is selected if it was, or else if it was toggled an odd number of times. -/
theorem mem_selectAll {selection : Selection} (multi : selection.mode = .multi)
    (robots : List String) (robot : String) :
    robot ∈ (selection.selectAll robots).targets ↔
      Xor (robot ∈ selection.targets) (Odd (robots.count robot)) := by
  induction robots generalizing selection with
  | nil => simp [selectAll, xor_def]
  | cons first rest ih =>
      have later := ih ((mode_select selection first).trans multi)
      have toggled := mem_select_multi multi first robot
      apply later.trans
      rw [xor_def, xor_def, toggled]
      by_cases same : robot = first
      · subst same
        rw [List.count_cons_self, Nat.odd_add_one]
        tauto
      · rw [List.count_cons_of_ne fun equal => same equal.symm]
        tauto

theorem mem_selectAll_of_notMem {selection : Selection} (multi : selection.mode = .multi)
    {robots : List String} {robot : String} (alone : robot ∉ robots) :
    robot ∈ (selection.selectAll robots).targets ↔ robot ∈ selection.targets := by
  rw [mem_selectAll multi, List.count_eq_zero_of_not_mem alone, xor_def]
  simp

/-- The order in which robots are toggled does not matter for who is selected. -/
theorem perm_selectAll {selection : Selection} (multi : selection.mode = .multi)
    {robots others : List String} (perm : others ~ robots) :
    (selection.selectAll others).targets ~ (selection.selectAll robots).targets := by
  apply (List.perm_ext_iff_of_nodup (distinct _) (distinct _)).mpr
  intro robot
  rw [mem_selectAll multi, mem_selectAll multi, perm.count_eq]

/-! ## Where the selected robots stand -/

/-- One toggle leaves the other robots where they are, and a new robot comes last. -/
theorem filter_select {selection : Selection} (multi : selection.mode = .multi)
    (first : String) (rest : List String) :
    (selection.select first).targets.filter (· ∉ rest) =
      selection.targets.filter (· ∉ first :: rest) ++
        [first].filter fun robot => robot ∉ selection.targets ∧ robot ∉ rest := by
  rw [targets_select_multi multi]
  by_cases selected : first ∈ selection.targets
  · have last : [first].filter (fun robot => robot ∉ selection.targets ∧ robot ∉ rest) = [] := by
      simp [selected]
    rw [if_pos selected, List.filter_filter, last, List.append_nil]
    apply List.filter_congr
    intro robot _
    rw [Bool.eq_iff_iff]
    simp [and_comm]
  · have others : selection.targets.filter (· ∉ first :: rest) =
        selection.targets.filter (· ∉ rest) := by
      apply List.filter_congr
      intro robot mem
      have different : robot ≠ first := fun equal => selected (equal ▸ mem)
      simp [different]
    have last : [first].filter (fun robot => robot ∉ selection.targets ∧ robot ∉ rest) =
        [first].filter (· ∉ rest) := by
      simp [List.filter_cons, selected]
    rw [if_neg selected, List.filter_append, others, last]

/--
The robots that were left alone stand first, in their order.  Those that were toggled and are
selected follow, in the order of their last toggles.
-/
theorem targets_selectAll {selection : Selection} (multi : selection.mode = .multi)
    (robots : List String) :
    (selection.selectAll robots).targets = selection.targets.filter (· ∉ robots) ++
      robots.dedup.filter (· ∈ (selection.selectAll robots).targets) := by
  induction robots generalizing selection with
  | nil => simp [selectAll]
  | cons first rest ih =>
      have next : (selection.select first).mode = .multi :=
        (mode_select selection first).trans multi
      have later := ih next
      have whole : selection.selectAll (first :: rest) = (selection.select first).selectAll rest :=
        rfl
      rw [filter_select multi, List.append_assoc] at later
      rw [whole]
      refine later.trans (congrArg _ ?_)
      by_cases again : first ∈ rest
      · rw [List.dedup_cons_of_mem again]
        simp [again]
      · have decided : first ∈ ((selection.select first).selectAll rest).targets ↔
            first ∉ selection.targets := by
          rw [mem_selectAll_of_notMem next again, mem_select_multi multi]
          simp
        rw [List.dedup_cons_of_notMem again, List.filter_cons]
        by_cases selected : first ∈ selection.targets <;> simp [decided, again, selected]

/-- A robot that was left alone stands before every robot that was toggled. -/
theorem alone_before_toggled {selection : Selection} (multi : selection.mode = .multi)
    {robots : List String} {robot other : String} (selected : robot ∈ selection.targets)
    (alone : robot ∉ robots) (toggled : other ∈ robots)
    (present : other ∈ (selection.selectAll robots).targets) :
    [robot, other] <+ (selection.selectAll robots).targets := by
  have first : robot ∈ selection.targets.filter (· ∉ robots) :=
    List.mem_filter.mpr ⟨selected, decide_eq_true alone⟩
  have second : other ∈ robots.dedup.filter (· ∈ (selection.selectAll robots).targets) :=
    List.mem_filter.mpr ⟨List.mem_dedup.mpr toggled, decide_eq_true present⟩
  rw [targets_selectAll multi]
  exact (List.singleton_sublist.mpr first).append (List.singleton_sublist.mpr second)

/-! ## Toggling twice -/

theorem select_select_of_notMem {selection : Selection} (multi : selection.mode = .multi)
    {robot : String} (absent : robot ∉ selection.targets) :
    (selection.select robot).select robot = selection := by
  have next : (selection.select robot).mode = .multi := (mode_select selection robot).trans multi
  have added : (selection.select robot).targets = selection.targets ++ [robot] := by
    rw [targets_select_multi multi, if_neg absent]
  apply eq_of_targets
  · rw [mode_select, mode_select]
  · have kept : selection.targets.filter (· != robot) = selection.targets := by
      apply List.filter_eq_self.mpr
      intro other mem
      exact bne_iff_ne.mpr fun same => absent (same ▸ mem)
    rw [targets_select_multi next, added, if_pos (by simp), List.filter_append, kept]
    simp

theorem targets_select_select_of_mem {selection : Selection} (multi : selection.mode = .multi)
    {robot : String} (selected : robot ∈ selection.targets) :
    ((selection.select robot).select robot).targets =
      selection.targets.filter (· != robot) ++ [robot] := by
  have next : (selection.select robot).mode = .multi := (mode_select selection robot).trans multi
  have removed : (selection.select robot).targets = selection.targets.filter (· != robot) := by
    rw [targets_select_multi multi, if_pos selected]
  rw [targets_select_multi next, removed, if_neg (by simp)]

/--
After any toggles in multi mode a robot is selected exactly if it was before or was toggled an odd
number of times, but not both, so that every order of the toggles selects the same robots.  Robots
that were left alone keep their order and stand before all others, and the others follow in the
order of their last toggles.  Toggling a robot twice changes nothing if it was not selected, and
otherwise only moves it to the end.
-/
theorem toggles_by_parity {selection : Selection} (multi : selection.mode = .multi)
    (robots : List String) :
    let later := selection.selectAll robots
    later.mode = .multi ∧
    (∀ robot, later.isSelected robot = true ↔
      Xor (selection.isSelected robot = true) (Odd (robots.count robot))) ∧
    (∀ others, others ~ robots → (selection.selectAll others).targets ~ later.targets) ∧
    later.targets.filter (· ∉ robots) = selection.targets.filter (· ∉ robots) ∧
    (∀ robot added, later.isSelected robot = true → robot ∉ robots →
      later.isSelected added = true → selection.isSelected added = false →
      [robot, added] <+ later.targets) ∧
    later.targets = selection.targets.filter (· ∉ robots) ++
      robots.dedup.filter (· ∈ later.targets) ∧
    (∀ robot, selection.isSelected robot = false →
      (selection.select robot).select robot = selection) ∧
    (∀ robot, selection.isSelected robot = true →
      ((selection.select robot).select robot).mode = .multi ∧
      ((selection.select robot).select robot).targets =
        selection.targets.filter (· != robot) ++ [robot]) := by
  intro later
  have shape := targets_selectAll multi robots
  have absent_iff (robot : String) :
      selection.isSelected robot = false ↔ robot ∉ selection.targets := by
    rw [← Bool.not_eq_true, selection.isSelected_iff]
  refine ⟨(mode_selectAll selection robots).trans multi, fun robot => ?_,
    fun others perm => perm_selectAll multi perm, ?_, fun robot added still alone now new => ?_,
    shape, fun robot absent => ?_, fun robot selected => ?_⟩
  · rw [isSelected_iff, isSelected_iff]
    exact mem_selectAll multi robots robot
  · have toggled : (robots.dedup.filter (· ∈ later.targets)).filter (· ∉ robots) = [] := by
      apply List.filter_eq_nil_iff.mpr
      intro robot mem
      have inside := List.mem_dedup.mp (List.mem_filter.mp mem).1
      simpa using inside
    have whole := congrArg (List.filter (· ∉ robots)) shape
    rw [List.filter_append, toggled, List.append_nil, List.filter_filter] at whole
    simpa using whole
  · rw [isSelected_iff] at still now
    rw [absent_iff] at new
    have before := (mem_selectAll_of_notMem multi alone).mp still
    have toggled : added ∈ robots := by
      by_contra other
      exact new ((mem_selectAll_of_notMem multi other).mp now)
    exact alone_before_toggled multi before alone toggled now
  · exact select_select_of_notMem multi ((absent_iff robot).mp absent)
  · constructor
    · rw [mode_select, mode_select, multi]
    · exact targets_select_select_of_mem multi ((isSelected_iff selection robot).mp selected)

def threeSelected : Selection :=
  { mode := .multi, targets := ["R1", "R2", "R3"] }

theorem toggles_by_parity_threeSelected :
    threeSelected.mode = .multi ∧
    (threeSelected.selectAll ["R4", "R1", "R5", "R1", "R2", "R4"]).targets =
      ["R3", "R5", "R1"] ∧
    (threeSelected.selectAll ["R1", "R1", "R2", "R4", "R4", "R5"]).targets ~
      ["R3", "R5", "R1"] ∧
    ["R3", "R5"] <+ (threeSelected.selectAll ["R4", "R1", "R5", "R1", "R2", "R4"]).targets ∧
    (threeSelected.select "R4").select "R4" = threeSelected ∧
    ((threeSelected.select "R1").select "R1").targets = ["R2", "R3", "R1"] := by
  have multi : threeSelected.mode = .multi := rfl
  obtain ⟨_, _, perm, _, before, _, absent, present⟩ :=
    toggles_by_parity multi ["R4", "R1", "R5", "R1", "R2", "R4"]
  have shape : (threeSelected.selectAll ["R4", "R1", "R5", "R1", "R2", "R4"]).targets =
      ["R3", "R5", "R1"] := by decide
  have reordered := perm ["R1", "R1", "R2", "R4", "R4", "R5"] (by decide)
  rw [shape] at reordered
  exact ⟨multi, shape, reordered, before "R3" "R5" (by decide) (by decide) (by decide) (by decide),
    absent "R4" (by decide), (present "R1" (by decide)).2⟩

end RobotBlocks.Selection
