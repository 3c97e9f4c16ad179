import RobotBlocks.Proofs.Robots.Tally

/-!
# Histories of selections

A selection comes about by a history of operations, between which the selected robots are sent
actions.  Several robots are selected, and sent to, only while multi mode is granted: until the
first grant, and from every return to single mode to the next grant, there is at most one.
-/

namespace RobotBlocks

namespace Selection

/-! ## Operations -/

inductive Operation where
  | select (serial : String)
  | setMode (mode : SelectionMode) (entitlement : Entitlement)
  | clear
  | retainKnown (known : List String)

def Operation.perform (selection : Selection) : Operation → Selection
  | .select serial => selection.select serial
  | .setMode mode entitlement => (selection.setMode mode entitlement).2
  | .clear => selection.clear
  | .retainKnown known => selection.retainKnown known

/-- The selection after operations on a new one, the first operation first. -/
def after (operations : List Operation) : Selection :=
  operations.foldl Operation.perform {}

theorem after_concat (operations : List Operation) (operation : Operation) :
    after (operations ++ [operation]) = operation.perform (after operations) :=
  List.foldl_append

theorem mode_select (selection : Selection) (serial : String) :
    (selection.select serial).mode = selection.mode := by
  unfold select
  split
  · rfl
  · split <;> rfl

theorem targets_select_single {selection : Selection} (single : selection.mode = .single)
    (serial : String) : (selection.select serial).targets = [serial] := by
  unfold select
  split
  · rfl
  · rename_i multi
    cases single.symm.trans multi

/-- In single mode a request for multi mode is refused if it is not granted. -/
theorem setMode_denied {selection : Selection} (single : selection.mode = .single)
    (reason : String) :
    selection.setMode .multi (.error reason) = (.error (.multiDenied reason), selection) := by
  simp only [setMode, single]

/-- A mode is refused only if it is not granted, and then nothing is changed. -/
theorem setMode_refused {selection : Selection} {mode : SelectionMode}
    {entitlement : Entitlement} {error : SelectionError}
    (refused : (selection.setMode mode entitlement).1 = .error error) :
    (selection.setMode mode entitlement).2 = selection ∧
      ∃ reason, entitlement = .error reason ∧ error = .multiDenied reason := by
  cases mode with
  | single => cases refused
  | multi =>
      cases current : selection.mode with
      | multi => simp [setMode, current] at refused
      | single =>
          cases entitlement with
          | ok granted => simp [setMode, current] at refused
          | error reason =>
              rw [setMode_denied current] at refused ⊢
              cases refused
              exact ⟨rfl, reason, rfl, rfl⟩

/-! ## Grants -/

/-- Every request for multi mode that was granted was followed by a return to single mode. -/
def Ungranted (operations : List Operation) : Prop :=
  ∀ before later, operations = before ++ .setMode .multi (.ok ()) :: later →
    ∃ entitlement, .setMode .single entitlement ∈ later

theorem ungranted_nil : Ungranted [] := by
  intro before later split
  simp at split

theorem ungranted_concat {operations : List Operation} {operation : Operation} :
    Ungranted (operations ++ [operation]) ↔
      (∃ entitlement, operation = .setMode .single entitlement) ∨
        operation ≠ .setMode .multi (.ok ()) ∧ Ungranted operations := by
  constructor
  · intro ungranted
    by_cases returns : ∃ entitlement, operation = .setMode .single entitlement
    · exact .inl returns
    · right
      constructor
      · rintro rfl
        obtain ⟨entitlement, mem⟩ := ungranted operations [] rfl
        cases mem
      · rintro before later rfl
        obtain ⟨entitlement, mem⟩ := ungranted before (later ++ [operation]) (by simp)
        rcases List.mem_append.mp mem with earlier | last
        · exact ⟨entitlement, earlier⟩
        · exact absurd ⟨entitlement, (List.mem_singleton.mp last).symm⟩ returns
  · intro last before later split
    rcases List.eq_nil_or_concat later with rfl | ⟨more, other, rfl⟩
    · obtain ⟨_, same⟩ := List.append_inj' split rfl
      cases same
      rcases last with ⟨_, same⟩ | ⟨other, _⟩
      · cases same
      · exact absurd rfl other
    · rw [List.concat_eq_append, ← List.cons_append, ← List.append_assoc] at split
      obtain ⟨front, same⟩ := List.append_inj' split rfl
      cases same
      rcases last with ⟨entitlement, rfl⟩ | ⟨_, ungranted⟩
      · exact ⟨entitlement, by simp⟩
      · obtain ⟨entitlement, mem⟩ := ungranted before more front
        exact ⟨entitlement, by simp [mem]⟩

/-- Only the requests for a mode that are not refused change the mode. -/
theorem mode_perform (selection : Selection) (operation : Operation) :
    (operation.perform selection).mode = .single ↔
      (∃ entitlement, operation = .setMode .single entitlement) ∨
        operation ≠ .setMode .multi (.ok ()) ∧ selection.mode = .single := by
  cases operation with
  | select serial => simp [Operation.perform, mode_select]
  | setMode mode entitlement =>
      rcases mode with _ | _
      · simp [Operation.perform, setMode]
      · cases current : selection.mode <;> rcases entitlement with reason | ⟨⟨⟩⟩ <;>
          simp [Operation.perform, setMode, current]
  | clear => simp [Operation.perform, clear]
  | retainKnown known => simp [Operation.perform, retainKnown]

/-- The mode is single exactly while multi mode is not granted. -/
theorem mode_after (operations : List Operation) :
    (after operations).mode = .single ↔ Ungranted operations := by
  induction operations using List.reverseRecOn with
  | nil => exact iff_of_true rfl ungranted_nil
  | append_singleton operations operation ih =>
      rw [after_concat, mode_perform, ih, ungranted_concat]

/-! ## The number of selected robots -/

/-- In single mode at most one robot is selected. -/
def Bounded (selection : Selection) : Prop :=
  selection.mode = .single → selection.targets.length ≤ 1

theorem Bounded.perform {selection : Selection} (bounded : selection.Bounded)
    (operation : Operation) : (operation.perform selection).Bounded := by
  intro single
  cases operation with
  | select serial =>
      have before : selection.mode = .single := (mode_select selection serial).symm.trans single
      simp [Operation.perform, targets_select_single before]
  | setMode mode entitlement =>
      cases mode with
      | single =>
          simp only [Operation.perform, setMode, List.length_take]
          omega
      | multi =>
          rcases (mode_perform selection _).mp single with ⟨_, ⟨⟩⟩ | ⟨other, before⟩
          rcases entitlement with reason | ⟨⟨⟩⟩
          · rw [Operation.perform, setMode_denied before]
            exact bounded before
          · exact absurd rfl other
  | clear => simp [Operation.perform, clear]
  | retainKnown known =>
      have before := bounded single
      exact Nat.le_trans (List.length_filter_le _ _) before

theorem bounded_after (operations : List Operation) : (after operations).Bounded := by
  induction operations using List.reverseRecOn with
  | nil => exact fun _ => Nat.zero_le 1
  | append_singleton operations operation ih =>
      rw [after_concat]
      exact ih.perform operation

end Selection

namespace Dispatch

/-! ## Sending between operations -/

/-- A selection, and the dispatcher that sends to the selected robots. -/
structure Panel (σ : Type) where
  selection : Selection
  state : State σ

namespace Panel

variable {σ : Type}

inductive Operation (σ : Type) where
  | change (operation : Selection.Operation)
  | send (schedule : Schedule) (transport : Transport σ) (code : String) (kind : Kind)
      (snapshot : Snapshot)

def request (panel : Panel σ) (code : String) (kind : Kind) (snapshot : Snapshot) : Request :=
  { code, kind, selection := panel.selection, snapshot }

def Operation.perform (panel : Panel σ) : Operation σ → Panel σ
  | .change operation => { panel with selection := operation.perform panel.selection }
  | .send schedule transport code kind snapshot =>
      let request := panel.request code kind snapshot
      { panel with state := (dispatchOn schedule transport request panel.state).2 }

def Operation.change? : Operation σ → Option Selection.Operation
  | .change operation => some operation
  | .send .. => none

def after (operations : List (Operation σ)) (world : σ) : Panel σ :=
  operations.foldl Operation.perform ⟨{}, {}, world⟩

def changes (operations : List (Operation σ)) : List Selection.Operation :=
  operations.filterMap Operation.change?

theorem after_concat (operations : List (Operation σ)) (operation : Operation σ) (world : σ) :
    after (operations ++ [operation]) world = operation.perform (after operations world) :=
  List.foldl_append

/-- Sending does not change what is selected. -/
theorem selection_after (operations : List (Operation σ)) (world : σ) :
    (after operations world).selection = Selection.after (changes operations) := by
  induction operations using List.reverseRecOn with
  | nil => rfl
  | append_singleton operations operation ih =>
      rw [after_concat, changes, List.filterMap_append]
      cases operation with
      | change operation =>
          change operation.perform _ = Selection.after (changes operations ++ [operation])
          rw [Selection.after_concat, ih]
      | send schedule transport code kind snapshot =>
          change _ = Selection.after (changes operations ++ [])
          rw [List.append_nil]
          exact ih

theorem after_free (operations : List (Operation σ)) (world : σ) :
    (after operations world).state.dispatcher.sending = false := by
  induction operations using List.reverseRecOn with
  | nil => rfl
  | append_singleton operations operation ih =>
      rw [after_concat]
      cases operation with
      | change operation => exact ih
      | send schedule transport code kind snapshot =>
          exact dispatchOn_released schedule transport ih _ _

end Panel

/--
Multi mode has been granted, and not been left since, exactly when the mode is not single.
Otherwise no more than one robot is selected, and no more than one is sent to, whatever is sent,
and a request for multi mode that is not granted is refused.  A refusal says why, and nothing is
changed by it.
-/
theorem single_until_granted {σ : Type} (operations : List (Panel.Operation σ)) (world : σ) :
    let panel := Panel.after operations world
    let selection := panel.selection
    (Selection.Ungranted (Panel.changes operations) ↔ selection.mode = .single) ∧
    (Selection.Ungranted (Panel.changes operations) →
      selection.targets.length ≤ 1 ∧
      ∀ schedule transport code kind snapshot,
        (sendsOf schedule transport (panel.request code kind snapshot) panel.state).length ≤ 1) ∧
    (Selection.Ungranted (Panel.changes operations) → ∀ reason,
      selection.setMode .multi (.error reason) = (.error (.multiDenied reason), selection)) ∧
    ∀ entitlement error, (selection.setMode .multi entitlement).1 = .error error →
      (selection.setMode .multi entitlement).2 = selection ∧
        ∃ reason, entitlement = .error reason ∧ error = .multiDenied reason := by
  intro panel selection
  have same : selection = Selection.after (Panel.changes operations) :=
    Panel.selection_after operations world
  have mode : Selection.Ungranted (Panel.changes operations) ↔ selection.mode = .single := by
    rw [same, Selection.mode_after]
  refine ⟨mode, ?_, fun ungranted => Selection.setMode_denied (mode.mp ungranted),
    fun _ _ => Selection.setMode_refused⟩
  intro ungranted
  have bound : selection.targets.length ≤ 1 := by
    have bounded := Selection.bounded_after (Panel.changes operations)
    rw [← same] at bounded
    exact bounded (mode.mp ungranted)
  refine ⟨bound, ?_⟩
  intro schedule transport code kind snapshot
  rw [length_sendsOf schedule transport _ (Panel.after_free operations world)]
  exact Nat.le_trans (List.length_filter_le _ _) bound

/-- Two robots are selected and sent to in multi mode, which is left and then asked for in vain. -/
def backToSingle : List (Panel.Operation (List String)) := [
  .change (.select "R1"),
  .change (.setMode .multi (.ok ())),
  .change (.select "R3"),
  .send .backwards restless "wave" .action waveAtFour.snapshot,
  .change (.setMode .single (.error "expired")),
  .change (.setMode .multi (.error "expired"))]

theorem single_until_granted_backToSingle :
    let panel := Panel.after backToSingle []
    panel.selection.targets = ["R1"] ∧
      (sendsOf .backwards restless (panel.request "bow" .action waveAtFour.snapshot)
        panel.state).length ≤ 1 ∧
      panel.selection.setMode .multi (.error "expired") =
        (.error (.multiDenied "expired"), panel.selection) ∧
      (panel.selection.setMode .multi (.error "expired")).2 = panel.selection := by
  obtain ⟨granted, bounded, denied, refused⟩ := single_until_granted backToSingle []
  have single := granted.mpr rfl
  have denial := denied single "expired"
  refine ⟨rfl, (bounded single).2 .backwards restless "bow" .action waveAtFour.snapshot, denial, ?_⟩
  exact (refused (.error "expired") (.multiDenied "expired") (congrArg Prod.fst denial)).1

end Dispatch

end RobotBlocks
