/-!
# Results

A computation in several steps gives a value only when each of its steps does.
-/

namespace RobotBlocks

theorem bind_eq_ok {ε α β : Type} {first : Except ε α} {next : α → Except ε β} {result : β} :
    (first >>= next) = .ok result ↔ ∃ value, first = .ok value ∧ next value = .ok result := by
  cases first with
  | error problem =>
      constructor
      · rintro ⟨⟩
      · rintro ⟨value, ⟨⟩, _⟩
  | ok value =>
      constructor
      · intro found
        exact ⟨value, rfl, found⟩
      · rintro ⟨other, ⟨⟩, found⟩
        exact found

theorem bind_eq_error {ε α β : Type} {first : Except ε α} {next : α → Except ε β} {problem : ε} :
    (first >>= next) = .error problem ↔
      first = .error problem ∨ ∃ value, first = .ok value ∧ next value = .error problem := by
  cases first with
  | error other =>
      constructor
      · rintro ⟨⟩
        exact .inl rfl
      · rintro (⟨⟨⟩⟩ | ⟨value, ⟨⟩, _⟩)
        rfl
  | ok value =>
      constructor
      · intro failed
        exact .inr ⟨value, rfl, failed⟩
      · rintro (⟨⟨⟩⟩ | ⟨other, ⟨⟩, failed⟩)
        exact failed

/-- A step that is followed by no other that can fail. -/
theorem bind_return_eq_error {ε α β : Type} {first : Except ε α} {make : α → β} {problem : ε} :
    (first >>= fun value => .ok (make value)) = .error problem ↔ first = .error problem := by
  rw [bind_eq_error]
  constructor
  · rintro (failed | ⟨value, _, ⟨⟩⟩)
    exact failed
  · exact .inl

theorem map_eq_ok {ε α β : Type} {make : α → β} {first : Except ε α} {result : β} :
    first.map make = .ok result ↔ ∃ value, first = .ok value ∧ make value = result := by
  cases first <;> simp [Except.map]

/-- What is wrong with a computation that gives no value. -/
def problem? {ε α : Type} : Except ε α → Option ε
  | .ok _ => none
  | .error problem => some problem

theorem problem?_eq_none {ε α : Type} {result : Except ε α} :
    problem? result = none ↔ ∃ value, result = .ok value := by
  cases result <;> simp [problem?]

theorem problem?_eq_some {ε α : Type} {result : Except ε α} {problem : ε} :
    problem? result = some problem ↔ result = .error problem := by
  cases result <;> simp [problem?]

/-- Of two steps whose problems do not depend on each other the first problem counts. -/
theorem problem?_bind {ε α β : Type} {first : Except ε α} {next : α → Except ε β}
    {later : Option ε} (same : ∀ value, problem? (next value) = later) :
    problem? (first >>= next) = (problem? first).or later := by
  cases first with
  | error problem => rfl
  | ok value => exact (same value).trans (Option.none_or).symm

theorem problem?_bind_ok {ε α β : Type} {first : Except ε α} {next : α → Except ε β}
    (passes : ∀ value, problem? (next value) = none) :
    problem? (first >>= next) = problem? first :=
  (problem?_bind passes).trans Option.or_none

end RobotBlocks
