import RobotBlocks.Proofs.Json.Accepted
import RobotBlocks.Proofs.Json.Reading

/-!
# Values of any form

A value is read back as it is if its numbers are such as a numeral means and it nests no deeper than
the reader goes.
-/

namespace RobotBlocks.Json

/-- A number that some numeral means. -/
def Number.isMeant : Number → Bool
  | .natural value => value < 2 ^ 64
  | .negative magnitude => 0 < magnitude && magnitude ≤ 2 ^ 63
  | .real value => value.isFinite

/-- A number that some numeral means is meant by the numeral it is printed as. -/
theorem toNumber?_numberToken {number : Number} (meant : number.isMeant = true) :
    ∃ numeral, numberToken number = .number numeral ∧ numeral.toNumber? = some number := by
  cases number with
  | natural value =>
      refine ⟨_, (scansAs_digits false value rfl).eq, ?_⟩
      exact if_pos meant
  | negative magnitude =>
      refine ⟨_, (scansAs_digits true magnitude rfl).eq, ?_⟩
      exact if_pos meant
  | real x =>
      obtain ⟨numeral, token, pointed, value⟩ := toReal_numberToken meant
      refine ⟨numeral, token, ?_⟩
      unfold Numeral.toNumber?
      rw [pointed, value]
      rfl

namespace Value

mutual

def isMeant : Value → Bool
  | .number value => value.isMeant
  | .array elements => isMeantElements elements
  | .object members => isMeantMembers members
  | _ => true

def isMeantElements : List Value → Bool
  | [] => true
  | first :: rest => first.isMeant && isMeantElements rest

def isMeantMembers : List (String × Value) → Bool
  | [] => true
  | (_, first) :: rest => first.isMeant && isMeantMembers rest

end

end Value

namespace Reader

variable {ε : Type}

theorem takes_scalar : Takes (scalar : Reader ε Value) fun _ => True := by
  intro tokens found rest read
  unfold scalar at read
  split at read
  · cases read
    exact ⟨trivial, Int.zero_add _⟩
  · cases read
    exact ⟨trivial, Int.zero_add _⟩
  · split at read
    · cases read
      exact ⟨trivial, Int.zero_add _⟩
    · cases read
  · have taken : Takes (text.map Value.text : Reader ε Value) fun _ => True :=
      takes_text.map fun _ => trivial
    exact taken _ _ _ read
  · cases read

/-- A value of any form closes what it opens. -/
theorem takes_value (depth : ℕ) : Takes (value depth : Reader ε Value) fun _ => True := by
  induction depth with
  | zero => exact takes_scalar
  | succ depth ih =>
      have elements : Takes ((array (value depth)).map Value.array : Reader ε Value)
          fun _ => True := (takes_array ih).map fun _ => trivial
      have members : Takes ((object (value depth)).map Value.object : Reader ε Value)
          fun _ => True := (takes_object ih).map fun _ => trivial
      intro tokens found rest read
      unfold value at read
      split at read
      · exact elements _ _ _ read
      · exact members _ _ _ read
      · exact takes_scalar _ _ _ read

/-- Of a value without structure only its token counts, not how deep the reader goes. -/
theorem decides_scalar {found : Value} {token : Token} (single : found.tokens = [token])
    (flat : token.opening = 0) {result : Option Value}
    (decides : Decides (scalar : Reader ε Value) found result) (depth : ℕ) :
    Decides (value depth : Reader ε Value) found result := by
  intro rest
  rw [← decides rest, single]
  cases depth with
  | zero => rfl
  | succ depth =>
      cases token with
      | arrayOpen => cases flat
      | objectOpen => cases flat
      | _ => rfl

theorem decides_number {number : Number} (meant : number.isMeant = true) :
    Decides (scalar : Reader ε Value) (.number number) (some (.number number)) := by
  intro rest
  obtain ⟨numeral, token, means⟩ := toNumber?_numberToken meant
  have tokens : (Value.number number).tokens ++ rest = numberToken number :: rest := rfl
  rw [tokens, token, scalar, means]
  rfl

mutual

/-- A value is read back by every reader that goes as deep as it nests. -/
theorem decides_value : (found : Value) → (depth : ℕ) → found.isMeant = true →
    found.nesting ≤ depth → Decides (value depth : Reader ε Value) found (some found)
  | .null, depth, _, _ => decides_scalar rfl rfl (fun _ => rfl) depth
  | .boolean _, depth, _, _ => decides_scalar rfl rfl (fun _ => rfl) depth
  | .number number, depth, meant, _ => by
      rw [Value.isMeant] at meant
      obtain ⟨numeral, token, _⟩ := toNumber?_numberToken meant
      have flat : (numberToken number).opening = 0 := by
        rw [token]
        rfl
      exact decides_scalar rfl flat (decides_number meant) depth
  | .text content, depth, _, _ =>
      have whole : Decides (scalar : Reader ε Value) (.text content) (some (.text content)) :=
        (decides_text content).map Value.text
      decides_scalar rfl rfl whole depth
  | .array elements, 0, _, shallow => absurd shallow (Nat.not_succ_le_zero _)
  | .object members, 0, _, shallow => absurd shallow (Nat.not_succ_le_zero _)
  | .array elements, depth + 1, meant, shallow => by
      rw [Value.isMeant] at meant
      have each := decides_elements elements depth meant (Nat.le_of_succ_le_succ shallow)
      have all := (@decides_array _ _ _ _ id some elements each).map Value.array
      rw [List.map_id, mapM_some] at all
      exact all
  | .object members, depth + 1, meant, shallow => by
      rw [Value.isMeant] at meant
      have each := decides_memberValues members depth meant (Nat.le_of_succ_le_succ shallow)
      have all := (@decides_object _ _ _ _ Prod.fst Prod.snd (fun member => some member.2) members
        each).map Value.object
      have kept : foundMember Prod.fst (fun member : String × Value => some member.2) = some := rfl
      rw [List.map_id', kept, mapM_some] at all
      exact all

theorem decides_elements : (elements : List Value) → (depth : ℕ) →
    Value.isMeantElements elements = true → Value.nestingElements elements ≤ depth →
    ∀ element ∈ elements, Decides (value depth : Reader ε Value) element (some element)
  | [], _, _, _ => List.forall_mem_nil _
  | first :: rest, depth, meant, shallow => by
      rw [Value.isMeantElements, Bool.and_eq_true] at meant
      rw [Value.nestingElements, Nat.max_le] at shallow
      exact List.forall_mem_cons.mpr ⟨decides_value first depth meant.1 shallow.1,
        decides_elements rest depth meant.2 shallow.2⟩

theorem decides_memberValues : (members : List (String × Value)) → (depth : ℕ) →
    Value.isMeantMembers members = true → Value.nestingMembers members ≤ depth →
    ∀ member ∈ members, Decides (value depth : Reader ε Value) member.2 (some member.2)
  | [], _, _, _ => List.forall_mem_nil _
  | (_, first) :: rest, depth, meant, shallow => by
      rw [Value.isMeantMembers, Bool.and_eq_true] at meant
      rw [Value.nestingMembers, Nat.max_le] at shallow
      exact List.forall_mem_cons.mpr ⟨decides_value first depth meant.1 shallow.1,
        decides_memberValues rest depth meant.2 shallow.2⟩

end

end Reader

end RobotBlocks.Json
