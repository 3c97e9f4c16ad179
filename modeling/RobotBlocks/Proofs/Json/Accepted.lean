import Mathlib.Data.Int.Notation
import Mathlib.Data.Nat.Notation
import RobotBlocks.Json.Reader
import RobotBlocks.Proofs.Results

/-!
# What readers take

The tokens that a reader takes close every array and every object that they open, and no others,
also where a value is skipped.  What readers for parts take tells what a reader for the whole takes.
-/

namespace RobotBlocks.Json

/-- How many arrays and objects a token opens; a token that closes one counts against it. -/
def Token.opening : Token → ℤ
  | .arrayOpen | .objectOpen => 1
  | .arrayClose | .objectClose => -1
  | _ => 0

/-- The number of arrays and objects that are open after some tokens. -/
def opened : List Token → ℤ
  | [] => 0
  | token :: rest => token.opening + opened rest

@[simp]
theorem opened_nil : opened [] = 0 := rfl

@[simp]
theorem opened_cons (token : Token) (rest : List Token) :
    opened (token :: rest) = token.opening + opened rest := rfl

@[simp]
theorem opened_append (first second : List Token) :
    opened (first ++ second) = opened first + opened second := by
  induction first with
  | nil => exact (Int.zero_add _).symm
  | cons token rest ih => rw [List.cons_append, opened_cons, opened_cons, ih, Int.add_assoc]

/-- Whatever the reader takes is good, and the tokens of it close what they open. -/
def Takes {ε α : Type} (reader : Reader ε α) (good : α → Prop) : Prop :=
  ∀ tokens value rest, reader tokens = .ok (value, rest) →
    good value ∧ opened tokens = opened rest

theorem Takes.map {ε α β : Type} {reader : Reader ε α} {good : α → Prop} {fine : β → Prop}
    (takes : Takes reader good) {f : α → β} (made : ∀ {value}, good value → fine (f value)) :
    Takes (reader.map f) fine := by
  intro tokens result rest read
  obtain ⟨⟨value, left⟩, found, same⟩ := bind_eq_ok.mp read
  cases same
  obtain ⟨holds, closed⟩ := takes _ _ _ found
  exact ⟨made holds, closed⟩

theorem Takes.filterMap {ε α β : Type} {reader : Reader ε α} {good : α → Prop} {fine : β → Prop}
    (takes : Takes reader good) {f : α → Option β}
    (made : ∀ {value result}, good value → f value = some result → fine result) :
    Takes (reader.filterMap f) fine := by
  intro tokens result rest read
  obtain ⟨⟨value, left⟩, found, chosen⟩ := bind_eq_ok.mp read
  obtain ⟨holds, closed⟩ := takes _ _ _ found
  cases made_value : f value with
  | none =>
      simp only [made_value] at chosen
      cases chosen
  | some kept =>
      simp only [made_value] at chosen
      cases chosen
      exact ⟨made holds made_value, closed⟩

theorem Takes.check {ε α β : Type} {reader : Reader ε α} {good : α → Prop} {fine : β → Prop}
    (takes : Takes reader good) {f : α → Except ε β}
    (made : ∀ {value result}, good value → f value = .ok result → fine result) :
    Takes (reader.check f) fine := by
  intro tokens result rest read
  obtain ⟨⟨value, left⟩, found, checked⟩ := bind_eq_ok.mp read
  obtain ⟨holds, closed⟩ := takes _ _ _ found
  cases passed : f value with
  | error reason =>
      simp only [passed] at checked
      cases checked
  | ok kept =>
      simp only [passed] at checked
      cases checked
      exact ⟨made holds passed, closed⟩

namespace Reader

variable {ε α δ : Type}

theorem takes_refuse (good : α → Prop) : Takes (refuse : Reader ε α) good :=
  fun _ _ _ read => nomatch read

theorem takes_boolean : Takes (boolean : Reader ε Bool) fun _ => True := by
  intro tokens value rest read
  unfold boolean at read
  split at read
  · cases read
    exact ⟨trivial, Int.zero_add _⟩
  · cases read

theorem takes_text : Takes (text : Reader ε String) fun _ => True := by
  intro tokens value rest read
  unfold text at read
  split at read
  · split at read
    · cases read
      exact ⟨trivial, Int.zero_add _⟩
    · cases read
  · cases read

/-- Only finite numbers are taken. -/
theorem takes_real : Takes (real : Reader ε Binary64) fun x => x.isFinite = true := by
  intro tokens value rest read
  unfold real at read
  split at read
  · split at read
    · rename_i numeral left x found
      cases read
      unfold Numeral.toReal? at found
      simp only at found
      split at found
      · rename_i finite
        cases found
        exact ⟨finite, Int.zero_add _⟩
      · cases found
    · cases read
  · cases read

theorem takes_tagged {payload : String → Reader ε α} {good : α → Prop}
    (takes : ∀ name, Takes (payload name) good) : Takes (tagged payload) good := by
  intro tokens value rest read
  unfold tagged at read
  split at read
  · split at read
    · cases read
    · obtain ⟨⟨found, left⟩, inside, closing⟩ := bind_eq_ok.mp read
      obtain ⟨holds, closed⟩ := takes _ _ _ _ inside
      simp only at closing
      split at closing
      · cases closing
        refine ⟨holds, ?_⟩
        simp only [opened_cons, Token.opening] at closed ⊢
        omega
      · cases closing
  · cases read

/-! ## Containers -/

/-- Elements are good, and the bracket after them closes one array more than they open. -/
theorem takes_elements {reader : Reader ε α} {good : α → Prop} (takes : Takes reader good)
    {fuel : ℕ} {tokens rest : List Token} {values : List α}
    (read : elements reader fuel tokens = .ok (values, rest)) :
    (∀ value ∈ values, good value) ∧ opened tokens + 1 = opened rest := by
  induction fuel generalizing tokens values with
  | zero => cases read
  | succ fuel ih =>
      rw [elements] at read
      obtain ⟨⟨first, left⟩, found, follows⟩ := bind_eq_ok.mp read
      obtain ⟨holds, closed⟩ := takes _ _ _ found
      simp only at follows
      split at follows
      · cases follows
        refine ⟨List.forall_mem_singleton.mpr holds, ?_⟩
        simp only [opened_cons, Token.opening] at closed
        omega
      · obtain ⟨⟨others, after⟩, more, same⟩ := bind_eq_ok.mp follows
        cases same
        obtain ⟨othersHold, othersClosed⟩ := ih more
        refine ⟨List.forall_mem_cons.mpr ⟨holds, othersHold⟩, ?_⟩
        simp only [opened_cons, Token.opening] at closed
        omega
      · cases follows

theorem takes_array {reader : Reader ε α} {good : α → Prop} (takes : Takes reader good) :
    Takes (array reader) fun values => ∀ value ∈ values, good value := by
  intro tokens values rest read
  unfold array at read
  split at read
  · cases read
    refine ⟨List.forall_mem_nil _, ?_⟩
    simp only [opened_cons, Token.opening]
    omega
  · obtain ⟨hold, closed⟩ := takes_elements takes read
    refine ⟨hold, ?_⟩
    simp only [opened_cons, Token.opening]
    omega
  · cases read

/-- Members are good, and the brace after them closes one object more than they open. -/
theorem takes_members {reader : Reader ε α} {good : α → Prop} (takes : Takes reader good)
    {fuel : ℕ} {tokens rest : List Token} {pairs : List (String × α)}
    (read : members reader fuel tokens = .ok (pairs, rest)) :
    (∀ pair ∈ pairs, good pair.2) ∧ opened tokens + 1 = opened rest := by
  induction fuel generalizing tokens pairs with
  | zero => cases read
  | succ fuel ih =>
      unfold members at read
      split at read
      · split at read
        · cases read
        · rename_i step _ name _
          cases step
          obtain ⟨⟨first, left⟩, found, follows⟩ := bind_eq_ok.mp read
          obtain ⟨holds, closed⟩ := takes _ _ _ found
          simp only at follows
          split at follows
          · cases follows
            refine ⟨List.forall_mem_singleton.mpr holds, ?_⟩
            simp only [opened_cons, Token.opening] at closed ⊢
            omega
          · obtain ⟨⟨others, after⟩, more, same⟩ := bind_eq_ok.mp follows
            cases same
            obtain ⟨othersHold, othersClosed⟩ := ih more
            refine ⟨List.forall_mem_cons.mpr ⟨holds, othersHold⟩, ?_⟩
            simp only [opened_cons, Token.opening] at closed othersClosed ⊢
            omega
          · cases follows
      · cases read

theorem takes_object {reader : Reader ε α} {good : α → Prop} (takes : Takes reader good) :
    Takes (object reader) fun pairs => ∀ pair ∈ pairs, good pair.2 := by
  intro tokens pairs rest read
  unfold object at read
  split at read
  · cases read
    refine ⟨List.forall_mem_nil _, ?_⟩
    simp only [opened_cons, Token.opening]
    omega
  · obtain ⟨hold, closed⟩ := takes_members takes read
    refine ⟨hold, ?_⟩
    simp only [opened_cons, Token.opening]
    omega
  · cases read

/-! ## Skipping -/

/-- Only before a value may nothing be open. -/
def Inside (stack : List Bracket) (expected : Expected) : Prop :=
  expected = .value ∨ stack ≠ []

/-- A token takes a value that is skipped further, or to its end with nothing open. -/
structure Advances (stack : List Bracket) (token : Token) (outer : List Bracket)
    (next : Option Expected) : Prop where
  count : token.opening + stack.length = outer.length
  last : next = none → outer = []
  further : ∀ expected ∈ next, Inside outer expected

theorem advances_afterValue {stack inner outer : List Bracket} {token : Token}
    {next : Option Expected} (count : token.opening + stack.length = inner.length)
    (after : afterValue inner = (outer, next)) : Advances stack token outer next := by
  unfold afterValue at after
  cases after
  cases inner with
  | nil => exact ⟨count, fun _ => rfl, fun expected mem => nomatch mem⟩
  | cons bracket inner => exact ⟨count, nofun, fun expected _ => .inr (List.cons_ne_nil _ _)⟩

theorem length_closed (bracket : Bracket) (inner : List Bracket) :
    -1 + ((bracket :: inner).length : ℤ) = inner.length := by
  rw [List.length_cons]
  omega

/-- A step of skipping opens and closes as its token says. -/
theorem advances_skipStep {stack outer : List Bracket} {expected : Expected} {token : Token}
    {next : Option Expected} (inside : Inside stack expected)
    (step : skipStep stack expected token = some (outer, next)) :
    Advances stack token outer next := by
  unfold skipStep at step
  split at step
  -- A value without structure, a container that starts, and one that ends with nothing in it.
  case h_1 | h_2 | h_3 | h_4 | h_5 | h_6 | h_7 | h_8 =>
    exact advances_afterValue (Int.zero_add _) (Option.some.inj step)
  case h_9 | h_10 | h_11 | h_12 =>
    cases step
    refine ⟨?_, nofun, fun expected mem => .inr (List.cons_ne_nil _ _)⟩
    simp only [Token.opening, List.length_cons]
    omega
  case h_13 | h_14 =>
    obtain _ | ⟨bracket, inner⟩ := stack
    · exact absurd inside (by rintro (atValue | isOpen) <;> contradiction)
    · exact advances_afterValue (length_closed bracket inner) (Option.some.inj step)
  -- The name of a member, the colon after it, and what may follow a value in a container.
  case h_15 | h_16 =>
    cases step
    have isOpen : stack ≠ [] := inside.resolve_left nofun
    exact ⟨Int.zero_add _, nofun, fun expected mem => .inr isOpen⟩
  case h_17 =>
    cases step
    refine ⟨Int.zero_add _, nofun, ?_⟩
    rintro _ ⟨⟩
    exact .inl rfl
  case h_18 =>
    split at step
    · cases step
      exact ⟨Int.zero_add _, nofun, fun expected mem => .inr (List.cons_ne_nil _ _)⟩
    · cases step
      exact ⟨Int.zero_add _, nofun, fun expected mem => .inr (List.cons_ne_nil _ _)⟩
    · exact advances_afterValue (length_closed _ _) (Option.some.inj step)
    · exact advances_afterValue (length_closed _ _) (Option.some.inj step)
    · cases step
  case h_19 => cases step

/-- Skipping closes what is open, and all that the skipped tokens open. -/
theorem takes_skipFrom {tokens rest : List Token} {stack : List Bracket} {expected : Expected}
    (inside : Inside stack expected)
    (read : skipFrom (ε := ε) stack expected tokens = .ok ((), rest)) :
    opened tokens + stack.length = opened rest := by
  induction tokens generalizing stack expected with
  | nil => cases read
  | cons token tokens ih =>
      rw [skipFrom] at read
      split at read
      · cases read
      · rename_i outer taken
        cases read
        have advances := advances_skipStep inside taken
        rw [opened_cons, Int.add_right_comm, advances.count, advances.last rfl]
        exact Int.zero_add _
      · rename_i outer next taken
        have advances := advances_skipStep inside taken
        rw [opened_cons, Int.add_right_comm, advances.count, Int.add_comm]
        exact ih (advances.further next rfl) read

theorem takes_skip : Takes (skip : Reader ε Unit) fun _ => True := by
  intro tokens _ rest read
  have closed := takes_skipFrom (.inl rfl) read
  exact ⟨trivial, (Int.add_zero _).symm.trans closed⟩

/-! ## Records -/

/-- Whatever the slot adds to a good draft gives a good draft. -/
def Slot.Takes (slot : Slot ε δ) (good : δ → Prop) : Prop :=
  ∀ draft, good draft → Json.Takes (slot.fill draft) good

theorem takes_slot {name : String} {reader : Reader ε α} {get : δ → Option α} {set : δ → α → δ}
    {fine : α → Prop} {good : δ → Prop} (takes : Takes reader fine)
    (made : ∀ {draft value}, good draft → fine value → good (set draft value)) :
    (slot name reader get set).Takes good :=
  fun _ holds => takes.map (made holds)

theorem takes_member {slots : List (Slot ε δ)} {good : δ → Prop}
    (takes : ∀ slot ∈ slots, slot.Takes good) (name : String) {draft : δ} (holds : good draft) :
    Takes (member slots name draft) good := by
  unfold member
  split
  · rename_i slot found
    split
    · exact takes_refuse good
    · exact takes slot (List.mem_of_find?_eq_some found) draft holds
  · exact takes_skip.map fun _ => holds

/-- Members of a record leave a good draft good, and the brace after them closes the record. -/
theorem takes_recordMembers {slots : List (Slot ε δ)} {good : δ → Prop}
    (takes : ∀ slot ∈ slots, slot.Takes good) {fuel : ℕ} {tokens rest : List Token}
    {draft result : δ} (holds : good draft)
    (read : recordMembers slots fuel draft tokens = .ok (result, rest)) :
    good result ∧ opened tokens + 1 = opened rest := by
  induction fuel generalizing tokens draft with
  | zero => cases read
  | succ fuel ih =>
      unfold recordMembers at read
      split at read
      · split at read
        · cases read
        · rename_i step _ name _
          cases step
          obtain ⟨⟨next, left⟩, found, follows⟩ := bind_eq_ok.mp read
          obtain ⟨nextHolds, closed⟩ := takes_member takes name holds _ _ _ found
          simp only at follows
          split at follows
          · cases follows
            refine ⟨nextHolds, ?_⟩
            simp only [opened_cons, Token.opening] at closed ⊢
            omega
          · obtain ⟨resultHolds, restClosed⟩ := ih nextHolds follows
            refine ⟨resultHolds, ?_⟩
            simp only [opened_cons, Token.opening] at closed restClosed ⊢
            omega
          · cases follows
      · cases read

/-- Fields in their order leave a good draft good, and the bracket after them closes the record. -/
theorem takes_positionsAfter {slots : List (Slot ε δ)} {good : δ → Prop}
    (takes : ∀ slot ∈ slots, slot.Takes good) {tokens rest : List Token} {draft result : δ}
    (holds : good draft) (read : positionsAfter slots draft tokens = .ok (result, rest)) :
    good result ∧ opened tokens + 1 = opened rest := by
  induction slots generalizing tokens draft with
  | nil =>
      unfold positionsAfter at read
      split at read
      · cases read
        refine ⟨holds, ?_⟩
        simp only [opened_cons, Token.opening]
        omega
      · cases ‹[] = _›
      · cases read
  | cons slot slots ih =>
      obtain ⟨here, later⟩ := List.forall_mem_cons.mp takes
      unfold positionsAfter at read
      split at read
      · cases read
        refine ⟨holds, ?_⟩
        simp only [opened_cons, Token.opening]
        omega
      · rename_i same
        cases same
        obtain ⟨⟨next, left⟩, found, follows⟩ := bind_eq_ok.mp read
        obtain ⟨nextHolds, closed⟩ := here _ holds _ _ _ found
        obtain ⟨resultHolds, restClosed⟩ := ih later nextHolds follows
        refine ⟨resultHolds, ?_⟩
        simp only [opened_cons, Token.opening]
        omega
      · cases read

/-- A record that is read into a good draft gives a good draft. -/
theorem takes_record {slots : List (Slot ε δ)} {good : δ → Prop}
    (takes : ∀ slot ∈ slots, slot.Takes good) {draft : δ} (holds : good draft) :
    Takes (record slots draft) good := by
  intro tokens result rest read
  unfold record at read
  split at read
  · cases read
    exact ⟨holds, by simp only [opened_cons, Token.opening]; omega⟩
  · obtain ⟨resultHolds, closed⟩ := takes_recordMembers takes holds read
    exact ⟨resultHolds, by simp only [opened_cons, Token.opening]; omega⟩
  · cases read
    exact ⟨holds, by simp only [opened_cons, Token.opening]; omega⟩
  · split at read
    · rename_i slot slots
      obtain ⟨here, later⟩ := List.forall_mem_cons.mp takes
      obtain ⟨⟨next, left⟩, found, follows⟩ := bind_eq_ok.mp read
      obtain ⟨nextHolds, closed⟩ := here _ holds _ _ _ found
      obtain ⟨resultHolds, restClosed⟩ := takes_positionsAfter later nextHolds follows
      exact ⟨resultHolds, by simp only [opened_cons, Token.opening]; omega⟩
    · cases read
  · cases read

/-! ## Whole documents -/

/-- The bytes of a document that is read hold a good value, and close all that they open. -/
theorem takes_run {reader : Reader ε α} {good : α → Prop} (takes : Takes reader good)
    {bytes : List UInt8} {value : α} (read : reader.run bytes = .ok value) :
    good value ∧ opened (tokens bytes) = 0 := by
  obtain ⟨⟨found, rest⟩, taken, alone⟩ := bind_eq_ok.mp read
  obtain ⟨holds, closed⟩ := takes _ _ _ taken
  simp only at alone
  split at alone
  · rename_i nothing
    cases alone
    rw [List.isEmpty_iff.mp nothing] at closed
    exact ⟨holds, closed⟩
  · cases alone

end Reader

end RobotBlocks.Json
