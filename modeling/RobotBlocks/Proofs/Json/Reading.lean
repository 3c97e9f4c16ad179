import RobotBlocks.Json.Reader
import RobotBlocks.Proofs.Json.Printed
import RobotBlocks.Proofs.Results

/-!
# Reading the tokens of values

A reader decides a value when it takes the tokens of the value, or refuses them, whatever comes
after them.  What readers for parts decide tells what a reader for the whole decides.
-/

namespace RobotBlocks.Json

/-- The result of a reader that gives what was found and leaves the rest. -/
def answer {ε α : Type} (found : Option α) (rest : List Token) :
    Except (Fault ε) (α × List Token) :=
  match found with
  | some value => .ok (value, rest)
  | none => .error .malformed

/-- The reader finds a value, or nothing, in a document value, whatever comes after it. -/
def Decides {ε α : Type} (reader : Reader ε α) (value : Value) (found : Option α) : Prop :=
  ∀ rest, reader (value.tokens ++ rest) = answer found rest

theorem Decides.map {ε α β : Type} {reader : Reader ε α} {value : Value}
    {found : Option α} (decides : Decides reader value found) (f : α → β) :
    Decides (reader.map f) value (found.map f) := by
  intro rest
  unfold Reader.map
  rw [decides rest]
  cases found <;> rfl

theorem Decides.filterMap {ε α β : Type} {reader : Reader ε α} {value : Value}
    {found : Option α} (decides : Decides reader value found) (f : α → Option β) :
    Decides (reader.filterMap f) value (found.bind f) := by
  intro rest
  unfold Reader.filterMap
  rw [decides rest]
  cases found with
  | none => rfl
  | some result =>
      change (match f result with | some result => _ | none => _) = answer (f result) rest
      cases f result <;> rfl

theorem Decides.check {ε α β : Type} {reader : Reader ε α} {value : Value} {found : α}
    (decides : Decides reader value (some found)) {f : α → Except ε β} {result : β}
    (passed : f found = .ok result) : Decides (reader.check f) value (some result) := by
  intro rest
  refine bind_eq_ok.mpr ⟨(found, rest), decides rest, ?_⟩
  simp only [passed]
  rfl

namespace Reader

variable {ε α δ : Type}

theorem decides_refuse (value : Value) : Decides (refuse : Reader ε α) value none :=
  fun _ => rfl

theorem decides_boolean (flag : Bool) :
    Decides (boolean : Reader ε Bool) (.boolean flag) (some flag) :=
  fun _ => rfl

theorem decides_text (content : String) :
    Decides (text : Reader ε String) (.text content) (some content) := by
  intro rest
  have tokens : (Value.text content).tokens ++ rest = .text (textPieces content) :: rest := rfl
  rw [tokens, text, textOf_textPieces]
  rfl

/-- A number is read back if it is finite, and refused otherwise. -/
theorem decides_real (x : Binary64) :
    Decides (real : Reader ε Binary64) (.number (.real x))
      (if x.isFinite then some x else none) := by
  intro rest
  have tokens : (Value.number (.real x)).tokens ++ rest = numberToken (.real x) :: rest := rfl
  rw [tokens]
  cases finite : x.isFinite with
  | true =>
      obtain ⟨numeral, token, _, value⟩ := toReal_numberToken finite
      rw [token, real, value]
      rfl
  | false =>
      rw [numberToken_infinite finite]
      rfl

theorem decides_tagged {payload : String → Reader ε α} {name : String} {value : Value}
    {found : Option α} (decides : Decides (payload name) value found) :
    Decides (tagged payload) (.object [(name, value)]) found := by
  intro rest
  have split : (Value.object [(name, value)]).tokens ++ rest =
      .objectOpen :: .text (textPieces name) :: .colon ::
        (value.tokens ++ .objectClose :: rest) := by
    simp only [Value.tokens, Value.memberTokens, List.cons_append, List.append_assoc,
      List.nil_append]
  rw [split, tagged, textOf_textPieces]
  simp only
  rw [decides]
  cases found <;> rfl

/-! ## Containers -/

/-- The tokens of a value do not start with what closes a container. -/
theorem tokens_head (value : Value) :
    ∃ first more, value.tokens = first :: more ∧ first ≠ .arrayClose ∧ first ≠ .objectClose := by
  cases value with
  | null => exact ⟨.null, [], rfl, nofun, nofun⟩
  | boolean flag => exact ⟨.boolean flag, [], rfl, nofun, nofun⟩
  | number number =>
      refine ⟨numberToken number, [], rfl, ?_⟩
      rcases (numberToken_cases number).2 with token | ⟨numeral, token⟩ <;>
        exact token ▸ ⟨nofun, nofun⟩
  | text content => exact ⟨.text (textPieces content), [], rfl, nofun, nofun⟩
  | array elements => exact ⟨.arrayOpen, _, rfl, nofun, nofun⟩
  | object members => exact ⟨.objectOpen, _, rfl, nofun, nofun⟩

theorem mapM_some {α : Type} (items : List α) : items.mapM some = some items := by
  simpa using @List.mapM_pure Option α α _ _ items id

section Elements

variable {ι : Type} {reader : Reader ε α} {json : ι → Value} {found : ι → Option α}

theorem elements_last {item : ι} (decides : Decides reader (json item) (found item))
    (fuel : ℕ) (rest : List Token) :
    elements reader (fuel + 1) ((json item).tokens ++ .arrayClose :: rest) =
      answer ((found item).map fun first => [first]) rest := by
  rw [elements, decides]
  cases found item <;> rfl

theorem elements_more {item : ι} (decides : Decides reader (json item) (found item))
    (fuel : ℕ) (rest : List Token) :
    elements reader (fuel + 1) ((json item).tokens ++ .comma :: rest) =
      match found item with
      | none => .error .malformed
      | some first => (elements reader fuel rest).map fun more => (first :: more.1, more.2) := by
  rw [elements, decides]
  cases found item with
  | none => rfl
  | some first =>
      change (elements reader fuel rest >>= _) = _
      cases elements reader fuel rest <;> rfl

/-- Elements are found one after the other, if there is fuel for all of them. -/
theorem elements_spec {items : List ι}
    (decides : ∀ item ∈ items, Decides reader (json item) (found item)) (nonempty : items ≠ [])
    {fuel : ℕ} (enough : items.length ≤ fuel) (rest : List Token) :
    elements reader fuel (Value.elementTokens (items.map json) ++ .arrayClose :: rest) =
      answer (items.mapM found) rest := by
  induction items generalizing fuel with
  | nil => exact absurd rfl nonempty
  | cons item items ih =>
      have here := decides item List.mem_cons_self
      have others : ∀ other ∈ items, Decides reader (json other) (found other) :=
        fun other mem => decides other (List.mem_cons_of_mem _ mem)
      obtain ⟨fuel, rfl⟩ := Nat.exists_eq_succ_of_ne_zero
        (Nat.ne_of_gt (Nat.lt_of_lt_of_le (Nat.succ_pos _) enough))
      rw [List.mapM_cons]
      cases items with
      | nil =>
          refine (elements_last here fuel rest).trans ?_
          cases found item <;> rfl
      | cons next items =>
          have later := ih others (List.cons_ne_nil _ _) (Nat.le_of_succ_le_succ enough)
          have split : Value.elementTokens ((item :: next :: items).map json) ++
              .arrayClose :: rest = (json item).tokens ++ .comma ::
                (Value.elementTokens ((next :: items).map json) ++ .arrayClose :: rest) :=
            List.append_assoc _ _ _
          rw [split, elements_more here, later]
          cases found item with
          | none => rfl
          | some first =>
              cases (next :: items).mapM found <;> rfl

theorem length_elementTokens (values : List Value) :
    values.length ≤ (Value.elementTokens values).length := by
  induction values with
  | nil => exact Nat.zero_le _
  | cons value values ih =>
      obtain ⟨first, more, head, _⟩ := tokens_head value
      cases values with
      | nil =>
          rw [Value.elementTokens, head]
          exact Nat.succ_le_succ (Nat.zero_le _)
      | cons next values =>
          have split : Value.elementTokens (value :: next :: values) =
              value.tokens ++ .comma :: Value.elementTokens (next :: values) := rfl
          simp only [split, List.length_append, List.length_cons] at ih ⊢
          omega

theorem elementTokens_head {values : List Value} (nonempty : values ≠ []) :
    ∃ first more, Value.elementTokens values = first :: more ∧ first ≠ .arrayClose := by
  obtain ⟨value, values, rfl⟩ := List.exists_cons_of_ne_nil nonempty
  obtain ⟨first, more, head, noClose, _⟩ := tokens_head value
  cases values with
  | nil => exact ⟨first, more, head, noClose⟩
  | cons next values =>
      refine ⟨first, more ++ .comma :: Value.elementTokens (next :: values), ?_, noClose⟩
      rw [← List.cons_append, ← head]
      rfl

theorem array_nonempty {tokens more : List Token} {first : Token} (head : tokens = first :: more)
    (noClose : first ≠ .arrayClose) :
    array reader (.arrayOpen :: tokens) = elements reader tokens.length tokens := by
  rw [head]
  cases first with
  | arrayClose => exact absurd rfl noClose
  | _ => rfl

/-- An array is found when all its elements are. -/
theorem decides_array {items : List ι}
    (decides : ∀ item ∈ items, Decides reader (json item) (found item)) :
    Decides (array reader) (.array (items.map json)) (items.mapM found) := by
  intro rest
  cases items with
  | nil => rfl
  | cons item items =>
      have enough : (item :: items).length ≤
          (Value.elementTokens ((item :: items).map json) ++ .arrayClose :: rest).length := by
        have shorter := length_elementTokens ((item :: items).map json)
        rw [List.length_map] at shorter
        rw [List.length_append]
        omega
      have all := elements_spec decides (List.cons_ne_nil item items) enough rest
      have opened : (Value.array ((item :: items).map json)).tokens ++ rest =
          .arrayOpen ::
            (Value.elementTokens ((item :: items).map json) ++ .arrayClose :: rest) := by
        rw [Value.tokens, List.cons_append, List.append_assoc, List.singleton_append]
      obtain ⟨first, more, head, noClose⟩ :=
        elementTokens_head (List.cons_ne_nil (json item) (items.map json))
      rw [opened, ← all]
      exact array_nonempty (congrArg (· ++ .arrayClose :: rest) head) noClose

end Elements

section Members

variable {ι : Type} {reader : Reader ε α} {name : ι → String} {json : ι → Value}
  {found : ι → Option α}

theorem members_last {item : ι} (decides : Decides reader (json item) (found item))
    (fuel : ℕ) (rest : List Token) :
    members reader (fuel + 1) (.text (textPieces (name item)) :: .colon ::
      ((json item).tokens ++ .objectClose :: rest)) =
        answer ((found item).map fun first => [(name item, first)]) rest := by
  rw [members, textOf_textPieces]
  simp only
  rw [decides]
  cases found item <;> rfl

theorem members_more {item : ι} (decides : Decides reader (json item) (found item))
    (fuel : ℕ) (rest : List Token) :
    members reader (fuel + 1) (.text (textPieces (name item)) :: .colon ::
      ((json item).tokens ++ .comma :: rest)) =
        match found item with
        | none => .error .malformed
        | some first => (members reader fuel rest).map fun more =>
            ((name item, first) :: more.1, more.2) := by
  rw [members, textOf_textPieces]
  simp only
  rw [decides]
  cases found item with
  | none => rfl
  | some first =>
      change (members reader fuel rest >>= _) = _
      cases members reader fuel rest <;> rfl

def foundMember (name : ι → String) (found : ι → Option α) (item : ι) : Option (String × α) :=
  (found item).map fun value => (name item, value)

/-- Members are found one after the other, if there is fuel for all of them. -/
theorem members_spec {items : List ι}
    (decides : ∀ item ∈ items, Decides reader (json item) (found item)) (nonempty : items ≠ [])
    {fuel : ℕ} (enough : items.length ≤ fuel) (rest : List Token) :
    members reader fuel (Value.memberTokens (items.map fun item => (name item, json item)) ++
      .objectClose :: rest) = answer (items.mapM (foundMember name found)) rest := by
  induction items generalizing fuel with
  | nil => exact absurd rfl nonempty
  | cons item items ih =>
      have here := decides item List.mem_cons_self
      have others : ∀ other ∈ items, Decides reader (json other) (found other) :=
        fun other mem => decides other (List.mem_cons_of_mem _ mem)
      obtain ⟨fuel, rfl⟩ := Nat.exists_eq_succ_of_ne_zero
        (Nat.ne_of_gt (Nat.lt_of_lt_of_le (Nat.succ_pos _) enough))
      rw [List.mapM_cons]
      cases items with
      | nil =>
          refine (members_last here fuel rest).trans ?_
          unfold foundMember
          cases found item <;> rfl
      | cons next items =>
          have later := ih others (List.cons_ne_nil _ _) (Nat.le_of_succ_le_succ enough)
          have split : Value.memberTokens ((item :: next :: items).map
              fun item => (name item, json item)) =
                .text (textPieces (name item)) :: .colon :: ((json item).tokens ++ .comma ::
                  Value.memberTokens ((next :: items).map fun item => (name item, json item))) :=
            rfl
          have made : foundMember name found item =
              (found item).map fun value => (name item, value) := rfl
          rw [split, List.cons_append, List.cons_append, List.append_assoc, List.cons_append,
            members_more here, later, made]
          cases found item with
          | none => rfl
          | some first =>
              cases (next :: items).mapM (foundMember name found) <;> rfl

theorem length_memberTokens (pairs : List (String × Value)) :
    pairs.length ≤ (Value.memberTokens pairs).length := by
  induction pairs with
  | nil => exact Nat.zero_le _
  | cons pair pairs ih =>
      obtain ⟨name, value⟩ := pair
      cases pairs with
      | nil =>
          simp only [Value.memberTokens, List.length_cons, List.length_nil]
          omega
      | cons next pairs =>
          have split : Value.memberTokens ((name, value) :: next :: pairs) =
              .text (textPieces name) :: .colon ::
                (value.tokens ++ .comma :: Value.memberTokens (next :: pairs)) := rfl
          simp only [split, List.length_append, List.length_cons] at ih ⊢
          omega

theorem memberTokens_head (name : String) (value : Value) (pairs : List (String × Value)) :
    ∃ more, Value.memberTokens ((name, value) :: pairs) =
      .text (textPieces name) :: .colon :: more := by
  cases pairs with
  | nil => exact ⟨_, rfl⟩
  | cons next pairs => exact ⟨_, rfl⟩

/-- An object is found when all its members are. -/
theorem decides_object {items : List ι}
    (decides : ∀ item ∈ items, Decides reader (json item) (found item)) :
    Decides (object reader) (.object (items.map fun item => (name item, json item)))
      (items.mapM (foundMember name found)) := by
  intro rest
  cases items with
  | nil => rfl
  | cons item items =>
      have enough : (item :: items).length ≤ (Value.memberTokens ((item :: items).map
          fun item => (name item, json item)) ++ .objectClose :: rest).length := by
        have shorter := length_memberTokens ((item :: items).map
          fun item => (name item, json item))
        rw [List.length_map] at shorter
        rw [List.length_append]
        omega
      have all := @members_spec _ _ _ _ name _ _ _ decides (List.cons_ne_nil item items) _
        enough rest
      obtain ⟨more, head⟩ := memberTokens_head (name item) (json item)
        (items.map fun item => (name item, json item))
      rw [← all, Value.tokens, List.cons_append, List.append_assoc, List.singleton_append,
        List.map_cons, head]
      rfl

end Members

/-! ## Records -/

section Records

variable {slots : List (Slot ε δ)}

/-- Members fill a draft one after the other, or one of them is refused. -/
inductive Fills (slots : List (Slot ε δ)) : δ → List (String × Value) → Option δ → Prop where
  | done (draft : δ) : Fills slots draft [] (some draft)
  | refused {draft : δ} {name : String} {value : Value} {others : List (String × Value)}
      (decides : Decides (member slots name draft) value none) :
      Fills slots draft ((name, value) :: others) none
  | next {draft filled : δ} {name : String} {value : Value} {others : List (String × Value)}
      {found : Option δ} (decides : Decides (member slots name draft) value (some filled))
      (fills : Fills slots filled others found) :
      Fills slots draft ((name, value) :: others) found

/-- A member for an empty slot is read by the reader of the slot. -/
theorem decides_member {slot : Slot ε δ} {name : String} {draft : δ} {value : Value}
    {found : Option δ} (has : slots.find? (fun slot => slot.name == name) = some slot)
    (empty : slot.filled draft = false) (decides : Decides (slot.fill draft) value found) :
    Decides (member slots name draft) value found := by
  unfold member
  rw [has]
  simp only [empty]
  exact decides

/-- A member for an empty slot fills it with what its reader finds. -/
theorem Fills.slot {name : String} {reader : Reader ε α} {draft : δ} {value : Value}
    {found : Option α} {others : List (String × Value)} {next : α → Option δ}
    (get : δ → Option α) (set : δ → α → δ)
    (has : slots.find? (fun slot => slot.name == name) = some (Reader.slot name reader get set))
    (empty : (get draft).isSome = false) (decides : Decides reader value found)
    (fills : ∀ part, Fills slots (set draft part) others (next part)) :
    Fills slots draft ((name, value) :: others) (found.bind next) := by
  have member := decides_member has empty (decides.map (set draft))
  cases found with
  | none => exact .refused member
  | some part => exact .next member (fills part)

theorem recordMembers_close {name : String} {draft : δ} {value : Value} {found : Option δ}
    (decides : Decides (member slots name draft) value found) (fuel : ℕ) (rest : List Token) :
    recordMembers slots (fuel + 1) draft (Value.memberTokens [(name, value)] ++
      .objectClose :: rest) = answer found rest := by
  have split : Value.memberTokens [(name, value)] ++ .objectClose :: rest =
      .text (textPieces name) :: .colon :: (value.tokens ++ .objectClose :: rest) := rfl
  rw [split, recordMembers, textOf_textPieces]
  simp only
  rw [decides]
  cases found <;> rfl

theorem recordMembers_comma {name : String} {draft : δ} {value : Value} {found : Option δ}
    (decides : Decides (member slots name draft) value found) (fuel : ℕ)
    (next : String × Value) (others : List (String × Value)) (rest : List Token) :
    recordMembers slots (fuel + 1) draft (Value.memberTokens ((name, value) :: next :: others) ++
      .objectClose :: rest) =
        match found with
        | none => .error .malformed
        | some filled => recordMembers slots fuel filled
            (Value.memberTokens (next :: others) ++ .objectClose :: rest) := by
  have split : Value.memberTokens ((name, value) :: next :: others) =
      .text (textPieces name) :: .colon ::
        (value.tokens ++ .comma :: Value.memberTokens (next :: others)) := rfl
  rw [split, List.cons_append, List.cons_append, List.append_assoc, List.cons_append,
    recordMembers, textOf_textPieces]
  simp only
  rw [decides]
  cases found <;> rfl

theorem recordMembers_spec {draft : δ} {pairs : List (String × Value)} {found : Option δ}
    (fills : Fills slots draft pairs found) (nonempty : pairs ≠ []) {fuel : ℕ}
    (enough : pairs.length ≤ fuel) (rest : List Token) :
    recordMembers slots fuel draft (Value.memberTokens pairs ++ .objectClose :: rest) =
      answer found rest := by
  induction fills generalizing fuel with
  | done draft => exact absurd rfl nonempty
  | @refused draft name value others decides =>
      obtain ⟨fuel, rfl⟩ := Nat.exists_eq_succ_of_ne_zero
        (Nat.ne_of_gt (Nat.lt_of_lt_of_le (Nat.succ_pos _) enough))
      cases others with
      | nil => exact recordMembers_close decides fuel rest
      | cons next others => exact recordMembers_comma decides fuel next others rest
  | @next draft filled name value others found decides fills ih =>
      obtain ⟨fuel, rfl⟩ := Nat.exists_eq_succ_of_ne_zero
        (Nat.ne_of_gt (Nat.lt_of_lt_of_le (Nat.succ_pos _) enough))
      cases others with
      | nil =>
          cases fills
          exact recordMembers_close decides fuel rest
      | cons next others =>
          exact (recordMembers_comma decides fuel next others rest).trans
            (ih (List.cons_ne_nil _ _) (Nat.le_of_succ_le_succ enough))

/-- A record is found when its members fill it. -/
theorem decides_record {draft : δ} {pairs : List (String × Value)} {found : Option δ}
    (fills : Fills slots draft pairs found) :
    Decides (record slots draft) (.object pairs) found := by
  intro rest
  cases pairs with
  | nil =>
      cases fills
      rfl
  | cons pair pairs =>
      obtain ⟨name, value⟩ := pair
      have enough : ((name, value) :: pairs).length ≤
          (Value.memberTokens ((name, value) :: pairs) ++ .objectClose :: rest).length := by
        have shorter := length_memberTokens ((name, value) :: pairs)
        rw [List.length_append]
        omega
      have all := recordMembers_spec fills (List.cons_ne_nil _ _) enough rest
      obtain ⟨more, head⟩ := memberTokens_head name value pairs
      rw [← all, Value.tokens, List.cons_append, List.append_assoc, List.singleton_append, head]
      rfl

end Records

/-! ## Whole documents -/

/-- The tokens of one value give what the reader finds, with nothing left. -/
theorem run_tokens {reader : Reader ε α} {value : Value} {found : Option α}
    (decides : Decides reader value found) {bytes : List UInt8}
    (scanned : tokens bytes = value.tokens) :
    reader.run bytes = found.elim (.error .malformed) .ok := by
  have whole := decides []
  rw [List.append_nil] at whole
  unfold run
  rw [scanned, whole]
  cases found <;> rfl

/-- A printed document gives what its reader finds, and nothing else. -/
theorem run_toPrettyBytes {reader : Reader ε α} {value : Value} {found : Option α}
    (decides : Decides reader value found) :
    reader.run value.toPrettyBytes = found.elim (.error .malformed) .ok :=
  run_tokens decides value.tokens_toPrettyBytes

end Reader

end RobotBlocks.Json
