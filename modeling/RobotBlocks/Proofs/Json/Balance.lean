import RobotBlocks.Proofs.Json.Accepted
import RobotBlocks.Proofs.Json.Printed

/-!
# Brackets of printed values

The tokens of a value close all that they open, and never close more than is open; as much of them
is open at once as the value nests.  A printed object that is cut off anywhere before its end leaves
something open, and no reader takes it.
-/

namespace RobotBlocks.Json

open Text (bytesOf bytesOf_append bytesOf_cons_small toList_toUTF8)

/-! ## Fronts of tokens -/

theorem front_append {front first second : List Token} (start : front <+: first ++ second) :
    front <+: first ∨ ∃ more, front = first ++ more ∧ more <+: second := by
  obtain ⟨rest, whole⟩ := start
  rcases List.append_eq_append_iff.mp whole with ⟨more, early, -⟩ | ⟨more, late, same⟩
  · exact .inl ⟨more, early.symm⟩
  · exact .inr ⟨more, late, rest, same.symm⟩

theorem front_single {front : List Token} {token : Token} (start : front <+: [token]) :
    front = [] ∨ front = [token] := by
  rcases List.prefix_cons_iff.mp start with none | ⟨more, rfl, rest⟩
  · exact .inl none
  · exact .inr (congrArg _ (List.prefix_nil.mp rest))

theorem front_enclosed {front inner : List Token} {left right : Token}
    (start : front <+: left :: (inner ++ [right])) :
    front = [] ∨ (∃ more, front = left :: more ∧ more <+: inner) ∨
      front = left :: (inner ++ [right]) := by
  rcases List.prefix_cons_iff.mp start with none | ⟨more, rfl, rest⟩
  · exact .inl none
  · rcases List.prefix_concat_iff.mp rest with rfl | early
    · exact .inr (.inr rfl)
    · exact .inr (.inl ⟨more, rfl, early⟩)

/-! ## Balanced tokens -/

/-- All is closed in the end, and at no place more is closed than was opened. -/
structure Balanced (tokens : List Token) : Prop where
  closed : opened tokens = 0
  front : ∀ {front}, front <+: tokens → 0 ≤ opened front

namespace Balanced

theorem nil : Balanced [] where
  closed := rfl
  front {front} start := by
    rw [List.prefix_nil.mp start]
    rfl

/-- A token that neither opens nor closes anything. -/
theorem plain {token : Token} (flat : token.opening = 0) : Balanced [token] where
  closed := by rw [opened_cons, flat, opened_nil, Int.zero_add]
  front {front} start := by
    rcases front_single start with rfl | rfl
    · exact Int.le_refl 0
    · rw [opened_cons, flat]
      exact Int.le_refl 0

theorem append {first second : List Token} (here : Balanced first) (later : Balanced second) :
    Balanced (first ++ second) where
  closed := by rw [opened_append, here.closed, later.closed, Int.zero_add]
  front {front} start := by
    rcases front_append start with early | ⟨more, rfl, late⟩
    · exact here.front early
    · rw [opened_append, here.closed, Int.zero_add]
      exact later.front late

theorem cons {token : Token} {tokens : List Token} (flat : token.opening = 0)
    (later : Balanced tokens) : Balanced (token :: tokens) :=
  (plain flat).append later

/-- Tokens between a token that opens something and the token that closes it. -/
theorem enclosed {left right : Token} (opens : left.opening = 1) (closes : right.opening = -1)
    {tokens : List Token} (inner : Balanced tokens) :
    Balanced (left :: (tokens ++ [right])) where
  closed := by
    rw [opened_cons, opened_append, inner.closed, opened_cons, opens, closes]
    rfl
  front {front} start := by
    rcases front_enclosed start with rfl | ⟨more, rfl, early⟩ | rfl
    · exact Int.le_refl 0
    · have inside := inner.front early
      rw [opened_cons, opens]
      omega
    · rw [opened_cons, opened_append, inner.closed, opened_cons, opens, closes]
      exact Int.le_refl 0

end Balanced

namespace Value

theorem opening_numberToken (number : Number) : (numberToken number).opening = 0 := by
  rcases (numberToken_cases number).2 with token | ⟨numeral, token⟩
  · rw [token]
    rfl
  · rw [token]
    rfl

mutual

theorem balanced_tokens : ∀ value : Value, Balanced value.tokens
  | .null => .plain rfl
  | .boolean _ => .plain rfl
  | .number value => .plain (opening_numberToken value)
  | .text _ => .plain rfl
  | .array elements => .enclosed rfl rfl (balanced_elementTokens elements)
  | .object members => .enclosed rfl rfl (balanced_memberTokens members)

theorem balanced_elementTokens : ∀ elements : List Value, Balanced (elementTokens elements)
  | [] => .nil
  | [last] => balanced_tokens last
  | first :: next :: others =>
      (balanced_tokens first).append (.cons rfl (balanced_elementTokens (next :: others)))

theorem balanced_memberTokens :
    ∀ members : List (String × Value), Balanced (memberTokens members)
  | [] => .nil
  | [(_, last)] => .cons rfl (.cons rfl (balanced_tokens last))
  | (_, first) :: next :: others =>
      .cons rfl (.cons rfl ((balanced_tokens first).append
        (.cons rfl (balanced_memberTokens (next :: others)))))

end

end Value

/-! ## Nesting -/

/-- At no place of the tokens are more than `depth` arrays and objects open. -/
def Within (depth : ℤ) (tokens : List Token) : Prop :=
  ∀ front, front <+: tokens → opened front ≤ depth

theorem within_nil (depth : ℤ) : Within depth [] ↔ 0 ≤ depth := by
  constructor
  · intro within
    exact within [] (List.prefix_refl [])
  · intro room front start
    rw [List.prefix_nil.mp start]
    exact room

theorem within_append {first : List Token} (closed : opened first = 0) (depth : ℤ)
    (second : List Token) :
    Within depth (first ++ second) ↔ Within depth first ∧ Within depth second := by
  constructor
  · intro within
    constructor
    · intro front start
      exact within front (start.trans (List.prefix_append first second))
    · intro front start
      have whole := within (first ++ front) ((List.prefix_append_right_inj first).mpr start)
      rw [opened_append, closed, Int.zero_add] at whole
      exact whole
  · rintro ⟨here, later⟩ front start
    rcases front_append start with early | ⟨more, rfl, late⟩
    · exact here front early
    · rw [opened_append, closed, Int.zero_add]
      exact later more late

theorem within_plain {token : Token} (flat : token.opening = 0) (depth : ℤ) :
    Within depth [token] ↔ 0 ≤ depth := by
  constructor
  · intro within
    exact within [] List.nil_prefix
  · intro room front start
    rcases front_single start with rfl | rfl
    · exact room
    · rw [opened_cons, flat]
      exact room

theorem within_cons {token : Token} (flat : token.opening = 0) (depth : ℤ)
    (tokens : List Token) : Within depth (token :: tokens) ↔ Within depth tokens := by
  have closed := (Balanced.plain flat).closed
  have parts := within_append closed depth tokens
  rw [within_plain flat] at parts
  refine parts.trans ⟨And.right, fun within => ⟨?_, within⟩⟩
  exact within [] List.nil_prefix

theorem within_enclosed {left right : Token} (opens : left.opening = 1)
    (closes : right.opening = -1) {inner : List Token} (closed : opened inner = 0) (depth : ℤ) :
    Within depth (left :: (inner ++ [right])) ↔ Within (depth - 1) inner := by
  constructor
  · intro within front start
    have inside : left :: front <+: left :: (inner ++ [right]) := by
      apply (List.prefix_cons_inj left).mpr
      exact start.trans (List.prefix_append inner [right])
    have whole := within _ inside
    rw [opened_cons, opens] at whole
    omega
  · intro within front start
    have room := within [] List.nil_prefix
    rw [opened_nil] at room
    rcases front_enclosed start with rfl | ⟨more, rfl, early⟩ | rfl
    · rw [opened_nil]
      omega
    · have inside := within more early
      rw [opened_cons, opens]
      omega
    · rw [opened_cons, opened_append, closed, opened_cons, opens, closes, opened_nil]
      omega

namespace Value

mutual

/-- The nesting of a value is how much of its tokens is open at once. -/
theorem within_tokens (depth : ℤ) :
    ∀ value : Value, Within depth value.tokens ↔ (value.nesting : ℤ) ≤ depth
  | .null => within_plain rfl depth
  | .boolean _ => within_plain rfl depth
  | .number value => within_plain (opening_numberToken value) depth
  | .text _ => within_plain rfl depth
  | .array elements => by
      have inner := within_elementTokens (depth - 1) elements
      have closed := (balanced_elementTokens elements).closed
      rw [tokens, within_enclosed rfl rfl closed, inner, nesting]
      omega
  | .object members => by
      have inner := within_memberTokens (depth - 1) members
      have closed := (balanced_memberTokens members).closed
      rw [tokens, within_enclosed rfl rfl closed, inner, nesting]
      omega

theorem within_elementTokens (depth : ℤ) : ∀ elements : List Value,
    Within depth (elementTokens elements) ↔ (nestingElements elements : ℤ) ≤ depth
  | [] => within_nil depth
  | [last] => by
      rw [elementTokens, within_tokens depth last, nestingElements, nestingElements, Nat.max_zero]
  | first :: next :: others => by
      have here := within_tokens depth first
      have later := within_elementTokens depth (next :: others)
      have closed := (balanced_tokens first).closed
      have split : elementTokens (first :: next :: others) =
          first.tokens ++ .comma :: elementTokens (next :: others) := rfl
      have deepest : nestingElements (first :: next :: others) =
          max first.nesting (nestingElements (next :: others)) := rfl
      rw [split, within_append closed, within_cons rfl, here, later, deepest]
      omega

theorem within_memberTokens (depth : ℤ) : ∀ members : List (String × Value),
    Within depth (memberTokens members) ↔ (nestingMembers members : ℤ) ≤ depth
  | [] => within_nil depth
  | [(_, last)] => by
      rw [memberTokens, within_cons rfl, within_cons rfl, within_tokens depth last,
        nestingMembers, nestingMembers, Nat.max_zero]
  | (name, first) :: next :: others => by
      have here := within_tokens depth first
      have later := within_memberTokens depth (next :: others)
      have closed := (balanced_tokens first).closed
      have split : memberTokens ((name, first) :: next :: others) =
          .text (textPieces name) :: .colon ::
            (first.tokens ++ .comma :: memberTokens (next :: others)) := rfl
      have deepest : nestingMembers ((name, first) :: next :: others) =
          max first.nesting (nestingMembers (next :: others)) := rfl
      rw [split, within_cons rfl, within_cons rfl, within_append closed, within_cons rfl,
        here, later, deepest]
      omega

end

end Value

/-! ## Torn texts -/

/-- The tokens that are complete after some bytes do not depend on the bytes that follow. -/
theorem scan_append (mode : Mode) (bytes : List UInt8) :
    ∃ done next, ∀ rest, scan mode (bytes ++ rest) = done ++ scan next rest := by
  induction bytes generalizing mode with
  | nil => exact ⟨[], mode, fun rest => rfl⟩
  | cons b bytes ih =>
      obtain ⟨done, next, later⟩ := ih (step mode b).2
      refine ⟨(step mode b).1 ++ done, next, fun rest => ?_⟩
      rw [List.cons_append, scan_cons, later, List.append_assoc]

/-- The end of the bytes opens and closes nothing. -/
theorem opened_finish (mode : Mode) : opened (finish mode) = 0 := by
  cases mode with
  | number sofar =>
      rw [finish]
      split <;> rfl
  | between => rfl
  | word expected token => rfl
  | text reversed => rfl
  | escape reversed => rfl
  | unit left value reversed => rfl
  | stopped => rfl

/-- Of a text with balanced tokens, no front closes more than it opens. -/
theorem opened_front {torn lost : List UInt8}
    (balanced : Balanced (scan .between (torn ++ lost))) : 0 ≤ opened (scan .between torn) := by
  obtain ⟨done, next, whole⟩ := scan_append .between torn
  have cut := whole []
  rw [List.append_nil, scan] at cut
  rw [cut, opened_append, opened_finish, Int.add_zero]
  apply balanced.front
  rw [whole]
  exact List.prefix_append done _

namespace Value

/-- The text of an object with members, between its braces. -/
theorem toPrettyBytes_object (first : String × Value) (others : List (String × Value)) :
    ∃ inner, toPrettyBytes (.object (first :: others)) = 123 :: (inner ++ [125]) ∧
      scan .between inner = memberTokens (first :: others) := by
  refine ⟨bytesOf (prettyMembers 1 (first :: others)) ++ bytesOf (newLine 0), ?_, ?_⟩
  · have text : pretty 0 (.object (first :: others)) =
        '\x7b' :: (prettyMembers 1 (first :: others) ++ newLine 0 ++ ['\x7d']) := rfl
    rw [toPrettyBytes, toList_toUTF8, String.toList_ofList, text, bytesOf_cons_small (by decide),
      bytesOf_append, bytesOf_append]
    rfl
  · have line := endsNumber_newLine 0 [] []
    rw [List.append_nil, List.append_nil] at line
    rw [scan_prettyMembers 1 (first :: others) _ line]
    exact List.append_nil _

/-- An object with members that is cut off before its end leaves something open. -/
theorem opened_torn {first : String × Value} {others : List (String × Value)}
    {torn lost : List UInt8} (cut : lost ≠ []) (started : torn ≠ [])
    (whole : torn ++ lost = toPrettyBytes (.object (first :: others))) :
    0 < opened (Json.tokens torn) := by
  obtain ⟨inner, text, members⟩ := toPrettyBytes_object first others
  obtain ⟨b, torn, rfl⟩ := List.exists_cons_of_ne_nil started
  obtain ⟨lost, last, rfl⟩ := (List.eq_nil_or_concat' lost).resolve_left cut
  rw [text, List.cons_append, List.cons.injEq, ← List.append_assoc] at whole
  obtain ⟨rfl, whole⟩ := whole
  -- The last brace is among what is lost, so that the rest is a front of what is inside.
  obtain ⟨whole, -⟩ := List.append_inj' whole rfl
  have balanced : Balanced (scan .between (torn ++ lost)) := by
    rw [whole, members]
    exact balanced_memberTokens (first :: others)
  have inside := opened_front balanced
  have brace : Json.tokens (123 :: torn) = .objectOpen :: scan .between torn := rfl
  rw [brace, opened_cons]
  exact Int.lt_of_lt_of_le Int.zero_lt_one (Int.le_add_of_nonneg_right inside)

end Value

/-- No reader takes a printed object with members that is cut off before its end. -/
theorem Reader.run_torn {ε α : Type} {reader : Reader ε α} {good : α → Prop}
    (takes : Takes reader good) {first : String × Value} {others : List (String × Value)}
    {torn lost : List UInt8} (cut : lost ≠ []) (started : torn ≠ [])
    (whole : torn ++ lost = Value.toPrettyBytes (.object (first :: others))) (value : α) :
    reader.run torn ≠ .ok value := by
  intro read
  have closed := (takes_run takes read).2
  have some_open := Value.opened_torn cut started whole
  omega

end RobotBlocks.Json
