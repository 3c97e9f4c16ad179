import RobotBlocks.Proofs.Json.Texts

/-!
# Tokens of printed values

A value that is printed over several lines is scanned as the tokens of the value; the indentation
leaves no trace.
-/

namespace RobotBlocks.Json

open Binary64 (numeralChars)
open Text (bytesOf bytesOf_append bytesOf_cons_small)

/-! ## Numbers -/

def numberToken (number : Number) : Token :=
  (tokens (bytesOf (printNumber number))).headD .broken

theorem signOf_signChars (x : Binary64) : signOf x.isNegative = x.signChars := rfl

/-- A printed number is one token, whatever comes after it. -/
def ScansAs (number : Number) (token : Token) : Prop :=
  ∀ rest, EndsNumber rest → scan .between (bytesOf (printNumber number) ++ rest) =
    token :: scan .between rest

theorem ScansAs.eq {number : Number} {token : Token} (scans : ScansAs number token) :
    numberToken number = token := by
  have alone := scans [] (by rintro b ⟨⟩)
  rw [List.append_nil] at alone
  unfold numberToken tokens
  rw [alone]
  rfl

theorem scansAs_digits {number : Number} (negative : Bool) (n : ℕ)
    (text : printNumber number = signOf negative ++ Binary64.digitChars n) :
    ScansAs number (.number (numeralOf negative n [] none)) := by
  intro rest ends
  have bare : numeralChars n [] none = Binary64.digitChars n := List.append_nil _
  rw [text, ← bare]
  exact @scan_numeral negative n [] (fun _ mem => nomatch mem) none rest ends

/-- A finite number is printed as a numeral that means the number and is not written as whole. -/
theorem scansAs_real {x : Binary64} (finite : x.isFinite = true) :
    ∃ numeral, ScansAs (.real x) (.number numeral) ∧ numeral.whole = false ∧
      numeral.toReal? = some x := by
  obtain ⟨whole, places, power, text, all, pointed, means⟩ :=
    Binary64.documentText_forms finite
  refine ⟨numeralOf x.isNegative whole places power, fun rest ends => ?_, pointed, ?_⟩
  · rw [printNumber, if_pos finite, text, ← signOf_signChars]
    exact scan_numeral x.isNegative whole all power ends
  · unfold Numeral.toReal? numeralOf
    simp only [means, finite, if_true]

theorem scansAs_null {x : Binary64} (infinite : x.isFinite = false) :
    ScansAs (.real x) .null := by
  intro rest _
  rw [printNumber, infinite]
  rfl

/-- The token of a number is a numeral, or null for what is not finite. -/
theorem numberToken_cases (number : Number) :
    ScansAs number (numberToken number) ∧
      (numberToken number = .null ∨ ∃ numeral, numberToken number = .number numeral) := by
  have single {token : Token} (scans : ScansAs number token)
      (form : token = .null ∨ ∃ numeral, token = .number numeral) :
      ScansAs number (numberToken number) ∧
        (numberToken number = .null ∨ ∃ numeral, numberToken number = .number numeral) := by
    rw [scans.eq]
    exact ⟨scans, form⟩
  cases number with
  | natural value => exact single (scansAs_digits false value rfl) (.inr ⟨_, rfl⟩)
  | negative magnitude => exact single (scansAs_digits true magnitude rfl) (.inr ⟨_, rfl⟩)
  | real x =>
      rcases Bool.eq_false_or_eq_true x.isFinite with finite | infinite
      · obtain ⟨numeral, scans, _⟩ := scansAs_real finite
        exact single scans (.inr ⟨numeral, rfl⟩)
      · exact single (scansAs_null infinite) (.inl rfl)

/-- A finite number is read back from its token. -/
theorem toReal_numberToken {x : Binary64} (finite : x.isFinite = true) :
    ∃ numeral, numberToken (.real x) = .number numeral ∧ numeral.whole = false ∧
      numeral.toReal? = some x := by
  obtain ⟨numeral, scans, meaning⟩ := scansAs_real finite
  exact ⟨numeral, scans.eq, meaning⟩

theorem numberToken_infinite {x : Binary64} (infinite : x.isFinite = false) :
    numberToken (.real x) = .null :=
  (scansAs_null infinite).eq

/-! ## Values -/

namespace Value

mutual

def tokens : Value → List Token
  | .null => [.null]
  | .boolean value => [.boolean value]
  | .number value => [numberToken value]
  | .text value => [.text (textPieces value)]
  | .array elements => .arrayOpen :: (elementTokens elements ++ [.arrayClose])
  | .object members => .objectOpen :: (memberTokens members ++ [.objectClose])

def elementTokens : List Value → List Token
  | [] => []
  | [last] => last.tokens
  | first :: rest => first.tokens ++ .comma :: elementTokens rest

def memberTokens : List (String × Value) → List Token
  | [] => []
  | [(name, last)] => .text (textPieces name) :: .colon :: last.tokens
  | (name, first) :: rest =>
      .text (textPieces name) :: .colon :: (first.tokens ++ .comma :: memberTokens rest)

end

mutual

/-- The largest number of arrays and objects of a value that are inside each other. -/
def nesting : Value → ℕ
  | .array elements => nestingElements elements + 1
  | .object members => nestingMembers members + 1
  | _ => 0

def nestingElements : List Value → ℕ
  | [] => 0
  | first :: rest => max first.nesting (nestingElements rest)

def nestingMembers : List (String × Value) → ℕ
  | [] => 0
  | (_, first) :: rest => max first.nesting (nestingMembers rest)

end

/-! ## Scanning -/

theorem endsNumber_cons {b : UInt8} (ends : b = 10 ∨ b = 44 ∨ b = 93 ∨ b = 125)
    (rest : List UInt8) : EndsNumber (b :: rest) := by
  rintro _ ⟨⟩
  exact ends

theorem endsNumber_newLine (level : ℕ) (text : List Char) (rest : List UInt8) :
    EndsNumber (bytesOf (newLine level ++ text) ++ rest) :=
  endsNumber_cons (.inl rfl) _

/-- A new line and its indentation leave no trace. -/
theorem scan_newLine (level : ℕ) (text : List Char) (rest : List UInt8) :
    scan .between (bytesOf (newLine level ++ text) ++ rest) =
      scan .between (bytesOf text ++ rest) := by
  have spaces (count : ℕ) : scan .between (bytesOf (List.replicate count ' ' ++ text) ++ rest) =
      scan .between (bytesOf text ++ rest) := by
    induction count with
    | zero => rfl
    | succ count ih => exact ih
  exact spaces (2 * level)

/-- A symbol is one token. -/
theorem scan_symbol {c : Char} (small : c.toNat < 128) {token : Token}
    (emits : start (UInt8.ofNat c.toNat) = ([token], .between)) (text : List Char)
    (rest : List UInt8) :
    scan .between (bytesOf (c :: text) ++ rest) =
      token :: scan .between (bytesOf text ++ rest) := by
  have stepped : step .between (UInt8.ofNat c.toNat) = ([token], .between) := emits
  rw [bytesOf_cons_small small, List.cons_append, scan_cons, stepped]
  rfl

/-- The name of a member is a text and a colon. -/
theorem scan_name (level : ℕ) (name : String) (text : List Char) (rest : List UInt8) :
    scan .between (bytesOf (newLine level ++ (printText name ++ ':' :: ' ' :: text)) ++ rest) =
      .text (textPieces name) :: .colon :: scan .between (bytesOf text ++ rest) := by
  rw [scan_newLine, bytesOf_append, List.append_assoc, scan_printText,
    @scan_symbol ':' (by decide) .colon rfl, scan_char (by decide) rfl]

mutual

/-- A value that is printed over several lines is scanned as its tokens. -/
theorem scan_pretty (level : ℕ) : (value : Value) → ∀ rest, EndsNumber rest →
    scan .between (bytesOf (value.pretty level) ++ rest) = value.tokens ++ scan .between rest
  | .null, rest, _ => rfl
  | .boolean true, rest, _ => rfl
  | .boolean false, rest, _ => rfl
  | .number value, rest, ends => (numberToken_cases value).1 rest ends
  | .text value, rest, _ => scan_printText value rest
  | .array [], rest, _ => rfl
  | .array (first :: others), rest, _ => by
      have inside := scan_prettyElements (level + 1) (first :: others)
        (bytesOf (newLine level ++ [']']) ++ rest) (endsNumber_newLine level _ rest)
      have opened : Value.pretty level (.array (first :: others)) =
          '[' :: (prettyElements (level + 1) (first :: others) ++ (newLine level ++ [']'])) := by
        rw [← List.append_assoc]
        rfl
      rw [opened, @scan_symbol '[' (by decide) .arrayOpen rfl, bytesOf_append, List.append_assoc,
        inside, scan_newLine, @scan_symbol ']' (by decide) .arrayClose rfl, tokens,
        List.cons_append, List.append_assoc]
      rfl
  | .object [], rest, _ => rfl
  | .object (first :: others), rest, _ => by
      have inside := scan_prettyMembers (level + 1) (first :: others)
        (bytesOf (newLine level ++ ['\x7d']) ++ rest) (endsNumber_newLine level _ rest)
      have opened : Value.pretty level (.object (first :: others)) =
          '\x7b' :: (prettyMembers (level + 1) (first :: others) ++
            (newLine level ++ ['\x7d'])) := by
        rw [← List.append_assoc]
        rfl
      rw [opened, @scan_symbol '\x7b' (by decide) .objectOpen rfl, bytesOf_append,
        List.append_assoc, inside, scan_newLine,
        @scan_symbol '\x7d' (by decide) .objectClose rfl, tokens, List.cons_append,
        List.append_assoc]
      rfl

theorem scan_prettyElements (level : ℕ) : (elements : List Value) → ∀ rest, EndsNumber rest →
    scan .between (bytesOf (prettyElements level elements) ++ rest) =
      elementTokens elements ++ scan .between rest
  | [], rest, _ => rfl
  | [last], rest, ends => by
      rw [prettyElements, elementTokens, scan_newLine, scan_pretty level last rest ends]
  | first :: next :: others, rest, ends => by
      have here := scan_pretty level first
        (bytesOf (',' :: prettyElements level (next :: others)) ++ rest)
        (endsNumber_cons (.inr (.inl rfl)) _)
      have later := scan_prettyElements level (next :: others) rest ends
      have line : prettyElements level (first :: next :: others) = newLine level ++
          (first.pretty level ++ ',' :: prettyElements level (next :: others)) := by
        rw [← List.append_assoc]
        rfl
      have split : elementTokens (first :: next :: others) =
          first.tokens ++ .comma :: elementTokens (next :: others) := rfl
      rw [line, scan_newLine, bytesOf_append, List.append_assoc, here,
        @scan_symbol ',' (by decide) .comma rfl, later, split, List.append_assoc]
      rfl

theorem scan_prettyMembers (level : ℕ) : (members : List (String × Value)) →
    ∀ rest, EndsNumber rest →
    scan .between (bytesOf (prettyMembers level members) ++ rest) =
      memberTokens members ++ scan .between rest
  | [], rest, _ => rfl
  | [(name, last)], rest, ends => by
      have line : prettyMembers level [(name, last)] = newLine level ++
          (printText name ++ ':' :: ' ' :: last.pretty level) := by
        rw [← List.append_assoc]
        exact List.append_assoc _ ": ".toList _
      rw [line, scan_name, scan_pretty level last rest ends]
      rfl
  | (name, first) :: next :: others, rest, ends => by
      have here := scan_pretty level first
        (bytesOf (',' :: prettyMembers level (next :: others)) ++ rest)
        (endsNumber_cons (.inr (.inl rfl)) _)
      have later := scan_prettyMembers level (next :: others) rest ends
      have regroup (name value more : List Char) :
          newLine level ++ name ++ ": ".toList ++ value ++ ',' :: more =
            newLine level ++ (name ++ ':' :: ' ' :: (value ++ ',' :: more)) := by
        rw [List.append_assoc, List.append_assoc, List.append_assoc]
        rfl
      have line : prettyMembers level ((name, first) :: next :: others) = newLine level ++
          (printText name ++ ':' :: ' ' ::
            (first.pretty level ++ ',' :: prettyMembers level (next :: others))) :=
        regroup _ _ _
      have split : memberTokens ((name, first) :: next :: others) =
          .text (textPieces name) :: .colon ::
            (first.tokens ++ .comma :: memberTokens (next :: others)) := rfl
      rw [line, scan_name, bytesOf_append, List.append_assoc, here,
        @scan_symbol ',' (by decide) .comma rfl, later, split]
      simp only [List.cons_append, List.append_assoc]

end

theorem tokens_toPrettyBytes (value : Value) : Json.tokens value.toPrettyBytes = value.tokens := by
  have whole := scan_pretty 0 value [] (by rintro b ⟨⟩)
  have done : scan .between [] = [] := rfl
  rw [List.append_nil, done, List.append_nil] at whole
  unfold toPrettyBytes Json.tokens
  rw [Text.toList_toUTF8, String.toList_ofList, whole]

end Value

end RobotBlocks.Json
