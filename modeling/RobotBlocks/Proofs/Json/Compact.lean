import RobotBlocks.Proofs.Json.Reading

/-!
# Tokens of values on one line

A value that is printed on one line has the tokens of the value, as it has over several lines.
-/

namespace RobotBlocks.Json

open Text (bytesOf bytesOf_append)

namespace Value

/-- The name of a member is a text and a colon. -/
theorem scan_compactName (name : String) (text : List Char) (rest : List UInt8) :
    scan .between (bytesOf (printText name ++ ':' :: text) ++ rest) =
      .text (textPieces name) :: .colon :: scan .between (bytesOf text ++ rest) := by
  rw [bytesOf_append, List.append_assoc, scan_printText,
    @scan_symbol ':' (by decide) .colon rfl]

mutual

/-- A value that is printed on one line is scanned as its tokens. -/
theorem scan_compact : (value : Value) → ∀ rest, EndsNumber rest →
    scan .between (bytesOf value.compact ++ rest) = value.tokens ++ scan .between rest
  | .null, rest, _ => rfl
  | .boolean true, rest, _ => rfl
  | .boolean false, rest, _ => rfl
  | .number value, rest, ends => (numberToken_cases value).1 rest ends
  | .text value, rest, _ => scan_printText value rest
  | .array elements, rest, _ => by
      have inside := scan_compactElements elements (bytesOf [']'] ++ rest)
        (endsNumber_cons (.inr (.inr (.inl rfl))) _)
      rw [compact, @scan_symbol '[' (by decide) .arrayOpen rfl, bytesOf_append,
        List.append_assoc, inside, @scan_symbol ']' (by decide) .arrayClose rfl, tokens,
        List.cons_append, List.append_assoc]
      rfl
  | .object members, rest, _ => by
      have inside := scan_compactMembers members (bytesOf ['\x7d'] ++ rest)
        (endsNumber_cons (.inr (.inr (.inr rfl))) _)
      rw [compact, @scan_symbol '\x7b' (by decide) .objectOpen rfl, bytesOf_append,
        List.append_assoc, inside, @scan_symbol '\x7d' (by decide) .objectClose rfl, tokens,
        List.cons_append, List.append_assoc]
      rfl

theorem scan_compactElements : (elements : List Value) → ∀ rest, EndsNumber rest →
    scan .between (bytesOf (compactElements elements) ++ rest) =
      elementTokens elements ++ scan .between rest
  | [], rest, _ => rfl
  | [last], rest, ends => scan_compact last rest ends
  | first :: next :: others, rest, ends => by
      have here := scan_compact first (bytesOf (',' :: compactElements (next :: others)) ++ rest)
        (endsNumber_cons (.inr (.inl rfl)) _)
      have later := scan_compactElements (next :: others) rest ends
      have line : compactElements (first :: next :: others) =
          first.compact ++ ',' :: compactElements (next :: others) := rfl
      have split : elementTokens (first :: next :: others) =
          first.tokens ++ .comma :: elementTokens (next :: others) := rfl
      rw [line, bytesOf_append, List.append_assoc, here,
        @scan_symbol ',' (by decide) .comma rfl, later, split, List.append_assoc]
      rfl

theorem scan_compactMembers : (members : List (String × Value)) → ∀ rest, EndsNumber rest →
    scan .between (bytesOf (compactMembers members) ++ rest) =
      memberTokens members ++ scan .between rest
  | [], rest, _ => rfl
  | [(name, last)], rest, ends => by
      rw [compactMembers, scan_compactName, scan_compact last rest ends]
      rfl
  | (name, first) :: next :: others, rest, ends => by
      have here := scan_compact first (bytesOf (',' :: compactMembers (next :: others)) ++ rest)
        (endsNumber_cons (.inr (.inl rfl)) _)
      have later := scan_compactMembers (next :: others) rest ends
      have line : compactMembers ((name, first) :: next :: others) =
          printText name ++ ':' :: (first.compact ++ ',' :: compactMembers (next :: others)) := rfl
      have split : memberTokens ((name, first) :: next :: others) =
          .text (textPieces name) :: .colon ::
            (first.tokens ++ .comma :: memberTokens (next :: others)) := rfl
      rw [line, scan_compactName, bytesOf_append, List.append_assoc, here,
        @scan_symbol ',' (by decide) .comma rfl, later, split]
      simp only [List.cons_append, List.append_assoc]

end

theorem tokens_toText (value : Value) : Json.tokens value.toText.toUTF8.toList = value.tokens := by
  have whole := scan_compact value [] (by rintro b ⟨⟩)
  have done : scan .between [] = [] := rfl
  rw [List.append_nil, done, List.append_nil] at whole
  unfold toText Json.tokens
  rw [Text.toList_toUTF8, String.toList_ofList, whole]

end Value

namespace Reader

/-- A document on one line gives what its reader finds, and nothing else. -/
theorem run_toText {ε α : Type} {reader : Reader ε α} {value : Value} {found : Option α}
    (decides : Decides reader value found) :
    reader.run value.toText.toUTF8.toList = found.elim (.error .malformed) .ok :=
  run_tokens decides value.tokens_toText

end Reader

end RobotBlocks.Json
