import RobotBlocks.Text.CaseTable

/-!
# Lower case

Full Unicode lower case.  Every character has a lower case of its own except the capital sigma,
whose lower case depends on whether it ends a word.
-/

namespace RobotBlocks.Text

/-- The lower case of a character that stands alone. -/
def lowerChar (c : Char) : List Char :=
  if c.toNat < 0x80 then
    [c.toLower]
  else if c.toNat = 0x130 then
    ['i', Char.ofNat 0x307]
  else
    match lowerRuns.find? fun (first, last, step, _) =>
        first ≤ c.toNat && c.toNat ≤ last && (c.toNat - first) % step == 0 with
    | some (_, _, _, distance) => [Char.ofNat (c.toNat + distance).toNat]
    | none => [c]

/-- The nearest character that is not passed over is a letter with case. -/
def reachesCased (text : List Char) : Bool :=
  match text.dropWhile fun c => inRanges caseIgnorableRanges c.toNat with
  | [] => false
  | c :: _ => inRanges casedRanges c.toNat

/-- Lower case of the text that follows `before`, which is given last character first. -/
def lowercaseAfter (before : List Char) : List Char → List Char
  | [] => []
  | c :: rest =>
      let lowered :=
        if c = 'Σ' then
          [if reachesCased before && !reachesCased rest then 'ς' else 'σ']
        else
          lowerChar c
      lowered ++ lowercaseAfter (c :: before) rest

def lowercase (text : String) : List Char :=
  lowercaseAfter [] text.toList

/-- Whether `part` stands somewhere in the text as an unbroken stretch. -/
def occursIn (part : List Char) : List Char → Bool
  | [] => part.isEmpty
  | first :: rest => part.isPrefixOf (first :: rest) || occursIn part rest

end RobotBlocks.Text
