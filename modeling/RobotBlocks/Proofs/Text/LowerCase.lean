import RobotBlocks.Text.Case

/-!
# Lower case of a stretch

Lower case goes character by character, but that of a capital sigma depends on what stands around
it.  So a stretch of a text has the lower case that it has alone exactly when each of its sigmas
ends a word there if it ends one alone.
-/

namespace RobotBlocks.Text

/-! ## Stretches of a text -/

/-- Whether a sigma ends a word; the text before it is given last character first. -/
def endsWord (before after : List Char) : Bool :=
  reachesCased before && !reachesCased after

/-- Lower case of a character with the text before it, last character first, and the one after. -/
def lowerBetween (before : List Char) (c : Char) (after : List Char) : List Char :=
  if c = 'Σ' then [if endsWord before after then 'ς' else 'σ'] else lowerChar c

def lowercaseBetween (before : List Char) : (stretch after : List Char) → List Char
  | [], _ => []
  | c :: rest, after =>
      lowerBetween before c (rest ++ after) ++ lowercaseBetween (c :: before) rest after

theorem lowercaseAfter_eq (before text : List Char) :
    lowercaseAfter before text = lowercaseBetween before text [] := by
  induction text generalizing before with
  | nil => rfl
  | cons c rest ih =>
      rw [lowercaseAfter, lowercaseBetween, ih, List.append_nil]
      rfl

theorem lowercaseBetween_append (before front back after : List Char) :
    lowercaseBetween before (front ++ back) after =
      lowercaseBetween before front (back ++ after) ++
        lowercaseBetween (front.reverse ++ before) back after := by
  induction front generalizing before with
  | nil => rfl
  | cons c rest ih =>
      rw [List.cons_append, lowercaseBetween, lowercaseBetween, ih, List.append_assoc,
        List.append_assoc, List.reverse_cons, List.append_assoc]
      rfl

/-! ## Sigmas -/

/-- A sigma in a stretch ends a word in both of two surroundings, or in none of them. -/
def SigmasAlike (before after otherBefore otherAfter stretch : List Char) : Prop :=
  ∀ inner rest, stretch = inner ++ 'Σ' :: rest →
    endsWord (inner.reverse ++ before) (rest ++ after) =
      endsWord (inner.reverse ++ otherBefore) (rest ++ otherAfter)

theorem sigmasAlike_cons {before after otherBefore otherAfter : List Char} {c : Char}
    {rest : List Char} :
    SigmasAlike before after otherBefore otherAfter (c :: rest) ↔
      (c = 'Σ' → endsWord before (rest ++ after) = endsWord otherBefore (rest ++ otherAfter)) ∧
        SigmasAlike (c :: before) after (c :: otherBefore) otherAfter rest := by
  constructor
  · intro alike
    constructor
    · rintro rfl
      exact alike [] rest rfl
    · rintro inner later rfl
      have whole := alike (c :: inner) later rfl
      rw [List.reverse_cons, List.append_assoc, List.append_assoc] at whole
      exact whole
  · rintro ⟨here, later⟩ inner more whole
    rcases List.cons_eq_append_iff.mp whole with ⟨rfl, same⟩ | ⟨inner, rfl, inside⟩
    · obtain ⟨rfl, rfl⟩ := List.cons.inj same
      exact here rfl
    · rw [List.reverse_cons, List.append_assoc, List.append_assoc]
      exact later inner more inside

theorem lowerBetween_eq_iff {before after otherBefore otherAfter : List Char} {c : Char} :
    lowerBetween before c after = lowerBetween otherBefore c otherAfter ↔
      (c = 'Σ' → endsWord before after = endsWord otherBefore otherAfter) := by
  unfold lowerBetween
  by_cases sigma : c = 'Σ'
  · rw [if_pos sigma, if_pos sigma]
    cases endsWord before after <;> cases endsWord otherBefore otherAfter <;> simp [sigma]
  · rw [if_neg sigma, if_neg sigma]
    exact iff_of_true rfl fun same => absurd same sigma

theorem length_lowerBetween (before after otherBefore otherAfter : List Char) (c : Char) :
    (lowerBetween before c after).length = (lowerBetween otherBefore c otherAfter).length := by
  unfold lowerBetween
  split <;> rfl

/-- A stretch has one lower case in two surroundings exactly if its sigmas are alike in them. -/
theorem lowercaseBetween_eq_iff {before after otherBefore otherAfter stretch : List Char} :
    lowercaseBetween before stretch after = lowercaseBetween otherBefore stretch otherAfter ↔
      SigmasAlike before after otherBefore otherAfter stretch := by
  induction stretch generalizing before otherBefore with
  | nil => exact iff_of_true rfl fun inner rest none => by simp at none
  | cons c rest ih =>
      rw [sigmasAlike_cons, ← lowerBetween_eq_iff, ← ih, lowercaseBetween, lowercaseBetween]
      constructor
      · intro same
        exact List.append_inj same (length_lowerBetween ..)
      · rintro ⟨here, later⟩
        rw [here, later]

/-! ## Queries -/

theorem occursIn_iff {part text : List Char} : occursIn part text = true ↔ part <:+: text := by
  induction text with
  | nil => rw [occursIn, List.isEmpty_iff, List.infix_nil]
  | cons first rest ih =>
      rw [occursIn, Bool.or_eq_true, ih, List.isPrefixOf_iff_prefix, List.infix_cons_iff]

theorem lowercase_eq_between (text : String) :
    lowercase text = lowercaseBetween [] text.toList [] :=
  lowercaseAfter_eq [] text.toList

/-- What a text contains is in its lower case as well, if sigmas there are as in the query alone. -/
theorem lowercase_infix {text query : String} {front back : List Char}
    (stands : text.toList = front ++ query.toList ++ back)
    (alike : SigmasAlike front.reverse back [] [] query.toList) :
    lowercase query <:+: lowercase text := by
  refine ⟨lowercaseBetween [] front (query.toList ++ back),
    lowercaseBetween (query.toList.reverse ++ front.reverse) back [], ?_⟩
  rw [lowercase_eq_between query, lowercase_eq_between text, ← lowercaseBetween_eq_iff.mpr alike,
    stands]
  simp only [lowercaseBetween_append, List.append_nil, List.reverse_append]

theorem sigmasAlike_of_notMem {before after otherBefore otherAfter stretch : List Char}
    (plain : 'Σ' ∉ stretch) : SigmasAlike before after otherBefore otherAfter stretch := by
  rintro inner rest rfl
  exact absurd (List.mem_append_right inner List.mem_cons_self) plain

end RobotBlocks.Text
