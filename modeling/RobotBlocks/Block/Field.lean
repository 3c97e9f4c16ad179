import RobotBlocks.Json.Reader
import RobotBlocks.Numeric.Binary64

/-!
# Fields of blocks

A field has a value of one of three kinds.  The fields of a block are named; they keep the order
in which their names first appeared, and no name appears twice.
-/

namespace RobotBlocks

open Json (Value Reader)

inductive FieldKind where
  | flag
  | number
  | text
deriving DecidableEq, Inhabited

def FieldKind.word : FieldKind → String
  | .flag => "Bool"
  | .number => "Number"
  | .text => "Text"

inductive FieldValue where
  | flag (value : Bool)
  | number (value : Binary64)
  | text (value : String)
deriving DecidableEq, Inhabited

namespace FieldValue

def kind : FieldValue → FieldKind
  | flag _ => .flag
  | number _ => .number
  | text _ => .text

/-- Equality of values, with numbers compared as numbers. -/
def same : FieldValue → FieldValue → Bool
  | flag value, flag other => value == other
  | number value, number other => value.sameValue other
  | text value, text other => value == other
  | _, _ => false

def reader {ε : Type} : Reader ε FieldValue :=
  Reader.tagged fun tag =>
    if tag = "bool" then Reader.boolean.map flag
    else if tag = "number" then Reader.real.map number
    else if tag = "text" then Reader.text.map text
    else Reader.refuse

def toJson : FieldValue → Value
  | flag value => .object [("bool", .boolean value)]
  | number value => .object [("number", .number (.real value))]
  | text value => .object [("text", .text value)]

end FieldValue

/-- Named values in the order of first appearance. -/
structure Fields where
  entries : List (String × FieldValue)
  /-- No name appears twice. -/
  distinct : (entries.map Prod.fst).Nodup

namespace Fields

instance : DecidableEq Fields := fun a b =>
  if h : a.entries = b.entries then
    .isTrue (by cases a; cases b; cases h; rfl)
  else
    .isFalse fun same => h (same ▸ rfl)

def empty : Fields :=
  ⟨[], List.nodup_nil⟩

instance : Inhabited Fields := ⟨empty⟩

def names (fields : Fields) : List String :=
  fields.entries.map Prod.fst

def get? (fields : Fields) (name : String) : Option FieldValue :=
  (fields.entries.find? fun entry => entry.1 == name).map Prod.snd

/-- Replaces the value of a name where it stands, or adds the name at the end. -/
def insertEntry (name : String) (value : FieldValue) :
    List (String × FieldValue) → List (String × FieldValue)
  | [] => [(name, value)]
  | (other, old) :: rest =>
      if other = name then (other, value) :: rest
      else (other, old) :: insertEntry name value rest

theorem insertEntry_names (name : String) (value : FieldValue)
    (entries : List (String × FieldValue)) :
    (insertEntry name value entries).map Prod.fst =
      if name ∈ entries.map Prod.fst then entries.map Prod.fst
      else entries.map Prod.fst ++ [name] := by
  induction entries with
  | nil => simp [insertEntry]
  | cons entry rest ih =>
      obtain ⟨other, old⟩ := entry
      by_cases same : other = name
      · simp [insertEntry, same]
      · have different : ¬name = other := fun h => same h.symm
        by_cases found : name ∈ rest.map Prod.fst
        · rw [if_pos found] at ih
          simp only [insertEntry, if_neg same, List.map_cons, ih]
          rw [if_pos (List.mem_cons_of_mem _ found)]
        · rw [if_neg found] at ih
          simp only [insertEntry, if_neg same, List.map_cons, ih]
          rw [if_neg (by simp only [List.mem_cons, not_or]; exact ⟨different, found⟩)]
          rfl

theorem insertEntry_distinct (name : String) (value : FieldValue)
    {entries : List (String × FieldValue)} (distinct : (entries.map Prod.fst).Nodup) :
    ((insertEntry name value entries).map Prod.fst).Nodup := by
  rw [insertEntry_names]
  split
  · exact distinct
  · rename_i absent
    refine List.nodup_append.2 ⟨distinct, by simp, ?_⟩
    intro other mem last memLast same
    simp only [List.mem_singleton] at memLast
    exact absent (memLast ▸ same ▸ mem)

def insert (fields : Fields) (name : String) (value : FieldValue) : Fields :=
  ⟨insertEntry name value fields.entries, insertEntry_distinct name value fields.distinct⟩

/-- Sets values one after the other, starting with no fields. -/
def ofList (entries : List (String × FieldValue)) : Fields :=
  entries.foldl (fun fields entry => fields.insert entry.1 entry.2) empty

/-- Equality of fields whatever their order, with numbers compared as numbers. -/
def same (fields other : Fields) : Bool :=
  fields.entries.length == other.entries.length &&
    fields.entries.all fun (name, value) =>
      match other.get? name with
      | some found => value.same found
      | none => false

/-- Reads fields; a later value for a name replaces an earlier one. -/
def reader {ε : Type} (value : Reader ε FieldValue) : Reader ε Fields :=
  (Reader.object value).map ofList

def toJson (fields : Fields) : Value :=
  .object (fields.entries.map fun (name, value) => (name, value.toJson))

end Fields

end RobotBlocks
