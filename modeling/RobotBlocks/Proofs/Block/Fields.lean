import RobotBlocks.Block.Diagram
import RobotBlocks.Proofs.Json.Reading

/-!
# Fields of documents

The fields of a block are read back from their document, with their order, exactly when all their
numbers are finite.
-/

namespace RobotBlocks

open Json (Value Reader Decides)
open Json.Reader (decides_tagged decides_boolean decides_real decides_text decides_object
  decides_refuse foundMember)

theorem mapM_keep {ι : Type} (ok : ι → Bool) (items : List ι) :
    items.mapM (fun item => if ok item then some item else none) =
      if items.all ok then some items else none := by
  induction items with
  | nil => rfl
  | cons item items ih =>
      rw [List.mapM_cons, ih, List.all_cons]
      cases ok item with
      | false => rfl
      | true => cases items.all ok <;> rfl

namespace FieldValue

/-- The value is no number, or a finite one. -/
def isFinite : FieldValue → Bool
  | .number value => value.isFinite
  | _ => true

theorem decides_reader {ε : Type} (value : FieldValue) :
    Decides (reader : Reader ε FieldValue) value.toJson
      (if value.isFinite then some value else none) := by
  cases value with
  | flag value => exact decides_tagged ((decides_boolean value).map flag)
  | text value => exact decides_tagged ((decides_text value).map text)
  | number value =>
      have found : (if value.isFinite then some value else none).map number =
          if (number value).isFinite then some (number value) else none := by
        unfold isFinite
        split <;> rfl
      rw [← found]
      exact decides_tagged ((decides_real value).map number)

end FieldValue

namespace Fields

def isFinite (fields : Fields) : Bool :=
  fields.entries.all fun entry => entry.2.isFinite

theorem insertEntry_absent {name : String} {entries : List (String × FieldValue)}
    (absent : name ∉ entries.map Prod.fst) (value : FieldValue) :
    insertEntry name value entries = entries ++ [(name, value)] := by
  induction entries with
  | nil => rfl
  | cons entry entries ih =>
      obtain ⟨other, old⟩ := entry
      rw [List.map_cons, List.mem_cons, not_or] at absent
      rw [insertEntry, if_neg fun same => absent.1 same.symm, ih absent.2]
      rfl

/-- Entries with names of their own are added in their order. -/
theorem foldl_insert {fields : Fields} {entries : List (String × FieldValue)}
    (distinct : ((fields.entries ++ entries).map Prod.fst).Nodup) :
    (entries.foldl (fun fields entry => fields.insert entry.1 entry.2) fields).entries =
      fields.entries ++ entries := by
  induction entries generalizing fields with
  | nil => exact (List.append_nil _).symm
  | cons entry entries ih =>
      obtain ⟨name, value⟩ := entry
      have absent : name ∉ fields.entries.map Prod.fst := by
        rw [List.map_append, List.nodup_append] at distinct
        exact fun mem => distinct.2.2 name mem name List.mem_cons_self rfl
      have inserted : (fields.insert name value).entries = fields.entries ++ [(name, value)] :=
        insertEntry_absent absent value
      rw [List.foldl_cons, ih, inserted, List.append_assoc]
      · rfl
      · rw [inserted, List.append_assoc]
        exact distinct

/-- Fields are made again from their entries. -/
theorem ofList_entries (fields : Fields) : ofList fields.entries = fields := by
  have all : (ofList fields.entries).entries = fields.entries :=
    @foldl_insert empty fields.entries fields.distinct
  revert all
  generalize ofList fields.entries = made
  obtain ⟨madeEntries, madeDistinct⟩ := made
  obtain ⟨entries, distinct⟩ := fields
  rintro ⟨⟩
  rfl

theorem mem_insertEntry {name : String} {value : FieldValue} {entry : String × FieldValue}
    {entries : List (String × FieldValue)} (mem : entry ∈ insertEntry name value entries) :
    entry = (name, value) ∨ entry ∈ entries := by
  induction entries with
  | nil => exact .inl (List.mem_singleton.mp mem)
  | cons first rest ih =>
      obtain ⟨other, old⟩ := first
      rw [insertEntry] at mem
      split at mem
      · rename_i same
        rw [same] at mem
        exact (List.mem_cons.mp mem).imp_right (List.mem_cons_of_mem _)
      · rcases List.mem_cons.mp mem with same | later
        · exact .inr (same ▸ List.mem_cons_self)
        · exact (ih later).imp_right (List.mem_cons_of_mem _)

theorem length_insertEntry (name : String) (value : FieldValue)
    (entries : List (String × FieldValue)) :
    (insertEntry name value entries).length ≤ entries.length + 1 := by
  induction entries with
  | nil => exact Nat.le_refl _
  | cons first rest ih =>
      rw [insertEntry]
      split
      · exact Nat.le_succ _
      · exact Nat.succ_le_succ ih

/-- Fields that are made from a list have no other entries, and no more than it has. -/
theorem entries_ofList (entries : List (String × FieldValue)) :
    (∀ entry ∈ (ofList entries).entries, entry ∈ entries) ∧
      (ofList entries).entries.length ≤ entries.length := by
  induction entries using List.reverseRecOn with
  | nil => exact ⟨fun entry mem => mem, Nat.le_refl _⟩
  | append_singleton entries last ih =>
      have inserted : (ofList (entries ++ [last])).entries =
          insertEntry last.1 last.2 (ofList entries).entries := by
        unfold ofList
        rw [List.foldl_append]
        rfl
      rw [inserted]
      constructor
      · intro entry mem
        rcases mem_insertEntry mem with same | earlier
        · exact List.mem_append_right _ (List.mem_singleton.mpr same)
        · exact List.mem_append_left _ (ih.1 entry earlier)
      · rw [List.length_append]
        exact Nat.le_trans (length_insertEntry _ _ _) (Nat.succ_le_succ ih.2)

/-- Fields are found when a reader of values finds each of their values. -/
theorem decides_fields {ε : Type} {reader : Reader ε FieldValue} {ok : FieldValue → Bool}
    (fields : Fields)
    (decides : ∀ entry ∈ fields.entries, Decides reader entry.2.toJson
      (if ok entry.2 then some entry.2 else none)) :
    Decides (Fields.reader reader) fields.toJson
      (if fields.entries.all fun entry => ok entry.2 then some fields else none) := by
  have each : foundMember Prod.fst (fun entry : String × FieldValue =>
      if ok entry.2 then some entry.2 else none) =
        fun entry => if ok entry.2 then some entry else none := by
    funext entry
    unfold foundMember
    simp only
    cases ok entry.2 <;> rfl
  have object := (@decides_object _ _ _ _ Prod.fst _ _ _ decides).map ofList
  rw [each, mapM_keep fun entry : String × FieldValue => ok entry.2] at object
  have found : (if fields.entries.all fun entry => ok entry.2 then some fields.entries
      else none).map ofList =
        if fields.entries.all fun entry => ok entry.2 then some fields else none := by
    split
    · exact congrArg some (ofList_entries fields)
    · rfl
  rw [← found]
  exact object

theorem nesting_toJson (fields : Fields) :
    fields.toJson.nesting = if fields.entries.isEmpty then 1 else 2 := by
  have single (value : FieldValue) : value.toJson.nesting = 1 := by
    cases value <;> rfl
  have members (entries : List (String × FieldValue)) :
      Value.nestingMembers (entries.map fun entry => (entry.1, entry.2.toJson)) =
        if entries.isEmpty then 0 else 1 := by
    induction entries with
    | nil => rfl
    | cons entry entries ih =>
        rw [List.map_cons, Value.nestingMembers, single, ih]
        cases entries <;> rfl
  have whole : fields.toJson.nesting =
      Value.nestingMembers (fields.entries.map fun entry => (entry.1, entry.2.toJson)) + 1 := rfl
  rw [whole, members]
  cases fields.entries <;> rfl

end Fields

namespace Block

open Fields (nesting_toJson)

/-- Fields are read back when their numbers are finite and enough objects may be open. -/
theorem decides_fieldsReader (depth : ℕ) (fields : Fields) :
    Decides (fieldsReader depth) fields.toJson
      (if fields.isFinite && fields.toJson.nesting ≤ depth then some fields else none) := by
  rw [nesting_toJson]
  match depth with
  | 0 =>
      have refused : (fields.isFinite &&
          decide ((if fields.entries.isEmpty then 1 else 2) ≤ 0)) = false := by
        cases fields.entries.isEmpty <;> simp
      rw [refused]
      exact decides_refuse _
  | 1 =>
      have decides := @Fields.decides_fields Empty Reader.refuse (fun _ => false) fields
        fun _ _ => decides_refuse _
      have same : (fields.entries.all fun _ => false) = (fields.isFinite &&
          decide ((if fields.entries.isEmpty then 1 else 2) ≤ 1)) := by
        unfold Fields.isFinite
        cases fields.entries <;> simp
      rw [same] at decides
      exact decides
  | depth + 2 =>
      have decides := @Fields.decides_fields Empty FieldValue.reader FieldValue.isFinite fields
        fun entry _ => FieldValue.decides_reader entry.2
      have deep : decide ((if fields.entries.isEmpty then 1 else 2) ≤ depth + 2) = true := by
        rw [decide_eq_true_eq]
        split <;> omega
      rw [deep, Bool.and_true]
      exact decides

end Block

end RobotBlocks
