import RobotBlocks.Proofs.Store.Listing

/-!
# The store as a map

Stores of both formats share one memory that starts empty.  Whatever is called on them, in any
order, their answers are those of a map from namespaces, models and formats to diagrams: every slot
holds the diagram of the latest save that was not removed since.
-/

namespace RobotBlocks.Store

/-! ## Calls -/

/-- A namespace and a model, in a format. -/
structure Slot where
  format : Format
  space : String
  model : String
deriving DecidableEq

namespace Slot

def key (slot : Slot) : SlotKey :=
  slotKey slot.format slot.space slot.model

def document (slot : Slot) (diagram : Diagram) : Document :=
  ⟨slot.space, slot.model, diagram⟩

theorem key_injective {slot other : Slot} (same : slot.key = other.key) : slot = other := by
  obtain ⟨format, space, model⟩ := slot
  obtain ⟨otherFormat, otherSpace, otherModel⟩ := other
  obtain ⟨rfl, rfl, rfl⟩ := slotKey_injective same
  rfl

theorem order_key (slot other : Slot) :
    SlotKey.order slot.key other.key = .eq ↔ slot = other := by
  rw [Std.LawfulEqCmp.compare_eq_iff_eq]
  exact ⟨key_injective, congrArg key⟩

end Slot

inductive Call where
  | save (slot : Slot) (diagram : Diagram)
  | load (slot : Slot)
  | remove (slot : Slot)
  | list (format : Format) (space : String)

inductive Answer where
  | saved (result : Except Failure Unit)
  | loaded (result : Except Failure Diagram)
  | removed (result : Except Failure Bool)
  | listed (result : Except Failure (List String))

namespace Call

/-- The slot that a call is for; a listing is for a whole namespace. -/
def slot? : Call → Option Slot
  | .save slot _ => some slot
  | .load slot => some slot
  | .remove slot => some slot
  | .list _ _ => none

def perform (slots : Slots) : Call → Answer × Slots
  | .save ⟨format, space, model⟩ diagram =>
      let (result, slots) := Store.save ⟨memory, format⟩ space model diagram slots
      (.saved result, slots)
  | .load ⟨format, space, model⟩ => (.loaded (Store.load ⟨memory, format⟩ space model slots), slots)
  | .remove ⟨format, space, model⟩ =>
      let (result, slots) := Store.remove ⟨memory, format⟩ space model slots
      (.removed result, slots)
  | .list format space => (.listed (Store.list ⟨memory, format⟩ space slots), slots)

/-- What a slot holds after a call, when it held `kept` before. -/
def update (slot : Slot) (kept : Option Diagram) : Call → Option Diagram
  | .save other diagram => if other = slot then some diagram else kept
  | .remove other => if other = slot then none else kept
  | .load _ => kept
  | .list _ _ => kept

def Changes (slot : Slot) : Call → Prop
  | .save other _ => other = slot
  | .remove other => other = slot
  | .load _ => False
  | .list _ _ => False

/-- A call that saves only what the format of its slot gives back. -/
def Keeps : Call → Prop
  | .save slot diagram => slot.format.Holds (slot.document diagram)
  | _ => True

instance : DecidablePred Keeps
  | .save slot diagram => inferInstanceAs (Decidable (slot.format.Holds (slot.document diagram)))
  | .load _ => inferInstanceAs (Decidable True)
  | .remove _ => inferInstanceAs (Decidable True)
  | .list _ _ => inferInstanceAs (Decidable True)

end Call

def slotsAfter (calls : List Call) : Slots :=
  calls.foldl (fun slots call => (call.perform slots).2) ∅

/-- The diagram of the latest save for a slot that was not removed since. -/
def latest (calls : List Call) (slot : Slot) : Option Diagram :=
  calls.foldl (fun kept call => call.update slot kept) none

theorem latest_concat (calls : List Call) (call : Call) (slot : Slot) :
    latest (calls ++ [call]) slot = call.update slot (latest calls slot) :=
  List.foldl_append

theorem Call.update_unchanged {call : Call} {slot : Slot} (unchanged : ¬call.Changes slot)
    (kept : Option Diagram) : call.update slot kept = kept := by
  cases call with
  | save other diagram => exact if_neg unchanged
  | load other => rfl
  | remove other => exact if_neg unchanged
  | list format space => rfl

/-- Calls that do not change a slot leave what was saved last for it. -/
theorem latest_append (calls : List Call) {more : List Call} {slot : Slot}
    (unchanged : ∀ call ∈ more, ¬call.Changes slot) :
    latest (calls ++ more) slot = latest calls slot := by
  induction more generalizing calls with
  | nil => rw [List.append_nil]
  | cons call more ih =>
      have here := Call.update_unchanged (unchanged call List.mem_cons_self) (latest calls slot)
      have later := ih (calls ++ [call]) fun other mem =>
        unchanged other (List.mem_cons_of_mem _ mem)
      rw [List.append_cons, later, latest_concat, here]

/-! ## What the slots hold -/

/-- The memory holds the documents of a map, which can all be given back. -/
structure Agrees (slots : Slots) (kept : Slot → Option Diagram) : Prop where
  found : ∀ slot, slots[slot.key]? =
    (kept slot).map fun diagram => slot.format.encode (slot.document diagram)
  holds : ∀ {slot diagram}, kept slot = some diagram →
    slot.format.Holds (slot.document diagram)

theorem agrees_empty : Agrees ∅ fun _ => none where
  found _ := Std.TreeMap.getElem?_emptyc
  holds := nofun

/-- A save changes its own slot only. -/
theorem Agrees.save {slots : Slots} {kept : Slot → Option Diagram} (agrees : Agrees slots kept)
    {slot : Slot} {diagram : Diagram} (holds : slot.format.Holds (slot.document diagram)) :
    Agrees (slots.insert slot.key (slot.format.encode (slot.document diagram)))
      fun other => (Call.save slot diagram).update other (kept other) where
  found other := by
    rw [Std.TreeMap.getElem?_insert, Call.update]
    by_cases same : slot = other
    · subst same
      rw [if_pos ((Slot.order_key slot slot).mpr rfl), if_pos rfl]
      rfl
    · rw [if_neg fun equal => same ((Slot.order_key slot other).mp equal), if_neg same]
      exact agrees.found other
  holds {other} held stored := by
    rw [Call.update] at stored
    by_cases same : slot = other
    · subst same
      rw [if_pos rfl] at stored
      exact Option.some_inj.mp stored ▸ holds
    · rw [if_neg same] at stored
      exact agrees.holds stored

/-- A removal empties its own slot only. -/
theorem Agrees.remove {slots : Slots} {kept : Slot → Option Diagram} (agrees : Agrees slots kept)
    (slot : Slot) :
    Agrees (slots.erase slot.key) fun other => (Call.remove slot).update other (kept other) where
  found other := by
    rw [Std.TreeMap.getElem?_erase, Call.update]
    by_cases same : slot = other
    · rw [if_pos ((Slot.order_key slot other).mpr same), if_pos same]
      rfl
    · rw [if_neg fun equal => same ((Slot.order_key slot other).mp equal), if_neg same]
      exact agrees.found other
  holds {other} held stored := by
    rw [Call.update] at stored
    by_cases same : slot = other
    · rw [if_pos same] at stored
      cases stored
    · rw [if_neg same] at stored
      exact agrees.holds stored

/-- Every call does to the memory what it does to the map. -/
theorem Agrees.perform {slots : Slots} {kept : Slot → Option Diagram}
    (agrees : Agrees slots kept) {call : Call} (keeps : call.Keeps) :
    Agrees (call.perform slots).2 fun slot => call.update slot (kept slot) := by
  cases call with
  | save slot diagram => exact agrees.save keeps
  | load slot => exact agrees
  | remove slot => exact agrees.remove slot
  | list format space => exact agrees

theorem Agrees.calls {slots : Slots} {kept : Slot → Option Diagram} (agrees : Agrees slots kept)
    {calls : List Call} (keeps : ∀ call ∈ calls, call.Keeps) :
    Agrees (calls.foldl (fun slots call => (call.perform slots).2) slots) fun slot =>
      calls.foldl (fun kept call => call.update slot kept) (kept slot) := by
  induction calls generalizing slots kept with
  | nil => exact agrees
  | cons call calls ih =>
      have first := agrees.perform (keeps call List.mem_cons_self)
      exact ih first fun other mem => keeps other (List.mem_cons_of_mem _ mem)

/-- After any calls, every slot holds the document of the latest save. -/
theorem agrees_slotsAfter {calls : List Call} (keeps : ∀ call ∈ calls, call.Keeps) :
    Agrees (slotsAfter calls) (latest calls) :=
  agrees_empty.calls keeps

/-! ## What a call answers -/

theorem Agrees.load {slots : Slots} {kept : Slot → Option Diagram} (agrees : Agrees slots kept)
    (format : Format) (space model : String) :
    Store.load ⟨memory, format⟩ space model slots =
      .ok ((kept ⟨format, space, model⟩).getD {}) := by
  have found : slots[slotKey format space model]? =
      (kept ⟨format, space, model⟩).map fun diagram => format.encode ⟨space, model, diagram⟩ :=
    agrees.found ⟨format, space, model⟩
  rw [load_memory, found]
  cases held : kept ⟨format, space, model⟩ with
  | none => rfl
  | some diagram => exact open?_encode (agrees.holds held)

theorem Agrees.contains {slots : Slots} {kept : Slot → Option Diagram}
    (agrees : Agrees slots kept) (slot : Slot) :
    slots.contains slot.key = (kept slot).isSome := by
  rw [Std.TreeMap.contains_eq_isSome_getElem?, agrees.found, Option.isSome_map]

/-- A listing shows a model when its slot holds a diagram. -/
theorem Agrees.mem_listedModels {slots : Slots} {kept : Slot → Option Diagram}
    (agrees : Agrees slots kept) (format : Format) (space model : String) :
    model ∈ listedModels format space slots ↔ (kept ⟨format, space, model⟩).isSome = true := by
  have loaded := agrees.load format space model
  have present : (slotKey format space model ∈ slots) ↔
      (kept ⟨format, space, model⟩).isSome = true := by
    rw [← agrees.contains ⟨format, space, model⟩]
    exact Std.TreeMap.contains_iff_mem.symm
  rw [Store.mem_listedModels, present]
  exact and_iff_left ⟨_, loaded⟩

/-- The answer that a map would give after calls that have been made. -/
def Meets (calls : List Call) : Call → Answer → Prop
  | .save _ _, answer => answer = .saved (.ok ())
  | .load slot, answer => answer = .loaded (.ok ((latest calls slot).getD {}))
  | .remove slot, answer => answer = .removed (.ok (latest calls slot).isSome)
  | .list format space, answer =>
      ∃ models, answer = .listed (.ok models) ∧ models.Nodup ∧
        (∀ model, model ∈ models ↔ (latest calls ⟨format, space, model⟩).isSome = true) ∧
        models.Pairwise fun model other =>
          (slotKey format space model).name.toUTF8.toList <
            (slotKey format space other).name.toUTF8.toList

def Answer.Shows (model : String) : Answer → Prop
  | .listed (.ok models) => model ∈ models
  | _ => False

theorem meets_slotsAfter {calls : List Call} (keeps : ∀ call ∈ calls, call.Keeps) (call : Call) :
    Meets calls call (call.perform (slotsAfter calls)).1 := by
  have agrees := agrees_slotsAfter keeps
  cases call with
  | save slot diagram => rfl
  | load slot => exact congrArg Answer.loaded (agrees.load slot.format slot.space slot.model)
  | remove slot =>
      exact congrArg (fun found => Answer.removed (.ok found)) (agrees.contains slot)
  | list format space =>
      refine ⟨listedModels format space (slotsAfter calls), ?_,
        listedModels_nodup format space (slotsAfter calls), ?_,
        listedModels_sorted format space (slotsAfter calls)⟩
      · exact congrArg Answer.listed (list_memory format space _)
      · exact fun model => agrees.mem_listedModels format space model

/-! ## Calls for other slots -/

theorem getElem?_perform {call : Call} {slot : Slot} (other : call.slot? ≠ some slot)
    (slots : Slots) : (call.perform slots).2[slot.key]? = slots[slot.key]? := by
  cases call with
  | save saved diagram =>
      have different : saved ≠ slot := fun same => other (congrArg some same)
      refine Std.TreeMap.getElem?_insert.trans (if_neg ?_)
      exact fun equal => different ((Slot.order_key saved slot).mp equal)
  | load loaded => rfl
  | remove removed =>
      have different : removed ≠ slot := fun same => other (congrArg some same)
      refine Std.TreeMap.getElem?_erase.trans (if_neg ?_)
      exact fun equal => different ((Slot.order_key removed slot).mp equal)
  | list format space => rfl

/-- Calls for other slots leave a slot as it is. -/
theorem getElem?_slotsAfter_append (calls : List Call) {more : List Call} {slot : Slot}
    (others : ∀ call ∈ more, call.slot? ≠ some slot) :
    (slotsAfter (calls ++ more))[slot.key]? = (slotsAfter calls)[slot.key]? := by
  induction more generalizing calls with
  | nil => rw [List.append_nil]
  | cons call more ih =>
      have here := getElem?_perform (others call List.mem_cons_self) (slotsAfter calls)
      have next : slotsAfter (calls ++ [call]) = (call.perform (slotsAfter calls)).2 :=
        List.foldl_append
      have later := ih (calls ++ [call]) fun other mem => others other (List.mem_cons_of_mem _ mem)
      rw [List.append_cons, later, next, here]

theorem not_changes {call : Call} {slot : Slot} (other : call.slot? ≠ some slot) :
    ¬call.Changes slot := by
  intro changes
  cases call with
  | save saved diagram => exact other (congrArg some changes)
  | load loaded => exact changes
  | remove removed => exact other (congrArg some changes)
  | list format space => exact changes

/-- What a query for a slot answers depends on nothing but the slot. -/
theorem perform_congr {query : Call} {slot : Slot} (for_slot : query.slot? = some slot)
    {slots others : Slots} (same : slots[slot.key]? = others[slot.key]?) :
    (query.perform slots).1 = (query.perform others).1 := by
  cases query with
  | save saved diagram => rfl
  | load loaded =>
      obtain rfl := Option.some_inj.mp for_slot
      have keyed : slots[slotKey loaded.format loaded.space loaded.model]? =
          others[slotKey loaded.format loaded.space loaded.model]? := same
      refine congrArg Answer.loaded ?_
      rw [load_memory, load_memory, keyed]
  | remove removed =>
      obtain rfl := Option.some_inj.mp for_slot
      have found : slots.contains removed.key = others.contains removed.key := by
        rw [Std.TreeMap.contains_eq_isSome_getElem?, Std.TreeMap.contains_eq_isSome_getElem?, same]
      exact congrArg (fun found => Answer.removed (.ok found)) found
  | list format space => cases for_slot

theorem shows_slotsAfter {calls : List Call} (keeps : ∀ call ∈ calls, call.Keeps) (slot : Slot) :
    ((Call.list slot.format slot.space).perform (slotsAfter calls)).1.Shows slot.model ↔
      (latest calls slot).isSome = true := by
  have listed := list_memory slot.format slot.space (slotsAfter calls)
  have answer : ((Call.list slot.format slot.space).perform (slotsAfter calls)).1 =
      .listed (.ok (listedModels slot.format slot.space (slotsAfter calls))) :=
    congrArg Answer.listed listed
  rw [answer]
  exact (agrees_slotsAfter keeps).mem_listedModels slot.format slot.space slot.model

/-- The stores over one memory are a map, and each slot has a place of its own in it. -/
theorem stores_are_map {calls : List Call} (keeps : ∀ call ∈ calls, call.Keeps) :
    (∀ call : Call, Meets calls call (call.perform (slotsAfter calls)).1) ∧
    ∀ (slot : Slot) (more : List Call),
      (∀ call ∈ more, call.Keeps ∧ call.slot? ≠ some slot) →
      (∀ query : Call, query.slot? = some slot →
        (query.perform (slotsAfter (calls ++ more))).1 = (query.perform (slotsAfter calls)).1) ∧
      (((Call.list slot.format slot.space).perform (slotsAfter (calls ++ more))).1.Shows
          slot.model ↔
        ((Call.list slot.format slot.space).perform (slotsAfter calls)).1.Shows slot.model) := by
  refine ⟨meets_slotsAfter keeps, ?_⟩
  intro slot more others
  have elsewhere : ∀ call ∈ more, call.slot? ≠ some slot := fun call mem => (others call mem).2
  constructor
  · intro query for_slot
    exact perform_congr for_slot (getElem?_slotsAfter_append calls elsewhere)
  · have whole : ∀ call ∈ calls ++ more, call.Keeps := by
      intro call mem
      rcases List.mem_append.mp mem with first | later
      · exact keeps call first
      · exact (others call later).1
    have unchanged : ∀ call ∈ more, ¬call.Changes slot :=
      fun call mem => not_changes (elsewhere call mem)
    rw [shows_slotsAfter whole, shows_slotsAfter keeps, latest_append calls unchanged]

def lookalikes : List Call := [
  .save ⟨.json, "u", "m"⟩ (pause ⟨0x3FE0000000000000⟩),
  .save ⟨.binary, "u", "m"⟩ (pause ⟨0x7FF8000000000000⟩),
  .save ⟨.json, "u", "m.bin"⟩ {},
  .remove ⟨.json, "u", "m"⟩]

theorem stores_are_map_lookalikes :
    ((Call.load ⟨.binary, "u", "m"⟩).perform (slotsAfter lookalikes)).1 =
      .loaded (.ok (pause ⟨0x7FF8000000000000⟩)) ∧
    ((Call.remove ⟨.json, "u", "m"⟩).perform (slotsAfter lookalikes)).1 = .removed (.ok false) ∧
    ((Call.remove ⟨.json, "u", "m.bin"⟩).perform
      (slotsAfter (lookalikes ++ [.remove ⟨.binary, "u", "m"⟩]))).1 = .removed (.ok true) := by
  have keeps : ∀ call ∈ lookalikes, call.Keeps := by decide +kernel
  have map := stores_are_map keeps
  have frame := map.2 ⟨.json, "u", "m.bin"⟩ [.remove ⟨.binary, "u", "m"⟩] (by decide +kernel)
  have before := map.1 (.remove ⟨.json, "u", "m.bin"⟩)
  refine ⟨map.1 (.load ⟨.binary, "u", "m"⟩), map.1 (.remove ⟨.json, "u", "m"⟩), ?_⟩
  exact (frame.1 (.remove ⟨.json, "u", "m.bin"⟩) rfl).trans before

end RobotBlocks.Store
