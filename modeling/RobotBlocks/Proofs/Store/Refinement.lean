import RobotBlocks.Proofs.Store.NewDirectories
import RobotBlocks.Proofs.Store.SlotFiles

/-!
# Directories refine the memory

Calls to stores over a directory that starts empty get the answers that they get over a memory that
starts empty.
-/

namespace RobotBlocks.Store

variable {σ τ : Type}

/-! ## Calls over any backend -/

def Call.performOver (backend : Backend σ) (kept : σ) : Call → Answer × σ
  | .save ⟨format, space, model⟩ diagram =>
      let (result, kept) := Store.save ⟨backend, format⟩ space model diagram kept
      (.saved result, kept)
  | .load ⟨format, space, model⟩ => (.loaded (Store.load ⟨backend, format⟩ space model kept), kept)
  | .remove ⟨format, space, model⟩ =>
      let (result, kept) := Store.remove ⟨backend, format⟩ space model kept
      (.removed result, kept)
  | .list format space => (.listed (Store.list ⟨backend, format⟩ space kept), kept)

def answers (backend : Backend σ) : List Call → σ → List Answer
  | [], _ => []
  | call :: calls, kept =>
      let (answer, kept) := call.performOver backend kept
      answer :: answers backend calls kept

/--
One backend does what another one does, as long as the keys are usable: what they keep is related
before and after every operation, and the operations say the same.
-/
structure Backend.Refines (backend : Backend σ) (other : Backend τ) (usable : SlotKey → Prop)
    (related : σ → τ → Prop) : Prop where
  read : ∀ {key kept held}, usable key → related kept held →
    backend.read key kept = other.read key held
  write : ∀ {key kept held} (bytes), usable key → related kept held →
    (backend.write key bytes kept).1 = (other.write key bytes held).1 ∧
      related (backend.write key bytes kept).2 (other.write key bytes held).2
  delete : ∀ {key kept held}, usable key → related kept held →
    (backend.delete key kept).1 = (other.delete key held).1 ∧
      related (backend.delete key kept).2 (other.delete key held).2
  keys : ∀ {space kept held}, related kept held → backend.keys space kept = other.keys space held
  listed : ∀ {space kept held keys}, related kept held → other.keys space held = .ok keys →
    ∀ key ∈ keys, usable key

namespace Backend.Refines

variable {backend : Backend σ} {other : Backend τ} {usable : SlotKey → Prop}
  {related : σ → τ → Prop} {kept : σ} {held : τ}

theorem owners (refines : backend.Refines other usable related) (same : related kept held)
    (format : Format) (space : String) {keys : List SlotKey} (each : ∀ key ∈ keys, usable key) :
    Store.owners ⟨backend, format⟩ space kept keys =
      Store.owners ⟨other, format⟩ space held keys := by
  induction keys with
  | nil => rfl
  | cons key keys ih =>
      have first := refines.read (each key List.mem_cons_self) same
      have rest := ih fun next mem => each next (List.mem_cons_of_mem _ mem)
      rw [Store.owners, Store.owners, rest]
      simp only [first]

theorem list (refines : backend.Refines other usable related) (same : related kept held)
    (format : Format) (space : String) :
    Store.list ⟨backend, format⟩ space kept = Store.list ⟨other, format⟩ space held := by
  unfold Store.list
  simp only
  rw [refines.keys same]
  cases listed : other.keys space held with
  | error failure => rfl
  | ok keys => exact refines.owners same format space (refines.listed same listed)

/-- A call for a usable slot gets the same answer, and leaves what is related still. -/
theorem perform (refines : backend.Refines other usable related) (same : related kept held)
    {call : Call} (each : ∀ slot ∈ call.slot?, usable slot.key) :
    (call.performOver backend kept).1 = (call.performOver other held).1 ∧
      related (call.performOver backend kept).2 (call.performOver other held).2 := by
  cases call with
  | save slot diagram =>
      obtain ⟨result, after⟩ :=
        refines.write (slot.format.encode (slot.document diagram)) (each slot rfl) same
      refine ⟨?_, after⟩
      exact congrArg (fun result => Answer.saved (inContext
        ("Failed to save diagram " ++ label slot.space slot.model) result)) result
  | load slot =>
      have read := refines.read (each slot rfl) same
      refine ⟨congrArg Answer.loaded ?_, same⟩
      unfold Store.load
      exact congrArg (· >>= _) read
  | remove slot =>
      obtain ⟨result, after⟩ := refines.delete (each slot rfl) same
      exact ⟨congrArg Answer.removed result, after⟩
  | list format space => exact ⟨congrArg Answer.listed (refines.list same format space), same⟩

theorem answers (refines : backend.Refines other usable related) (same : related kept held)
    {calls : List Call}
    (each : ∀ call ∈ calls, ∀ slot ∈ call.slot?, usable slot.key) :
    Store.answers backend calls kept = Store.answers other calls held := by
  induction calls generalizing kept held with
  | nil => rfl
  | cons call calls ih =>
      obtain ⟨answer, after⟩ := refines.perform same (each call List.mem_cons_self)
      have rest := ih after fun next mem => each next (List.mem_cons_of_mem _ mem)
      exact congrArg₂ List.cons answer rest

end Backend.Refines

end RobotBlocks.Store
