import Std.Data.TreeMap
import RobotBlocks.Failure
import RobotBlocks.Store.SlotName

/-!
# Backends

A backend keeps bytes under slot keys.  Reading never changes it; writing and deleting give the
backend that is left, also when they fail.  The memory backend is an ordered map.
-/

namespace RobotBlocks.Store

/-- Where a slot is kept: the encoded namespace, and the name of the slot inside it. -/
structure SlotKey where
  space : String
  name : String
deriving DecidableEq, Inhabited

namespace SlotKey

/-- The order of keys: by namespace, then by name. -/
def order : SlotKey → SlotKey → Ordering :=
  compareLex (compareOn space) (compareOn name)

def of (space name : String) : SlotKey :=
  ⟨encodeName space, encodeName name⟩

end SlotKey

structure Backend (σ : Type) where
  /-- The bytes of a slot, or nothing if there is no such slot. -/
  read : SlotKey → σ → Except Failure (Option (List UInt8))
  write : SlotKey → List UInt8 → σ → Except Failure Unit × σ
  /-- Says whether there was anything to delete. -/
  delete : SlotKey → σ → Except Failure Bool × σ
  /-- The keys of the slots in a namespace, in order. -/
  keys : (space : String) → σ → Except Failure (List SlotKey)

abbrev Slots := Std.TreeMap SlotKey (List UInt8) SlotKey.order

/-- The backend that keeps slots in memory; it never fails. -/
def memory : Backend Slots where
  read key slots := .ok slots[key]?
  write key bytes slots := (.ok (), slots.insert key bytes)
  delete key slots := (.ok (slots.contains key), slots.erase key)
  keys space slots := .ok (slots.keys.filter fun key => key.space == encodeName space)

end RobotBlocks.Store
