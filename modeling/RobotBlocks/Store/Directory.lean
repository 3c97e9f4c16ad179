import RobotBlocks.Store.Backend
import RobotBlocks.Store.FileTree

/-!
# The directory backend

The directory backend keeps every slot in a file of its own: a directory per namespace below a
common one, and in it a file per slot.  Directories come into being with the first slot in them.
-/

namespace RobotBlocks.Store

/-- The directory of a namespace, given by its encoded name. -/
def spacePath (root space : String) : Path :=
  (Path.ofText root).join (Path.ofText space)

def slotPath (root : String) (key : SlotKey) : Path :=
  (spacePath root key.space).join (Path.ofText key.name)

/-- Reads a slot; a file that is not there is no slot. -/
def readSlot (root : String) (key : SlotKey) (tree : FileTree) :
    Except Failure (Option (List UInt8)) :=
  let path := slotPath root key
  match tree.bytesAt path with
  | .ok bytes => .ok (some bytes)
  | .error .notFound => .ok none
  | .error problem => .error (.ofFile "Failed to read" path.text problem)

def writeSlot (root : String) (key : SlotKey) (bytes : List UInt8) (tree : FileTree) :
    Except Failure Unit × FileTree :=
  tree.save (slotPath root key) bytes

def deleteSlot (root : String) (key : SlotKey) (tree : FileTree) :
    Except Failure Bool × FileTree :=
  let path := slotPath root key
  match tree.dropFile path with
  | (.ok (), tree) => (.ok true, tree)
  | (.error .notFound, tree) => (.ok false, tree)
  | (.error problem, tree) => (.error (.ofFile "Failed to remove" path.text problem), tree)

/-- The slots of a namespace: the files in its directory whose names are texts. -/
def slotKeys (root space : String) (tree : FileTree) : List SlotKey :=
  let encoded := encodeName space
  match tree.locate (spacePath root encoded) with
  | .ok (directory, .directory) =>
      (tree.fileNames directory).filterMap fun name =>
        (String.fromUTF8? name.toByteArray).map fun text => ⟨encoded, text⟩
  | _ => []

def directory (root : String) : Backend FileTree where
  read := readSlot root
  write := writeSlot root
  delete := deleteSlot root
  keys space tree := .ok (slotKeys root space tree)

end RobotBlocks.Store
