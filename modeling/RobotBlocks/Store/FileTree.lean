import Std.Data.TreeMap
import RobotBlocks.Failure
import RobotBlocks.Store.Path

/-!
# File trees

A file tree holds directories and files by their place.  The top is a directory that is always
there, and so is the home, where paths start that do not start at the top.  A path is followed
from the left, name by name: every name but the last has to lead to a directory, and the first one
that is not there, is no directory or is too long decides the error.
-/

namespace RobotBlocks.Store

/-- A place in a tree: the names of the directories on the way from the top, and its own. -/
abbrev Place := List Name

inductive Node where
  | directory
  | file (bytes : List UInt8)
deriving DecidableEq, Inhabited

structure FileTree where
  nodes : Std.TreeMap Place Node := {}
  home : Place := []
deriving Inhabited

namespace FileTree

def put (tree : FileTree) (place : Place) (node : Node) : FileTree :=
  { tree with nodes := tree.nodes.insert place node }

/-! ## Following paths -/

/-- What is at the end of a path that is followed from a directory, and where that is. -/
def walk (tree : FileTree) : (directory : Place) → Path → Except FileError (Place × Node)
  | directory, [] => .ok (directory, .directory)
  | directory, name :: rest =>
      if name.leadsNowhere then tree.walk directory rest
      else if name = Name.above then tree.walk directory.dropLast rest
      else if Name.longest < name.length then .error .nameTooLong
      else
        match tree.nodes[directory ++ [name]]? with
        | none => .error .notFound
        | some .directory => tree.walk (directory ++ [name]) rest
        | some (.file bytes) =>
            if rest.isEmpty then .ok (directory ++ [name], .file bytes) else .error .notDirectory

/-- Why a path is refused whatever the tree holds. -/
def refusal? (path : Path) : Option FileError :=
  if path.any fun name => name.contains 0 then some .invalidPath
  else if path = Path.empty then some .notFound
  else if Path.longest < path.size then some .nameTooLong
  else none

def start (tree : FileTree) (path : Path) : Place :=
  if path.isRooted then [] else tree.home

def locate (tree : FileTree) (path : Path) : Except FileError (Place × Node) :=
  match refusal? path with
  | some problem => .error problem
  | none => tree.walk (tree.start path) path

def hasDirectory (tree : FileTree) (path : Path) : Bool :=
  match tree.locate path with
  | .ok (_, .directory) => true
  | _ => false

def bytesAt (tree : FileTree) (path : Path) : Except FileError (List UInt8) :=
  match tree.locate path with
  | .ok (_, .file bytes) => .ok bytes
  | .ok (_, .directory) => .error .isDirectory
  | .error problem => .error problem

/-- The names of the files directly inside a directory, in order. -/
def fileNames (tree : FileTree) (directory : Place) : List Name :=
  tree.nodes.toList.filterMap fun (place, node) =>
    match node, place.getLast? with
    | .file _, some name => if place.dropLast = directory then some name else none
    | _, _ => none

/-! ## Changes -/

/--
The directory that the last name of a path is looked up in, and that name.  There is no name if
the path ends at the top or in a name for a directory that is there already.
-/
def aim (tree : FileTree) (path : Path) : Except FileError (Place × Option Name) :=
  match refusal? path, path.unslashed.getLast? with
  | some problem, _ => .error problem
  | none, none => .ok ([], none)
  | none, some name =>
      match tree.walk (tree.start path) (path.unslashed.dropLast ++ Path.empty) with
      | .error problem => .error problem
      | .ok (directory, _) =>
          .ok (directory, if name = Name.here ∨ name = Name.above then none else some name)

/-- Writes a file, which may be a new one in a directory that is there. -/
def putFile (tree : FileTree) (path : Path) (bytes : List UInt8) :
    Except FileError Unit × FileTree :=
  match tree.aim path with
  | .error problem => (.error problem, tree)
  | .ok (_, none) => (.error .isDirectory, tree)
  | .ok (directory, some name) =>
      if path.isClosed then (.error .isDirectory, tree)
      else if Name.longest < name.length then (.error .nameTooLong, tree)
      else
        match tree.nodes[directory ++ [name]]? with
        | some .directory => (.error .isDirectory, tree)
        | _ => (.ok (), tree.put (directory ++ [name]) (.file bytes))

def dropFile (tree : FileTree) (path : Path) : Except FileError Unit × FileTree :=
  match tree.aim path with
  | .error problem => (.error problem, tree)
  | .ok (_, none) => (.error .isDirectory, tree)
  | .ok (directory, some name) =>
      if Name.longest < name.length then (.error .nameTooLong, tree)
      else
        match tree.nodes[directory ++ [name]]? with
        | none => (.error .notFound, tree)
        | some .directory => (.error .isDirectory, tree)
        | some (.file _) =>
            if path.isClosed then (.error .notDirectory, tree)
            else (.ok (), { tree with nodes := tree.nodes.erase (directory ++ [name]) })

/-- Creates one directory inside a directory that is there. -/
def makeDirectory (tree : FileTree) (path : Path) : Except FileError Unit × FileTree :=
  match tree.aim path with
  | .error problem => (.error problem, tree)
  | .ok (_, none) => (.error .alreadyExists, tree)
  | .ok (directory, some name) =>
      if Name.longest < name.length then (.error .nameTooLong, tree)
      else if tree.nodes.contains (directory ++ [name]) then (.error .alreadyExists, tree)
      else (.ok (), tree.put (directory ++ [name]) .directory)

/-- Creates one directory, unless it is there. -/
def ensureDirectory (tree : FileTree) (path : Path) : Except FileError Unit × FileTree :=
  match tree.makeDirectory path with
  | (.ok (), tree) => (.ok (), tree)
  | (.error problem, tree) => (if tree.hasDirectory path then .ok () else .error problem, tree)

/-- Creates the first of some directories, each inside the next, and those of the next it needs. -/
def ensureLine (tree : FileTree) : List Path → Except FileError Unit × FileTree
  | [] => (.ok (), tree)
  | path :: above =>
      match tree.ensureDirectory path with
      | (.error .notFound, tree) =>
          match tree.ensureLine above with
          | (.ok (), tree) => tree.ensureDirectory path
          | failed => failed
      | result => result

/-- Creates a directory and the directories above it that are not there. -/
def makeDirectories (tree : FileTree) (path : Path) : Except FileError Unit × FileTree :=
  tree.ensureLine path.lineage

/-- A tree with nothing in it but its home and the directories above it. -/
def withHome (home : Place) : FileTree :=
  { (({} : FileTree).makeDirectories home).2 with home }

/-- Writes a file, creating the directories above it. -/
def save (tree : FileTree) (path : Path) (bytes : List UInt8) : Except Failure Unit × FileTree :=
  let parent := path.parent?.getD Path.empty
  match tree.makeDirectories parent with
  | (.error problem, tree) => (.error (.ofFile "Create" parent.text problem), tree)
  | (.ok (), tree) =>
      match tree.putFile path bytes with
      | (.error problem, tree) => (.error (.ofFile "Failed to write" path.text problem), tree)
      | (.ok (), tree) => (.ok (), tree)

end FileTree

end RobotBlocks.Store
