import Mathlib.Data.List.Basic
import Mathlib.Logic.Function.Basic
import RobotBlocks.Store.FileTree
import RobotBlocks.Proofs.Store.FileNames

/-!
# File trees

A path goes on from the place that its first names lead to.  Making directories adds directories
where nothing was and leaves every file as it was, and a path that leads to a directory leads to the
same one afterwards.
-/

namespace RobotBlocks.Store.FileTree

/-! ## Following paths -/

/-- A path goes on from where its first names lead to, which has to be a directory. -/
theorem walk_append (tree : FileTree) (front : Path) {back : Path} (more : back ≠ [])
    (directory : Place) :
    tree.walk directory (front ++ back) =
      match tree.walk directory front with
      | .ok (place, .directory) => tree.walk place back
      | .ok (_, .file _) => .error .notDirectory
      | .error problem => .error problem := by
  induction front generalizing directory with
  | nil => rfl
  | cons name rest ih =>
      rw [List.cons_append, walk, walk]
      split
      · exact ih directory
      split
      · exact ih directory.dropLast
      split
      · rfl
      cases tree.nodes[directory ++ [name]]? with
      | none => rfl
      | some node =>
          cases node with
          | directory => exact ih (directory ++ [name])
          | file bytes => cases rest <;> simp [more]

/-- What leads to a directory leads to it still if all directories are there still. -/
theorem walk_mono {tree next : FileTree}
    (directories : ∀ place : Place, tree.nodes[place]? = some .directory →
      next.nodes[place]? = some .directory)
    {path : Path} {directory top : Place}
    (leads : tree.walk directory path = .ok (top, .directory)) :
    next.walk directory path = .ok (top, .directory) := by
  induction path generalizing directory with
  | nil => exact leads
  | cons name rest ih =>
      rw [walk] at leads ⊢
      by_cases stays : name.leadsNowhere
      · rw [if_pos stays] at leads ⊢
        exact ih leads
      rw [if_neg stays] at leads ⊢
      by_cases up : name = Name.above
      · rw [if_pos up] at leads ⊢
        exact ih leads
      rw [if_neg up] at leads ⊢
      by_cases long : Name.longest < name.length
      · rw [if_pos long] at leads
        exact nomatch leads
      rw [if_neg long] at leads ⊢
      cases lookup : tree.nodes[directory ++ [name]]? with
      | none =>
          rw [lookup] at leads
          exact nomatch leads
      | some node =>
          rw [lookup] at leads
          cases node with
          | directory =>
              rw [directories _ lookup]
              exact ih leads
          | file bytes => cases rest <;> simp at leads

/-- A proper name is looked up where the path has come to. -/
theorem walk_proper (tree : FileTree) {name : Name} (proper : name.IsProper) (directory : Place)
    (rest : Path) :
    tree.walk directory (name :: rest) =
      if Name.longest < name.length then .error .nameTooLong
      else
        match tree.nodes[directory ++ [name]]? with
        | none => .error .notFound
        | some .directory => tree.walk (directory ++ [name]) rest
        | some (.file bytes) =>
            if rest.isEmpty then .ok (directory ++ [name], .file bytes)
            else .error .notDirectory := by
  have moves : ¬name.leadsNowhere = true := by
    rw [proper.leads]
    exact Bool.false_ne_true
  exact (if_neg moves).trans (if_neg proper.inside)

/-- A proper name that more follows has to be the name of a directory. -/
theorem walk_proper_eq_ok {tree : FileTree} {name : Name} (proper : name.IsProper)
    {directory : Place} {rest : Path} (more : rest ≠ []) {found : Place × Node} :
    tree.walk directory (name :: rest) = .ok found ↔
      name.length ≤ Name.longest ∧ tree.nodes[directory ++ [name]]? = some .directory ∧
        tree.walk (directory ++ [name]) rest = .ok found := by
  rw [walk_proper tree proper, ← Nat.not_lt]
  by_cases long : Name.longest < name.length
  · simp [long]
  rw [if_neg long]
  cases tree.nodes[directory ++ [name]]? with
  | none => simp
  | some node => cases node <;> simp [long, more]

/-- A proper name at the end leads to whatever has that name. -/
theorem walk_last_eq_ok {tree : FileTree} {name : Name} (proper : name.IsProper)
    {directory place : Place} {node : Node} :
    tree.walk directory [name] = .ok (place, node) ↔
      name.length ≤ Name.longest ∧ place = directory ++ [name] ∧
        tree.nodes[directory ++ [name]]? = some node := by
  rw [walk_proper tree proper, ← Nat.not_lt]
  by_cases long : Name.longest < name.length
  · simp [long]
  rw [if_neg long]
  cases tree.nodes[directory ++ [name]]? with
  | none => simp
  | some node => cases node <;> simp [long, walk, eq_comm]

/-- Where a path aims that ends in a proper name. -/
theorem aim_concat (tree : FileTree) (front : Path) {name : Name} (proper : name.IsProper) :
    tree.aim (front ++ [name]) =
      match refusal? (front ++ [name]) with
      | some problem => .error problem
      | none =>
          (tree.walk (tree.start (front ++ [name])) (front ++ Path.empty)).map
            fun found => (found.1, some name) := by
  have whole : (front ++ [name]).unslashed = front ++ [name] := by
    unfold Path.unslashed
    simp [proper.nonempty]
  have named : ¬(name = Name.here ∨ name = Name.above) := by
    rintro (rfl | rfl)
    · exact absurd proper.leads (by decide)
    · exact proper.inside rfl
  unfold aim
  rw [whole, List.getLast?_concat, List.dropLast_concat]
  cases refusal? (front ++ [name]) with
  | some problem => rfl
  | none =>
      simp only
      cases tree.walk (tree.start (front ++ [name])) (front ++ Path.empty) with
      | error problem => rfl
      | ok found => rw [if_neg named]; rfl

/-! ## Files -/

def fileAt (tree : FileTree) (place : Place) : Option (List UInt8) :=
  match tree.nodes[place]? with
  | some (.file bytes) => some bytes
  | _ => none

theorem fileAt_eq_some {tree : FileTree} {place : Place} {bytes : List UInt8} :
    tree.fileAt place = some bytes ↔ tree.nodes[place]? = some (.file bytes) := by
  unfold fileAt
  cases tree.nodes[place]? with
  | none => simp
  | some node => cases node <;> simp

theorem fileAt_put (tree : FileTree) (place : Place) (bytes : List UInt8) :
    (tree.put place (.file bytes)).fileAt = Function.update tree.fileAt place (some bytes) := by
  funext other
  unfold fileAt put
  rw [Function.update_apply, Std.TreeMap.getElem?_insert]
  by_cases same : other = place
  · rw [if_pos same, if_pos (Std.LawfulEqCmp.compare_eq_iff_eq.mpr same.symm)]
  · rw [if_neg same, if_neg fun equal => same (Std.LawfulEqCmp.compare_eq_iff_eq.mp equal).symm]

theorem directory_put {tree : FileTree} {place : Place}
    (other : tree.nodes[place]? ≠ some .directory) (bytes : List UInt8) {above : Place}
    (there : tree.nodes[above]? = some .directory) :
    (tree.put place (.file bytes)).nodes[above]? = some .directory := by
  have different : ¬compare place above = .eq := by
    intro same
    exact other (Std.LawfulEqCmp.compare_eq_iff_eq.mp same ▸ there)
  unfold put
  rw [Std.TreeMap.getElem?_insert, if_neg different]
  exact there

theorem directory_erase {tree : FileTree} {place : Place}
    (other : tree.nodes[place]? ≠ some .directory) {above : Place}
    (there : tree.nodes[above]? = some .directory) :
    { tree with nodes := tree.nodes.erase place : FileTree }.nodes[above]? = some .directory := by
  have different : ¬compare place above = .eq := by
    intro same
    exact other (Std.LawfulEqCmp.compare_eq_iff_eq.mp same ▸ there)
  simp only
  rw [Std.TreeMap.getElem?_erase, if_neg different]
  exact there

theorem fileAt_erase (tree : FileTree) (place : Place) :
    { tree with nodes := tree.nodes.erase place : FileTree }.fileAt =
      Function.update tree.fileAt place none := by
  funext other
  unfold fileAt
  rw [Function.update_apply, Std.TreeMap.getElem?_erase]
  by_cases same : other = place
  · rw [if_pos same, if_pos (Std.LawfulEqCmp.compare_eq_iff_eq.mpr same.symm)]
  · rw [if_neg same, if_neg fun equal => same (Std.LawfulEqCmp.compare_eq_iff_eq.mp equal).symm]

/-! ## Making directories -/

/-- The later tree has more directories, and nothing else is different. -/
structure Extends (tree next : FileTree) : Prop where
  home : next.home = tree.home
  directories : ∀ place : Place, tree.nodes[place]? = some .directory →
    next.nodes[place]? = some .directory
  files : next.fileAt = tree.fileAt

theorem Extends.refl (tree : FileTree) : tree.Extends tree :=
  ⟨rfl, fun _ there => there, rfl⟩

theorem Extends.trans {tree next last : FileTree} (first : tree.Extends next)
    (second : next.Extends last) : tree.Extends last where
  home := second.home.trans first.home
  directories place there := second.directories place (first.directories place there)
  files := second.files.trans first.files

theorem extends_put {tree : FileTree} {place : Place} (nothing : tree.nodes[place]? = none) :
    tree.Extends (tree.put place .directory) where
  home := rfl
  directories other there := by
    unfold put
    rw [Std.TreeMap.getElem?_insert]
    split
    · rfl
    · exact there
  files := by
    funext other
    unfold fileAt put
    rw [Std.TreeMap.getElem?_insert]
    by_cases same : compare place other = .eq
    · rw [if_pos same, ← Std.LawfulEqCmp.compare_eq_iff_eq.mp same, nothing]
    · rw [if_neg same]

theorem extends_makeDirectory (tree : FileTree) (path : Path) :
    tree.Extends (tree.makeDirectory path).2 := by
  unfold makeDirectory
  split
  case h_1 => exact .refl tree
  case h_2 => exact .refl tree
  case h_3 directory name aimed =>
    by_cases long : Name.longest < name.length
    · rw [if_pos long]
      exact .refl tree
    rw [if_neg long]
    by_cases there : tree.nodes.contains (directory ++ [name])
    · rw [if_pos there]
      exact .refl tree
    · rw [if_neg there]
      exact extends_put (Std.TreeMap.getElem?_eq_none there)

theorem extends_ensureDirectory (tree : FileTree) (path : Path) :
    tree.Extends (tree.ensureDirectory path).2 := by
  have made := tree.extends_makeDirectory path
  unfold ensureDirectory
  split
  all_goals
    rename_i result
    rw [result] at made
    exact made

theorem extends_ensureLine (tree : FileTree) (line : List Path) :
    tree.Extends (tree.ensureLine line).2 := by
  induction line generalizing tree with
  | nil => exact .refl tree
  | cons path above ih =>
      have first := tree.extends_ensureDirectory path
      unfold ensureLine
      split
      case h_1 ready missing =>
        rw [missing] at first
        have others := first.trans (ih ready)
        split
        case h_1 grown made =>
          rw [made] at others
          exact others.trans (grown.extends_ensureDirectory path)
        case h_2 => exact others
      case h_2 => exact first

theorem extends_makeDirectories (tree : FileTree) (path : Path) :
    tree.Extends (tree.makeDirectories path).2 :=
  tree.extends_ensureLine path.lineage

/-! ## Writing and removing files -/

/-- A file is written where its path aims, or nothing changes. -/
theorem putFile_cases (tree : FileTree) (path : Path) (bytes : List UInt8) :
    (∃ problem, tree.putFile path bytes = (.error problem, tree)) ∨
      ∃ directory name, tree.aim path = .ok (directory, some name) ∧
        name.length ≤ Name.longest ∧ tree.nodes[directory ++ [name]]? ≠ some .directory ∧
        tree.putFile path bytes = (.ok (), tree.put (directory ++ [name]) (.file bytes)) := by
  unfold putFile
  rcases tree.aim path with problem | ⟨directory, _ | name⟩
  · exact .inl ⟨problem, rfl⟩
  · exact .inl ⟨_, rfl⟩
  simp only
  by_cases closed : path.isClosed
  · exact .inl ⟨_, if_pos closed⟩
  rw [if_neg closed]
  by_cases long : Name.longest < name.length
  · exact .inl ⟨_, if_pos long⟩
  rw [if_neg long]
  cases there : tree.nodes[directory ++ [name]]? with
  | none => exact .inr ⟨directory, name, rfl, Nat.le_of_not_lt long, by simp [there], rfl⟩
  | some node =>
      cases node with
      | directory => exact .inl ⟨_, rfl⟩
      | file old =>
          exact .inr ⟨directory, name, rfl, Nat.le_of_not_lt long, by simp [there], rfl⟩

/-- A file is removed where its path aims, or nothing changes. -/
theorem dropFile_cases (tree : FileTree) (path : Path) :
    (∃ problem, tree.dropFile path = (.error problem, tree)) ∨
      ∃ directory name, tree.aim path = .ok (directory, some name) ∧
        tree.dropFile path =
          (.ok (), { tree with nodes := tree.nodes.erase (directory ++ [name]) }) := by
  unfold dropFile
  rcases tree.aim path with problem | ⟨directory, _ | name⟩
  · exact .inl ⟨problem, rfl⟩
  · exact .inl ⟨_, rfl⟩
  simp only
  by_cases long : Name.longest < name.length
  · exact .inl ⟨_, if_pos long⟩
  rw [if_neg long]
  cases tree.nodes[directory ++ [name]]? with
  | none => exact .inl ⟨_, rfl⟩
  | some node =>
      cases node with
      | directory => exact .inl ⟨_, rfl⟩
      | file old =>
          by_cases closed : path.isClosed
          · exact .inl ⟨_, if_pos closed⟩
          · exact .inr ⟨directory, name, rfl, if_neg closed⟩

/-- A file is written after the directories above it were made, or only directories are new. -/
theorem save_cases (tree : FileTree) (path : Path) (bytes : List UInt8) :
    ∃ ready : FileTree, tree.Extends ready ∧
      ((∃ failure, tree.save path bytes = (.error failure, ready)) ∨
        ∃ next, ready.putFile path bytes = (.ok (), next) ∧
          tree.save path bytes = (.ok (), next)) := by
  have made := tree.extends_makeDirectories (path.parent?.getD Path.empty)
  simp only [save]
  revert made
  rcases tree.makeDirectories (path.parent?.getD Path.empty) with ⟨problem | done, ready⟩
  · exact fun made => ⟨ready, made, .inl ⟨_, rfl⟩⟩
  intro made
  refine ⟨ready, made, ?_⟩
  rcases ready.putFile_cases path bytes with ⟨problem, refused⟩ | ⟨_, _, _, _, _, written⟩
  · exact .inl ⟨_, by simp only [refused]; rfl⟩
  · exact .inr ⟨_, written, by simp only [written]⟩

/-! ## Reading what was written -/

/-- A path that aims at a name ends in it, and leads to where it is looked up. -/
theorem aim_eq_some {tree : FileTree} {path : Path} {directory : Place} {name : Name}
    (aimed : tree.aim path = .ok (directory, some name)) (opened : path.isClosed = false) :
    refusal? path = none ∧ ∃ front, path = front ++ [name] ∧ name.leadsNowhere = false ∧
      name ≠ Name.above ∧ tree.walk (tree.start path) front = .ok (directory, .directory) := by
  unfold aim at aimed
  cases allowed : refusal? path with
  | some problem =>
      rw [allowed] at aimed
      cases aimed
  | none =>
      refine ⟨rfl, ?_⟩
      rw [allowed] at aimed
      rcases List.eq_nil_or_concat' path with rfl | ⟨front, last, rfl⟩
      · cases aimed
      have filled : last ≠ [] := by
        rintro rfl
        exact absurd opened (by simp [Path.isClosed])
      have whole : Path.unslashed (front ++ [last]) = front ++ [last] := by
        unfold Path.unslashed
        simp [filled]
      rw [whole, List.getLast?_concat, List.dropLast_concat, walk_append _ _ (by decide)] at aimed
      simp only at aimed
      rcases reached : tree.walk (tree.start (front ++ [last])) front with
        problem | ⟨place, _ | bytes⟩
      · rw [reached] at aimed
        cases aimed
      · rw [reached] at aimed
        obtain ⟨rfl, named⟩ := Prod.mk.inj (Except.ok.inj aimed)
        obtain ⟨plain, same⟩ := Option.ite_none_left_eq_some.mp named
        obtain rfl := Option.some_inj.mp same
        obtain ⟨notHere, notAbove⟩ := not_or.mp plain
        refine ⟨front, rfl, ?_, notAbove, reached⟩
        simp [Name.leadsNowhere, filled, notHere]
      · rw [reached] at aimed
        cases aimed

/-- A file that was written is read back. -/
theorem bytesAt_of_putFile {tree next : FileTree} {path : Path} {bytes : List UInt8}
    (written : tree.putFile path bytes = (.ok (), next)) : next.bytesAt path = .ok bytes := by
  rcases tree.putFile_cases path bytes with ⟨problem, refused⟩ | ⟨directory, name, aimed, short,
    other, put⟩
  · exact nomatch (Prod.mk.inj (written.symm.trans refused)).1
  have opened : path.isClosed = false := by
    by_contra closed
    unfold putFile at put
    rw [aimed] at put
    simp only at put
    rw [if_pos (Bool.not_eq_false _ ▸ closed)] at put
    exact nomatch (Prod.mk.inj put).1
  obtain rfl := (Prod.mk.inj (written.symm.trans put)).2
  obtain ⟨allowed, front, rfl, moves, down, reached⟩ := aim_eq_some aimed opened
  have above := walk_mono (fun _ there => directory_put other bytes there) reached
  have here : (tree.put (directory ++ [name]) (.file bytes)).nodes[directory ++ [name]]? =
      some (.file bytes) := Std.TreeMap.getElem?_insert_self
  have last : (tree.put (directory ++ [name]) (.file bytes)).walk directory [name] =
      .ok (directory ++ [name], .file bytes) := by
    rw [walk, moves, if_neg Bool.false_ne_true, if_neg down, if_neg (Nat.not_lt.mpr short), here]
    rfl
  have located : (tree.put (directory ++ [name]) (.file bytes)).locate (front ++ [name]) =
      .ok (directory ++ [name], .file bytes) := by
    have start : (tree.put (directory ++ [name]) (.file bytes)).start (front ++ [name]) =
        tree.start (front ++ [name]) := rfl
    unfold locate
    rw [allowed, start]
    simp only
    rw [walk_append _ _ (List.cons_ne_nil _ _), above]
    exact last
  unfold bytesAt
  rw [located]

/-- A file that was saved is read back. -/
theorem bytesAt_of_save {tree next : FileTree} {path : Path} {bytes : List UInt8}
    (saved : tree.save path bytes = (.ok (), next)) : next.bytesAt path = .ok bytes := by
  obtain ⟨ready, _, ⟨failure, refused⟩ | ⟨last, put, same⟩⟩ := tree.save_cases path bytes
  · exact nomatch (Prod.mk.inj (saved.symm.trans refused)).1
  · obtain rfl := (Prod.mk.inj (saved.symm.trans same)).2
    exact bytesAt_of_putFile put

end RobotBlocks.Store.FileTree
