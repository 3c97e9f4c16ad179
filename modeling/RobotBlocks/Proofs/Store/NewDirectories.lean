import RobotBlocks.Proofs.Store.SlotPlaces

/-!
# New directories

Making the directory at the end of a path makes the directories on the way that are missing, from
the outside in, and nothing else.  A file can be saved below a directory that is there even if
several directories between the two are not.
-/

namespace RobotBlocks.Store

/-! ## The directories above a path -/

namespace Path

theorem trimmed_concat (path : Path) {name : Name} (proper : name.IsProper) :
    trimmed (path ++ [name]) = path ++ [name] := by
  unfold trimmed
  simp [proper.leads]

/-- The directory above a proper name inside a proper name. -/
theorem parent?_concat (path : Path) {above name : Name} (proper : above.IsProper)
    (inside : name.IsProper) : parent? (path ++ [above, name]) = some (path ++ [above]) := by
  cases path with
  | nil =>
      have rest : trimmed [name] = [name] := trimmed_concat [] inside
      rw [List.nil_append, parent?, rest]
      cases above with
      | nil => exact absurd rfl proper.nonempty
      | cons b bytes => rfl
  | cons first more =>
      have rest : trimmed (more ++ [above, name]) = (more ++ [above]) ++ [name] := by
        rw [List.append_cons]
        exact trimmed_concat _ inside
      obtain ⟨second, others, split⟩ := List.exists_cons_of_ne_nil (List.concat_ne_nil above more)
      have body : trimmed ((more ++ [above]) ++ [name]).dropLast = second :: others := by
        rw [List.dropLast_concat, trimmed_concat more proper, split]
      rw [List.cons_append, parent?, rest, List.cons_append, split]
      rw [split] at body
      simp only [List.cons_append] at body ⊢
      rw [body]
      cases first <;> rfl

/-- Where a path starts depends on its first name, which a proper name after it leaves first. -/
theorem isRooted_append (base : Path) {name : Name} (proper : name.IsProper) (rest : Path) :
    isRooted (base ++ name :: rest) = decide (base.head? = some []) := by
  rcases base with _ | ⟨first, _ | ⟨second, more⟩⟩
  · cases name with
    | nil => exact absurd rfl proper.nonempty
    | cons b bytes => rfl
  · cases first <;> simp [isRooted]
  · cases first <;> simp [isRooted]

theorem size_eq (path : Path) : path.size = path.length - 1 + (path.map List.length).sum := by
  unfold size
  rw [List.sum_eq_foldl]
  generalize path.map List.length = lengths
  generalize path.length - 1 = slashes
  induction lengths generalizing slashes with
  | nil => rfl
  | cons length lengths ih =>
      rw [List.foldl_cons, List.foldl_cons, ih, ih (0 + length)]
      omega

theorem concat_ne_empty (base : Path) {name : Name} (proper : name.IsProper) :
    base ++ [name] ≠ empty := by
  intro same
  have last := List.getLast?_concat.symm.trans (congrArg List.getLast? same)
  exact proper.nonempty (Option.some.inj last)

theorem isClosed_concat (base : Path) {name : Name} (proper : name.IsProper) :
    (base ++ [name]).isClosed = false := by
  unfold isClosed
  simp [proper.nonempty]

theorem upwards_concat (base : Path) {name : Name} (proper : name.IsProper) (count : Nat) :
    upwards (count + 1) (base ++ [name]) =
      (base ++ [name]) :: ((parent? (base ++ [name])).map (upwards count)).getD [] := by
  rw [upwards, if_neg (concat_ne_empty base proper)]

end Path

namespace FileTree

/-! ## Refused paths -/

/-- A path that is not refused goes on from one that is not refused. -/
theorem allowed_of_append {base : Path} {name : Name} (proper : name.IsProper) {rest : Path}
    (allowed : refusal? (base ++ name :: rest) = none) : refusal? (base ++ [name]) = none := by
  unfold refusal? at allowed ⊢
  split at allowed
  · exact nomatch allowed
  rename_i clean
  split at allowed
  · exact nomatch allowed
  split at allowed
  · exact nomatch allowed
  rename_i fits
  rw [Path.size_eq] at fits
  rw [if_neg, if_neg (Path.concat_ne_empty base proper), if_neg]
  · rw [Path.size_eq]
    simp only [List.length_append, List.length_cons, List.map_append, List.map_cons,
      List.sum_append, List.sum_cons, List.length_nil, List.map_nil, List.sum_nil] at fits ⊢
    omega
  · intro zero
    apply clean
    simp only [List.any_append, List.any_cons, List.any_nil, Bool.or_false, Bool.or_eq_true]
      at zero ⊢
    tauto

/-! ## Paths that go on from a directory -/

/-- Where a path starts that begins with the given names and has others after them. -/
def origin (tree : FileTree) (base : Path) : Place :=
  if base.head? = some [] then [] else tree.home

/-- The names at the start of a path lead to a directory, which is at the given place. -/
def Reaches (tree : FileTree) (base : Path) (place : Place) : Prop :=
  tree.walk (tree.origin base) base = .ok (place, .directory)

variable {tree next : FileTree} {base : Path} {place : Place} {name : Name}

theorem start_append (tree : FileTree) (base : Path) (proper : name.IsProper) (rest : Path) :
    tree.start (base ++ name :: rest) = tree.origin base := by
  unfold start origin
  rw [Path.isRooted_append base proper]
  simp only [decide_eq_true_eq]

/-- A path below a directory is followed from there. -/
theorem Reaches.walk (reaches : tree.Reaches base place) (proper : name.IsProper) (rest : Path) :
    tree.walk (tree.start (base ++ name :: rest)) (base ++ name :: rest) =
      tree.walk place (name :: rest) := by
  rw [start_append tree base proper, walk_append _ _ (List.cons_ne_nil _ _), reaches]

theorem origin_append (tree : FileTree) (base : Path) (proper : name.IsProper) (rest : Path) :
    tree.origin (base ++ name :: rest) = tree.origin base := by
  unfold origin
  cases base with
  | nil => simp [proper.nonempty]
  | cons first more => rfl

theorem Reaches.concat (reaches : tree.Reaches base place) (proper : name.IsProper)
    (short : name.length ≤ Name.longest)
    (there : tree.nodes[place ++ [name]]? = some .directory) :
    tree.Reaches (base ++ [name]) (place ++ [name]) := by
  have last := (walk_last_eq_ok proper).mpr ⟨short, rfl, there⟩
  unfold Reaches
  rw [origin_append tree base proper, ← start_append tree base proper [], reaches.walk proper, last]

/-- A path to a directory leads through the directory above it. -/
theorem Reaches.above (reaches : tree.Reaches (base ++ [name]) place) (proper : name.IsProper) :
    name.length ≤ Name.longest ∧ ∃ top, tree.Reaches base top ∧ place = top ++ [name] ∧
      tree.nodes[top ++ [name]]? = some .directory := by
  unfold Reaches at reaches
  rw [origin_append tree base proper, walk_append _ _ (List.cons_ne_nil _ _)] at reaches
  cases front : tree.walk (tree.origin base) base with
  | error problem =>
      rw [front] at reaches
      exact nomatch reaches
  | ok found =>
      obtain ⟨top, node⟩ := found
      rw [front] at reaches
      cases node with
      | file bytes => exact nomatch reaches
      | directory =>
          obtain ⟨short, here, there⟩ := (walk_last_eq_ok proper).mp reaches
          exact ⟨short, top, front, here, there⟩

theorem Reaches.mono (reaches : tree.Reaches base place) (home : next.home = tree.home)
    (directories : ∀ place : Place, tree.nodes[place]? = some .directory →
      next.nodes[place]? = some .directory) : next.Reaches base place := by
  unfold Reaches origin at reaches ⊢
  rw [home]
  exact walk_mono directories reaches

/-- A change to what has a proper name in a directory aims at that name. -/
theorem Reaches.aim (reaches : tree.Reaches base place) (proper : name.IsProper)
    (allowed : refusal? (base ++ [name]) = none) :
    tree.aim (base ++ [name]) = .ok (place, some name) := by
  have front : tree.walk (tree.origin base) (base ++ Path.empty) = .ok (place, .directory) := by
    rw [walk_append _ _ (by decide), reaches]
    rfl
  rw [aim_concat tree base proper, allowed, start_append tree base proper [], front]
  rfl

/-! ## Names that are not there -/

/-- Nothing has the given name in a directory. -/
structure Lacks (tree : FileTree) (base : Path) (place : Place) (name : Name) : Prop where
  reaches : tree.Reaches base place
  proper : name.IsProper
  short : name.length ≤ Name.longest
  nothing : tree.nodes[place ++ [name]]? = none

theorem Lacks.walk (lacks : tree.Lacks base place name) (rest : Path) :
    tree.walk place (name :: rest) = .error .notFound := by
  rw [walk_proper tree lacks.proper, if_neg (Nat.not_lt.mpr lacks.short), lacks.nothing]

theorem Lacks.locate (lacks : tree.Lacks base place name) {rest : Path}
    (allowed : refusal? (base ++ name :: rest) = none) :
    tree.locate (base ++ name :: rest) = .error .notFound := by
  unfold FileTree.locate
  rw [allowed]
  exact (lacks.reaches.walk lacks.proper rest).trans (lacks.walk rest)

/-- Nothing can be changed below a name that is not there. -/
theorem Lacks.aim (lacks : tree.Lacks base place name) {between : Path} {last : Name}
    (proper : last.IsProper) (allowed : refusal? (base ++ name :: (between ++ [last])) = none) :
    tree.aim (base ++ name :: (between ++ [last])) = .error .notFound := by
  have split : base ++ name :: (between ++ [last]) = (base ++ name :: between) ++ [last] := by
    rw [List.append_assoc, List.cons_append]
  have start := start_append tree base lacks.proper (between ++ [last])
  have missing : tree.walk (tree.origin base) ((base ++ name :: between) ++ Path.empty) =
      .error .notFound := by
    rw [List.append_assoc, List.cons_append, ← start_append tree base lacks.proper,
      lacks.reaches.walk lacks.proper]
    exact lacks.walk _
  rw [split] at allowed start ⊢
  rw [aim_concat tree _ proper, allowed, start, missing]
  rfl

/-! ## Making directories -/

theorem ensureDirectory_there (reaches : tree.Reaches base place) (proper : name.IsProper)
    (short : name.length ≤ Name.longest) (allowed : refusal? (base ++ [name]) = none)
    (there : tree.nodes[place ++ [name]]? = some .directory) :
    tree.ensureDirectory (base ++ [name]) = (.ok (), tree) := by
  have contained : tree.nodes.contains (place ++ [name]) = true := by
    rw [Std.TreeMap.contains_eq_isSome_getElem?, there]
    rfl
  have made : tree.makeDirectory (base ++ [name]) = (.error .alreadyExists, tree) := by
    unfold makeDirectory
    rw [reaches.aim proper allowed]
    simp only
    rw [if_neg (Nat.not_lt.mpr short), if_pos contained]
  have found : tree.hasDirectory (base ++ [name]) = true := by
    have last := (walk_last_eq_ok proper).mpr ⟨short, rfl, there⟩
    unfold hasDirectory FileTree.locate
    rw [allowed]
    simp only
    rw [reaches.walk proper, last]
  unfold ensureDirectory
  rw [made]
  simp only
  rw [if_pos found]

theorem Lacks.ensureDirectory (lacks : tree.Lacks base place name)
    (allowed : refusal? (base ++ [name]) = none) :
    tree.ensureDirectory (base ++ [name]) = (.ok (), tree.put (place ++ [name]) .directory) := by
  have absent : ¬tree.nodes.contains (place ++ [name]) = true := by
    rw [Std.TreeMap.contains_eq_isSome_getElem?, lacks.nothing]
    exact Bool.false_ne_true
  unfold FileTree.ensureDirectory makeDirectory
  rw [lacks.reaches.aim lacks.proper allowed]
  simp only
  rw [if_neg (Nat.not_lt.mpr lacks.short), if_neg absent]

/-- A directory cannot be made below a name that is not there. -/
theorem Lacks.ensureDirectory_below (lacks : tree.Lacks base place name) {between : Path}
    {last : Name} (proper : last.IsProper)
    (allowed : refusal? (base ++ name :: (between ++ [last])) = none) :
    tree.ensureDirectory (base ++ name :: (between ++ [last])) = (.error .notFound, tree) := by
  have lost : tree.hasDirectory (base ++ name :: (between ++ [last])) = false := by
    unfold hasDirectory
    rw [lacks.locate allowed]
  unfold FileTree.ensureDirectory makeDirectory
  rw [lacks.aim proper allowed]
  simp only
  rw [lost]
  rfl

theorem getElem?_put (tree : FileTree) (place other : Place) (node : Node) :
    (tree.put place node).nodes[other]? =
      if other = place then some node else tree.nodes[other]? := by
  unfold put
  rw [Std.TreeMap.getElem?_insert]
  exact if_congr (Std.LawfulEqCmp.compare_eq_iff_eq.trans eq_comm) rfl rfl

/-- The places that names lead to one after the other from a place. -/
def Along (place : Place) (names : Path) (other : Place) : Prop :=
  ∃ front, front ≠ [] ∧ front <+: names ∧ other = place ++ front

theorem along_append {place : Place} {names below : Path} :
    Along place names (place ++ below) ↔ below ≠ [] ∧ below <+: names := by
  constructor
  · rintro ⟨front, filled, inside, same⟩
    obtain rfl := List.append_cancel_left same
    exact ⟨filled, inside⟩
  · rintro ⟨filled, inside⟩
    exact ⟨below, filled, inside, rfl⟩

theorem along_concat {place other : Place} {names : Path} {last : Name} :
    Along place (names ++ [last]) other ↔
      other = place ++ (names ++ [last]) ∨ Along place names other := by
  constructor
  · rintro ⟨front, filled, inside, rfl⟩
    rcases List.prefix_concat_iff.mp inside with rfl | inside
    · exact .inl rfl
    · exact .inr ⟨front, filled, inside, rfl⟩
  · rintro (rfl | ⟨front, filled, inside, rfl⟩)
    · exact ⟨_, List.concat_ne_nil last names, List.prefix_rfl, rfl⟩
    · exact ⟨front, filled, inside.trans (List.prefix_append names [last]), rfl⟩

/-- The later tree has directories along the given names, and nothing else is different. -/
structure Grows (tree : FileTree) (place : Place) (names : Path) (next : FileTree) : Prop where
  home : next.home = tree.home
  along : ∀ {other}, Along place names other → next.nodes[other]? = some .directory
  elsewhere : ∀ {other}, ¬Along place names other → next.nodes[other]? = tree.nodes[other]?

theorem Grows.refl (tree : FileTree) (place : Place) : tree.Grows place [] tree where
  home := rfl
  along := by
    rintro _ ⟨front, filled, inside, _⟩
    exact absurd (List.prefix_nil.mp inside) filled
  elsewhere _ := rfl

theorem Grows.concat {names : Path} (grows : tree.Grows place names next) (last : Name) :
    tree.Grows place (names ++ [last]) (next.put (place ++ (names ++ [last])) .directory) where
  home := grows.home
  along {other} along := by
    rw [getElem?_put]
    rcases along_concat.mp along with rfl | earlier
    · exact if_pos rfl
    · rw [grows.along earlier, ite_self]
  elsewhere {other} outside := by
    obtain ⟨different, earlier⟩ := not_or.mp (mt along_concat.mpr outside)
    rw [getElem?_put, if_neg different]
    exact grows.elsewhere earlier

/-- Nothing is along the given names, which can all be names of directories. -/
structure Vacant (tree : FileTree) (place : Place) (names : Path) : Prop where
  fits : ∀ name ∈ names, name.IsProper ∧ name.length ≤ Name.longest
  nothing : ∀ {other}, Along place names other → tree.nodes[other]? = none

theorem Vacant.init {names : Path} {last : Name} (vacant : tree.Vacant place (names ++ [last])) :
    tree.Vacant place names where
  fits name mem := vacant.fits name (List.mem_append_left _ mem)
  nothing along := vacant.nothing (along_concat.mpr (.inr along))

theorem Vacant.lacks {first : Name} {rest : Path} (reaches : tree.Reaches base place)
    (vacant : tree.Vacant place (first :: rest)) : tree.Lacks base place first where
  reaches := reaches
  proper := (vacant.fits first List.mem_cons_self).1
  short := (vacant.fits first List.mem_cons_self).2
  nothing := by
    apply vacant.nothing
    exact ⟨[first], List.cons_ne_nil _ _, List.prefix_cons_inj first |>.mpr List.nil_prefix, rfl⟩

/-- Only the first of the directories can be made at once. -/
theorem Vacant.ensureDirectory_last {names : Path} {last : Name}
    (vacant : tree.Vacant place (names ++ [last])) (filled : names ≠ [])
    (reaches : tree.Reaches base place) (allowed : refusal? (base ++ (names ++ [last])) = none) :
    tree.ensureDirectory (base ++ (names ++ [last])) = (.error .notFound, tree) := by
  have proper := (vacant.fits last List.mem_concat_self).1
  cases names with
  | nil => exact absurd rfl filled
  | cons first rest => exact (vacant.lacks reaches).ensureDirectory_below proper allowed

theorem Grows.nothing {names : Path} {last : Name} (grows : tree.Grows place names next)
    (vacant : tree.Vacant place (names ++ [last])) :
    next.nodes[place ++ (names ++ [last])]? = none := by
  have outside : ¬Along place names (place ++ (names ++ [last])) := by
    intro along
    have shorter := (along_append.mp along).2.length_le
    rw [List.length_append] at shorter
    exact absurd shorter (by simp)
  rw [grows.elsewhere outside]
  exact vacant.nothing (along_concat.mpr (.inl rfl))

/-- One more directory is made inside the last one. -/
theorem Grows.extend {names : Path} {last : Name} (grows : tree.Grows place names next)
    (reaches : next.Reaches (base ++ names) (place ++ names))
    (vacant : tree.Vacant place (names ++ [last]))
    (allowed : refusal? (base ++ (names ++ [last])) = none) :
    ∃ grown, next.ensureDirectory (base ++ (names ++ [last])) = (.ok (), grown) ∧
      tree.Grows place (names ++ [last]) grown ∧
      grown.Reaches (base ++ (names ++ [last])) (place ++ (names ++ [last])) := by
  obtain ⟨proper, short⟩ := vacant.fits last (List.mem_concat_self)
  have nothing := grows.nothing vacant
  have extended := extends_put nothing
  have there : (next.put (place ++ (names ++ [last])) .directory).nodes[
      place ++ (names ++ [last])]? = some .directory := by
    rw [getElem?_put, if_pos rfl]
  refine ⟨_, ?_, grows.concat last, ?_⟩
  · rw [← List.append_assoc] at nothing allowed ⊢
    rw [← List.append_assoc place]
    exact Lacks.ensureDirectory ⟨reaches, proper, short, nothing⟩ allowed
  · rw [← List.append_assoc base]
    rw [← List.append_assoc place] at extended there ⊢
    exact (reaches.mono extended.home extended.directories).concat proper short there

theorem Lacks.vacant (lacks : tree.Lacks base place name) : tree.Vacant place [name] where
  fits other mem := by
    obtain rfl := List.mem_singleton.mp mem
    exact ⟨lacks.proper, lacks.short⟩
  nothing := by
    rintro _ ⟨front, filled, inside, rfl⟩
    cases front with
    | nil => exact absurd rfl filled
    | cons first more =>
        obtain ⟨rfl, last⟩ := List.cons_prefix_cons.mp inside
        rw [List.prefix_nil.mp last]
        exact lacks.nothing

/-- Directories are made one inside the other, from the outside in. -/
theorem ensureLine_grows (reaches : tree.Reaches base place) {names : Path} (filled : names ≠ [])
    (vacant : tree.Vacant place names) (allowed : refusal? (base ++ names) = none) {count : Nat}
    (enough : names.length ≤ count) :
    ∃ next, tree.ensureLine (Path.upwards count (base ++ names)) = (.ok (), next) ∧
      tree.Grows place names next ∧ next.Reaches (base ++ names) (place ++ names) := by
  induction names using List.reverseRecOn generalizing count with
  | nil => exact absurd rfl filled
  | append_singleton names last ih =>
      obtain ⟨proper, _⟩ := vacant.fits last List.mem_concat_self
      rw [List.length_append, List.length_singleton] at enough
      obtain ⟨count, rfl⟩ : ∃ fewer, count = fewer + 1 := ⟨count - 1, by omega⟩
      have line := Path.upwards_concat (base ++ names) proper count
      rw [List.append_assoc] at line
      rcases List.eq_nil_or_concat' names with rfl | ⟨init, above, rfl⟩
      · have here : tree.Reaches (base ++ []) (place ++ []) := by
          rw [List.append_nil, List.append_nil]
          exact reaches
        obtain ⟨grown, made, rest⟩ := (Grows.refl tree place).extend here vacant allowed
        exact ⟨grown, by rw [line, ensureLine, made], rest⟩
      · have filled := List.concat_ne_nil above init
        have properAbove := (vacant.init.fits above List.mem_concat_self).1
        have whole : base ++ (init ++ [above] ++ [last]) = (base ++ init) ++ [above, last] := by
          simp only [List.append_assoc, List.singleton_append]
        have allowedAbove : refusal? (base ++ (init ++ [above])) = none := by
          rw [← List.append_assoc]
          exact allowed_of_append properAbove (whole ▸ allowed)
        have parent : Path.parent? (base ++ (init ++ [above] ++ [last])) =
            some (base ++ (init ++ [above])) := by
          rw [whole, Path.parent?_concat _ properAbove proper, List.append_assoc]
        have fewer : (init ++ [above]).length ≤ count := Nat.le_of_succ_le_succ enough
        obtain ⟨ready, made, grows, reached⟩ := ih filled vacant.init allowedAbove fewer
        obtain ⟨grown, added, rest⟩ := grows.extend reached vacant allowed
        refine ⟨grown, ?_, rest⟩
        rw [line, parent, ensureLine, vacant.ensureDirectory_last filled reaches allowed]
        simp only [Option.map_some, Option.getD_some]
        rw [made]
        exact added

/-! ## Saving files in new directories -/

theorem makeDirectories_there (reaches : tree.Reaches base place) (proper : name.IsProper)
    (short : name.length ≤ Name.longest) (allowed : refusal? (base ++ [name]) = none)
    (there : tree.nodes[place ++ [name]]? = some .directory) :
    tree.makeDirectories (base ++ [name]) = (.ok (), tree) := by
  unfold makeDirectories Path.lineage
  rw [Path.upwards_concat base proper, ensureLine,
    ensureDirectory_there reaches proper short allowed there]

theorem makeDirectories_grows (reaches : tree.Reaches base place) {names : Path}
    (filled : names ≠ []) (vacant : tree.Vacant place names)
    (allowed : refusal? (base ++ names) = none) :
    ∃ next, tree.makeDirectories (base ++ names) = (.ok (), next) ∧
      tree.Grows place names next ∧ next.Reaches (base ++ names) (place ++ names) := by
  apply ensureLine_grows reaches filled vacant allowed
  rw [List.length_append]
  omega

/-- A file is saved in a directory that is there once the directories above it are made. -/
theorem save_eq_ok {above : Name} {bytes : List UInt8} (inside : above.IsProper)
    (made : tree.makeDirectories (base ++ [above]) = (.ok (), next))
    (reaches : next.Reaches (base ++ [above]) place) (proper : name.IsProper)
    (short : name.length ≤ Name.longest) (allowed : refusal? (base ++ [above, name]) = none)
    (other : next.nodes[place ++ [name]]? ≠ some .directory) :
    tree.save (base ++ [above, name]) bytes =
      (.ok (), next.put (place ++ [name]) (.file bytes)) := by
  have whole : base ++ [above, name] = (base ++ [above]) ++ [name] := by
    rw [List.append_assoc, List.singleton_append]
  have aimed := reaches.aim proper (whole ▸ allowed)
  have put : next.putFile (base ++ [above, name]) bytes =
      (.ok (), next.put (place ++ [name]) (.file bytes)) := by
    unfold putFile
    rw [whole, aimed]
    simp only
    rw [Path.isClosed_concat _ proper, if_neg Bool.false_ne_true, if_neg (Nat.not_lt.mpr short)]
  unfold save
  rw [Path.parent?_concat base inside proper, Option.getD_some]
  simp only [made, put]

end FileTree
end RobotBlocks.Store
