import PartitionSnapshot.Proofs.View
import PartitionSnapshot.Store.Basic

/-!
# Where paths lead

A path to something inside a directory takes the steps to the directory and one step more. Steps
are followed through directories, so where they lead is decided by the view of the tree; it does not
change while the directories on the way stay.

A root directory is *rooted* at a place when its path leads there without passing through the
directories in which generations are kept. Those come and go while a store works, and a path through
one of them, such as `root/snapshot/..`, comes and goes with it.

## Main statements

* `steps_join`: the steps to an entry of a directory.
* `Rooted.locate_join`, `Rooted.locate_file`: where the paths of a store lead.
* `Rooted.of_agree`: changes to generations do not move the root.
-/

namespace PartitionSnapshot

/-! ## Paths to entries -/

namespace Path

theorem componentsFrom_append (component front back : List Char) :
    componentsFrom component (front ++ '/' :: back) =
      componentsFrom component front ++ componentsFrom [] back := by
  -- along the front; at each slash in it a component is closed, and a new one begins
  induction front generalizing component with
  | nil =>
    simp only [List.nil_append, componentsFrom, if_true]
    split <;> rfl
  | cons c front ih =>
    simp only [List.cons_append, componentsFrom]
    split
    · split
      · exact ih []
      · rw [ih [], List.cons_append]
    · exact ih (c :: component)

/-- A name as one can stand in a directory: a path of its own that takes one step down. -/
structure IsName (name : String) : Prop where
  /-- It is not empty, has no slashes, and is neither `.` nor `..`. -/
  steps : (⟨name⟩ : Path).steps = [.down name]
  /-- The system takes it as the last name of a path to a file. -/
  slash : name.toList.getLast? ≠ some '/'
  null : name.toList.contains '\x00' = false
  size : name.utf8ByteSize ≤ FileTree.maxName

instance (name : String) : Decidable (IsName name) :=
  decidable_of_iff ((⟨name⟩ : Path).steps = [.down name] ∧ name.toList.getLast? ≠ some '/' ∧
      name.toList.contains '\x00' = false ∧ name.utf8ByteSize ≤ FileTree.maxName)
    ⟨fun ⟨steps, slash, null, size⟩ => ⟨steps, slash, null, size⟩,
     fun ⟨steps, slash, null, size⟩ => ⟨steps, slash, null, size⟩⟩

theorem IsName.toList_ne_nil {name : String} (h : IsName name) : name.toList ≠ [] := by
  intro hnil
  have hname : name = "" := by simpa using hnil
  subst hname
  exact absurd h.steps (by decide)

/-- What stands before the names in the paths of the entries of a directory. -/
def stem (base : Path) : String :=
  if base.text.isEmpty then ""
  else if base.text.toList.getLast? = some '/' then base.text
  else base.text ++ "/"

/-- The stem is the text, with a slash behind it or without. -/
theorem stem_eq (base : Path) :
    ∃ slash, base.stem = base.text ++ slash ∧ (slash = "" ∨ slash = "/") := by
  unfold stem
  split
  · next hempty =>
    have hbase : base.text = "" := by simpa using hempty
    exact ⟨"", by rw [hbase]; rfl, .inl rfl⟩
  · split
    · exact ⟨"", String.append_empty.symm, .inl rfl⟩
    · exact ⟨"/", rfl, .inr rfl⟩

theorem size_text_le (base : Path) : base.text.utf8ByteSize ≤ base.stem.utf8ByteSize := by
  obtain ⟨slash, hstem, -⟩ := base.stem_eq
  rw [hstem, String.utf8ByteSize_append]
  omega

theorem text_join (base : Path) (name : String) : (base.join name).text = base.stem ++ name := by
  unfold join stem
  split
  · exact String.empty_append.symm
  · split <;> rfl

/-- Entries of one directory with different names have different paths. -/
theorem join_inj {base : Path} {name name' : String} (h : base.join name = base.join name') :
    name = name' := by
  -- both paths are the stem of the directory and a name
  have htext := congrArg Path.text h
  rw [text_join, text_join] at htext
  have hlist := congrArg String.toList htext
  rw [String.toList_append, String.toList_append] at hlist
  exact String.toList_inj.1 (List.append_cancel_left hlist)

/-- The path of an entry does not end in a slash. -/
theorem getLast?_join (base : Path) {name : String} (h : IsName name) :
    (base.join name).text.toList.getLast? = name.toList.getLast? := by
  rw [text_join, String.toList_append, List.getLast?_append,
    List.getLast?_eq_some_getLast h.toList_ne_nil, Option.some_or]

theorem endsInSlash_join (base : Path) {name : String} (h : IsName name) :
    (base.join name).endsInSlash = false := by
  simp only [endsInSlash, getLast?_join base h, decide_eq_false_iff_not]
  exact h.slash

theorem isEmpty_join (base : Path) {name : String} (h : IsName name) :
    (base.join name).text.isEmpty = false := by
  rw [Bool.eq_false_iff]
  intro hempty
  have htext : (base.join name).text = "" := by simpa using hempty
  rw [text_join] at htext
  -- the name alone keeps the path from being empty
  have hname : name = "" := (by simpa using htext : base.stem = "" ∧ name = "").2
  exact h.toList_ne_nil (by simp [hname])

/-- Below an entry, its name and a slash come in front. -/
theorem stem_join (base : Path) {name : String} (h : IsName name) :
    (base.join name).stem = base.stem ++ name ++ "/" := by
  unfold stem
  rw [isEmpty_join base h, getLast?_join base h, if_neg h.slash]
  exact congrArg (· ++ "/") (text_join base name)

/-- The components of a text before a slash at its end, and of the text with it. -/
theorem components_slash (front : List Char) :
    componentsFrom [] (front ++ ['/']) = componentsFrom [] front := by
  have hback : componentsFrom [] [] = [] := rfl
  rw [componentsFrom_append, hback, List.append_nil]

theorem components_join (base : Path) (name : String) :
    componentsFrom [] (base.join name).text.toList =
      componentsFrom [] base.text.toList ++ componentsFrom [] name.toList := by
  unfold join
  split
  · -- one case for each way in which `join` puts the parts together
    next hempty =>
    have hbase : base.text = "" := by simpa using hempty
    rw [hbase]
    rfl
  · split
    · next hslash =>
      obtain ⟨front, hfront⟩ := List.getLast?_eq_some_iff.1 hslash
      rw [String.toList_append, hfront, components_slash, List.append_assoc]
      exact componentsFrom_append [] front name.toList
    · rw [String.toList_append, String.toList_append, List.append_assoc]
      exact componentsFrom_append [] base.text.toList name.toList

/-- The steps to an entry of a directory are those to the directory, and one down. -/
theorem steps_join (base : Path) {name : String} (h : IsName name) :
    (base.join name).steps = base.steps ++ [.down name] := by
  have hname : (componentsFrom [] name.toList).map Step.ofComponent = [.down name] := h.steps
  rw [steps, components_join, List.map_append, hname]
  rfl

end Path

/-! ## Following steps -/

namespace View

/-- The place to which steps lead through directories. -/
def enter (view : View) : (place : List String) → List Path.Step → Option (List String)
  | place, [] => some place
  | place, .stay :: rest => enter view place rest
  | place, .up :: rest => enter view place.dropLast rest
  | place, .down name :: rest =>
    if name.utf8ByteSize ≤ FileTree.maxName ∧ view (place ++ [name]) = some .directory then
      enter view (place ++ [name]) rest
    else none

theorem enter_down_eq_some {view : View} {place place' : List String} {name : String}
    {rest : List Path.Step} : view.enter place (.down name :: rest) = some place' ↔
      (name.utf8ByteSize ≤ FileTree.maxName ∧ view (place ++ [name]) = some .directory) ∧
        view.enter (place ++ [name]) rest = some place' := by
  rw [enter, Option.ite_none_right_eq_some]

theorem enter_append (view : View) (place : List String) (steps rest : List Path.Step) :
    view.enter place (steps ++ rest) =
      (view.enter place steps).bind fun middle => view.enter middle rest := by
  -- along the first steps; a step that leads nowhere ends both sides
  induction steps generalizing place with
  | nil => rfl
  | cons step steps ih =>
    cases step with
    | stay => exact ih place
    | up => exact ih place.dropLast
    | down name =>
      simp only [List.cons_append, enter]
      split
      · exact ih (place ++ [name])
      · rfl

/-- Where steps lead, they lead in every view that has the same directories, and more. -/
theorem enter_mono {view view' : View}
    (h : ∀ place, view place = some .directory → view' place = some .directory)
    {place place' : List String} {steps : List Path.Step}
    (henter : view.enter place steps = some place') : view'.enter place steps = some place' := by
  -- only steps down look at the view, and only for a directory
  induction steps generalizing place with
  | nil => exact henter
  | cons step rest ih =>
    cases step with
    | stay => exact ih henter
    | up => exact ih henter
    | down name =>
      rw [enter_down_eq_some] at henter ⊢
      obtain ⟨⟨hsize, hdirectory⟩, henter⟩ := henter
      exact ⟨⟨hsize, h _ hdirectory⟩, ih henter⟩

end View

namespace FileTree

/-- Steps that lead to a place can be taken before any others. -/
theorem follow_enter {tree : FileTree} {place place' : List String} {steps rest : List Path.Step}
    (h : tree.view.enter place steps = some place') (hrest : rest ≠ []) :
    tree.follow place (steps ++ rest) = tree.follow place' rest := by
  -- along the steps to the place, each of which leads to a directory
  induction steps generalizing place with
  | nil =>
    cases h
    rfl
  | cons step steps ih =>
    cases step with
    | stay => exact ih h
    | up => exact ih h
    | down name =>
      obtain ⟨⟨hsize, hdirectory⟩, h⟩ := View.enter_down_eq_some.1 h
      obtain ⟨children, hchildren⟩ := at?_of_view_directory hdirectory
      -- there is a step behind this one, so it has to lead through a directory
      obtain ⟨next, others, hothers⟩ := List.exists_cons_of_ne_nil
        (List.append_ne_nil_of_right_ne_nil steps hrest)
      have htail := ih h
      rw [List.cons_append, hothers] at *
      rw [follow, if_neg (Nat.not_lt.2 hsize), hchildren]
      · exact htail
      · simp

variable {tree : FileTree} {path : Path} {place : List String} {name : String}

theorem follow_join (h : tree.view.enter [] path.steps = some place) (hname : Path.IsName name) :
    tree.follow [] (path.join name).steps = .ok (.entry place name) := by
  -- the steps to the directory lead there, and the name is one more
  rw [Path.steps_join path hname, follow_enter h (List.cons_ne_nil _ _)]
  simp only [follow]
  exact if_neg (Nat.not_lt.2 hname.size)

/-- A path to an entry of a directory leads to that entry, if the system accepts the path. -/
theorem locate_join (h : tree.view.enter [] path.steps = some place) (hname : Path.IsName name) :
    tree.locate (path.join name) =
      (checkPath (path.join name)).bind fun _ => .ok (.entry place name) := by
  unfold locate
  rw [Path.isEmpty_join path hname, follow_join h hname]
  rfl

end FileTree

/-! ## Accepted paths -/

namespace FileTree

theorem checkPath_eq_ok {path : Path} : checkPath path = .ok () ↔
    path.text.toList.contains '\x00' = false ∧ path.text.utf8ByteSize ≤ maxPath := by
  unfold checkPath
  split
  · next hnull =>
    rw [hnull]
    simp
  · next hnull =>
    rw [Bool.not_eq_true] at hnull
    rw [hnull]
    -- no null character, so the length decides
    split
    · next hsize =>
      simp only [refuse, reduceCtorEq, true_and, false_iff]
      omega
    · next hsize =>
      simp only [true_and, true_iff]
      omega

/-- The path of a directory is accepted where that of an entry is. -/
theorem checkPath_of_join {base : Path} {name : String}
    (h : checkPath (base.join name) = .ok ()) : checkPath base = .ok () := by
  rw [checkPath_eq_ok, Path.text_join, String.toList_append, List.contains_append,
    Bool.or_eq_false_iff, String.utf8ByteSize_append] at h
  obtain ⟨⟨hnull, -⟩, hbytes⟩ := h
  obtain ⟨slash, hstem, -⟩ := base.stem_eq
  rw [hstem, String.toList_append, List.contains_append, Bool.or_eq_false_iff] at hnull
  have hsize := base.size_text_le
  exact checkPath_eq_ok.2 ⟨hnull.1, by omega⟩

/-- A path that the system does not accept leads nowhere. -/
theorem locate_of_refused {path : Path} {tree : FileTree} {failure : Failure}
    (h : checkPath path = .error failure) : tree.locate path = .error failure := by
  rw [locate, h]
  rfl

theorem checkPath_of_locate {path : Path} {tree : FileTree} {spot : Spot}
    (h : tree.locate path = .ok spot) : checkPath path = .ok () := by
  cases hcheck : checkPath path with
  | error failure =>
    rw [locate_of_refused hcheck] at h
    cases h
  | ok _ => rfl

end FileTree

namespace Layout

/-- The system accepts paths that lead to entries below a root with names of so many bytes. -/
structure Room (root : Path) (size : Nat) : Prop where
  null : root.stem.toList.contains '\x00' = false
  bytes : root.stem.utf8ByteSize + size ≤ FileTree.maxPath

namespace Room

variable {root : Path} {size : Nat} {name : String}

theorem mono {size' : Nat} (h : Room root size) (hle : size' ≤ size) : Room root size' :=
  ⟨h.null, Nat.le_trans (Nat.add_le_add_left hle _) h.bytes⟩

theorem join (h : Room root size) (hname : Path.IsName name) (hsize : name.utf8ByteSize ≤ size) :
    FileTree.checkPath (root.join name) = .ok () := by
  -- behind the stem there is room for the name
  have hbytes := (h.mono hsize).bytes
  rw [FileTree.checkPath_eq_ok, Path.text_join, String.toList_append, String.utf8ByteSize_append,
    List.contains_append, h.null, hname.null]
  exact ⟨rfl, hbytes⟩

theorem file (h : Room root size) {file : String} (hname : Path.IsName name)
    (hfile : Path.IsName file)
    (hsize : name.utf8ByteSize + 1 + file.utf8ByteSize ≤ size) :
    FileTree.checkPath ((root.join name).join file) = .ok () := by
  have hslash : "/".utf8ByteSize = 1 := by decide
  have hbytes := (h.mono hsize).bytes
  rw [FileTree.checkPath_eq_ok, Path.text_join, Path.stem_join root hname]
  simp only [String.toList_append, String.utf8ByteSize_append, List.contains_append, h.null,
    hname.null, hfile.null, hslash]
  exact ⟨by decide, by omega⟩

/-- There is room behind a text that is short enough, with a slash behind it. -/
theorem of_text (hnull : root.text.toList.contains '\x00' = false)
    (hbytes : root.text.utf8ByteSize + 1 + size ≤ FileTree.maxPath) : Room root size := by
  obtain ⟨slash, hstem, hslash⟩ := root.stem_eq
  have hshort : slash.toList.contains '\x00' = false ∧ slash.utf8ByteSize ≤ 1 := by
    rcases hslash with rfl | rfl <;> decide
  constructor
  · rw [hstem, String.toList_append, List.contains_append, hnull, hshort.1]
    rfl
  · rw [hstem, String.utf8ByteSize_append]
    omega

/-- There is room for a path that is accepted. -/
theorem of_checkPath {file : String} (hname : Path.IsName name)
    (h : FileTree.checkPath ((root.join name).join file) = .ok ()) :
    Room root (name.utf8ByteSize + 1 + file.utf8ByteSize) := by
  -- the path is the stem of the root, and the names behind it
  have htext : ((root.join name).join file).text = root.stem ++ (name ++ "/" ++ file) := by
    rw [Path.text_join, Path.stem_join root hname]
    simp only [String.append_assoc]
  have hslash : "/".utf8ByteSize = 1 := by decide
  obtain ⟨hnull, hlength⟩ := FileTree.checkPath_eq_ok.1 h
  rw [htext, String.toList_append, List.contains_append, Bool.or_eq_false_iff] at hnull
  simp only [htext, String.utf8ByteSize_append, hslash] at hlength
  exact ⟨hnull.1, by omega⟩

end Room

/-- The system accepts the paths of a store with the given root: the longest of them is that of the
multipart file of a generation while it is written. -/
def Accepted (root : Path) : Prop :=
  FileTree.checkPath (entityFile (root.join staging) .multipart) = .ok ()

instance (root : Path) : Decidable (Accepted root) :=
  decidable_of_iff _ FileTree.checkPath_eq_ok.symm

/-- The system accepts the paths of a current generation: the longest of them is that of its
multipart file. -/
def Readable (root : Path) : Prop :=
  FileTree.checkPath (entityFile (root.join current) .multipart) = .ok ()

theorem Accepted.room {root : Path} (h : Accepted root) : Room root 19 :=
  Room.of_checkPath (by decide : Path.IsName staging) h

theorem Readable.room {root : Path} (h : Readable root) : Room root 18 :=
  Room.of_checkPath (by decide : Path.IsName current) h

/-- Where generations can be written they can be read. -/
theorem Accepted.readable {root : Path} (h : Accepted root) : Readable root :=
  h.room.file (by decide) (by decide) (by decide)

end Layout

/-! ## Roots -/

namespace Layout

/-- The directories in which generations are kept. -/
def generations : List String := [current, staging, backup]

theorem isName_of_mem_names {name : String} (h : name ∈ names) : Path.IsName name := by
  revert name
  decide

end Layout

theorem Kind.isName_name (kind : Kind) : Path.IsName kind.name := by
  cases kind <;> decide

namespace View

/-- Whether a place lies in one of the generations of the root at `root`. -/
def InGenerations (root place : List String) : Prop :=
  ∃ name ∈ Layout.generations, root ++ [name] <+: place

instance (root place : List String) : Decidable (InGenerations root place) :=
  inferInstanceAs (Decidable (∃ name ∈ Layout.generations, root ++ [name] <+: place))

/-- Two views that differ in the generations of a root alone. -/
def AgreeOutside (root : List String) (view view' : View) : Prop :=
  ∀ place, ¬ InGenerations root place → view' place = view place

theorem AgreeOutside.refl (root : List String) (view : View) : AgreeOutside root view view :=
  fun _ _ => rfl

theorem AgreeOutside.trans {root : List String} {view view' view'' : View}
    (h : AgreeOutside root view view') (h' : AgreeOutside root view' view'') :
    AgreeOutside root view view'' :=
  fun place hplace => (h' place hplace).trans (h place hplace)

theorem AgreeOutside.symm {root : List String} {view view' : View}
    (h : AgreeOutside root view view') : AgreeOutside root view' view :=
  fun place hplace => (h place hplace).symm

theorem AgreeOutside.graft {root rest : List String} {name : String} (view part : View)
    (h : name ∈ Layout.generations) :
    AgreeOutside root view (view.graft (root ++ name :: rest) part) := by
  intro place hplace
  apply graft_elsewhere
  intro hunder
  -- the place would lie below one of the generations
  refine hplace ⟨name, h, List.IsPrefix.trans ?_ hunder⟩
  rw [List.prefix_append_right_inj]
  exact ⟨rest, rfl⟩

theorem not_inGenerations_root (root : List String) : ¬ InGenerations root root := by
  rintro ⟨name, -, hunder⟩
  -- a place in a generation has one name more than the root
  have hlength := hunder.length_le
  simp only [List.length_append, List.length_singleton] at hlength
  omega

/-- The view without the generations of a root. -/
def withoutGenerations (view : View) (root : List String) : View := fun place =>
  if InGenerations root place then none else view place

theorem withoutGenerations_of_agree {root : List String} {view view' : View}
    (h : AgreeOutside root view view') :
    view'.withoutGenerations root = view.withoutGenerations root := by
  funext place
  unfold withoutGenerations
  -- in the generations nothing is left on either side
  split
  · rfl
  · next hplace => exact h place hplace

/-- The path `path` leads to the directory at `place`, through none of its generations. -/
structure Rooted (view : View) (path : Path) (place : List String) : Prop where
  /-- There is a directory at the place. -/
  directory : view place = some .directory
  /-- The path leads there without the generations. -/
  reached : (view.withoutGenerations place).enter [] path.steps = some place

instance (view : View) (path : Path) (place : List String) : Decidable (view.Rooted path place) :=
  decidable_of_iff (view place = some .directory ∧
    (view.withoutGenerations place).enter [] path.steps = some place)
    ⟨fun h => ⟨h.1, h.2⟩, fun h => ⟨h.directory, h.reached⟩⟩

namespace Rooted

variable {view view' : View} {path : Path} {place : List String}

/-- Changes to the generations do not move the root. -/
theorem of_agree (h : view.Rooted path place) (hagree : AgreeOutside place view view') :
    view'.Rooted path place where
  directory := (hagree place (not_inGenerations_root place)).trans h.directory
  reached := by rw [withoutGenerations_of_agree hagree]; exact h.reached

theorem enter (h : view.Rooted path place) : view.enter [] path.steps = some place := by
  -- what is left without the generations is a part of the view
  refine enter_mono (fun other hother => ?_) h.reached
  unfold withoutGenerations at hother
  split at hother
  · cases hother
  · exact hother

variable {tree : FileTree}

theorem follow_join (h : tree.view.Rooted path place) {name : String} (hname : Path.IsName name) :
    tree.follow [] (path.join name).steps = .ok (.entry place name) :=
  FileTree.follow_join h.enter hname

/-- A path to an entry of the root leads to that entry, if the system accepts the path. -/
theorem locate_join (h : tree.view.Rooted path place) {name : String} (hname : Path.IsName name) :
    tree.locate (path.join name) =
      (FileTree.checkPath (path.join name)).bind fun _ => .ok (.entry place name) :=
  FileTree.locate_join h.enter hname

theorem follow_file (h : tree.view.Rooted path place) {name file : String}
    (hname : Path.IsName name) (hfile : Path.IsName file) :
    tree.follow [] ((path.join name).join file).steps =
      match tree.view (place ++ [name]) with
      | none => FileTree.refuse .noEntry
      | some (.file _) => FileTree.refuse .notDirectory
      | some .directory => .ok (.entry (place ++ [name]) file) := by
  -- the steps to the root are taken; what stands at the name decides about the next
  rw [Path.steps_join _ hfile, Path.steps_join path hname, List.append_assoc,
    FileTree.follow_enter h.enter (by simp)]
  simp only [List.cons_append, List.nil_append, FileTree.follow]
  rw [if_neg (Nat.not_lt.2 hname.size), if_neg (Nat.not_lt.2 hfile.size)]
  unfold FileTree.view
  cases tree.at? (place ++ [name]) with
  | none => rfl
  | some child => cases child <;> rfl

/-- A path to a file in a directory of the root leads there, if there is that directory and the
system accepts the path. -/
theorem locate_file (h : tree.view.Rooted path place) {name file : String}
    (hname : Path.IsName name) (hfile : Path.IsName file) :
    tree.locate ((path.join name).join file) =
      (FileTree.checkPath ((path.join name).join file)).bind fun _ =>
        match tree.view (place ++ [name]) with
        | none => FileTree.refuse .noEntry
        | some (.file _) => FileTree.refuse .notDirectory
        | some .directory => .ok (.entry (place ++ [name]) file) := by
  unfold FileTree.locate
  rw [Path.isEmpty_join _ hfile, h.follow_file hname hfile]
  rfl

end Rooted

end View

end PartitionSnapshot
