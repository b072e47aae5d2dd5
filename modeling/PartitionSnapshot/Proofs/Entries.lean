import PartitionSnapshot.Proofs.Requests

/-!
# Files that are overwritten

Whether a path leads to a file, and to which, is decided by the steps to its directory. A file that
is overwritten stays a file, so every path leads where it led before, and of all that is read only
the content of that file changes.

## Main statements

* `FileTree.spot_of_locate`: where the path of an entry leads.
* `FileTree.Overwritten`: one file has other content, and nothing else has changed.
* `FileTree.Overwritten.read_self`, `FileTree.Overwritten.read_join`: what is read then.
-/

namespace PartitionSnapshot

/-! ## Views of one shape -/

/-- Whether there is a directory and not a file. -/
def Node.isDirectory : Node → Bool
  | .file _ => false
  | .directory => true

namespace View

/-- Two views with files at the same places, and directories at the same places. -/
def SameShape (view view' : View) : Prop :=
  ∀ place, (view' place).map Node.isDirectory = (view place).map Node.isDirectory

variable {view view' : View}

/-- A file in the place of a file. -/
theorem SameShape.graft_file {place : List String} {content : Bytes}
    (h : view.below place = ofFile content) (content' : Bytes) :
    SameShape view (view.graft place (ofFile content')) := by
  intro other
  by_cases hother : place <+: other
  · obtain ⟨rest, rfl⟩ := hother
    -- at the place there is a file on both sides, and below it nothing
    have hrest : view (place ++ rest) = ofFile content rest := congrFun h rest
    rw [graft_append, hrest]
    cases rest <;> rfl
  · rw [graft_elsewhere hother]

theorem SameShape.symm (h : SameShape view view') : SameShape view' view :=
  fun place => (h place).symm

theorem SameShape.directory_iff (h : SameShape view view') {place : List String} :
    view' place = some .directory ↔ view place = some .directory := by
  have hplace := h place
  -- of the three things that can be at a place only a directory is taken for one
  rcases hview : view place with _ | ⟨_ | _⟩ <;> rcases hview' : view' place with _ | ⟨_ | _⟩ <;>
    simp_all [Node.isDirectory]

end View

namespace FileTree

variable {tree after made filled : FileTree} {path directory : Path} {place : List String}
variable {name file : String} {content data : Bytes}

theorem isDirectory_node (tree : FileTree) : tree.node.isDirectory = tree.isDirectory := by
  cases tree <;> rfl

theorem view_top_iff : tree.view [] = some .directory ↔ tree.isDirectory = true := by
  cases tree with
  | file content => exact ⟨nofun, nofun⟩
  | directory children => exact ⟨fun _ => rfl, fun _ => rfl⟩

/-- Steps are followed alike through trees of one shape. -/
theorem follow_congr (h : tree.view.SameShape after.view) (place : List String)
    (steps : List Path.Step) : after.follow place steps = tree.follow place steps := by
  have hat (place : List String) :
      (after.at? place).map isDirectory = (tree.at? place).map isDirectory := by
    have hplace := h place
    simp only [view, Option.map_map, Function.comp_def, isDirectory_node] at hplace
    exact hplace
  -- along the steps; one that leads down looks at what it leads to
  fun_induction follow tree place steps with
  | case1 => rfl
  | case2 place rest ih => rw [follow, ih]
  | case3 place rest ih => rw [follow, ih]
  | case4 place name hlong => rw [follow, if_pos hlong]
  | case5 place name hshort => rw [follow, if_neg hshort]
  | case6 place name rest hrest hlong =>
    rw [follow, if_pos hlong]
    exact hrest
  | case7 place name rest hrest hshort hnone =>
    have hplace := hat (place ++ [name])
    rw [hnone, Option.map_none, Option.map_eq_none_iff] at hplace
    rw [follow, if_neg hshort, hplace]
    exact hrest
  | case8 place name rest hrest hshort content hfile =>
    have hplace := hat (place ++ [name])
    rw [hfile, Option.map_some, Option.map_eq_some_iff] at hplace
    obtain ⟨_ | _, hafter, hnode⟩ := hplace
    · rw [follow, if_neg hshort, hafter]
      exact hrest
    · cases hnode
  | case9 place name rest hrest hshort children hchildren ih =>
    have hplace := hat (place ++ [name])
    rw [hchildren, Option.map_some, Option.map_eq_some_iff] at hplace
    obtain ⟨_ | _, hafter, hnode⟩ := hplace
    · cases hnode
    · rw [follow, if_neg hshort, hafter]
      · exact ih
      · exact hrest

theorem enter_congr (h : tree.view.SameShape after.view) {steps : List Path.Step}
    (henter : tree.view.enter [] steps = some place) :
    after.view.enter [] steps = some place :=
  View.enter_mono (fun _ hdirectory => h.directory_iff.2 hdirectory) henter

theorem locate_congr (h : tree.view.SameShape after.view) (path : Path) :
    after.locate path = tree.locate path := by
  unfold locate
  rw [follow_congr h]

/-! ## Entries of directories -/

/-- What has something below it is a directory. -/
theorem view_parent (h : tree.view (place ++ [name]) ≠ none) :
    tree.view place = some .directory := by
  unfold view at h ⊢
  rw [at?_append] at h
  cases hchild : tree.at? place with
  | none =>
    rw [hchild] at h
    exact absurd rfl h
  | some child =>
    rw [hchild] at h
    cases child with
    | file content => exact absurd (by simp [at?]) h
    | directory children => rfl

/-- What leads to a directory is a directory. -/
theorem view_above {rest : List String}
    (h : tree.view (place ++ rest) = some .directory) : tree.view place = some .directory := by
  unfold view at h ⊢
  rw [at?_append] at h
  rcases hchild : tree.at? place with _ | ⟨content | children⟩
  · rw [hchild] at h
    cases h
  · rw [hchild] at h
    cases rest with
    | nil => simp [at?, node] at h
    | cons name rest => simp [at?] at h
  · rfl

/-- Steps from a directory lead to a directory. -/
theorem directory_of_enter {place place' : List String} {steps : List Path.Step}
    (h : tree.view.enter place steps = some place') (hplace : tree.view place = some .directory) :
    tree.view place' = some .directory := by
  -- along the steps; what is above a directory is one
  induction steps generalizing place with
  | nil =>
    cases h
    exact hplace
  | cons step steps ih =>
    cases step with
    | stay => exact ih h hplace
    | up =>
      apply ih h
      obtain ⟨rest, hrest⟩ := List.dropLast_prefix place
      rw [← hrest] at hplace
      exact view_above hplace
    | down name =>
      obtain ⟨⟨-, hdirectory⟩, h⟩ := View.enter_down_eq_some.1 h
      exact ih h hdirectory

/-- Steps that lead to an entry lead through directories, and then down to it. -/
theorem enter_of_follow {steps : List Path.Step} {spot : Spot}
    (h : tree.follow place (steps ++ [.down name]) = .ok spot) :
    ∃ place', tree.view.enter place steps = some place' ∧ spot = .entry place' name := by
  -- along the steps before the last one, each of which has a step behind it
  induction steps generalizing place with
  | nil =>
    simp only [List.nil_append, follow] at h
    split at h
    · cases h
    · cases h
      exact ⟨place, rfl, rfl⟩
  | cons step steps ih =>
    cases step with
    | stay => exact ih h
    | up => exact ih h
    | down other =>
      have hrest : steps ++ [.down name] = [] → False := by simp
      rw [List.cons_append, follow] at h
      · split at h
        · cases h
        · next hshort =>
          cases hchild : tree.at? (place ++ [other]) with
          | none =>
            rw [hchild] at h
            cases h
          | some child =>
            cases child with
            | file content =>
              rw [hchild] at h
              cases h
            | directory children =>
              rw [hchild] at h
              have hother : other.utf8ByteSize ≤ maxName ∧
                  tree.view (place ++ [other]) = some .directory :=
                ⟨Nat.not_lt.1 hshort, view_of_at? hchild⟩
              obtain ⟨place', henter, hspot⟩ := ih h
              exact ⟨place', View.enter_down_eq_some.2 ⟨hother, henter⟩, hspot⟩
      · exact hrest

/-- The path of an entry leads to the entry of the directory, if it leads anywhere. -/
theorem spot_of_locate (hname : Path.IsName name) {spot : Spot}
    (h : tree.locate (directory.join name) = .ok spot) :
    ∃ place, tree.view.enter [] directory.steps = some place ∧ spot = .entry place name := by
  unfold locate at h
  rw [Path.isEmpty_join directory hname, Path.steps_join directory hname] at h
  cases hcheck : checkPath (directory.join name) with
  | error failure =>
    rw [hcheck] at h
    cases h
  | ok _ =>
    rw [hcheck] at h
    exact enter_of_follow h

theorem locate_of_find {child : FileTree} (h : tree.find path = .ok child) :
    ∃ spot, tree.locate path = .ok spot := by
  unfold find at h
  cases hlocate : tree.locate path with
  | error failure =>
    rw [hlocate] at h
    cases h
  | ok spot => exact ⟨spot, rfl⟩

/-- A file that is read at the path of an entry is that entry. -/
theorem entry_of_read (hname : Path.IsName name)
    (h : tree.read (directory.join name) = .ok content) :
    ∃ place, tree.locate (directory.join name) = .ok (.entry place name) ∧
      tree.view.enter [] directory.steps = some place ∧
      tree.view (place ++ [name]) = some (.file content) := by
  have hfound : ∃ child, tree.find (directory.join name) = .ok child := by
    unfold read at h
    cases hfind : tree.find (directory.join name) with
    | error failure =>
      rw [hfind] at h
      cases h
    | ok child => exact ⟨child, rfl⟩
  obtain ⟨child, hfind⟩ := hfound
  obtain ⟨spot, hlocate⟩ := locate_of_find hfind
  obtain ⟨place, henter, rfl⟩ := spot_of_locate hname hlocate
  refine ⟨place, hlocate, henter, ?_⟩
  rw [read_entry hlocate (Path.endsInSlash_join directory hname)] at h
  split at h
  · cases h
  · next hfile =>
    cases h
    exact hfile
  · cases h

/-- The path of an entry leads to a directory, if the system accepts the path and there is one. -/
theorem hasDirectory_join (hname : Path.IsName name) :
    tree.hasDirectory (directory.join name) = true ↔
      checkPath (directory.join name) = .ok () ∧
      ∃ place, tree.view.enter [] directory.steps = some place ∧
        tree.view (place ++ [name]) = some .directory := by
  have hslash := Path.endsInSlash_join directory hname
  constructor
  · intro h
    have hfound : ∃ child, tree.find (directory.join name) = .ok child := by
      unfold hasDirectory at h
      cases hfind : tree.find (directory.join name) with
      | error failure =>
        rw [hfind] at h
        cases h
      | ok child => exact ⟨child, rfl⟩
    obtain ⟨child, hfind⟩ := hfound
    obtain ⟨spot, hlocate⟩ := locate_of_find hfind
    obtain ⟨place, henter, rfl⟩ := spot_of_locate hname hlocate
    rw [hasDirectory_entry hlocate hslash, decide_eq_true_eq] at h
    refine ⟨?_, place, henter, h⟩
    rw [locate_join henter hname] at hlocate
    cases hcheck : checkPath (directory.join name) with
    | error failure =>
      rw [hcheck] at hlocate
      cases hlocate
    | ok _ => rfl
  · rintro ⟨hcheck, place, henter, hdirectory⟩
    have hlocate := locate_join henter hname
    rw [hcheck] at hlocate
    rw [hasDirectory_entry hlocate hslash, hdirectory]
    rfl

/-- Directories are found alike in trees of one shape. -/
theorem hasDirectory_congr (h : tree.view.SameShape after.view) (hname : Path.IsName name) :
    after.hasDirectory (directory.join name) = tree.hasDirectory (directory.join name) := by
  have hle {tree after : FileTree} (h : tree.view.SameShape after.view)
      (hdirectory : tree.hasDirectory (directory.join name) = true) :
      after.hasDirectory (directory.join name) = true := by
    rw [hasDirectory_join hname] at hdirectory ⊢
    obtain ⟨hcheck, place, henter, hat⟩ := hdirectory
    exact ⟨hcheck, place, enter_congr h henter, h.directory_iff.2 hat⟩
  exact Bool.eq_iff_iff.2 ⟨hle h.symm, hle h⟩

/-! ## Overwriting -/

/-- The file that a path leads to has the content `data`, and nothing else has changed. -/
def Overwritten (tree : FileTree) (path : Path) (data : Bytes) (after : FileTree) : Prop :=
  ∃ place name content, tree.locate path = .ok (.entry place name) ∧
    tree.view (place ++ [name]) = some (.file content) ∧
    after.view = tree.view.graft (place ++ [name]) (View.ofFile data)

namespace Overwritten

theorem below_of_file (h : tree.view place = some (.file content)) :
    tree.view.below place = View.ofFile content := by
  rw [below_of_at? (at?_of_view_file h), view_file]

theorem sameShape (h : tree.Overwritten path data after) : tree.view.SameShape after.view := by
  obtain ⟨place, name, content, -, hfile, hview⟩ := h
  rw [hview]
  exact .graft_file (below_of_file hfile) data

/-- Of two contents that are written the later counts. -/
theorem trans {mid : FileTree} {data' : Bytes} (h : tree.Overwritten path data mid)
    (h' : mid.Overwritten path data' after) : tree.Overwritten path data' after := by
  have hsame := locate_congr h.sameShape path
  obtain ⟨place, name, content, hlocate, hfile, hview⟩ := h
  obtain ⟨place', name', content', hlocate', -, hview'⟩ := h'
  -- both times the path leads to the same entry
  rw [hsame, hlocate] at hlocate'
  cases hlocate'
  rw [hview, View.graft_self] at hview'
  exact ⟨place, name, content, hlocate, hfile, hview'⟩

theorem read_self (h : tree.Overwritten path data after) (hslash : path.endsInSlash = false) :
    after.read path = .ok data := by
  have hsame := locate_congr h.sameShape path
  obtain ⟨place, name, content, hlocate, -, hview⟩ := h
  rw [read_entry (hsame.trans hlocate) hslash, hview, View.graft_at]
  rfl

/-- What is read at entries of other names has not changed. -/
theorem read_join {directory' : Path} (h : tree.Overwritten (directory.join name) data after)
    (hname : Path.IsName name) (hfile : Path.IsName file) (hne : file ≠ name) :
    after.read (directory'.join file) = tree.read (directory'.join file) := by
  have hsame := locate_congr h.sameShape (directory'.join file)
  have hslash := Path.endsInSlash_join directory' hfile
  cases hlocate' : tree.locate (directory'.join file) with
  | error failure =>
    -- the path leads nowhere, before and after
    unfold read find
    rw [hlocate', hsame.trans hlocate']
    rfl
  | ok spot =>
    obtain ⟨place', -, rfl⟩ := spot_of_locate hfile hlocate'
    obtain ⟨place, name', content, hlocate, hcontent, hview⟩ := h
    obtain ⟨_, -, hspot⟩ := spot_of_locate hname hlocate
    cases hspot
    have hunchanged : after.view (place' ++ [file]) = tree.view (place' ++ [file]) := by
      rw [hview]
      by_cases hunder : place ++ [name] <+: place' ++ [file]
      · -- it lies below the file, where there is nothing on either side
        obtain ⟨rest, hrest⟩ := hunder
        have hbelow : tree.view (place ++ [name] ++ rest) = View.ofFile content rest :=
          congrFun (below_of_file hcontent) rest
        rw [← hrest, View.graft_append, hbelow]
        cases rest with
        | nil =>
          rw [List.append_nil] at hrest
          have hlast := (List.append_inj' hrest rfl).2
          exact absurd (List.cons.inj hlast).1.symm hne
        | cons other rest => rfl
      · exact View.graft_elsewhere hunder
    rw [read_entry hlocate' hslash, read_entry (hsame.trans hlocate') hslash, hunchanged]

/-- Two trees that come from overwriting with the same content are seen alike. -/
theorem view_eq {after' : FileTree} (h : tree.Overwritten path data after)
    (h' : tree.Overwritten path data after') : after'.view = after.view := by
  obtain ⟨place, name, content, hlocate, -, hview⟩ := h
  obtain ⟨place', name', content', hlocate', -, hview'⟩ := h'
  cases hlocate.symm.trans hlocate'
  rw [hview, hview']

end Overwritten

/-- A file that can be read can be overwritten. -/
theorem overwritten_of_write (hname : Path.IsName name)
    (hread : tree.read (directory.join name) = .ok content) (data : Bytes) :
    ∃ after, tree.write (directory.join name) data = .ok after ∧
      tree.Overwritten (directory.join name) data after := by
  obtain ⟨place, hlocate, -, hfile⟩ := entry_of_read hname hread
  have hparent : tree.view place = some .directory := by
    refine view_parent (?_ : tree.view (place ++ [name]) ≠ none)
    rw [hfile]
    exact nofun
  have hfree : tree.view (place ++ [name]) ≠ some .directory := by
    rw [hfile]
    exact nofun
  obtain ⟨after, hwrite, hview⟩ := write_entry hlocate (Path.endsInSlash_join directory hname)
    hparent hfree data
  exact ⟨after, hwrite, place, name, content, hlocate, hfile, hview⟩

/-! ## Files that were made -/

theorem locate_of_write (h : tree.write path content = .ok after) :
    ∃ spot, tree.locate path = .ok spot := by
  unfold write at h
  cases hlocate : tree.locate path with
  | error failure =>
    rw [hlocate] at h
    cases h
  | ok spot => exact ⟨spot, rfl⟩

/-- Appending is writing something. -/
theorem write_of_append (h : tree.append path data = .ok after) :
    ∃ content, tree.write path content = .ok after := by
  unfold append at h
  cases hread : tree.read path with
  | error failure =>
    rw [hread] at h
    cases h
  | ok front =>
    rw [hread] at h
    exact ⟨front ++ data, h⟩

/-- What is put where there was no directory leaves every directory where it was. -/
theorem directory_of_graft {part : View} (hfree : tree.view place ≠ some .directory)
    (hview : after.view = tree.view.graft place part) {other : List String}
    (hother : tree.view other = some .directory) : after.view other = some .directory := by
  rw [hview, View.graft_elsewhere, hother]
  rintro ⟨rest, rfl⟩
  exact hfree (view_above hother)

/-- A file that was made in a directory is there, and is empty. -/
theorem read_of_made (hname : Path.IsName name) (htop : tree.view [] = some .directory)
    (hcreate : tree.create (directory.join name) = .ok made) :
    made.read (directory.join name) = .ok [] := by
  obtain ⟨spot, hlocate⟩ := locate_of_write hcreate
  obtain ⟨place, henter, rfl⟩ := spot_of_locate hname hlocate
  obtain ⟨hview, hfree⟩ := view_of_write hlocate (directory_of_enter henter htop) hcreate
  -- the path leads to the new file, since all directories are still there
  have henter := View.enter_mono (fun _ => directory_of_graft hfree hview) henter
  have hmade : made.locate (directory.join name) = .ok (.entry place name) := by
    rw [locate_join henter hname, checkPath_of_locate hlocate]
    rfl
  rw [read_entry hmade (Path.endsInSlash_join directory hname), hview, View.graft_at]
  rfl

/-- A file that was made is empty, if it can be read. -/
theorem read_of_create (hname : Path.IsName name)
    (hcreate : tree.create (directory.join name) = .ok made)
    (hread : made.read (directory.join name) = .ok content) : content = [] := by
  have htop : tree.view [] = some .directory := by
    cases tree with
    | directory children => rfl
    | file other =>
      -- in a tree that is a single file nothing is made
      obtain ⟨place', -, -, hfile⟩ := entry_of_read hname hread
      obtain ⟨spot, hlocate⟩ := locate_of_write hcreate
      obtain ⟨place, -, rfl⟩ := spot_of_locate hname hlocate
      have hparent : made.view ([] ++ place') = some .directory :=
        view_parent (by rw [List.nil_append, hfile]; exact nofun)
      have hmade : made.view [] = some .directory := view_above hparent
      have hsame : made = (FileTree.file other).putAt place name (.file []) := by
        unfold create write at hcreate
        rw [hlocate] at hcreate
        simp only [bind, Except.bind, Path.endsInSlash_join directory hname, Bool.false_eq_true,
          if_false] at hcreate
        split at hcreate
        · cases hcreate
        · cases hcreate
          rfl
      rw [hsame, putAt, alter] at hmade
      cases hmade
  rw [read_of_made hname htop hcreate] at hread
  cases hread
  rfl

/-- An empty file can be filled, and forced to storage then. -/
theorem fill_of_read (hname : Path.IsName name)
    (hempty : made.read (directory.join name) = .ok []) (data : Bytes) :
    ∃ filled, made.append (directory.join name) data = .ok filled ∧
      (filled.find (directory.join name)).map (fun _ => ()) = .ok () ∧
      made.Overwritten (directory.join name) data filled := by
  have hslash := Path.endsInSlash_join directory hname
  obtain ⟨filled, hwrite, hfilled⟩ := overwritten_of_write hname hempty data
  obtain ⟨place, hlocate, -, hfile⟩ := entry_of_read hname (hfilled.read_self hslash)
  refine ⟨filled, ?_, ?_, hfilled⟩
  · unfold append
    rw [hempty]
    exact hwrite
  · rw [find_entry hlocate hslash, at?_of_view_file hfile]
    rfl

/-- What was put into a file that was made is all there is in it. -/
theorem read_of_append (hname : Path.IsName name)
    (hcreate : tree.create (directory.join name) = .ok made)
    (happend : made.append (directory.join name) data = .ok filled) :
    filled.read (directory.join name) = .ok data := by
  unfold append at happend
  cases hread : made.read (directory.join name) with
  | error failure =>
    rw [hread] at happend
    cases happend
  | ok content =>
    rw [hread] at happend
    obtain rfl := read_of_create hname hcreate hread
    obtain ⟨after, happended, -, hover⟩ := fill_of_read hname hread data
    have hsame : made.append (directory.join name) data = .ok filled := by
      unfold append
      rw [hread]
      exact happend
    cases happended.symm.trans hsame
    exact hover.read_self (Path.endsInSlash_join directory hname)

end FileTree

/-- A small file that can be read is overwritten as a whole. -/
theorem Store.writeSmallFile_overwrites {tree : FileTree} {directory : Path} {name : String}
    {content : Bytes} (hname : Path.IsName name)
    (hread : tree.read (directory.join name) = .ok content) (context : Context) (data : Bytes) :
    ∃ after, Task.eval tree (writeSmallFile context (directory.join name) data) =
        (.ok (), after) ∧
      tree.Overwritten (directory.join name) data after := by
  have hslash := Path.endsInSlash_join directory hname
  obtain ⟨made, hcreate, hmade⟩ := FileTree.overwritten_of_write hname hread []
  obtain ⟨filled, happended, hsynced, hfilled⟩ :=
    FileTree.fill_of_read hname (hmade.read_self hslash) data
  refine ⟨filled, ?_, hmade.trans hfilled⟩
  have hcreated : tree.create (directory.join name) = .ok made := hcreate
  -- emptied, filled, forced to storage
  unfold writeSmallFile
  rw [Task.eval_bind, Task.eval_ofProcedure, Procedure.eval_create, hcreated]
  dsimp only [FileTree.settle]
  rw [Task.eval_bind, Task.eval_ofProcedure, Procedure.eval_append, happended]
  dsimp only [FileTree.settle]
  rw [Task.eval_ofProcedure, Procedure.eval_sync, hsynced]

end PartitionSnapshot
