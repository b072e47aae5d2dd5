import PartitionSnapshot.Proofs.Execution
import PartitionSnapshot.Proofs.Paths

/-!
# What requests do to views

For a path that leads to an entry of a directory, every request is answered by what the view shows
there, and changes the view by one graft. The same is said of torn requests: whatever a crash inside
a request leaves, differs from what was there only at the entry that the path names.

## Main statements

* `write_entry`, `append_entry`, `removeTree_directory`, `rename_directory`,
  `makeDirectoriesAlong_entry`: the changes.
* `read_entry`, `hasDirectory_entry`: the answers.
* `Rooted.inside_perform`, `Rooted.inside_torn`: requests on a directory of the root, and on files
  in it, stay inside that directory.
-/

namespace PartitionSnapshot

namespace View

/-- There is no file at the place: there is nothing, or a directory. -/
def NoFile (part : View) : Prop := part [] = none ∨ part [] = some .directory

instance (part : View) : Decidable (NoFile part) :=
  inferInstanceAs (Decidable (part [] = none ∨ part [] = some .directory))

theorem noFile_nothing : NoFile nothing := .inl rfl

theorem noFile_of_directory {part : View} (h : part [] = some .directory) : NoFile part := .inr h

theorem NoFile.eq_none {part : View} (h : NoFile part) (hne : part [] ≠ some .directory) :
    part [] = none :=
  h.resolve_right hne

theorem file_of_not_noFile {part : View} (h : ¬ NoFile part) :
    ∃ content, part [] = some (.file content) := by
  unfold NoFile at h
  cases hat : part [] with
  | none => exact absurd (.inl hat) h
  | some node =>
    cases node with
    | file content => exact ⟨content, rfl⟩
    | directory => exact absurd (.inr hat) h

/-- Two views that differ at and below one place alone. -/
def SameBut (place : List String) (view view' : View) : Prop :=
  ∀ other, ¬ place <+: other → view' other = view other

theorem SameBut.refl (place : List String) (view : View) : SameBut place view view :=
  fun _ _ => rfl

theorem SameBut.graft (place rest : List String) (view part : View) :
    SameBut place view (view.graft (place ++ rest) part) := by
  intro other hother
  apply graft_elsewhere
  -- what lies below the graft lies below the place
  exact fun hunder => hother ((List.prefix_append place rest).trans hunder)

/-- What differs at an entry of a directory alone differs at the directory alone, and leaves it what
it is. -/
theorem SameBut.entry {place : List String} {name : String} {view view' : View}
    (h : SameBut (place ++ [name]) view view') :
    SameBut place view view' ∧ view' place = view place := by
  refine ⟨fun other hother => h other fun hunder => ?_, h place fun hunder => ?_⟩
  · exact hother ((List.prefix_append place [name]).trans hunder)
  · -- the directory does not lie below its own entry
    have hlength := hunder.length_le
    simp only [List.length_append, List.length_singleton] at hlength
    omega

/-- What differs at one place alone is a graft there. -/
theorem SameBut.eq_graft {place : List String} {view view' : View}
    (h : SameBut place view view') : view' = view.graft place (view'.below place) := by
  funext other
  -- below the place the new view is grafted, elsewhere the views agree
  by_cases hother : place <+: other
  · obtain ⟨rest, rfl⟩ := hother
    simp
  · rw [graft_elsewhere hother, h other hother]

end View

namespace FileTree

variable {tree after : FileTree} {path : Path} {place : List String} {name : String}

/-! ## Answers -/

theorem find_entry (h : tree.locate path = .ok (.entry place name))
    (hslash : path.endsInSlash = false) :
    tree.find path = match tree.at? (place ++ [name]) with
      | none => refuse .noEntry
      | some child => .ok child := by
  unfold find
  rw [h]
  simp only [bind, Except.bind, atSpot?]
  cases tree.at? (place ++ [name]) with
  | none => rfl
  | some child =>
    cases child with
    | file content => simp only [hslash]; rfl
    | directory children => rfl

/-- What the content of an entry is. -/
theorem read_entry (h : tree.locate path = .ok (.entry place name))
    (hslash : path.endsInSlash = false) :
    tree.read path = match tree.view (place ++ [name]) with
      | none => refuse .noEntry
      | some (.file content) => .ok content
      | some .directory => refuse .isDirectory := by
  unfold read view
  rw [find_entry h hslash]
  cases tree.at? (place ++ [name]) with
  | none => rfl
  | some child => cases child <;> rfl

theorem hasDirectory_entry (h : tree.locate path = .ok (.entry place name))
    (hslash : path.endsInSlash = false) :
    tree.hasDirectory path = decide (tree.view (place ++ [name]) = some .directory) := by
  unfold hasDirectory view
  rw [find_entry h hslash]
  cases tree.at? (place ++ [name]) with
  | none => rfl
  | some child => cases child <;> simp [node]

theorem follow_ne_isDirectory (tree : FileTree) (place : List String) (steps : List Path.Step) :
    tree.follow place steps ≠ .error (.system .isDirectory) := by
  -- along the steps: the way ends at a long name, or where there is no directory
  induction steps generalizing place with
  | nil => simp [follow]
  | cons step rest ih =>
    cases step with
    | stay => exact ih place
    | up => exact ih place.dropLast
    | down name =>
      by_cases hlong : maxName < name.utf8ByteSize
      · cases rest <;>
          simp [follow, hlong, refuse, SystemError.nameTooLong, SystemError.isDirectory]
      · cases rest with
        | nil => simp [follow, hlong]
        | cons next rest =>
          rw [follow, if_neg hlong]
          · rcases tree.at? (place ++ [name]) with _ | ⟨content | children⟩
            · simp [refuse, SystemError.noEntry, SystemError.isDirectory]
            · simp [refuse, SystemError.notDirectory, SystemError.isDirectory]
            · exact ih (place ++ [name])
          · exact List.cons_ne_nil next rest

/-- That a directory is no file is said only where there is one. -/
theorem hasDirectory_of_read (h : tree.read path = .error (.system .isDirectory)) :
    tree.hasDirectory path = true := by
  have hlocate : tree.locate path ≠ .error (.system .isDirectory) := by
    unfold locate checkPath
    split
    · exact nofun
    · split
      · simp [refuse, bind, Except.bind, SystemError.nameTooLong, SystemError.isDirectory]
      · simp only [bind, Except.bind]
        split
        · simp [refuse, SystemError.noEntry, SystemError.isDirectory]
        · exact follow_ne_isDirectory tree [] path.steps
  unfold read at h
  unfold hasDirectory
  rcases hfind : tree.find path with failure | _ | _
  · -- the path leads nowhere, and then something else is said
    rw [hfind] at h
    cases h
    unfold find at hfind
    rcases hspot : tree.locate path with failure | spot
    · rw [hspot] at hfind hlocate
      exact absurd (congrArg _ (Except.error.inj hfind)) hlocate
    · rw [hspot] at hfind
      simp only [bind, Except.bind] at hfind
      split at hfind
      · cases hfind
      · split at hfind <;> cases hfind
      · cases hfind
  · rw [hfind] at h
    cases h
  · rfl

/-! ## Changes -/

/-- Writing puts a file at the entry, unless there is a directory. -/
theorem write_entry (h : tree.locate path = .ok (.entry place name))
    (hslash : path.endsInSlash = false) (hplace : tree.view place = some .directory)
    (hfree : tree.view (place ++ [name]) ≠ some .directory) (content : Bytes) :
    ∃ after, tree.write path content = .ok after ∧
      after.view = tree.view.graft (place ++ [name]) (View.ofFile content) := by
  refine ⟨tree.putAt place name (.file content), ?_, ?_⟩
  · unfold write
    rw [h]
    simp only [bind, Except.bind, hslash]
    -- nothing or a file is replaced; a directory was excluded
    cases hchild : tree.at? (place ++ [name]) with
    | none => rfl
    | some child =>
      cases child with
      | file content => rfl
      | directory children => exact absurd (view_of_at? hchild) hfree
  · rw [view_putAt name (.file content) hplace, view_file]

/-- What was written is a graft of one file. -/
theorem view_of_write (h : tree.locate path = .ok (.entry place name))
    (hplace : tree.view place = some .directory) {content : Bytes}
    (hwrite : tree.write path content = .ok after) :
    after.view = tree.view.graft (place ++ [name]) (View.ofFile content) ∧
      tree.view (place ++ [name]) ≠ some .directory := by
  unfold write at hwrite
  rw [h] at hwrite
  simp only [bind, Except.bind] at hwrite
  split at hwrite
  · cases hwrite
  · split at hwrite
    · cases hwrite
    · next hchild =>
      cases hwrite
      refine ⟨by rw [view_putAt name (.file content) hplace, view_file], ?_⟩
      -- a directory would have been refused
      intro hdirectory
      obtain ⟨children, hchildren⟩ := at?_of_view_directory hdirectory
      exact hchild children hchildren

theorem append_entry (h : tree.locate path = .ok (.entry place name))
    (hslash : path.endsInSlash = false) (hplace : tree.view place = some .directory)
    {content : Bytes} (hfile : tree.view (place ++ [name]) = some (.file content))
    (data : Bytes) :
    ∃ after, tree.append path data = .ok after ∧
      after.view = tree.view.graft (place ++ [name]) (View.ofFile (content ++ data)) := by
  have hread : tree.read path = .ok content := by rw [read_entry h hslash, hfile]
  have hfree : tree.view (place ++ [name]) ≠ some .directory := by rw [hfile]; simp
  -- appending is writing the content and the data
  unfold append
  rw [hread]
  exact write_entry h hslash hplace hfree (content ++ data)

/-- Removing takes a directory away. -/
theorem removeTree_directory (h : tree.locate path = .ok (.entry place name))
    (hplace : tree.view place = some .directory)
    (hdirectory : tree.view (place ++ [name]) = some .directory) :
    ∃ after, tree.removeTree path = .ok after ∧
      after.view = tree.view.prune (place ++ [name]) := by
  obtain ⟨children, hchildren⟩ := at?_of_view_directory hdirectory
  -- there is a directory, which is dropped
  refine ⟨tree.dropAt place name, ?_, view_dropAt name hplace⟩
  unfold removeTree
  rw [h]
  simp only [bind, Except.bind, hchildren]
  rfl

theorem removeTree_absent (h : tree.locate path = .ok (.entry place name))
    (habsent : tree.view (place ++ [name]) = none) :
    tree.removeTree path = refuse .noEntry := by
  unfold removeTree
  rw [h]
  simp only [bind, Except.bind, at?_of_view_none habsent]

theorem removeTree_file (h : tree.locate path = .ok (.entry place name)) {content : Bytes}
    (hfile : tree.view (place ++ [name]) = some (.file content)) :
    tree.removeTree path = refuse .notDirectory := by
  unfold removeTree
  rw [h]
  simp only [bind, Except.bind, at?_of_view_file hfile]

theorem view_of_removeTree (h : tree.locate path = .ok (.entry place name))
    (hplace : tree.view place = some .directory) (hremove : tree.removeTree path = .ok after) :
    after.view = tree.view.prune (place ++ [name]) := by
  unfold removeTree at hremove
  rw [h] at hremove
  simp only [bind, Except.bind] at hremove
  split at hremove
  · cases hremove
  · cases hremove
  · cases hremove
    exact view_dropAt name hplace

section Rename

variable {source target : Path} {name' : String}

theorem not_isPrefixOf_sibling (h : name ≠ name') :
    (place ++ [name]).isPrefixOf (place ++ [name']) = false := by
  rw [← Bool.not_eq_true, List.isPrefixOf_iff_prefix, List.prefix_append_right_inj,
    List.cons_prefix_cons]
  exact fun hunder => h hunder.1

/-- Renaming an entry to another one beside it is a matter of what stands at the two. -/
theorem rename_entry (hsource : tree.locate source = .ok (.entry place name))
    (htarget : tree.locate target = .ok (.entry place name')) (hname : name ≠ name')
    {moved : FileTree} (hmoved : tree.at? (place ++ [name]) = some moved)
    (hslash : (!moved.isDirectory && (source.endsInSlash || target.endsInSlash)) = false) :
    tree.rename source target = (checkReplacing moved (tree.at? (place ++ [name']))).map fun _ =>
      (tree.dropAt place name).putAt place name' moved := by
  unfold rename
  rw [hsource, htarget]
  -- none of the other checks of a rename applies between entries of one directory
  simp only [bind, Except.bind, hmoved, hslash, Bool.false_eq_true, if_false,
    not_isPrefixOf_sibling hname, not_isPrefixOf_sibling (Ne.symm hname),
    List.append_cancel_left_eq, List.cons.injEq, and_true, hname]
  cases checkReplacing moved (tree.at? (place ++ [name'])) <;> rfl

/-- An entry that is renamed leaves its place, and changes nothing but its two places. -/
theorem view_of_renamed (hplace : tree.view place = some .directory) {moved : FileTree}
    (hmoved : tree.at? (place ++ [name]) = some moved) :
    ((tree.dropAt place name).putAt place name' moved).view =
      (tree.view.prune (place ++ [name])).graft (place ++ [name'])
        (tree.view.below (place ++ [name])) := by
  -- the directory that holds both entries is still there in between
  have hdrop : (tree.dropAt place name).view place = some .directory := by
    rw [view_dropAt name hplace, View.prune, View.graft_elsewhere, hplace]
    intro hunder
    have hlength := hunder.length_le
    simp only [List.length_append, List.length_singleton] at hlength
    omega
  rw [view_putAt name' moved hdrop, view_dropAt name hplace, below_of_at? hmoved]

/-- Renaming moves a directory to another entry beside it where there is nothing. -/
theorem rename_directory (hsource : tree.locate source = .ok (.entry place name))
    (htarget : tree.locate target = .ok (.entry place name')) (hname : name ≠ name')
    (hplace : tree.view place = some .directory)
    (hdirectory : tree.view (place ++ [name]) = some .directory)
    (habsent : tree.view (place ++ [name']) = none) :
    ∃ after, tree.rename source target = .ok after ∧
      after.view = (tree.view.prune (place ++ [name])).graft (place ++ [name'])
        (tree.view.below (place ++ [name])) := by
  obtain ⟨children, hchildren⟩ := at?_of_view_directory hdirectory
  refine ⟨_, ?_, view_of_renamed hplace hchildren⟩
  rw [rename_entry hsource htarget hname hchildren rfl, at?_of_view_none habsent]
  rfl

theorem rename_absent (hsource : tree.locate source = .ok (.entry place name))
    (htarget : tree.locate target = .ok (.entry place name'))
    (habsent : tree.view (place ++ [name]) = none) :
    tree.rename source target = refuse .noEntry := by
  unfold rename
  rw [hsource, htarget]
  simp only [bind, Except.bind, at?_of_view_none habsent]

/-- A directory does not take the place of a file. -/
theorem rename_onto_file (hsource : tree.locate source = .ok (.entry place name))
    (htarget : tree.locate target = .ok (.entry place name')) (hname : name ≠ name')
    (hdirectory : tree.view (place ++ [name]) = some .directory) {content : Bytes}
    (hfile : tree.view (place ++ [name']) = some (.file content)) :
    tree.rename source target = refuse .notDirectory := by
  obtain ⟨children, hchildren⟩ := at?_of_view_directory hdirectory
  rw [rename_entry hsource htarget hname hchildren rfl, at?_of_view_file hfile]
  rfl

end Rename

/-! ## Making directories -/

theorem makeDirectoriesAlong_entry {steps : List Path.Step} (hsteps : steps ≠ [])
    (h : tree.follow [] steps = .ok (.entry place name)) :
    tree.makeDirectoriesAlong steps =
      match tree.at? (place ++ [name]) with
      | none => (.ok (), tree.putAt place name (.directory []))
      | some (.directory _) => (.ok (), tree)
      | some (.file _) => (refuse .fileExists, tree) := by
  rw [makeDirectoriesAlong]
  simp only [hsteps, dite_false, makeDirectory, stepsToDirectory, h, bind, Except.bind, atSpot?]
  cases hchild : tree.at? (place ++ [name]) with
  | none => rfl
  | some child => cases child <;> simp [refuse, isDirectory, SystemError.fileExists,
      SystemError.noEntry]

theorem makeDirectoriesAlong_folder {steps : List Path.Step} (hsteps : steps ≠ [])
    (h : tree.follow [] steps = .ok (.folder place)) :
    (tree.makeDirectoriesAlong steps).2 = tree := by
  have hexists : SystemError.fileExists ≠ SystemError.noEntry := by decide
  -- the path ends in a directory that is there, which is the answer of the system
  rw [makeDirectoriesAlong]
  simp only [hsteps, dite_false, makeDirectory, h, bind, Except.bind, refuse,
    Failure.system.injEq, hexists, if_false]
  split <;> rfl

theorem makeDirectoriesAlong_nil (tree : FileTree) :
    tree.makeDirectoriesAlong [] = (.ok (), tree) := by
  rw [makeDirectoriesAlong]
  rfl

/-- Where there are directories all the way, none is made. -/
theorem makeDirectoriesAlong_of_enter {steps : List Path.Step} {place' : List String}
    (h : tree.view.enter [] steps = some place') :
    (tree.makeDirectoriesAlong steps).2 = tree := by
  -- only the last step matters, since those before it lead to a directory
  rcases List.eq_nil_or_concat steps with rfl | ⟨front, last, rfl⟩
  · rw [makeDirectoriesAlong_nil]
  · rw [List.concat_eq_append] at h ⊢
    rw [View.enter_append, Option.bind_eq_some_iff] at h
    obtain ⟨middle, hfront, hlast⟩ := h
    have hfollow : tree.follow [] (front ++ [last]) = tree.follow middle [last] :=
      follow_enter hfront (List.cons_ne_nil _ _)
    have hsteps : front ++ [last] ≠ [] := by simp
    cases last with
    | stay => exact makeDirectoriesAlong_folder hsteps hfollow
    | up => exact makeDirectoriesAlong_folder hsteps hfollow
    | down name =>
      obtain ⟨⟨hsize, hdirectory⟩, -⟩ := View.enter_down_eq_some.1 hlast
      obtain ⟨children, hchildren⟩ := at?_of_view_directory hdirectory
      rw [makeDirectoriesAlong_entry hsteps (hfollow.trans (by
        simp only [follow]
        exact if_neg (Nat.not_lt.2 hsize))), hchildren]

end FileTree

/-! ## Requests inside one directory of a root -/

/-- The requests that fill a directory of a root with files. -/
inductive Request.Filing (path : Path) (name : String) : Request → Prop
  | syncFolder : Filing path name (.sync (path.join name))
  | sync {file : String} : Filing path name (.sync ((path.join name).join file))
  | create {file : String} : Path.IsName file →
      Filing path name (.create ((path.join name).join file))
  | append {file : String} {data : Bytes} : Path.IsName file →
      Filing path name (.append ((path.join name).join file) data)

/-- The requests that make, fill and remove a directory of a root. -/
inductive Request.Inside (path : Path) (name : String) : Request → Prop
  | removeTree : Inside path name (.removeTree (path.join name))
  | makeDirectories : Inside path name (.makeDirectories (path.join name))
  | filing {request : Request} : request.Filing path name → Inside path name request

namespace View.Rooted

variable {tree after : FileTree} {path : Path} {place : List String} {name file : String}

theorem spot_of_locate_join (h : tree.view.Rooted path place) (hname : Path.IsName name)
    {spot : FileTree.Spot} (hlocate : tree.locate (path.join name) = .ok spot) :
    tree.locate (path.join name) = .ok (.entry place name) ∧ spot = .entry place name := by
  have hjoin := h.locate_join hname
  -- the system accepts the path, or the path leads nowhere
  cases hcheck : FileTree.checkPath (path.join name) with
  | error failure =>
    rw [hcheck] at hjoin
    rw [hjoin] at hlocate
    cases hlocate
  | ok _ =>
    rw [hcheck] at hjoin
    rw [hjoin] at hlocate
    cases hlocate
    exact ⟨hjoin, rfl⟩

theorem spot_of_locate_file (h : tree.view.Rooted path place) (hname : Path.IsName name)
    (hfile : Path.IsName file) {spot : FileTree.Spot}
    (hlocate : tree.locate ((path.join name).join file) = .ok spot) :
    tree.view (place ++ [name]) = some .directory ∧
      spot = .entry (place ++ [name]) file := by
  have hjoin := h.locate_file hname hfile
  -- the path was accepted, and the directory on the way is there
  cases hcheck : FileTree.checkPath ((path.join name).join file) with
  | error failure =>
    rw [hcheck] at hjoin
    rw [hjoin] at hlocate
    cases hlocate
  | ok _ =>
    rw [hcheck] at hjoin
    rw [hjoin] at hlocate
    cases hdirectory : tree.view (place ++ [name]) with
    | none => simp [hdirectory, Except.bind, FileTree.refuse] at hlocate
    | some node =>
      cases node with
      | file content => simp [hdirectory, Except.bind, FileTree.refuse] at hlocate
      | directory =>
        rw [hdirectory] at hlocate
        cases hlocate
        exact ⟨rfl, rfl⟩

/-- Writing a file of a directory of the root changes that file alone. -/
theorem sameBut_write (h : tree.view.Rooted path place) (hname : Path.IsName name)
    (hfile : Path.IsName file) {content : Bytes}
    (hwrite : tree.write ((path.join name).join file) content = .ok after) :
    SameBut (place ++ [name] ++ [file]) tree.view after.view := by
  -- writing fails where the path leads nowhere
  cases hlocate : tree.locate ((path.join name).join file) with
  | error failure =>
    unfold FileTree.write at hwrite
    rw [hlocate] at hwrite
    cases hwrite
  | ok spot =>
    obtain ⟨hdirectory, rfl⟩ := h.spot_of_locate_file hname hfile hlocate
    rw [(FileTree.view_of_write hlocate hdirectory hwrite).1]
    have hgraft := SameBut.graft (place ++ [name] ++ [file]) [] tree.view (ofFile content)
    rwa [List.append_nil] at hgraft

theorem sameBut_append (h : tree.view.Rooted path place) (hname : Path.IsName name)
    (hfile : Path.IsName file) {data : Bytes}
    (happend : tree.append ((path.join name).join file) data = .ok after) :
    SameBut (place ++ [name] ++ [file]) tree.view after.view := by
  unfold FileTree.append at happend
  cases hread : tree.read ((path.join name).join file) with
  | error failure =>
    rw [hread] at happend
    cases happend
  | ok content =>
    rw [hread] at happend
    exact h.sameBut_write hname hfile happend

theorem settle {place : List String} {result : Except Failure FileTree}
    (h : ∀ after, result = .ok after → SameBut place tree.view after.view) :
    SameBut place tree.view (tree.settle result).2.view := by
  cases result with
  | error failure => exact SameBut.refl _ _
  | ok after => exact h after rfl

/-- Requests that fill a directory leave it what it is, and change nothing outside it. -/
theorem filing_perform (h : tree.view.Rooted path place) (hname : Path.IsName name)
    {request : Request} (hfiling : request.Filing path name) :
    SameBut (place ++ [name]) tree.view (tree.perform request).2.view ∧
      (tree.perform request).2.view (place ++ [name]) = tree.view (place ++ [name]) := by
  -- syncing changes nothing, and the other two write a file of the directory
  cases hfiling with
  | syncFolder => exact ⟨SameBut.refl _ _, rfl⟩
  | sync => exact ⟨SameBut.refl _ _, rfl⟩
  | create hfile => exact (settle fun after hafter => h.sameBut_write hname hfile hafter).entry
  | append hfile => exact (settle fun after hafter => h.sameBut_append hname hfile hafter).entry

/-- So does a crash inside one of them. -/
theorem filing_torn (h : tree.view.Rooted path place) (hname : Path.IsName name)
    {request : Request} (hfiling : request.Filing path name) (htorn : tree.Torn request after) :
    SameBut (place ++ [name]) tree.view after.view ∧
      after.view (place ++ [name]) = tree.view (place ++ [name]) := by
  cases hfiling with
  | syncFolder => cases htorn
  | sync => cases htorn
  | create => cases htorn
  | append hfile =>
    -- a crash inside appending leaves some first part of the data
    cases htorn with
    | append _ happend => exact (h.sameBut_append hname hfile happend).entry

/-- What is left of a directory while it is removed is a directory. -/
theorem view_of_torn_removeTree (h : tree.view.Rooted path place) (hname : Path.IsName name)
    (htorn : tree.Torn (.removeTree (path.join name)) after) :
    tree.view (place ++ [name]) = some .directory ∧ ∃ left : FileTree,
      after.view = tree.view.graft (place ++ [name]) left.view ∧
      ∀ rest, left.view rest = none ∨ left.view rest = tree.view (place ++ [name] ++ rest) := by
  cases htorn with
  | removeTree hlocate hat hremains =>
    -- what is left stands where the directory stood
    obtain ⟨-, hspot⟩ := h.spot_of_locate_join hname hlocate
    cases hspot
    have hbelow := FileTree.below_of_at? hat
    refine ⟨FileTree.view_of_at? hat, _, FileTree.view_putAt name _ h.directory, ?_⟩
    intro rest
    have hrest := congrFun hbelow rest
    rw [below_apply] at hrest
    rw [hrest]
    exact hremains rest

theorem removeTree_join (h : tree.view.Rooted path place) (hname : Path.IsName name)
    (hremove : tree.removeTree (path.join name) = .ok after) :
    after.view = tree.view.prune (place ++ [name]) := by
  cases hlocate : tree.locate (path.join name) with
  | error failure =>
    unfold FileTree.removeTree at hremove
    rw [hlocate] at hremove
    cases hremove
  | ok spot =>
    obtain ⟨-, rfl⟩ := h.spot_of_locate_join hname hlocate
    exact FileTree.view_of_removeTree hlocate h.directory hremove

theorem makeDirectoriesAlong_join (h : tree.view.Rooted path place) (hname : Path.IsName name) :
    tree.makeDirectoriesAlong (path.join name).steps =
      match tree.at? (place ++ [name]) with
      | none => (.ok (), tree.putAt place name (.directory []))
      | some (.directory _) => (.ok (), tree)
      | some (.file _) => (FileTree.refuse .fileExists, tree) := by
  refine FileTree.makeDirectoriesAlong_entry ?_ (h.follow_join hname)
  rw [Path.steps_join path hname]
  simp

/-- Making a directory of the root makes it, unless something is there. -/
theorem view_makeDirectoriesAlong (h : tree.view.Rooted path place) (hname : Path.IsName name) :
    (tree.makeDirectoriesAlong (path.join name).steps).2.view = tree.view ∨
      (tree.makeDirectoriesAlong (path.join name).steps).2.view =
        tree.view.graft (place ++ [name]) (ofFiles fun _ => none) := by
  rw [h.makeDirectoriesAlong_join hname]
  cases tree.at? (place ++ [name]) with
  | none =>
    refine .inr ?_
    rw [FileTree.view_putAt name _ h.directory, FileTree.view_empty]
  | some child => cases child <;> exact .inl rfl

/-- What requests inside a directory of the root leave there, if there was no file. -/
def KeepsInside (place : List String) (name : String) (view view' : View) : Prop :=
  SameBut (place ++ [name]) view view' ∧
    ((view.below (place ++ [name])).NoFile → (view'.below (place ++ [name])).NoFile)

theorem keepsInside_refl (place : List String) (name : String) (view : View) :
    KeepsInside place name view view :=
  ⟨SameBut.refl _ _, id⟩

theorem keepsInside_graft {part : View} (hpart : part.NoFile) (view : View) :
    KeepsInside place name view (view.graft (place ++ [name]) part) := by
  have hgraft := SameBut.graft (place ++ [name]) [] view part
  rw [List.append_nil] at hgraft
  exact ⟨hgraft, fun _ => by rwa [below_graft_self]⟩

theorem keepsInside_of_same {view view' : View} (h : SameBut (place ++ [name]) view view')
    (hat : view' (place ++ [name]) = view (place ++ [name])) :
    KeepsInside place name view view' := by
  refine ⟨h, fun hfree => ?_⟩
  -- whether there is a file depends on what stands at the place alone
  unfold NoFile at hfree ⊢
  rw [below_apply, List.append_nil] at hfree ⊢
  rwa [hat]

/-- Requests inside a directory of the root change nothing outside it, and put no file in its
place. -/
theorem inside_perform (h : tree.view.Rooted path place) (hname : Path.IsName name)
    {request : Request} (hinside : request.Inside path name) :
    KeepsInside place name tree.view (tree.perform request).2.view := by
  cases hinside with
  | removeTree =>
    -- a refusal changes nothing, and otherwise nothing is left
    cases hremove : tree.removeTree (path.join name) with
    | error failure =>
      simp only [FileTree.perform, hremove, FileTree.settle]
      exact keepsInside_refl _ _ _
    | ok after =>
      simp only [FileTree.perform, hremove, FileTree.settle]
      rw [h.removeTree_join hname hremove]
      exact keepsInside_graft noFile_nothing _
  | makeDirectories =>
    simp only [FileTree.perform, FileTree.makeDirectories]
    split
    · exact keepsInside_refl _ _ _
    · rcases h.view_makeDirectoriesAlong hname with hview | hview
      · rw [hview]
        exact keepsInside_refl _ _ _
      · rw [hview]
        exact keepsInside_graft (noFile_of_directory rfl) _
  | filing hfiling =>
    obtain ⟨hsame, hat⟩ := h.filing_perform hname hfiling
    exact keepsInside_of_same hsame hat

/-- Neither does a crash inside one of them. -/
theorem inside_torn (h : tree.view.Rooted path place) (hname : Path.IsName name)
    {request : Request} (hinside : request.Inside path name) (htorn : tree.Torn request after) :
    KeepsInside place name tree.view after.view := by
  cases hinside with
  | removeTree =>
    -- some part of the directory is left, which is still a directory
    obtain ⟨hdirectory, left, hview, hleft⟩ := h.view_of_torn_removeTree hname htorn
    rw [hview]
    refine keepsInside_graft (noFile_of_directory ?_) _
    rcases hleft [] with hnone | hsame
    · simp at hnone
    · rw [hsame, List.append_nil, hdirectory]
  | makeDirectories =>
    cases htorn with
    | makeDirectories hsteps =>
      -- either all steps were taken, or only some of those to the root
      rw [Path.steps_join path hname] at hsteps
      rcases List.prefix_concat_iff.1 (by simpa using hsteps) with rfl | hfront
      · have hjoin := h.view_makeDirectoriesAlong hname
        rw [Path.steps_join path hname] at hjoin
        rcases hjoin with hview | hview
        · rw [hview]
          exact keepsInside_refl _ _ _
        · rw [hview]
          exact keepsInside_graft (noFile_of_directory rfl) _
      · -- the directories on the way to the root are there
        obtain ⟨others, hothers⟩ := hfront
        have henter := h.enter
        rw [← hothers, enter_append, Option.bind_eq_some_iff] at henter
        obtain ⟨middle, hmiddle, -⟩ := henter
        rw [FileTree.makeDirectoriesAlong_of_enter hmiddle]
        exact keepsInside_refl _ _ _
  | filing hfiling =>
    obtain ⟨hsame, hat⟩ := h.filing_torn hname hfiling htorn
    exact keepsInside_of_same hsame hat

end View.Rooted

end PartitionSnapshot
