import PartitionSnapshot.Proofs.Acceptance
import PartitionSnapshot.Proofs.Entries

/-!
# How a swap is settled

A load begins with a recovery, which settles a swap that was interrupted: a backup beside a current
generation is removed, and one without is put in its place. This is said of every root, whatever
its path leads through.

A path may lead through the backup that is kept at its end, as `root/.snapshot_backup/..` does, and
then the recovery cuts it off. A root is *steady* when its path does not. After a recovery a steady
root is where it was, and there is nothing left to settle.

## Main statements

* `Store.Settles`, `Store.recoverGeneration_run`: what a recovery does.
* `Store.Settles.steady`: settling a swap does not move a steady root.
-/

namespace PartitionSnapshot

namespace Store

/-! ## Recovery -/

/-- How an interrupted swap under a root is settled. -/
inductive Settles (root : Path) (tree : FileTree) : FileTree → Prop
  /-- Without a backup there is nothing to settle. -/
  | untouched : tree.hasDirectory (root.join Layout.backup) = false → Settles root tree tree
  /-- A backup beside a current generation is removed. -/
  | dropped {after : FileTree} : tree.hasDirectory (root.join Layout.backup) = true →
      tree.hasDirectory (root.join Layout.current) = true →
      tree.removeTree (root.join Layout.backup) = .ok after → Settles root tree after
  /-- A backup without one becomes the current generation. -/
  | putBack {after : FileTree} : tree.hasDirectory (root.join Layout.backup) = true →
      tree.hasDirectory (root.join Layout.current) = false →
      tree.rename (root.join Layout.backup) (root.join Layout.current) = .ok after →
      Settles root tree after

theorem recoverGeneration_untouched {store : Store} {tree : FileTree}
    (h : tree.hasDirectory store.backup = false) :
    Task.eval tree store.recoverGeneration = (.ok (), tree) := by
  unfold recoverGeneration
  dsimp only
  rw [Task.eval_bind_ok _ (Task.eval_lift tree _), Procedure.eval_hasDirectory, h]
  rfl

/-- A recovery settles the swap, or fails and changes nothing. -/
theorem recoverGeneration_run (store : Store) (tree : FileTree) :
    (∃ error, Task.eval tree store.recoverGeneration = (.error error, tree)) ∨
    ∃ after, Task.eval tree store.recoverGeneration = (.ok (), after) ∧
      Settles store.root tree after := by
  cases hbackup : tree.hasDirectory store.backup with
  | false => exact .inr ⟨tree, recoverGeneration_untouched hbackup, .untouched hbackup⟩
  | true =>
    have hrecover : Task.eval tree store.recoverGeneration =
        Task.eval tree (if tree.hasDirectory store.current then
            liftM (store.discard "recoverSnapshot" store.backup)
          else do
            Task.ofProcedure (.rename store.backup store.current)
              (.storage (store.context "recoverSnapshot") (.renaming store.backup store.current))
            liftM (Procedure.log .warn
              s!"recoverSnapshot: restored previous generation: {store.label}")) := by
      unfold recoverGeneration
      dsimp only
      rw [Task.eval_bind_ok _ (Task.eval_lift tree _), Procedure.eval_hasDirectory, hbackup]
      dsimp only
      rw [if_pos rfl, Task.eval_bind_ok _ (Task.eval_lift tree _), Procedure.eval_hasDirectory]
    cases hcurrent : tree.hasDirectory store.current with
    | true =>
      -- what has been seen to be a directory is removed
      have hname : Path.IsName Layout.backup := by decide
      obtain ⟨hcheck, place, henter, hdirectory⟩ := (FileTree.hasDirectory_join hname).1 hbackup
      have hlocate := FileTree.locate_join henter hname
      rw [hcheck] at hlocate
      have hparent : tree.view place = some .directory := by
        refine FileTree.view_parent (?_ : tree.view (place ++ [Layout.backup]) ≠ none)
        rw [hdirectory]
        exact nofun
      obtain ⟨after, hremoved, -⟩ := FileTree.removeTree_directory hlocate hparent hdirectory
      have hremove : tree.removeTree store.backup = .ok after := hremoved
      refine .inr ⟨after, ?_, .dropped hbackup hcurrent hremove⟩
      rw [hrecover, hcurrent, if_pos rfl, Task.eval_lift,
        discard_eval store "recoverSnapshot" hremove]
    | false =>
      rw [hrecover, hcurrent, if_neg Bool.false_ne_true, Task.eval_bind, Task.eval_ofProcedure,
        Procedure.eval_rename]
      cases hrename : tree.rename store.backup store.current with
      | error failure => exact .inl ⟨_, rfl⟩
      | ok after => exact .inr ⟨after, rfl, .putBack hbackup hcurrent hrename⟩

end Store

/-! ## Steady roots -/

namespace View

/-- The path `path` leads to `place`, and not through the backup that is kept there. -/
def Steady (view : View) (path : Path) (place : List String) : Prop :=
  (view.prune (place ++ [Layout.backup])).enter [] path.steps = some place

instance (view : View) (path : Path) (place : List String) : Decidable (view.Steady path place) :=
  inferInstanceAs (Decidable (_ = _))

theorem directory_of_prune {view : View} {place other : List String}
    (h : view.prune place other = some .directory) :
    ¬ place <+: other ∧ view other = some .directory := by
  by_cases hother : place <+: other
  · obtain ⟨rest, rfl⟩ := hother
    rw [prune, graft_append] at h
    cases h
  · rw [prune, graft_elsewhere hother] at h
    exact ⟨hother, h⟩

theorem Steady.enter {view : View} {path : Path} {place : List String}
    (h : view.Steady path place) : view.enter [] path.steps = some place :=
  enter_mono (fun _ hdirectory => (directory_of_prune hdirectory).2) h

theorem Steady.congr {view view' : View} {path : Path} {place : List String}
    (h : view.Steady path place) (hshape : view.SameShape view') : view'.Steady path place := by
  refine enter_mono (fun other hother => ?_) h
  obtain ⟨helsewhere, hdirectory⟩ := directory_of_prune hother
  rw [prune, graft_elsewhere helsewhere, hshape.directory_iff, hdirectory]

end View

namespace FileTree

variable {tree after : FileTree} {path root : Path} {place : List String} {name : String}

/-- Where there is no backup, no path leads through it. -/
theorem steady_of_enter (h : tree.view.enter [] path.steps = some place)
    (hbackup : tree.view (place ++ [Layout.backup]) ≠ some .directory) :
    tree.view.Steady path place := by
  refine View.enter_mono (fun other hdirectory => ?_) h
  rw [View.prune, View.graft_elsewhere, hdirectory]
  rintro ⟨rest, rfl⟩
  exact hbackup (view_above hdirectory)

theorem locate_of_rename {source target : Path} (h : tree.rename source target = .ok after) :
    ∃ spot spot', tree.locate source = .ok spot ∧ tree.locate target = .ok spot' := by
  unfold rename at h
  cases hsource : tree.locate source with
  | error failure =>
    rw [hsource] at h
    cases h
  | ok spot =>
    cases htarget : tree.locate target with
    | error failure =>
      rw [hsource, htarget] at h
      cases h
    | ok spot' => exact ⟨spot, spot', rfl, rfl⟩

/-- An entry that is renamed may take the place of what is at the other one. It leaves its own
place, and changes nothing but the two. -/
theorem view_of_rename_join {name' : String} (hname : Path.IsName name)
    (hname' : Path.IsName name') (hne : name ≠ name')
    (hrename : tree.rename (root.join name) (root.join name') = .ok after) :
    ∃ place moved, tree.view.enter [] root.steps = some place ∧
      tree.at? (place ++ [name]) = some moved ∧
      checkReplacing moved (tree.at? (place ++ [name'])) = .ok () ∧
      after.view = (tree.view.prune (place ++ [name])).graft (place ++ [name'])
        (tree.view.below (place ++ [name])) := by
  obtain ⟨_, _, hsource, htarget⟩ := locate_of_rename hrename
  obtain ⟨place, henter, rfl⟩ := spot_of_locate hname hsource
  obtain ⟨place', henter', rfl⟩ := spot_of_locate hname' htarget
  cases henter.symm.trans henter'
  cases hmoved : tree.at? (place ++ [name]) with
  | none =>
    have habsent : tree.view (place ++ [name]) = none := by rw [view, hmoved]; rfl
    rw [rename_absent hsource htarget habsent] at hrename
    cases hrename
  | some moved =>
    have hthere : tree.view (place ++ [name]) ≠ none := by
      rw [view_of_at? hmoved]
      exact Option.some_ne_none _
    have hslash : (!moved.isDirectory &&
        ((root.join name).endsInSlash || (root.join name').endsInSlash)) = false := by
      rw [Path.endsInSlash_join root hname, Path.endsInSlash_join root hname', Bool.or_false,
        Bool.and_false]
    rw [rename_entry hsource htarget hne hmoved hslash] at hrename
    cases hcheck : checkReplacing moved (tree.at? (place ++ [name'])) with
    | error failure =>
      rw [hcheck] at hrename
      cases hrename
    | ok _ =>
      rw [hcheck] at hrename
      cases hrename
      exact ⟨place, moved, henter, hmoved, hcheck,
        view_of_renamed (view_parent hthere) hmoved⟩

theorem locate_of_hasDirectory (hname : Path.IsName name)
    (henter : tree.view.enter [] root.steps = some place)
    (h : tree.hasDirectory (root.join name) = true) :
    tree.locate (root.join name) = .ok (.entry place name) ∧
      tree.view (place ++ [name]) = some .directory := by
  obtain ⟨hcheck, place', henter', hdirectory⟩ := (hasDirectory_join hname).1 h
  cases henter.symm.trans henter'
  have hlocate := locate_join henter hname
  rw [hcheck] at hlocate
  exact ⟨hlocate, hdirectory⟩

/-- What is read at an entry that has not changed is the same. -/
theorem read_of_enter (hname : Path.IsName name)
    (henter : tree.view.enter [] root.steps = some place)
    (henter' : after.view.enter [] root.steps = some place)
    (hsame : after.view (place ++ [name]) = tree.view (place ++ [name])) :
    after.read (root.join name) = tree.read (root.join name) := by
  have hlocate := locate_join henter hname
  have hlocate' := locate_join henter' hname
  have hslash := Path.endsInSlash_join root hname
  cases hcheck : checkPath (root.join name) with
  | error failure => rw [read_of_checkPath hcheck, read_of_checkPath hcheck]
  | ok _ =>
    rw [hcheck] at hlocate hlocate'
    rw [read_entry hlocate hslash, read_entry hlocate' hslash, hsame]

end FileTree

namespace Store

/-! ## Settled swaps -/

namespace Settles

variable {root : Path} {place : List String} {tree mid mid' : FileTree}

theorem unique (h : Settles root tree mid) (h' : Settles root tree mid') : mid' = mid := by
  cases h with
  | untouched hbackup =>
    cases h' with
    | untouched => rfl
    | dropped hbackup' => cases hbackup.symm.trans hbackup'
    | putBack hbackup' => cases hbackup.symm.trans hbackup'
  | dropped hbackup hcurrent hremove =>
    cases h' with
    | untouched hbackup' => cases hbackup.symm.trans hbackup'
    | dropped _ _ hremove' => exact Except.ok.inj (hremove'.symm.trans hremove)
    | putBack _ hcurrent' => cases hcurrent.symm.trans hcurrent'
  | putBack hbackup hcurrent hrename =>
    cases h' with
    | untouched hbackup' => cases hbackup.symm.trans hbackup'
    | dropped _ hcurrent' => cases hcurrent.symm.trans hcurrent'
    | putBack _ _ hrename' => exact Except.ok.inj (hrename'.symm.trans hrename)

/-- A root that is left where it was, without a backup to settle, and with all its other entries as
they were. -/
structure Leaves (root : Path) (place : List String) (tree mid : FileTree) : Prop where
  steady : mid.view.Steady root place
  settled : mid.hasDirectory (root.join Layout.backup) = false
  entries : ∀ file, file ≠ Layout.current → file ≠ Layout.backup →
    mid.view (place ++ [file]) = tree.view (place ++ [file])

theorem not_sibling {name file : String} (h : file ≠ name) :
    ¬ place ++ [name] <+: place ++ [file] := by
  rw [List.prefix_append_right_inj, List.cons_prefix_cons]
  exact fun hunder => h hunder.1.symm

/-- A root without a backup at its place. -/
theorem Leaves.of_absent (henter : mid.view.enter [] root.steps = some place)
    (habsent : mid.view (place ++ [Layout.backup]) = none)
    (hentries : ∀ file, file ≠ Layout.current → file ≠ Layout.backup →
      mid.view (place ++ [file]) = tree.view (place ++ [file])) :
    Leaves root place tree mid where
  steady := FileTree.steady_of_enter henter (by rw [habsent]; exact nofun)
  settled := by
    rw [← Bool.not_eq_true, FileTree.hasDirectory_join (by decide)]
    rintro ⟨-, place', henter', hdirectory⟩
    cases henter.symm.trans henter'
    rw [habsent] at hdirectory
    cases hdirectory
  entries := hentries

/-- Dropping a backup leaves a steady root where it was. -/
theorem leaves_of_removeTree (hsteady : tree.view.Steady root place)
    (hbackup : tree.hasDirectory (root.join Layout.backup) = true)
    (hremove : tree.removeTree (root.join Layout.backup) = .ok mid) :
    Leaves root place tree mid := by
  obtain ⟨hlocate, hdirectory⟩ :=
    FileTree.locate_of_hasDirectory (by decide) hsteady.enter hbackup
  have hparent : tree.view place = some .directory := FileTree.view_above hdirectory
  have hview := FileTree.view_of_removeTree hlocate hparent hremove
  refine .of_absent ?_ ?_ fun file _ hfile => ?_
  · rw [hview]
    exact hsteady
  · rw [hview, View.prune, View.graft_at]
    rfl
  · rw [hview, View.prune, View.graft_elsewhere (not_sibling hfile)]

/-- So does putting it back, which takes the place of nothing: a file there would have stayed. -/
theorem leaves_of_rename (hsteady : tree.view.Steady root place)
    (hbackup : tree.hasDirectory (root.join Layout.backup) = true)
    (hcurrent : tree.hasDirectory (root.join Layout.current) = false)
    (hrename : tree.rename (root.join Layout.backup) (root.join Layout.current) = .ok mid) :
    Leaves root place tree mid := by
  have hname : Path.IsName Layout.current := by decide
  have hne : Layout.backup ≠ Layout.current := by decide
  obtain ⟨hlocate, hdirectory⟩ :=
    FileTree.locate_of_hasDirectory (by decide) hsteady.enter hbackup
  have hparent : tree.view place = some .directory := FileTree.view_above hdirectory
  obtain ⟨_, spot, -, hlocate'⟩ := FileTree.locate_of_rename hrename
  obtain ⟨place', henter', rfl⟩ := FileTree.spot_of_locate hname hlocate'
  cases hsteady.enter.symm.trans henter'
  rw [FileTree.hasDirectory_entry hlocate' (Path.endsInSlash_join root hname),
    decide_eq_false_iff_not] at hcurrent
  have habsent : tree.view (place ++ [Layout.current]) = none := by
    rcases hat : tree.view (place ++ [Layout.current]) with _ | ⟨content | _⟩
    · rfl
    · have hrefused := FileTree.rename_onto_file hlocate hlocate' hne hdirectory hat
      cases hrefused.symm.trans hrename
    · exact absurd hat hcurrent
  obtain ⟨after, hrename', hview⟩ :=
    FileTree.rename_directory hlocate hlocate' hne hparent hdirectory habsent
  cases hrename.symm.trans hrename'
  refine .of_absent ?_ ?_ fun file hfile hfile' => ?_
  · -- the way to the root passes neither through the backup nor through what was not there
    refine View.enter_mono (fun other hother => ?_) hsteady
    rw [hview, View.graft_elsewhere, hother]
    rintro ⟨rest, rfl⟩
    have hother' := FileTree.view_above (View.directory_of_prune hother).2
    rw [habsent] at hother'
    cases hother'
  · rw [hview, View.graft_elsewhere (not_sibling hne), View.prune, View.graft_at]
    rfl
  · rw [hview, View.graft_elsewhere (not_sibling hfile), View.prune,
      View.graft_elsewhere (not_sibling hfile')]

/-- Settling a swap leaves a steady root where it was. -/
theorem steady (h : Settles root tree mid) (hsteady : tree.view.Steady root place) :
    Leaves root place tree mid := by
  cases h with
  | untouched hbackup => exact ⟨hsteady, hbackup, fun _ _ _ => rfl⟩
  | dropped hbackup _ hremove => exact leaves_of_removeTree hsteady hbackup hremove
  | putBack hbackup hcurrent hrename => exact leaves_of_rename hsteady hbackup hcurrent hrename

end Settles

end Store

end PartitionSnapshot
