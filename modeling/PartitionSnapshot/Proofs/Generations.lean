import PartitionSnapshot.Proofs.Requests
import PartitionSnapshot.Store.Generation

/-!
# The generations of a root

Of a root directory a store changes three entries alone: the current generation, the one that is
being written, and the backup. What is seen of these three is enough to follow it. Every step on one
of the directories is a change of one part, and the view of the whole tree is that of the tree in
the beginning, with other generations.

Loading starts with a recovery, which settles what an interrupted swap left.

## Main statements

* `View.eq_withGenerations`: views that agree outside the generations are decided by these.
* `FileTree.removeIfPresent_eval`, `FileTree.rename_generation`: steps on the directories of
  generations.
* `Execution.staging_of_inside`, `Execution.backup_of_inside`: what crashes leave alone.
* `Store.recoverGeneration_eval`: what recovery comes to.
-/

namespace PartitionSnapshot

/-- What is seen of the generations of a root: the current one, the one that is being written, and
the backup. -/
@[ext] structure Generations where
  current : View
  staging : View
  backup : View

namespace View

/-! ## Grafting generations -/

variable {view view' : View} {root : List String} {g g' : Generations}

/-- The generations that are seen below a root. -/
def generations (view : View) (root : List String) : Generations where
  current := view.below (root ++ [Layout.current])
  staging := view.below (root ++ [Layout.staging])
  backup := view.below (root ++ [Layout.backup])

/-- The view with other generations below a root. -/
def withGenerations (view : View) (root : List String) (g : Generations) : View :=
  ((view.graft (root ++ [Layout.current]) g.current).graft (root ++ [Layout.staging])
    g.staging).graft (root ++ [Layout.backup]) g.backup

theorem apart_of_mem {name name' : String} (h : name ≠ name') :
    Apart (root ++ [name]) (root ++ [name']) :=
  apart_of_ne [] [] h

theorem agreeOutside_graft {name : String} (h : name ∈ Layout.generations) (part : View) :
    AgreeOutside root view (view.graft (root ++ [name]) part) :=
  AgreeOutside.graft view part h

theorem agreeOutside_withGenerations (view : View) (root : List String) (g : Generations) :
    AgreeOutside root view (view.withGenerations root g) :=
  ((agreeOutside_graft (by decide) _).trans (agreeOutside_graft (by decide) _)).trans
    (agreeOutside_graft (by decide) _)

theorem generations_graft_current (part : View) :
    (view.graft (root ++ [Layout.current]) part).generations root =
      { view.generations root with current := part } := by
  have hstaging : Apart (root ++ [Layout.current]) (root ++ [Layout.staging]) :=
    apart_of_mem (by decide)
  have hbackup : Apart (root ++ [Layout.current]) (root ++ [Layout.backup]) :=
    apart_of_mem (by decide)
  -- the three directories lie apart, so only one of the parts changes
  simp only [generations, below_graft_self, below_graft_of_apart hstaging,
    below_graft_of_apart hbackup]

theorem generations_graft_staging (part : View) :
    (view.graft (root ++ [Layout.staging]) part).generations root =
      { view.generations root with staging := part } := by
  have hcurrent : Apart (root ++ [Layout.staging]) (root ++ [Layout.current]) :=
    apart_of_mem (by decide)
  have hbackup : Apart (root ++ [Layout.staging]) (root ++ [Layout.backup]) :=
    apart_of_mem (by decide)
  simp only [generations, below_graft_self, below_graft_of_apart hcurrent,
    below_graft_of_apart hbackup]

theorem generations_graft_backup (part : View) :
    (view.graft (root ++ [Layout.backup]) part).generations root =
      { view.generations root with backup := part } := by
  have hcurrent : Apart (root ++ [Layout.backup]) (root ++ [Layout.current]) :=
    apart_of_mem (by decide)
  have hstaging : Apart (root ++ [Layout.backup]) (root ++ [Layout.staging]) :=
    apart_of_mem (by decide)
  simp only [generations, below_graft_self, below_graft_of_apart hcurrent,
    below_graft_of_apart hstaging]

@[simp] theorem generations_withGenerations (view : View) (root : List String)
    (g : Generations) : (view.withGenerations root g).generations root = g := by
  rw [withGenerations, generations_graft_backup, generations_graft_staging,
    generations_graft_current]

/-- Views that agree outside the generations, and in them, are the same. -/
theorem eq_of_agreeOutside (h : AgreeOutside root view view')
    (hgenerations : view.generations root = view'.generations root) : view' = view := by
  funext other
  -- in a generation the parts decide, elsewhere the views agree
  by_cases hother : InGenerations root other
  · obtain ⟨name, hname, rest, rfl⟩ := hother
    simp only [generations, Generations.mk.injEq] at hgenerations
    obtain ⟨hcurrent, hstaging, hbackup⟩ := hgenerations
    simp only [Layout.generations, List.mem_cons, List.not_mem_nil, or_false] at hname
    rcases hname with rfl | rfl | rfl
    · exact (congrFun hcurrent rest).symm
    · exact (congrFun hstaging rest).symm
    · exact (congrFun hbackup rest).symm
  · exact h other hother

/-- A view that agrees with another outside the generations is that one with other generations. -/
theorem eq_withGenerations (h : AgreeOutside root view view') :
    view' = view.withGenerations root (view'.generations root) := by
  -- both sides agree with `view` outside, and show the same generations
  refine eq_of_agreeOutside ((agreeOutside_withGenerations view root _).symm.trans h) ?_
  rw [generations_withGenerations]

@[simp] theorem withGenerations_withGenerations (view : View) (root : List String)
    (g g' : Generations) :
    (view.withGenerations root g).withGenerations root g' = view.withGenerations root g' := by
  have hagree := (agreeOutside_withGenerations view root g).trans
    (agreeOutside_withGenerations (view.withGenerations root g) root g')
  rw [eq_withGenerations hagree, generations_withGenerations]

@[simp] theorem withGenerations_generations (view : View) (root : List String) :
    view.withGenerations root (view.generations root) = view :=
  (eq_withGenerations (AgreeOutside.refl root view)).symm

theorem graft_current (view : View) (root : List String) (part : View) :
    view.graft (root ++ [Layout.current]) part =
      view.withGenerations root { view.generations root with current := part } := by
  rw [← generations_graft_current]
  exact eq_withGenerations (agreeOutside_graft (by decide) part)

theorem graft_staging (view : View) (root : List String) (part : View) :
    view.graft (root ++ [Layout.staging]) part =
      view.withGenerations root { view.generations root with staging := part } := by
  rw [← generations_graft_staging]
  exact eq_withGenerations (agreeOutside_graft (by decide) part)

theorem graft_backup (view : View) (root : List String) (part : View) :
    view.graft (root ++ [Layout.backup]) part =
      view.withGenerations root { view.generations root with backup := part } := by
  rw [← generations_graft_backup]
  exact eq_withGenerations (agreeOutside_graft (by decide) part)

/-- Other generations do not move the root. -/
theorem Rooted.withGenerations {path : Path} (h : view.Rooted path root) (g : Generations) :
    (view.withGenerations root g).Rooted path root :=
  h.of_agree (agreeOutside_withGenerations view root g)

end View

namespace Layout

theorem isName_of_mem_generations {name : String} (h : name ∈ generations) : Path.IsName name := by
  revert name
  decide

theorem size_of_mem_generations {name : String} (h : name ∈ generations) :
    name.utf8ByteSize ≤ 18 := by
  revert name
  decide

end Layout

/-! ## Steps on the directories -/

namespace FileTree

/-- Below a place where there is nothing, there is nothing. -/
theorem below_eq_nothing {tree : FileTree} {place : List String} (h : tree.view place = none) :
    tree.view.below place = View.nothing := by
  funext rest
  -- there is no tree at the place, and so none below it
  have hat := at?_of_view_none h
  simp [View.below, view, at?_append, hat, View.nothing]

variable {tree : FileTree} {root : Path} {place : List String} {name name' : String}

section

variable (hroot : tree.view.Rooted root place) (hreadable : Layout.Readable root)
include hroot hreadable

theorem locate_generation (hname : name ∈ Layout.generations) :
    tree.locate (root.join name) = .ok (.entry place name) := by
  have hisName := Layout.isName_of_mem_generations hname
  rw [hroot.locate_join hisName,
    hreadable.room.join hisName (Layout.size_of_mem_generations hname)]
  rfl

theorem hasDirectory_generation (hname : name ∈ Layout.generations) :
    tree.hasDirectory (root.join name) =
      decide (tree.view (place ++ [name]) = some .directory) :=
  hasDirectory_entry (locate_generation hroot hreadable hname)
    (Path.endsInSlash_join root (Layout.isName_of_mem_generations hname))

/-- A directory is removed. -/
theorem removeTree_generation (hname : name ∈ Layout.generations)
    (hdirectory : tree.view (place ++ [name]) = some .directory) :
    ∃ after, tree.removeTree (root.join name) = .ok after ∧
      after.view = tree.view.prune (place ++ [name]) :=
  removeTree_directory (locate_generation hroot hreadable hname) hroot.directory hdirectory

/-- A directory is removed when it is there; where there is a file, that is refused. -/
theorem removeIfPresent_eval (hname : name ∈ Layout.generations)
    (hfree : View.NoFile (tree.view.below (place ++ [name]))) :
    ∃ after, (Store.removeIfPresent (root.join name)).eval tree = (.ok (), after) ∧
      after.view = tree.view.prune (place ++ [name]) := by
  by_cases hdirectory : tree.view (place ++ [name]) = some .directory
  · obtain ⟨after, hremove, hview⟩ := removeTree_generation hroot hreadable hname hdirectory
    refine ⟨after, ?_, hview⟩
    rw [Store.removeIfPresent, Procedure.eval_bind, Procedure.eval_removeTree, hremove]
    rfl
  · -- neither a file nor a directory is there, and the refusal counts as done
    have habsent : tree.view (place ++ [name]) = none := by
      have hnone := hfree.eq_none (by simpa using hdirectory)
      simpa using hnone
    have hremove := removeTree_absent (locate_generation hroot hreadable hname) habsent
    refine ⟨tree, ?_, ?_⟩
    · rw [Store.removeIfPresent, Procedure.eval_bind, Procedure.eval_removeTree, hremove]
      rfl
    · -- nothing is changed, which prunes what is not there
      have hbelow := View.graft_below tree.view (place ++ [name])
      rw [below_eq_nothing habsent] at hbelow
      exact hbelow.symm

theorem removeIfPresent_file (hname : name ∈ Layout.generations) {content : Bytes}
    (hfile : tree.view (place ++ [name]) = some (.file content)) :
    (Store.removeIfPresent (root.join name)).eval tree =
      (.error (.system .notDirectory), tree) := by
  have hremove := removeTree_file (locate_generation hroot hreadable hname) hfile
  rw [Store.removeIfPresent, Procedure.eval_bind, Procedure.eval_removeTree, hremove]
  rfl

/-- A directory is moved to another name where there is nothing. -/
theorem rename_generation (hname : name ∈ Layout.generations) (hname' : name' ∈ Layout.generations)
    (hne : name ≠ name') (hdirectory : tree.view (place ++ [name]) = some .directory)
    (habsent : tree.view (place ++ [name']) = none) :
    ∃ after, tree.rename (root.join name) (root.join name') = .ok after ∧
      after.view = (tree.view.prune (place ++ [name])).graft (place ++ [name'])
        (tree.view.below (place ++ [name])) :=
  rename_directory (locate_generation hroot hreadable hname)
    (locate_generation hroot hreadable hname') hne hroot.directory hdirectory habsent

end

end FileTree

/-! ## Steps of a swap -/

/-- The tree is seen like the given view, with the generations `g` below the root. -/
def FileTree.Holds (view : View) (place : List String) (g : Generations) (tree : FileTree) :
    Prop :=
  tree.view = view.withGenerations place g

namespace FileTree.Holds

variable {view : View} {place : List String} {g : Generations} {tree : FileTree}

theorem self (tree : FileTree) (place : List String) :
    Holds tree.view place (tree.view.generations place) tree :=
  (View.withGenerations_generations tree.view place).symm

theorem generations (h : Holds view place g tree) : tree.view.generations place = g := by
  rw [h, View.generations_withGenerations]

theorem rooted (h : Holds view place g tree) {path : Path} (hroot : view.Rooted path place) :
    tree.view.Rooted path place :=
  h ▸ hroot.withGenerations g

theorem below_current (h : Holds view place g tree) :
    tree.view.below (place ++ [Layout.current]) = g.current :=
  congrArg Generations.current h.generations

theorem below_staging (h : Holds view place g tree) :
    tree.view.below (place ++ [Layout.staging]) = g.staging :=
  congrArg Generations.staging h.generations

theorem below_backup (h : Holds view place g tree) :
    tree.view.below (place ++ [Layout.backup]) = g.backup :=
  congrArg Generations.backup h.generations

theorem at_current (h : Holds view place g tree) :
    tree.view (place ++ [Layout.current]) = g.current [] := by
  rw [← h.below_current, View.below_apply, List.append_nil]

theorem at_staging (h : Holds view place g tree) :
    tree.view (place ++ [Layout.staging]) = g.staging [] := by
  rw [← h.below_staging, View.below_apply, List.append_nil]

theorem at_backup (h : Holds view place g tree) :
    tree.view (place ++ [Layout.backup]) = g.backup [] := by
  rw [← h.below_backup, View.below_apply, List.append_nil]

/-- Where there is no current generation, there is nothing of one. -/
theorem current_eq_nothing (h : Holds view place g tree) (habsent : g.current [] = none) :
    g.current = View.nothing := by
  rw [← h.below_current]
  exact below_eq_nothing (h.at_current.trans habsent)

variable {after : FileTree} {part part' : View}

theorem graft_current (h : Holds view place g tree)
    (hview : after.view = tree.view.graft (place ++ [Layout.current]) part) :
    Holds view place { g with current := part } after := by
  unfold Holds
  rw [hview, View.graft_current, h.generations, h, View.withGenerations_withGenerations]

theorem graft_staging (h : Holds view place g tree)
    (hview : after.view = tree.view.graft (place ++ [Layout.staging]) part) :
    Holds view place { g with staging := part } after := by
  unfold Holds
  rw [hview, View.graft_staging, h.generations, h, View.withGenerations_withGenerations]

theorem graft_backup (h : Holds view place g tree)
    (hview : after.view = tree.view.graft (place ++ [Layout.backup]) part) :
    Holds view place { g with backup := part } after := by
  unfold Holds
  rw [hview, View.graft_backup, h.generations, h, View.withGenerations_withGenerations]

end FileTree.Holds

namespace Store

open FileTree (Holds)

theorem discard_eval {tree after : FileTree} {path : Path} (store : Store) (operation : String)
    (h : tree.removeTree path = .ok after) :
    (store.discard operation path).eval tree = ((), after) := by
  unfold discard
  rw [Procedure.eval_bind, Procedure.eval_removeTree, h]
  rfl

variable {store : Store} {view : View} {place : List String} {g : Generations} {tree : FileTree}
variable (hroot : view.Rooted store.root place) (hreadable : Layout.Readable store.root)
variable (h : Holds view place g tree)
include hroot hreadable h

/-- A stale backup is removed. -/
theorem dropBackup (hbackup : g.backup.NoFile) :
    ∃ after, (removeIfPresent store.backup).eval tree = (.ok (), after) ∧
      Holds view place { g with backup := View.nothing } after := by
  obtain ⟨after, heval, hview⟩ := FileTree.removeIfPresent_eval (h.rooted hroot) hreadable
    (by decide) (h.below_backup ▸ hbackup)
  exact ⟨after, heval, h.graft_backup hview⟩

/-- What is left of an earlier writing is removed. -/
theorem dropStaging (hstaging : g.staging.NoFile) :
    ∃ after, (removeIfPresent store.staging).eval tree = (.ok (), after) ∧
      Holds view place { g with staging := View.nothing } after := by
  obtain ⟨after, heval, hview⟩ := FileTree.removeIfPresent_eval (h.rooted hroot) hreadable
    (by decide) (h.below_staging ▸ hstaging)
  exact ⟨after, heval, h.graft_staging hview⟩

/-- When the removal of a backup goes through, there was no file in its place. -/
theorem dropBackup_eq_ok {after : FileTree}
    (heval : (removeIfPresent store.backup).eval tree = (.ok (), after)) :
    g.backup.NoFile ∧ Holds view place { g with backup := View.nothing } after := by
  by_cases hbackup : g.backup.NoFile
  · obtain ⟨after', hdrop, hafter⟩ := dropBackup hroot hreadable h hbackup
    rw [heval] at hdrop
    cases hdrop
    exact ⟨hbackup, hafter⟩
  · -- a file in its place would have been refused
    obtain ⟨content, hfile⟩ := View.file_of_not_noFile hbackup
    have hrefused := FileTree.removeIfPresent_file (h.rooted hroot) hreadable
      (by decide : Layout.backup ∈ Layout.generations) (h.at_backup.trans hfile)
    have hconflict := heval.symm.trans hrefused
    cases hconflict

theorem dropStaging_eq_ok {after : FileTree}
    (heval : (removeIfPresent store.staging).eval tree = (.ok (), after)) :
    g.staging.NoFile ∧ Holds view place { g with staging := View.nothing } after := by
  by_cases hstaging : g.staging.NoFile
  · obtain ⟨after', hdrop, hafter⟩ := dropStaging hroot hreadable h hstaging
    rw [heval] at hdrop
    cases hdrop
    exact ⟨hstaging, hafter⟩
  · obtain ⟨content, hfile⟩ := View.file_of_not_noFile hstaging
    have hrefused := FileTree.removeIfPresent_file (h.rooted hroot) hreadable
      (by decide : Layout.staging ∈ Layout.generations) (h.at_staging.trans hfile)
    have hconflict := heval.symm.trans hrefused
    cases hconflict

/-- The current generation becomes the backup. -/
theorem setAside (hcurrent : g.current [] = some .directory) (hbackup : g.backup [] = none) :
    ∃ after, tree.rename store.current store.backup = .ok after ∧
      Holds view place ⟨View.nothing, g.staging, g.current⟩ after := by
  obtain ⟨after, hrename, hview⟩ := FileTree.rename_generation (h.rooted hroot) hreadable
    (by decide) (by decide) (by decide) (h.at_current.trans hcurrent) (h.at_backup.trans hbackup)
  rw [h.below_current] at hview
  refine ⟨after, hrename, ?_⟩
  -- the rename prunes one directory and grafts it as the other
  unfold Holds
  rw [hview, View.prune, View.graft_current, View.graft_backup, h.generations, h]
  simp only [View.generations_withGenerations, View.withGenerations_withGenerations]

theorem setAside_refused (hcurrent : g.current [] = none) :
    ∃ failure, tree.rename store.current store.backup = .error failure :=
  ⟨_, FileTree.rename_absent
    (FileTree.locate_generation (h.rooted hroot) hreadable
      (by decide : Layout.current ∈ Layout.generations))
    (FileTree.locate_generation (h.rooted hroot) hreadable
      (by decide : Layout.backup ∈ Layout.generations))
    (h.at_current.trans hcurrent)⟩

/-- The generation that was written becomes the current one. -/
theorem moveIn (hstaging : g.staging [] = some .directory) (hcurrent : g.current [] = none) :
    ∃ after, tree.rename store.staging store.current = .ok after ∧
      Holds view place ⟨g.staging, View.nothing, g.backup⟩ after := by
  obtain ⟨after, hrename, hview⟩ := FileTree.rename_generation (h.rooted hroot) hreadable
    (by decide) (by decide) (by decide) (h.at_staging.trans hstaging)
    (h.at_current.trans hcurrent)
  rw [h.below_staging] at hview
  refine ⟨after, hrename, ?_⟩
  unfold Holds
  rw [hview, View.prune, View.graft_staging, View.graft_current, h.generations, h]
  simp only [View.generations_withGenerations, View.withGenerations_withGenerations]

/-- The backup becomes the current generation again. -/
theorem putBack (hbackup : g.backup [] = some .directory) (hcurrent : g.current [] = none) :
    ∃ after, tree.rename store.backup store.current = .ok after ∧
      Holds view place ⟨g.backup, g.staging, View.nothing⟩ after := by
  obtain ⟨after, hrename, hview⟩ := FileTree.rename_generation (h.rooted hroot) hreadable
    (by decide) (by decide) (by decide) (h.at_backup.trans hbackup) (h.at_current.trans hcurrent)
  rw [h.below_backup] at hview
  refine ⟨after, hrename, ?_⟩
  unfold Holds
  rw [hview, View.prune, View.graft_backup, View.graft_current, h.generations, h]
  simp only [View.generations_withGenerations, View.withGenerations_withGenerations]

theorem hasDirectory_current :
    tree.hasDirectory store.current = decide (g.current [] = some .directory) := by
  rw [← h.at_current]
  exact FileTree.hasDirectory_generation (h.rooted hroot) hreadable (by decide)

theorem hasDirectory_backup :
    tree.hasDirectory store.backup = decide (g.backup [] = some .directory) := by
  rw [← h.at_backup]
  exact FileTree.hasDirectory_generation (h.rooted hroot) hreadable (by decide)

theorem removeTree_backup (hbackup : g.backup [] = some .directory) :
    ∃ after, tree.removeTree store.backup = .ok after ∧
      Holds view place { g with backup := View.nothing } after := by
  obtain ⟨after, hremove, hview⟩ := FileTree.removeTree_generation (h.rooted hroot) hreadable
    (by decide) (h.at_backup.trans hbackup)
  exact ⟨after, hremove, h.graft_backup hview⟩

/-- What is no directory is not removed. -/
theorem removeTree_backup_refused (hbackup : g.backup [] ≠ some .directory) :
    ∃ failure, tree.removeTree store.backup = .error failure := by
  have hlocate := FileTree.locate_generation (h.rooted hroot) hreadable
    (by decide : Layout.backup ∈ Layout.generations)
  -- neither nothing nor a file is removed
  cases hat : g.backup [] with
  | none => exact ⟨_, FileTree.removeTree_absent hlocate (h.at_backup.trans hat)⟩
  | some node =>
    cases node with
    | file content => exact ⟨_, FileTree.removeTree_file hlocate (h.at_backup.trans hat)⟩
    | directory => exact absurd hat hbackup

theorem removeTree_staging (hstaging : g.staging [] = some .directory) :
    ∃ after, tree.removeTree store.staging = .ok after ∧
      Holds view place { g with staging := View.nothing } after := by
  obtain ⟨after, hremove, hview⟩ := FileTree.removeTree_generation (h.rooted hroot) hreadable
    (by decide) (h.at_staging.trans hstaging)
  exact ⟨after, hremove, h.graft_staging hview⟩

end Store

/-! ## Work inside the staging directory -/

section

open FileTree (Holds)

variable {view : View} {path : Path} {place : List String} {g : Generations}

theorem FileTree.Holds.of_sameBut {tree after : FileTree} (h : Holds view place g tree)
    (hsame : View.SameBut (place ++ [Layout.staging]) tree.view after.view) :
    Holds view place { g with staging := after.view.below (place ++ [Layout.staging]) } after :=
  h.graft_staging hsame.eq_graft

variable {α : Type} {procedure : Procedure α} {tree after : FileTree} {granted : List Request}
variable {ending : Ending α}

/-- Filling the staging directory changes nothing but what is in it. -/
theorem Execution.staging_of_filing
    (hexecution : Execution procedure tree granted after ending)
    (honly : procedure.Only (Request.Filing path Layout.staging))
    (hroot : view.Rooted path place) (h : Holds view place g tree) :
    (∃ part, part [] = g.staging [] ∧ Holds view place { g with staging := part } after) ∧
      (∀ request ∈ granted, request.Filing path Layout.staging) ∧
      ∀ request, ending = .crashed (some request) → request.Filing path Layout.staging := by
  -- the invariant: only the staging directory has changed, and it is still what it was
  refine hexecution.invariant
    (fun tree => ∃ part, part [] = g.staging [] ∧ Holds view place { g with staging := part } tree)
    (fun request hfiling tree hkeeps => ?_)
    (fun request hfiling tree after hkeeps htorn => ?_) honly ⟨g.staging, rfl, h⟩
  · obtain ⟨part, hpart, hholds⟩ := hkeeps
    obtain ⟨hsame, hat⟩ := (hholds.rooted hroot).filing_perform (by decide) hfiling
    refine ⟨_, ?_, hholds.of_sameBut hsame⟩
    rw [View.below_apply, List.append_nil, hat, hholds.at_staging]
    exact hpart
  · obtain ⟨part, hpart, hholds⟩ := hkeeps
    obtain ⟨hsame, hat⟩ := (hholds.rooted hroot).filing_torn (by decide) hfiling htorn
    refine ⟨_, ?_, hholds.of_sameBut hsame⟩
    rw [View.below_apply, List.append_nil, hat, hholds.at_staging]
    exact hpart

/-- Making, filling and removing the staging directory changes nothing but that directory. -/
theorem Execution.staging_of_inside
    (hexecution : Execution procedure tree granted after ending)
    (honly : procedure.Only (Request.Inside path Layout.staging))
    (hroot : view.Rooted path place) (h : Holds view place g tree) :
    (∃ part, Holds view place { g with staging := part } after) ∧
      (∀ request ∈ granted, request.Inside path Layout.staging) ∧
      ∀ request, ending = .crashed (some request) → request.Inside path Layout.staging := by
  -- the invariant: only the staging directory has changed
  refine hexecution.invariant
    (fun tree => ∃ part, Holds view place { g with staging := part } tree)
    (fun request hinside tree hkeeps => ?_)
    (fun request hinside tree after hkeeps htorn => ?_) honly ⟨g.staging, h⟩
  · obtain ⟨part, hholds⟩ := hkeeps
    exact ⟨_, hholds.of_sameBut ((hholds.rooted hroot).inside_perform (by decide) hinside).1⟩
  · obtain ⟨part, hholds⟩ := hkeeps
    exact ⟨_, hholds.of_sameBut ((hholds.rooted hroot).inside_torn (by decide) hinside htorn).1⟩

/-- Removing the backup changes nothing but the backup, and no file takes its place. -/
theorem Execution.backup_of_inside
    (hexecution : Execution procedure tree granted after ending)
    (honly : procedure.Only fun request =>
      request = .sync path ∨ request = .removeTree (path.join Layout.backup))
    (hroot : view.Rooted path place) (h : Holds view place g tree) (hfree : g.backup.NoFile) :
    ∃ left, left.NoFile ∧ Holds view place { g with backup := left } after := by
  -- the invariant: only the backup has changed, and it has become no file
  refine (hexecution.invariant
    (fun tree => ∃ left, left.NoFile ∧ Holds view place { g with backup := left } tree)
    (fun request hrequest tree hkeeps => ?_)
    (fun request hrequest tree after hkeeps htorn => ?_) honly ⟨g.backup, hfree, h⟩).1
  · obtain ⟨left, hleft, hholds⟩ := hkeeps
    rcases hrequest with rfl | rfl
    · exact ⟨left, hleft, hholds⟩
    · obtain ⟨hsame, hnoFile⟩ := (hholds.rooted hroot).inside_perform (by decide)
        (.removeTree : Request.Inside path Layout.backup _)
      exact ⟨_, hnoFile (hholds.below_backup ▸ hleft), hholds.graft_backup hsame.eq_graft⟩
  · obtain ⟨left, hleft, hholds⟩ := hkeeps
    rcases hrequest with rfl | rfl
    · cases htorn
    · obtain ⟨hsame, hnoFile⟩ := (hholds.rooted hroot).inside_torn (by decide)
        (.removeTree : Request.Inside path Layout.backup _) htorn
      exact ⟨_, hnoFile (hholds.below_backup ▸ hleft), hholds.graft_backup hsame.eq_graft⟩

end

/-! ## Recovery -/

namespace Generations

/-- The generations once an interrupted swap is settled: a backup beside a current generation is
dropped, and one without is put in its place. -/
def recovered (g : Generations) : Generations :=
  if g.backup [] = some .directory then
    if g.current [] = some .directory then { g with backup := View.nothing }
    else ⟨g.backup, g.staging, View.nothing⟩
  else g

theorem recovered_of_both {g : Generations} (hbackup : g.backup [] = some .directory)
    (hcurrent : g.current [] = some .directory) :
    g.recovered = { g with backup := View.nothing } := by
  rw [recovered, if_pos hbackup, if_pos hcurrent]

theorem recovered_of_backup {g : Generations} (hbackup : g.backup [] = some .directory)
    (hcurrent : g.current [] ≠ some .directory) :
    g.recovered = ⟨g.backup, g.staging, View.nothing⟩ := by
  rw [recovered, if_pos hbackup, if_neg hcurrent]

theorem recovered_of_current {g : Generations} (hbackup : g.backup [] ≠ some .directory) :
    g.recovered = g :=
  if_neg hbackup

/-- Which generation a recovery makes current is not a matter of the staging directory. -/
theorem recovered_current_congr {g g' : Generations} (hcurrent : g'.current = g.current)
    (hbackup : g'.backup = g.backup) : g'.recovered.current = g.recovered.current := by
  unfold recovered
  rw [hcurrent, hbackup]
  by_cases hb : g.backup [] = some .directory
  · rw [if_pos hb, if_pos hb]
    by_cases hc : g.current [] = some .directory
    · rw [if_pos hc, if_pos hc]
    · rw [if_neg hc, if_neg hc]
  · rw [if_neg hb, if_neg hb, hcurrent]

/-- A generation that is current stays so. -/
theorem recovered_current_of_directory {g : Generations} (h : g.current [] = some .directory) :
    g.recovered.current = g.current := by
  by_cases hbackup : g.backup [] = some .directory
  · rw [recovered_of_both hbackup h]
  · rw [recovered_of_current hbackup]

/-- After a recovery there is no backup directory. -/
theorem recovered_backup (g : Generations) : g.recovered.backup [] ≠ some .directory := by
  by_cases hbackup : g.backup [] = some .directory
  · by_cases hcurrent : g.current [] = some .directory
    · rw [recovered_of_both hbackup hcurrent]
      exact nofun
    · rw [recovered_of_backup hbackup hcurrent]
      exact nofun
  · rwa [recovered_of_current hbackup]

theorem noFile_recovered {g : Generations} (hcurrent : g.current.NoFile) :
    g.recovered.current.NoFile := by
  by_cases hbackup : g.backup [] = some .directory
  · by_cases hdirectory : g.current [] = some .directory
    · rwa [recovered_of_both hbackup hdirectory]
    · rw [recovered_of_backup hbackup hdirectory]
      exact View.noFile_of_directory hbackup
  · rwa [recovered_of_current hbackup]

/-- So there is nothing left to recover. -/
theorem recovered_recovered (g : Generations) : g.recovered.recovered = g.recovered :=
  recovered_of_current g.recovered_backup

end Generations

namespace Store

open FileTree (Holds)

/-- Recovery settles the generations and changes nothing else. -/
theorem recoverGeneration_eval {store : Store} {view : View} {place : List String}
    {g : Generations} {tree : FileTree} (hroot : view.Rooted store.root place)
    (hreadable : Layout.Readable store.root) (h : Holds view place g tree)
    (hcurrent : g.current.NoFile) :
    ∃ after, Task.eval tree store.recoverGeneration = (.ok (), after) ∧
      Holds view place g.recovered after := by
  have hasBackup := hasDirectory_backup hroot hreadable h
  have hasCurrent := hasDirectory_current hroot hreadable h
  unfold recoverGeneration
  dsimp only
  rw [Task.eval_bind_ok _ (Task.eval_lift tree _), Procedure.eval_hasDirectory]
  by_cases hbackup : g.backup [] = some .directory
  · rw [hasBackup, decide_eq_true hbackup]
    dsimp only
    rw [if_pos rfl, Task.eval_bind_ok _ (Task.eval_lift tree _), Procedure.eval_hasDirectory]
    by_cases hdirectory : g.current [] = some .directory
    · -- both are there: the backup is stale
      obtain ⟨after, hremove, hafter⟩ := removeTree_backup hroot hreadable h hbackup
      refine ⟨after, ?_, ?_⟩
      · rw [hasCurrent, decide_eq_true hdirectory]
        dsimp only
        rw [if_pos rfl, Task.eval_lift, discard_eval store "recoverSnapshot" hremove]
      · rwa [Generations.recovered_of_both hbackup hdirectory]
    · -- a swap was interrupted after the current generation was set aside
      obtain ⟨after, hrename, hafter⟩ :=
        putBack hroot hreadable h hbackup (hcurrent.eq_none hdirectory)
      refine ⟨after, ?_, ?_⟩
      · rw [hasCurrent, decide_eq_false hdirectory]
        dsimp only
        rw [if_neg Bool.false_ne_true, Task.eval_bind, Task.eval_ofProcedure,
          Procedure.eval_rename, hrename]
        rfl
      · rwa [Generations.recovered_of_backup hbackup hdirectory]
  · refine ⟨tree, ?_, ?_⟩
    · rw [hasBackup, decide_eq_false hbackup]
      rfl
    · rwa [Generations.recovered_of_current hbackup]

/-- A file in the place of the current generation stays, and so does a backup beside it. -/
theorem recoverGeneration_of_file {store : Store} {view : View} {place : List String}
    {g : Generations} {tree : FileTree} (hroot : view.Rooted store.root place)
    (hreadable : Layout.Readable store.root) (h : Holds view place g tree) {content : Bytes}
    (hfile : g.current [] = some (.file content)) :
    (Task.eval tree store.recoverGeneration).2 = tree := by
  have hnotDirectory : g.current [] ≠ some .directory := by
    rw [hfile]
    exact nofun
  unfold recoverGeneration
  dsimp only
  rw [Task.eval_bind_ok _ (Task.eval_lift tree _), Procedure.eval_hasDirectory,
    hasDirectory_backup hroot hreadable h]
  by_cases hbackup : g.backup [] = some .directory
  · -- a directory does not take the place of a file
    have hrefused := FileTree.rename_onto_file
      (FileTree.locate_generation (h.rooted hroot) hreadable
        (by decide : Layout.backup ∈ Layout.generations))
      (FileTree.locate_generation (h.rooted hroot) hreadable
        (by decide : Layout.current ∈ Layout.generations))
      (by decide) (h.at_backup.trans hbackup) (h.at_current.trans hfile)
    have hrename : tree.rename store.backup store.current = FileTree.refuse .notDirectory :=
      hrefused
    rw [decide_eq_true hbackup]
    dsimp only
    rw [if_pos rfl, Task.eval_bind_ok _ (Task.eval_lift tree _), Procedure.eval_hasDirectory,
      hasDirectory_current hroot hreadable h, decide_eq_false hnotDirectory]
    dsimp only
    rw [if_neg Bool.false_ne_true, Task.eval_bind, Task.eval_ofProcedure, Procedure.eval_rename,
      hrename]
    rfl
  · rw [decide_eq_false hbackup]
    rfl

end Store

end PartitionSnapshot
