import PartitionSnapshot.Proofs.Settling
import PartitionSnapshot.Proofs.Storing

/-!
# What a store that goes through leaves

A store that goes through has put the generation of the source in place. This is said of every root
and of every tree that is stored into. The path of the root may lead through directories that are
missing at first, and are made with the staging directory; then the staging directory may hold
files that were there before. And the path may lead through the directories of generations; then
the swap cuts it off, and the store fails or the root is gone.

Where steps lead is the same in every tree in which they lead anywhere. So either the steps to a
root avoid the directories of generations in every tree, or there is one of these without which
they lead nowhere. After a swap the latter is excluded.

## Main statements

* `FileTree.rooted_or_through`: a path to a root avoids the generations, or leads through one.
* `Store.Swaps`, `Store.Swaps.not_through`: after a swap the path leads through none.
* `Store.writeGeneration_stages`: what a generation that is written comes to.
* `Store.storeSnapshot_leaves`: what a store that goes through leaves.
-/

namespace PartitionSnapshot

/-! ## Paths through generations -/

namespace View

variable {view view' : View} {start place place' : List String} {steps : List Path.Step}

/-- Steps lead to one place only, in all views in which they lead anywhere. -/
theorem enter_unique (h : view.enter start steps = some place)
    (h' : view'.enter start steps = some place') : place' = place := by
  induction steps generalizing start with
  | nil =>
    cases h
    cases h'
    rfl
  | cons step steps ih =>
    cases step with
    | stay => exact ih h h'
    | up => exact ih h h'
    | down name =>
      rw [enter_down_eq_some] at h h'
      exact ih h.2 h'.2

/-- Steps avoid the generations of a root, or lead through one of them in every view. -/
theorem enter_avoids_or_through {root : List String} (h : view.enter start steps = some place) :
    (view.withoutGenerations root).enter start steps = some place ∨
      ∃ name ∈ Layout.generations, ∃ rest, ∀ (view' : View) (place' : List String),
        view'.enter start steps = some place' →
          view' (root ++ [name] ++ rest) = some .directory := by
  induction steps generalizing start with
  | nil => exact .inl h
  | cons step steps ih =>
    cases step with
    | stay => exact ih h
    | up => exact ih h
    | down name =>
      rw [enter_down_eq_some] at h
      obtain ⟨⟨hsize, hdirectory⟩, h⟩ := h
      by_cases hunder : InGenerations root (start ++ [name])
      · -- this step leads into a generation, and needs its directory
        obtain ⟨generation, hgeneration, rest, hrest⟩ := hunder
        refine .inr ⟨generation, hgeneration, rest, fun view' place' henter => ?_⟩
        rw [enter_down_eq_some] at henter
        rw [hrest]
        exact henter.1.2
      · rcases ih h with havoids | ⟨generation, hgeneration, rest, hthrough⟩
        · refine .inl ?_
          have hstays : view.withoutGenerations root (start ++ [name]) = some .directory := by
            rw [withoutGenerations, if_neg hunder, hdirectory]
          exact enter_down_eq_some.2 ⟨⟨hsize, hstays⟩, havoids⟩
        · refine .inr ⟨generation, hgeneration, rest, fun view' place' henter => ?_⟩
          rw [enter_down_eq_some] at henter
          exact hthrough view' place' henter.2

/-- Where the path of a root leads through the directory of a generation. -/
def Through (path : Path) (directory : List String) : Prop :=
  ∀ (tree : FileTree) (place : List String), tree.view.enter [] path.steps = some place →
    tree.view directory = some .directory

end View

namespace FileTree

variable {tree after : FileTree} {path root : Path} {place place' : List String}
variable {name name' : String}

/-- The path of a root avoids the generations, or it leads through one of them. -/
theorem rooted_or_through (henter : tree.view.enter [] path.steps = some place)
    (hdirectory : tree.view place = some .directory) :
    tree.view.Rooted path place ∨
      ∃ name ∈ Layout.generations, View.Through path (place ++ [name]) := by
  rcases View.enter_avoids_or_through henter with havoids | ⟨name, hname, rest, hthrough⟩
  · exact .inl ⟨hdirectory, havoids⟩
  · exact .inr ⟨name, hname, fun tree place' h => view_above (hthrough tree.view place' h)⟩

/-- The way to an entry that is a directory is the way to its directory, and one step more. -/
theorem enter_of_join (hname : Path.IsName name)
    (h : tree.view.enter [] (root.join name).steps = some place') :
    ∃ place, tree.view.enter [] root.steps = some place ∧ place' = place ++ [name] ∧
      tree.view (place ++ [name]) = some .directory := by
  rw [Path.steps_join root hname, View.enter_append, Option.bind_eq_some_iff] at h
  obtain ⟨place, henter, hstep⟩ := h
  obtain ⟨⟨-, hdirectory⟩, hstep⟩ := View.enter_down_eq_some.1 hstep
  cases hstep
  exact ⟨place, henter, rfl, hdirectory⟩

/-- Where a file was written there was no directory, and there was one around it. -/
theorem free_of_write (hname : Path.IsName name) {content : Bytes}
    (h : tree.write (root.join name) content = .ok after) :
    ∃ place, tree.view.enter [] root.steps = some place ∧
      tree.view (place ++ [name]) ≠ some .directory := by
  obtain ⟨spot, hlocate⟩ := locate_of_write h
  obtain ⟨place, henter, rfl⟩ := spot_of_locate hname hlocate
  refine ⟨place, henter, fun hdirectory => ?_⟩
  exact (view_of_write hlocate (view_above hdirectory) h).2 hdirectory

/-- What was removed is no longer there. -/
theorem view_of_removeTree_join (hname : Path.IsName name)
    (hremove : tree.removeTree (root.join name) = .ok after) :
    ∃ place, tree.view.enter [] root.steps = some place ∧
      after.view = tree.view.prune (place ++ [name]) := by
  cases hlocate : tree.locate (root.join name) with
  | error failure =>
    unfold removeTree at hremove
    rw [hlocate] at hremove
    cases hremove
  | ok spot =>
    obtain ⟨place, henter, rfl⟩ := spot_of_locate hname hlocate
    have hthere : tree.view (place ++ [name]) ≠ none := by
      intro habsent
      rw [removeTree_absent hlocate habsent] at hremove
      cases hremove
    have hparent : tree.view place = some .directory := view_parent hthere
    exact ⟨place, henter, view_of_removeTree hlocate hparent hremove⟩

end FileTree

namespace Store

variable {store : Store} {source : Source} {tree after : FileTree} {place : List String}

/-! ## Swaps that go through -/

/-- The steps of a swap that goes through, once a stale backup is removed: the current generation is
set aside if there is one, the staged one is moved in, and the backup is removed if it can be. -/
structure Swaps (root : Path) (tree aside moved after : FileTree) : Prop where
  setAside : tree.hasDirectory (root.join Layout.current) = true ∧
      tree.rename (root.join Layout.current) (root.join Layout.backup) = .ok aside ∨
    tree.hasDirectory (root.join Layout.current) = false ∧ aside = tree
  moveIn : aside.rename (root.join Layout.staging) (root.join Layout.current) = .ok moved
  cleared : moved.removeTree (root.join Layout.backup) = .ok after ∨
    after = moved ∧ ∃ failure, moved.removeTree (root.join Layout.backup) = .error failure

theorem setAside_of_setCurrentAside {context : Context} {hadCurrent : Bool}
    (h : Task.eval tree (store.setCurrentAside context) = (.ok hadCurrent, after)) :
    tree.hasDirectory store.current = true ∧
        tree.rename store.current store.backup = .ok after ∨
      tree.hasDirectory store.current = false ∧ after = tree := by
  unfold setCurrentAside at h
  rw [Task.eval_bind_ok _ (Task.eval_lift tree _), Procedure.eval_hasDirectory] at h
  cases hcurrent : tree.hasDirectory store.current with
  | false =>
    rw [hcurrent] at h
    cases h
    exact .inr ⟨rfl, rfl⟩
  | true =>
    rw [hcurrent] at h
    dsimp only at h
    rw [if_pos rfl] at h
    obtain ⟨_, renamed, hrename, hdone⟩ := Task.eval_bind_eq_ok h
    cases hdone
    have hrename := ofProcedure_eq_ok hrename
    rw [Procedure.eval_rename] at hrename
    cases hresult : tree.rename store.current store.backup with
    | error failure =>
      rw [hresult] at hrename
      cases hrename
    | ok renamed' =>
      rw [hresult] at hrename
      cases hrename
      exact .inl ⟨rfl, rfl⟩

theorem rename_of_moveStagingIn {context : Context} {hadCurrent : Bool}
    (h : Task.eval tree (store.moveStagingIn context hadCurrent) = (.ok (), after)) :
    tree.rename store.staging store.current = .ok after := by
  unfold moveStagingIn at h
  rw [Task.eval_bind_ok _ (Task.eval_lift tree _), Procedure.eval_rename] at h
  cases hresult : tree.rename store.staging store.current with
  | error failure =>
    rw [hresult] at h
    -- a refusal is not passed over, whether or not the backup is put back
    cases hadCurrent with
    | false => cases h
    | true =>
      obtain ⟨_, _, -, hthrow⟩ := Task.eval_bind_eq_ok h
      cases hthrow
  | ok moved =>
    rw [hresult] at h
    cases h
    rfl

theorem removeBackup_run (store : Store) (tree : FileTree) :
    tree.removeTree store.backup = .ok ((store.removeBackup).eval tree).2 ∨
      ((store.removeBackup).eval tree).2 = tree ∧
        ∃ failure, tree.removeTree store.backup = .error failure := by
  unfold removeBackup removeIfPresent
  rw [Procedure.eval_bind, Procedure.eval_bind, Procedure.eval_removeTree]
  cases tree.removeTree store.backup with
  | ok cleared => exact .inl rfl
  | error failure =>
    refine .inr ⟨?_, failure, rfl⟩
    by_cases hnotFound : failure.classify = .notFound
    · simp only [FileTree.settle, Procedure.eval_pure, if_pos hnotFound]
    · simp only [FileTree.settle, Procedure.eval_pure, if_neg hnotFound]
      rfl

theorem swaps_of_swapGeneration {context : Context}
    (h : Task.eval tree (store.swapGeneration context) = (.ok (), after)) :
    ∃ dropped aside moved, Swaps store.root dropped aside moved after := by
  unfold swapGeneration at h
  obtain ⟨_, dropped, -, h⟩ := Task.eval_bind_eq_ok h
  obtain ⟨hadCurrent, aside, haside, h⟩ := Task.eval_bind_eq_ok h
  obtain ⟨_, moved, hmove, h⟩ := Task.eval_bind_eq_ok h
  rw [Task.eval_bind_ok _ (Task.eval_lift moved _), syncDirectory_eval, Task.eval_lift] at h
  have hafter : ((store.removeBackup).eval moved).2 = after := congrArg Prod.snd h
  exact ⟨dropped, aside, moved, setAside_of_setCurrentAside haside, rename_of_moveStagingIn hmove,
    hafter ▸ removeBackup_run store moved⟩

namespace Swaps

variable {root : Path} {aside moved : FileTree}

/-- When the staged generation is moved in, nothing is in the place of the current one: it was not
there, or has been set aside. -/
theorem current_aside (h : Swaps root tree aside moved after)
    (hcheck : FileTree.checkPath (root.join Layout.current) = .ok ())
    (henter : aside.view.enter [] root.steps = some place) :
    aside.view (place ++ [Layout.current]) ≠ some .directory := by
  intro haside
  rcases h.setAside with ⟨-, hrename⟩ | ⟨hnone, rfl⟩
  · obtain ⟨place', _, henter', -, -, hview⟩ :=
      FileTree.view_of_rename_join (by decide) (by decide) (by decide) hrename
    cases View.enter_unique henter henter'
    rw [hview, View.graft_elsewhere (Settles.not_sibling (by decide)), View.prune,
      View.graft_at] at haside
    cases haside
  · have hfound : aside.hasDirectory (root.join Layout.current) = true :=
      (FileTree.hasDirectory_join (by decide)).2 ⟨hcheck, place, henter, haside⟩
    cases hfound.symm.trans hnone

/-- The staging directory has been moved away, and nothing was put there since. -/
theorem staging_gone (h : Swaps root tree aside moved after)
    (henter : after.view.enter [] root.steps = some place) :
    after.view (place ++ [Layout.staging]) ≠ some .directory := by
  intro hstill
  obtain ⟨place', _, henter', -, -, hmoved⟩ :=
    FileTree.view_of_rename_join (by decide) (by decide) (by decide) h.moveIn
  cases View.enter_unique henter henter'
  have hgone : moved.view (place ++ [Layout.staging]) = none := by
    rw [hmoved, View.graft_elsewhere (Settles.not_sibling (by decide)), View.prune, View.graft_at]
    rfl
  rcases h.cleared with hremove | ⟨rfl, -⟩
  · obtain ⟨_, -, hview⟩ := FileTree.view_of_removeTree_join (by decide) hremove
    rw [hview] at hstill
    rw [(View.directory_of_prune hstill).2] at hgone
    cases hgone
  · cases hgone.symm.trans hstill

/-- The backup has been removed, if it was where the path says. -/
theorem backup_gone (h : Swaps root tree aside moved after)
    (hcheck : FileTree.checkPath (root.join Layout.backup) = .ok ())
    (henter : after.view.enter [] root.steps = some place) :
    after.view (place ++ [Layout.backup]) ≠ some .directory := by
  intro hstill
  rcases h.cleared with hremove | ⟨rfl, failure, hrefused⟩
  · obtain ⟨place', henter', hview⟩ := FileTree.view_of_removeTree_join (by decide) hremove
    cases View.enter_unique henter henter'
    rw [hview, View.prune, View.graft_at] at hstill
    cases hstill
  · have hlocate := FileTree.locate_join henter (by decide : Path.IsName Layout.backup)
    rw [hcheck] at hlocate
    obtain ⟨_, hremove, -⟩ :=
      FileTree.removeTree_directory hlocate (FileTree.view_above hstill) hstill
    cases hrefused.symm.trans hremove

/-- After a swap the path of the root leads through none of the generations: on the way through one
of them it would have been cut off. -/
theorem not_through (h : Swaps root tree aside moved after) (haccepted : Layout.Accepted root)
    (henter : after.view.enter [] root.steps = some place) {name : String}
    (hname : name ∈ Layout.generations) : ¬ View.Through root (place ++ [name]) := by
  intro hthrough
  have hcheck : FileTree.checkPath (root.join name) = .ok () :=
    (haccepted.room.mono (by decide)).join (Layout.isName_of_mem_generations hname)
      (Layout.size_of_mem_generations hname)
  simp only [Layout.generations, List.mem_cons, List.not_mem_nil, or_false] at hname
  rcases hname with rfl | rfl | rfl
  · -- moving in the staged generation has followed the path, when the current one was not there
    obtain ⟨place', _, henter', -⟩ :=
      FileTree.view_of_rename_join (by decide) (by decide) (by decide) h.moveIn
    cases View.enter_unique henter henter'
    exact h.current_aside hcheck henter' (hthrough aside place henter')
  · exact h.staging_gone henter (hthrough after place henter)
  · exact h.backup_gone hcheck henter (hthrough after place henter)

end Swaps

end Store

/-! ## Files that are written -/

namespace View

/-- A directory that has the given files, whatever else it has. -/
def Overlays (part : View) (files : String → Option Bytes) : Prop :=
  part [] = some .directory ∧
    ∀ file content, files file = some content → part.readFile file = .ok content

/-- One more file of a directory. -/
theorem Overlays.graft {part : View} {files : String → Option Bytes} (h : part.Overlays files)
    (file : String) (content : Bytes) :
    (part.graft [file] (ofFile content)).Overlays fun other =>
      if other = file then some content else files other := by
  refine ⟨(graft_elsewhere (by simp)).trans h.1, fun other content' hother => ?_⟩
  dsimp only at hother
  split at hother
  · next hname =>
    cases hother
    rw [hname, readFile_graft_self h.1]
  · next hname => rw [readFile_graft hname, h.2 other content' hother]

end View

namespace Store

open FileTree (Holds)

variable {store : Store} {source : Source} {tree after : FileTree} {place : List String}

/-- What was made is there when the request was granted. -/
theorem create_of_ofProcedure {path : Path} {toError : Failure → Error}
    (h : Task.eval tree (Task.ofProcedure (.create path) toError) = (.ok (), after)) :
    tree.create path = .ok after :=
  settled_of_ofProcedure (Procedure.eval_create tree path) h

theorem create_of_writeSmallFile {context : Context} {path : Path} {data : Bytes}
    (h : Task.eval tree (writeSmallFile context path data) = (.ok (), after)) :
    ∃ made, tree.create path = .ok made := by
  unfold writeSmallFile at h
  obtain ⟨_, made, hcreate, -⟩ := Task.eval_bind_eq_ok h
  exact ⟨made, create_of_ofProcedure hcreate⟩

theorem create_of_writeKind {context : Context} {directory : Path} {signs signs' : Signs}
    {kind : Kind} (h : Task.eval tree (store.writeKind context directory source signs kind) =
      (.ok signs', after)) :
    ∃ made, tree.create (Layout.entityFile directory kind) = .ok made := by
  unfold writeKind at h
  obtain ⟨outcome, mid, houtcome, -⟩ := Task.eval_bind_eq_ok h
  cases hcount : store.headCount source kind with
  | error error =>
    rw [storeKind_eval_error hcount directory tree] at houtcome
    cases houtcome
  | ok count =>
    obtain ⟨_, _, -, hstore⟩ := storeKind_eval hcount directory
    rw [hstore] at houtcome
    unfold saveKind at houtcome
    obtain ⟨expected, counted, hexpected, houtcome⟩ := Task.eval_bind_eq_ok houtcome
    have hsame := congrArg Prod.snd ((Task.eval_ofExcept _ _ _).symm.trans hexpected)
    cases hsame
    obtain ⟨_, made, hcreate, -⟩ := Task.eval_bind_eq_ok houtcome
    exact ⟨made, create_of_ofProcedure hcreate⟩

section

variable {view : View} {g : Generations} {files : String → Option Bytes}

/-- The staging directory has the given files, and otherwise only what is in the generations may
have changed. -/
def Stages (view : View) (place : List String) (g : Generations)
    (files : String → Option Bytes) (tree : FileTree) : Prop :=
  ∃ part : View, part.Overlays files ∧ Holds view place { g with staging := part } tree

variable (hroot : view.Rooted store.root place) (haccepted : Layout.Accepted store.root)
variable (h : Stages view place g files tree)

include h in
theorem Stages.folder : tree.view (place ++ [Layout.staging]) = some .directory := by
  obtain ⟨part, hpart, hholds⟩ := h
  rw [hholds.at_staging]
  exact hpart.1

include h in
/-- One more file that is written. -/
theorem Stages.graft {file : String} {content : Bytes}
    (hview : after.view = tree.view.graft (place ++ [Layout.staging] ++ [file])
      (View.ofFile content)) :
    Stages view place g (fun other => if other = file then some content else files other)
      after := by
  obtain ⟨part, hpart, hholds⟩ := h
  exact ⟨_, hpart.graft file content, hholds.graft_staging_file hview⟩

include hroot h in
/-- Where a file is made in the staging directory there was no directory. -/
theorem Stages.free {file : String} (hfile : file ∈ Layout.files)
    (hcreate : tree.create (store.staging.join file) = .ok after) :
    tree.view (place ++ [Layout.staging] ++ [file]) ≠ some .directory := by
  obtain ⟨part, -, hholds⟩ := h
  obtain ⟨folder, hfolder, hfree⟩ :=
    FileTree.free_of_write (Layout.isName_of_mem_files hfile) hcreate
  obtain ⟨place', hplace, rfl, -⟩ := FileTree.enter_of_join (by decide) hfolder
  cases View.enter_unique (hholds.rooted hroot).enter hplace
  exact hfree

include hroot haccepted h in
theorem writeKind_stages {context : Context} {signs signs' : Signs} {kind : Kind}
    (hwrite : Task.eval tree (store.writeKind context store.staging source signs kind) =
      (.ok signs', after)) :
    signs' = signs.set kind (crc32 (source.content kind)) ∧
      Stages view place g (fun other => if other = kind.name then some (source.content kind)
        else files other) after := by
  obtain ⟨made, hcreate⟩ := create_of_writeKind hwrite
  have hfree := h.free hroot (Layout.mem_files kind) hcreate
  have hrooted : tree.view.Rooted store.root place := by
    obtain ⟨part, -, hholds⟩ := h
    exact hholds.rooted hroot
  obtain ⟨after', heval, hview⟩ := writeKind_eval hrooted haccepted h.folder
    (complete_of_writeKind hwrite).1 hfree context signs
  rw [hwrite] at heval
  cases heval
  exact ⟨rfl, h.graft hview⟩

include hroot haccepted h in
theorem writeSmallFile_stages {file : String} (hfile : file ∈ Layout.files) {context : Context}
    {data : Bytes} (hwrite : Task.eval tree (writeSmallFile context (store.staging.join file) data)
      = (.ok (), after)) :
    Stages view place g (fun other => if other = file then some data else files other) after := by
  obtain ⟨made, hcreate⟩ := create_of_writeSmallFile hwrite
  have hfree := h.free hroot hfile hcreate
  have hrooted : tree.view.Rooted store.root place := by
    obtain ⟨part, -, hholds⟩ := h
    exact hholds.rooted hroot
  obtain ⟨after', heval, hview⟩ := writeSmallFile_eval hrooted
    (by decide : Layout.staging ∈ Layout.folders) hfile (haccepted.file_of_mem (by decide) hfile)
    h.folder hfree context data
  have heval : Task.eval tree (writeSmallFile context (store.staging.join file) data) =
      (.ok (), after') := heval
  rw [hwrite] at heval
  cases heval
  exact h.graft hview

end

/-- **What a generation that is written comes to**: the files of the source are in the staging
directory, whatever was in it before. -/
theorem writeGeneration_stages {view : View} {g : Generations} {context : Context}
    {position : ApplyPosition} {signs : Signs} (hroot : view.Rooted store.root place)
    (haccepted : Layout.Accepted store.root) (h : Stages view place g (fun _ => none) tree)
    (hwrite : Task.eval tree (store.writeGeneration context store.staging source position) =
      (.ok signs, after)) :
    signs = source.signs ∧ Stages view place g (source.files position) after := by
  unfold writeGeneration at hwrite
  obtain ⟨kinds, tree₄, hkinds, hwrite⟩ := Task.eval_bind_eq_ok hwrite
  simp only [Kind.all, List.foldlM_cons, List.foldlM_nil] at hkinds
  -- the four kinds, the apply position, and the signs
  obtain ⟨_, tree₁, hinode, hkinds⟩ := Task.eval_bind_eq_ok hkinds
  obtain ⟨rfl, h₁⟩ := writeKind_stages hroot haccepted h hinode
  obtain ⟨_, tree₂, hdentry, hkinds⟩ := Task.eval_bind_eq_ok hkinds
  obtain ⟨rfl, h₂⟩ := writeKind_stages hroot haccepted h₁ hdentry
  obtain ⟨_, tree₃, hextend, hkinds⟩ := Task.eval_bind_eq_ok hkinds
  obtain ⟨rfl, h₃⟩ := writeKind_stages hroot haccepted h₂ hextend
  obtain ⟨_, _, hmultipart, hkinds⟩ := Task.eval_bind_eq_ok hkinds
  obtain ⟨rfl, h₄⟩ := writeKind_stages hroot haccepted h₃ hmultipart
  cases hkinds
  obtain ⟨_, tree₅, happly, hwrite⟩ := Task.eval_bind_eq_ok hwrite
  unfold storeApply at happly
  obtain ⟨_, _, hposition, happly⟩ := Task.eval_bind_eq_ok happly
  have h₅ := writeSmallFile_stages hroot haccepted h₄
    (by decide : Layout.apply ∈ Layout.files) hposition
  cases happly
  obtain ⟨_, tree₆, hsigns, hwrite⟩ := Task.eval_bind_eq_ok hwrite
  have h₆ := writeSmallFile_stages hroot haccepted h₅
    (by decide : Layout.signs ∈ Layout.files) hsigns
  rw [Task.eval_bind_ok _ (Task.eval_lift tree₆ _), syncDirectory_eval] at hwrite
  cases hwrite
  refine ⟨rfl, ?_⟩
  rw [← files_eq]
  exact h₆

/-! ## Stores that go through -/

/-- What was written went into a directory that was there. -/
theorem folder_of_writeGeneration {context : Context} {position : ApplyPosition} {signs : Signs}
    (h : Task.eval tree (store.writeGeneration context store.staging source position) =
      (.ok signs, after)) :
    ∃ place, tree.view.enter [] store.root.steps = some place ∧
      tree.view (place ++ [Layout.staging]) = some .directory := by
  unfold writeGeneration at h
  obtain ⟨_, _, hkinds, -⟩ := Task.eval_bind_eq_ok h
  simp only [Kind.all, List.foldlM_cons] at hkinds
  obtain ⟨_, _, hinode, -⟩ := Task.eval_bind_eq_ok hkinds
  obtain ⟨made, hcreate⟩ := create_of_writeKind hinode
  obtain ⟨folder, hfolder, -⟩ := FileTree.free_of_write Kind.inode.isName_name hcreate
  obtain ⟨place, henter, -, hdirectory⟩ := FileTree.enter_of_join (by decide) hfolder
  exact ⟨place, henter, hdirectory⟩

theorem mem_files_of_files {position : ApplyPosition} {file : String} {content : Bytes}
    (h : source.files position file = some content) : file ∈ Layout.files := by
  unfold Source.files at h
  split at h
  · next hsigns =>
    subst hsigns
    decide
  · split at h
    · next happly =>
      subst happly
      decide
    · obtain ⟨kind, hkind, -⟩ := Option.map_eq_some_iff.1 h
      have hname := List.find?_some hkind
      rw [decide_eq_true_eq] at hname
      exact hname ▸ Layout.mem_files kind

/-- **What a store that goes through leaves**, if the path of the root still leads anywhere: the
signs are those of the source, the files of the current generation are those that the source is
stored as, and there is no backup. -/
theorem storeSnapshot_leaves {position : ApplyPosition} {signs : Signs}
    (h : Task.eval tree (store.storeSnapshot source position) = (.ok signs, after))
    (henter : after.view.enter [] store.root.steps = some place) :
    signs = source.signs ∧
      (∀ file content, source.files position file = some content →
        after.read (store.current.join file) = .ok content) ∧
      after.hasDirectory store.backup = false := by
  obtain ⟨-, haccepted⟩ := storable_of_storeSnapshot h
  obtain ⟨made, written, hwrite, hswap⟩ := storeSnapshot_run h
  -- the staging directory was there, so the root was, and it was where it is now
  obtain ⟨place', hplace, hfolder⟩ := folder_of_writeGeneration hwrite
  cases View.enter_unique henter hplace
  have hroot : made.view.Rooted store.root place := by
    rcases FileTree.rooted_or_through hplace (FileTree.view_above hfolder) with
      hroot | ⟨name, hname, hthrough⟩
    · exact hroot
    · obtain ⟨_, _, _, hswaps⟩ := swaps_of_swapGeneration hswap
      exact absurd hthrough (hswaps.not_through haccepted henter hname)
  have hstages : Stages made.view place (made.view.generations place) (fun _ => none) made :=
    ⟨_, ⟨(View.below_apply _ _ _).trans (by rw [List.append_nil, hfolder]), nofun⟩,
      Holds.self made place⟩
  obtain ⟨rfl, part, ⟨hpart, hfiles⟩, hholds⟩ :=
    writeGeneration_stages hroot haccepted hstages hwrite
  obtain ⟨hcurrent, hbackup⟩ := noFile_of_swapGeneration hroot haccepted hholds hpart hswap
  obtain ⟨after', heval, hafter⟩ := swapGeneration_eval hroot haccepted hholds hpart hcurrent
    hbackup (store.context "storeSnapshot")
  rw [hswap] at heval
  cases heval
  refine ⟨rfl, fun file content hfile => ?_, ?_⟩
  · rw [readFile_of_holds hroot haccepted.readable hafter (mem_files_of_files hfile)]
    exact hfiles file content hfile
  · exact (hasDirectory_backup hroot haccepted.readable hafter).trans (decide_eq_false nofun)

end Store

end PartitionSnapshot
