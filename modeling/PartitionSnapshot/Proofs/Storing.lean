import PartitionSnapshot.Proofs.Saving

/-!
# Storing a generation

Storing writes a generation into the staging directory and swaps it in. It comes to one of two
things: a source that can be stored becomes the current generation, and the only one; with any other
source storing fails, and what was there stays.

The path of the root must not lead through the directories of the generations, since these come and
go under it, and the system has to accept the paths of the files. With other roots storing can fail
for any source.

## Main statements

* `Store.swapGeneration_eval`: what a swap comes to.
* `Store.storeSnapshot_outcome`: when a source is stored, and what that leaves.
-/

namespace PartitionSnapshot.Store

open FileTree (Holds)

variable {store : Store} {tree : FileTree} {place : List String} {source : Source}

/-! ## The swap -/

section

variable {view : View} {g : Generations}
variable (hroot : view.Rooted store.root place) (haccepted : Layout.Accepted store.root)
variable (h : Holds view place g tree)
include hroot haccepted h

/-- The current generation is set aside; when there is none, nothing is done. -/
theorem setCurrentAside_eval (hcurrent : g.current.NoFile) (hbackup : g.backup = View.nothing)
    (context : Context) :
    ∃ hadCurrent after, Task.eval tree (store.setCurrentAside context) = (.ok hadCurrent, after) ∧
      Holds view place ⟨View.nothing, g.staging, g.current⟩ after := by
  have hasCurrent := hasDirectory_current hroot haccepted.readable h
  unfold setCurrentAside
  rw [Task.eval_bind_ok _ (Task.eval_lift tree _), Procedure.eval_hasDirectory, hasCurrent]
  dsimp only
  -- set aside by a rename, or nothing to set aside
  by_cases hdirectory : g.current [] = some .directory
  · have habsent : g.backup [] = none := by rw [hbackup]; rfl
    obtain ⟨after, hrename, hafter⟩ := setAside hroot haccepted.readable h hdirectory habsent
    refine ⟨true, after, ?_, hafter⟩
    rw [decide_eq_true hdirectory, if_pos rfl, Task.eval_bind, Task.eval_ofProcedure,
      Procedure.eval_rename, hrename]
    rfl
  · refine ⟨false, tree, ?_, ?_⟩
    · rw [decide_eq_false hdirectory]
      rfl
    · -- there is neither a current generation nor a backup, so they can change places
      have hnothing := h.current_eq_nothing (hcurrent.eq_none hdirectory)
      rw [hnothing]
      obtain ⟨current, staging, backup⟩ := g
      cases hnothing
      cases hbackup
      exact h

theorem moveStagingIn_eval (hstaging : g.staging [] = some .directory)
    (hcurrent : g.current [] = none) (context : Context) (hadCurrent : Bool) :
    ∃ after, Task.eval tree (store.moveStagingIn context hadCurrent) = (.ok (), after) ∧
      Holds view place ⟨g.staging, View.nothing, g.backup⟩ after := by
  obtain ⟨after, hrename, hafter⟩ := moveIn hroot haccepted.readable h hstaging hcurrent
  refine ⟨after, ?_, hafter⟩
  unfold moveStagingIn
  rw [Task.eval_bind_ok _ (Task.eval_lift tree _), Procedure.eval_rename, hrename]
  rfl

theorem removeBackup_eval (hbackup : g.backup.NoFile) :
    ∃ after, (store.removeBackup).eval tree = ((), after) ∧
      Holds view place { g with backup := View.nothing } after := by
  obtain ⟨after, heval, hafter⟩ := dropBackup hroot haccepted.readable h hbackup
  refine ⟨after, ?_, hafter⟩
  unfold removeBackup
  rw [Procedure.eval_bind, heval]
  rfl

/-- After a swap the generation that was staged is the current one, and the only one. -/
theorem swapGeneration_eval (hstaging : g.staging [] = some .directory)
    (hcurrent : g.current.NoFile) (hbackup : g.backup.NoFile) (context : Context) :
    ∃ after, Task.eval tree (store.swapGeneration context) = (.ok (), after) ∧
      Holds view place ⟨g.staging, View.nothing, View.nothing⟩ after := by
  -- the stale backup goes, the current generation takes its place, the staged one becomes
  -- current, and the backup goes again
  obtain ⟨tree₁, heval₁, h₁⟩ := dropBackup hroot haccepted.readable h hbackup
  obtain ⟨hadCurrent, tree₂, heval₂, h₂⟩ :=
    setCurrentAside_eval hroot haccepted h₁ hcurrent rfl context
  obtain ⟨tree₃, heval₃, h₃⟩ :=
    moveStagingIn_eval hroot haccepted h₂ hstaging rfl context hadCurrent
  obtain ⟨tree₄, heval₄, h₄⟩ := removeBackup_eval hroot haccepted h₃ hcurrent
  refine ⟨tree₄, ?_, h₄⟩
  unfold swapGeneration
  rw [Task.eval_bind_ok _ (Task.eval_ofProcedure_ok _ heval₁), Task.eval_bind_ok _ heval₂,
    Task.eval_bind_ok _ heval₃, Task.eval_bind_ok _ (Task.eval_lift tree₃ _),
    syncDirectory_eval, Task.eval_lift, heval₄]

end

/-! ## Storing -/

section

variable {allowed : Request → Prop}

/-- Saving a kind makes requests on its file alone. -/
theorem only_saveKind (context : Context) (directory : Path) (kind : Kind) (framing : Framing)
    (count : Option UInt64) (write : RecordWriter)
    (hcreate : allowed (.create (Layout.entityFile directory kind)))
    (happend : ∀ data, allowed (.append (Layout.entityFile directory kind) data))
    (hsync : allowed (.sync (Layout.entityFile directory kind))) :
    Task.Only allowed (store.saveKind context directory kind framing source count write) := by
  refine (Task.only_ofExcept _ _).bind fun expected => ?_
  refine (Task.only_ofProcedure (Procedure.only_request hcreate) _).bind fun _ => ?_
  refine (Task.only_ofExcept _ _).bind fun writer => ?_
  refine (Task.only_ofProcedure (Procedure.only_request (happend _)) _).bind fun _ => ?_
  -- a walk that failed is noted, and the file is not forced to storage
  split
  · exact (Task.only_lift (Procedure.only_log _ _)).bind fun _ => Task.only_throw _
  · exact (Task.only_ofProcedure (Procedure.only_request hsync) _).bind fun _ => Task.only_pure _

theorem only_noted {α : Type} {task : Task α} (h : Task.Only allowed task) (level : Level)
    (text : α → String) :
    Task.Only allowed (do
      let value ← task
      Procedure.log level (text value)
      return value) :=
  h.bind fun _ => (Task.only_lift (Procedure.only_log _ _)).bind fun _ => Task.only_pure _

theorem filing_storeKind (store : Store) (source : Source) (kind : Kind) :
    Task.Only (Request.Filing store.root Layout.staging)
      (store.storeKind kind store.staging source) := by
  have hname := kind.isName_name
  have hsave (context : Context) (framing : Framing) (count : Option UInt64)
      (write : RecordWriter) : Task.Only (Request.Filing store.root Layout.staging)
      (store.saveKind context store.staging kind framing source count write) :=
    only_saveKind context store.staging kind framing count write (.create hname)
      (fun _ => .append hname) .sync
  -- the kinds differ in the count at the head of the file
  cases kind with
  | inode => exact only_noted (hsave _ _ _ _) _ _
  | dentry => exact only_noted (hsave _ _ _ _) _ _
  | extend => exact (Task.only_ofExcept _ _).bind fun _ => only_noted (hsave _ _ _ _) _ _
  | multipart => exact (Task.only_ofExcept _ _).bind fun _ => only_noted (hsave _ _ _ _) _ _

theorem filing_writeSmallFile (path : Path) (context : Context) {name file : String}
    (hfile : Path.IsName file) (data : Bytes) :
    Task.Only (Request.Filing path name)
      (writeSmallFile context ((path.join name).join file) data) :=
  (Task.only_ofProcedure (Procedure.only_request (.create hfile)) _).bind fun _ =>
    (Task.only_ofProcedure (Procedure.only_request (.append hfile)) _).bind fun _ =>
      Task.only_ofProcedure (Procedure.only_request .sync) _

theorem only_syncDirectory (store : Store) {directory : Path} (h : allowed (.sync directory)) :
    (store.syncDirectory directory).Only allowed :=
  (Procedure.only_request h).bind fun answer => by cases answer <;> trivial

/-- Writing a generation fills the staging directory and does nothing else. -/
theorem filing_writeGeneration (store : Store) (source : Source) (context : Context)
    (position : ApplyPosition) :
    Task.Only (Request.Filing store.root Layout.staging)
      (store.writeGeneration context store.staging source position) := by
  have hkind (signs : Signs) (kind : Kind) : Task.Only (Request.Filing store.root Layout.staging)
      (store.writeKind context store.staging source signs kind) :=
    (filing_storeKind store source kind).bind fun outcome =>
      (Task.only_ofExcept _ _).bind fun _ => Task.only_pure _
  -- the fold over the four kinds is four binds
  have hkinds : Task.Only (Request.Filing store.root Layout.staging)
      (Kind.all.foldlM (store.writeKind context store.staging source) {}) :=
    (hkind _ _).bind fun _ => (hkind _ _).bind fun _ => (hkind _ _).bind fun _ =>
      (hkind _ _).bind fun _ => Task.only_pure _
  have happly : Task.Only (Request.Filing store.root Layout.staging)
      (store.storeApply store.staging position) :=
    (filing_writeSmallFile store.root _ (by decide) _).bind fun _ =>
      Task.only_lift (Procedure.only_log _ _)
  refine hkinds.bind fun signs => happly.bind fun _ => ?_
  refine (filing_writeSmallFile store.root _ (by decide) _).bind fun _ => ?_
  exact (Task.only_lift (only_syncDirectory store .syncFolder)).bind fun _ => Task.only_pure _

end

section

variable {view : View} {g : Generations}
variable (hroot : view.Rooted store.root place) (haccepted : Layout.Accepted store.root)
variable (h : Holds view place g tree)
include hroot haccepted h

/-- The staging directory is made where there is nothing. -/
theorem makeStaging (hstaging : g.staging = View.nothing) :
    ∃ after, (Procedure.makeDirectories store.staging).eval tree = (.ok (), after) ∧
      Holds view place { g with staging := View.ofFiles fun _ => none } after := by
  have hname : Path.IsName Layout.staging := by decide
  have habsent : tree.at? (place ++ [Layout.staging]) = none := by
    apply FileTree.at?_of_view_none
    rw [h.at_staging, hstaging]
    rfl
  have halong := (h.rooted hroot).makeDirectoriesAlong_join hname
  rw [habsent] at halong
  -- only the last component is missing
  refine ⟨tree.putAt place Layout.staging (.directory []), ?_, h.graft_staging ?_⟩
  · rw [Procedure.eval_makeDirectories, FileTree.makeDirectories, staging,
      haccepted.room.join hname (by decide)]
    exact halong
  · rw [FileTree.view_putAt _ _ (h.rooted hroot).directory, FileTree.view_empty]

/-- A source that can be stored becomes the current generation. -/
theorem storeSnapshot_eval_ok (hcurrent : g.current.NoFile) (hstaging : g.staging.NoFile)
    (hbackup : g.backup.NoFile) (hstorable : source.Storable store) (position : ApplyPosition) :
    ∃ after, Task.eval tree (store.storeSnapshot source position) = (.ok source.signs, after) ∧
      Holds view place ⟨source.generation position, View.nothing, View.nothing⟩ after := by
  obtain ⟨tree₁, heval₁, h₁⟩ := dropStaging hroot haccepted.readable h hstaging
  obtain ⟨tree₂, heval₂, h₂⟩ := makeStaging hroot haccepted h₁ rfl
  obtain ⟨tree₃, heval₃, h₃⟩ := writeGeneration_eval hroot haccepted h₂ hstorable
    (store.context "storeSnapshot") position
  obtain ⟨tree₄, heval₄, h₄⟩ := swapGeneration_eval hroot haccepted h₃ rfl hcurrent hbackup
    (store.context "storeSnapshot")
  refine ⟨tree₄, ?_, h₄⟩
  unfold storeSnapshot
  dsimp only
  rw [Task.eval_bind_ok _ (Task.eval_ofProcedure_ok _ heval₁),
    Task.eval_bind_ok _ (Task.eval_ofProcedure_ok _ heval₂),
    Task.eval_bind_ok _ (Task.eval_attempt tree₂ _), heval₃]
  dsimp only
  rw [Task.eval_bind_ok _ heval₄]
  rfl

/-- A source that cannot be stored leaves everything as it was, without a staging directory. -/
theorem storeSnapshot_eval_error (hstaging : g.staging.NoFile)
    (hstorable : ¬ source.Storable store) (position : ApplyPosition) :
    ∃ error after, Task.eval tree (store.storeSnapshot source position) = (.error error, after) ∧
      Holds view place { g with staging := View.nothing } after := by
  obtain ⟨tree₁, heval₁, h₁⟩ := dropStaging hroot haccepted.readable h hstaging
  obtain ⟨tree₂, heval₂, h₂⟩ := makeStaging hroot haccepted h₁ rfl
  let context := store.context "storeSnapshot"
  -- writing ends with an error, since it does not end with signs
  rcases heval₃ : Task.eval tree₂ (store.writeGeneration context store.staging source position)
    with ⟨error | signs, tree₃⟩
  · -- whatever was written by then lies in the staging directory, which is still a directory
    obtain ⟨granted, hexecution⟩ := Execution.exists_finished
      (store.writeGeneration context store.staging source position).run tree₂
    obtain ⟨⟨part, hpart, h₃⟩, -, -⟩ := hexecution.staging_of_filing
      (filing_writeGeneration store source context position) hroot h₂
    have htree₃ : ((store.writeGeneration context store.staging source position).run.eval
        tree₂).2 = tree₃ := congrArg Prod.snd heval₃
    rw [htree₃] at h₃
    obtain ⟨tree₄, hremove, h₄⟩ := removeTree_staging hroot haccepted.readable h₃ hpart
    refine ⟨error, tree₄, ?_, h₄⟩
    unfold storeSnapshot
    dsimp only
    rw [Task.eval_bind_ok _ (Task.eval_ofProcedure_ok _ heval₁),
      Task.eval_bind_ok _ (Task.eval_ofProcedure_ok _ heval₂),
      Task.eval_bind_ok _ (Task.eval_attempt tree₂ _), heval₃]
    dsimp only
    rw [Task.eval_bind_ok _ (Task.eval_lift tree₃ _), discard_eval store _ hremove]
    rfl
  · exact absurd (storable_of_writeGeneration heval₃).1 hstorable

end

/-- A store that goes through has written the generation and swapped it in. -/
theorem storeSnapshot_run {position : ApplyPosition} {signs : Signs} {after : FileTree}
    (h : Task.eval tree (store.storeSnapshot source position) = (.ok signs, after)) :
    ∃ made written,
      Task.eval made (store.writeGeneration (store.context "storeSnapshot") store.staging source
        position) = (.ok signs, written) ∧
      Task.eval written (store.swapGeneration (store.context "storeSnapshot")) =
        (.ok (), after) := by
  unfold storeSnapshot at h
  dsimp only at h
  obtain ⟨_, _, -, h⟩ := Task.eval_bind_eq_ok h
  obtain ⟨_, made, -, h⟩ := Task.eval_bind_eq_ok h
  -- the attempt gives back what writing the generation came to
  rw [Task.eval_bind_ok _ (Task.eval_attempt made _)] at h
  rcases hwrite : Task.eval made (store.writeGeneration (store.context "storeSnapshot")
    store.staging source position) with ⟨error | signs', written⟩
  · rw [hwrite] at h
    obtain ⟨_, _, -, h⟩ := Task.eval_bind_eq_ok h
    cases h
  · rw [hwrite] at h
    obtain ⟨_, swapped, hswap, h⟩ := Task.eval_bind_eq_ok h
    have hdone : (Except.ok signs', swapped) = (Except.ok signs, after) := h
    cases hdone
    exact ⟨made, written, hwrite, hswap⟩

/-- Whatever the tree, no source is stored but one that can be, and none under a root whose paths
the system does not accept. -/
theorem storable_of_storeSnapshot {position : ApplyPosition} {signs : Signs} {after : FileTree}
    (h : Task.eval tree (store.storeSnapshot source position) = (.ok signs, after)) :
    source.Storable store ∧ Layout.Accepted store.root := by
  obtain ⟨_, _, hwrite, -⟩ := storeSnapshot_run h
  exact storable_of_writeGeneration hwrite

section

variable {view : View} {g : Generations}
variable (hroot : view.Rooted store.root place) (haccepted : Layout.Accepted store.root)
include hroot haccepted

/-- A swap goes through only where there is no file in the place of a generation. -/
theorem noFile_of_swapGeneration (h : Holds view place g tree)
    (hstaging : g.staging [] = some .directory) {context : Context} {after : FileTree}
    (hswap : Task.eval tree (store.swapGeneration context) = (.ok (), after)) :
    g.current.NoFile ∧ g.backup.NoFile := by
  unfold swapGeneration at hswap
  obtain ⟨_, dropped, hdrop, hswap⟩ := Task.eval_bind_eq_ok hswap
  obtain ⟨hbackup, h₁⟩ :=
    dropBackup_eq_ok hroot haccepted.readable h (ofProcedure_eq_ok hdrop)
  refine ⟨?_, hbackup⟩
  apply Classical.byContradiction
  intro hfree
  obtain ⟨content, hfile⟩ := View.file_of_not_noFile hfree
  -- a file is not set aside, and the new generation does not take its place
  have hasCurrent := hasDirectory_current hroot haccepted.readable h₁
  rw [decide_eq_false (by rw [hfile]; exact nofun)] at hasCurrent
  have haside : Task.eval dropped (store.setCurrentAside context) = (.ok false, dropped) := by
    unfold setCurrentAside
    rw [Task.eval_bind_ok _ (Task.eval_lift dropped _), Procedure.eval_hasDirectory, hasCurrent]
    rfl
  have hrefused := FileTree.rename_onto_file
    (FileTree.locate_generation (h₁.rooted hroot) haccepted.readable
      (by decide : Layout.staging ∈ Layout.generations))
    (FileTree.locate_generation (h₁.rooted hroot) haccepted.readable
      (by decide : Layout.current ∈ Layout.generations))
    (by decide) (h₁.at_staging.trans hstaging) (h₁.at_current.trans hfile)
  rw [Task.eval_bind_ok _ haside] at hswap
  obtain ⟨_, _, hmove, -⟩ := Task.eval_bind_eq_ok hswap
  unfold moveStagingIn at hmove
  rw [Task.eval_bind_ok _ (Task.eval_lift dropped _), Procedure.eval_rename] at hmove
  rw [staging, current, hrefused] at hmove
  cases hmove

/-- A source is stored only where there is no file in the place of a generation. -/
theorem noFile_of_storeSnapshot (h : Holds view place g tree) {position : ApplyPosition}
    {signs : Signs} {after : FileTree}
    (hstore : Task.eval tree (store.storeSnapshot source position) = (.ok signs, after)) :
    g.current.NoFile ∧ g.staging.NoFile ∧ g.backup.NoFile := by
  obtain ⟨hstorable, -⟩ := storable_of_storeSnapshot hstore
  unfold storeSnapshot at hstore
  dsimp only at hstore
  obtain ⟨_, tree₁, hremove, hstore⟩ := Task.eval_bind_eq_ok hstore
  obtain ⟨hstaging, h₁⟩ :=
    dropStaging_eq_ok hroot haccepted.readable h (ofProcedure_eq_ok hremove)
  obtain ⟨_, tree₂, hmake, hstore⟩ := Task.eval_bind_eq_ok hstore
  obtain ⟨_, hmade, h₂⟩ := makeStaging hroot haccepted h₁ rfl
  rw [ofProcedure_eq_ok hmake] at hmade
  cases hmade
  -- up to the swap everything is known
  obtain ⟨tree₃, hwrite, h₃⟩ := writeGeneration_eval hroot haccepted h₂ hstorable
    (store.context "storeSnapshot") position
  rw [Task.eval_bind_ok _ (Task.eval_attempt tree₂ _), hwrite] at hstore
  obtain ⟨_, _, hswap, -⟩ := Task.eval_bind_eq_ok hstore
  obtain ⟨hcurrent, hbackup⟩ := noFile_of_swapGeneration hroot haccepted h₃ rfl hswap
  exact ⟨hcurrent, hstaging, hbackup⟩

/-- What was stored is the generation of the source, and there is no other. -/
theorem holds_of_storeSnapshot (h : Holds view place g tree) {position : ApplyPosition}
    {signs : Signs} {after : FileTree}
    (hstore : Task.eval tree (store.storeSnapshot source position) = (.ok signs, after)) :
    signs = source.signs ∧
      Holds view place ⟨source.generation position, View.nothing, View.nothing⟩ after := by
  obtain ⟨hstorable, -⟩ := storable_of_storeSnapshot hstore
  -- the store has gone through, so there were no files in the way
  obtain ⟨hcurrent, hstaging, hbackup⟩ := noFile_of_storeSnapshot hroot haccepted h hstore
  obtain ⟨after', heval, hafter⟩ := storeSnapshot_eval_ok hroot haccepted h hcurrent hstaging
    hbackup hstorable position
  rw [hstore] at heval
  cases heval
  exact ⟨rfl, hafter⟩

end

/-- **When a source is stored, and what that leaves.** Storing succeeds if and only if the source
can be stored. Then the signs are those of the source, its generation is the current one, and there
is no other generation; nothing else has changed. When storing fails, nothing has changed but that
there is no staging directory.

What stands in the files of the signs and of the position is spelled out, and read back, by
`Source.files_signs_text` and `Source.files_apply_text`. -/
theorem storeSnapshot_outcome (store : Store) (source : Source) (position : ApplyPosition)
    {tree : FileTree} {place : List String} (hroot : tree.view.Rooted store.root place)
    (haccepted : Layout.Accepted store.root)
    (hfree : ∀ name ∈ Layout.generations, (tree.view.below (place ++ [name])).NoFile) :
    ((∃ signs, (Task.eval tree (store.storeSnapshot source position)).1 = .ok signs) ↔
        source.Storable store) ∧
      (∀ signs after, Task.eval tree (store.storeSnapshot source position) = (.ok signs, after) →
        signs = source.signs ∧
          after.view = ((tree.view.prune (place ++ [Layout.staging])).prune
            (place ++ [Layout.backup])).graft (place ++ [Layout.current])
              (source.generation position)) ∧
      ∀ error after,
        Task.eval tree (store.storeSnapshot source position) = (.error error, after) →
          after.view = tree.view.prune (place ++ [Layout.staging]) := by
  -- the tree holds the generations that are seen in it
  have h := Holds.self tree place
  have hcurrent := hfree Layout.current (by decide)
  have hstaging := hfree Layout.staging (by decide)
  have hbackup := hfree Layout.backup (by decide)
  by_cases hstorable : source.Storable store
  · obtain ⟨after, heval, hafter⟩ := storeSnapshot_eval_ok hroot haccepted h hcurrent hstaging
      hbackup hstorable position
    rw [heval]
    refine ⟨⟨fun _ => hstorable, fun _ => ⟨_, rfl⟩⟩, ?_, ?_⟩
    · rintro signs after' ⟨⟩
      refine ⟨rfl, ?_⟩
      -- the grafts and prunes are one replacement of the three parts
      rw [hafter, View.prune, View.prune, View.graft_staging, View.graft_backup,
        View.graft_current]
      simp only [View.generations_withGenerations, View.withGenerations_withGenerations]
    · rintro error after' ⟨⟩
  · obtain ⟨error, after, heval, hafter⟩ := storeSnapshot_eval_error hroot haccepted h hstaging
      hstorable position
    rw [heval]
    refine ⟨⟨?_, fun hstorable' => absurd hstorable' hstorable⟩, ?_, ?_⟩
    · rintro ⟨signs, hsigns⟩
      cases hsigns
    · rintro signs after' ⟨⟩
    · rintro error' after' ⟨⟩
      rw [hafter, View.prune, View.graft_staging]

/-- A store with default options whose root has the given path. -/
def sample (root : String) : Store := ⟨⟨7, "vol", 1, 1000, [], ⟨root⟩⟩, {}⟩

/-- A source without records can be stored. -/
theorem storable_empty (store : Store) : Records.empty.source.Storable store where
  counted kind := ⟨0, by cases kind <;> rfl, by cases kind <;> rfl⟩
  unfailing _ := rfl
  headed := ⟨0, by cases store.countedKind <;> rfl, rfl⟩
  decodes _ h := nomatch h
  short kind _ _ h := by cases kind <;> exact nomatch h

/-- Two inodes, the second of them marked deleted, a directory entry, the attributes of an inode and
a multipart session. -/
def sampleRecords : Records where
  inodes := [Inode.toRecord { id := 2 }, Inode.toRecord { id := 3, flag := 1 }]
  dentries := [Dentry.toRecord ⟨1, "a", 2, 0⟩]
  xattrs := [Extend.toRecord ⟨2, .ofList [(Bytes.ofString "key", Bytes.ofString "value")]⟩]
  multiparts := [Multipart.toRecord ⟨"u1", "a", 0, []⟩]

theorem storable_sampleRecords (root : String) :
    sampleRecords.source.Storable (sample root) where
  counted kind := by cases kind <;> exact ⟨_, rfl, by decide⟩
  unfailing _ := rfl
  headed := ⟨1, rfl, rfl⟩
  decodes record hrecord := by
    rcases List.mem_cons.1 hrecord with rfl | hrecord
    · exact ⟨_, Inode.ofRecord_toRecord (by decide)⟩
    · obtain rfl := List.mem_singleton.1 hrecord
      exact ⟨_, Inode.ofRecord_toRecord (by decide)⟩
  short kind hkind record hrecord := by
    have hall : ∀ record ∈ sampleRecords.inodes ++ sampleRecords.dentries,
      record.length < UInt32.size := by decide +kernel
    rcases hkind with rfl | rfl
    · exact hall record (List.mem_append_left _ hrecord)
    · exact hall record (List.mem_append_right _ hrecord)

set_option maxRecDepth 2000 in
theorem signs_sampleRecords :
    sampleRecords.source.signs = ⟨322850435, 1015459928, 1636877065, 1105108830⟩ := by
  decide +kernel

/-- A store over a generation, a staging directory that was left behind and a stale backup; and a
store of the same records there by a source that counts three inodes. -/
theorem storeSnapshot_outcome_replacing :
    let tree : FileTree := .directory [("p", .directory [
      ("meta", .file [0x7B]),
      ("snapshot", .directory [("apply", .file (Bytes.ofString "2|4")), ("old", .file [])]),
      (".snapshot", .directory [("inode", .file [0, 0])]),
      (".snapshot_backup", .directory [])])]
    let source := sampleRecords.source
    let stored := Task.eval tree ((sample "p").storeSnapshot source ⟨3, 5⟩)
    let miscounted :=
      Task.eval tree ((sample "p").storeSnapshot (source.withCount .inode 3) ⟨3, 5⟩)
    (stored.1 = .ok ⟨322850435, 1015459928, 1636877065, 1105108830⟩ ∧
      stored.2.view ["p", "snapshot", ".sign"] =
        some (.file (Bytes.ofString "322850435 1015459928 1636877065 1105108830")) ∧
      stored.2.view ["p", "snapshot", "apply"] = some (.file (Bytes.ofString "3|5")) ∧
      stored.2.view ["p", "snapshot", "inode"] =
        some (.file ([0, 0, 0, 76] ++ Inode.toRecord { id := 2 } ++
          [0, 0, 0, 76] ++ Inode.toRecord { id := 3, flag := 1 })) ∧
      stored.2.view ["p", "snapshot", "old"] = none ∧
      stored.2.view ["p", ".snapshot"] = none ∧
      stored.2.view ["p", ".snapshot_backup"] = none ∧
      stored.2.view ["p", "meta"] = some (.file [0x7B])) ∧
    (∃ error, miscounted.1 = .error error) ∧
      miscounted.2.view ["p", "snapshot", "apply"] = some (.file (Bytes.ofString "2|4")) ∧
      miscounted.2.view ["p", ".snapshot"] = none ∧
      miscounted.2.view ["p", ".snapshot_backup"] = some .directory := by
  intro tree source stored miscounted
  have hroot : tree.view.Rooted (sample "p").root ["p"] := ⟨by decide, by decide⟩
  have houtcome (source : Source) := storeSnapshot_outcome (sample "p") source ⟨3, 5⟩ hroot
    (by decide) (by decide)
  constructor
  · obtain ⟨hstorable, hok, -⟩ := houtcome source
    obtain ⟨signs, hsigns⟩ := hstorable.2 (storable_sampleRecords _)
    obtain ⟨rfl, hview⟩ := hok signs _ (Prod.ext hsigns rfl)
    have hfiles : stored.2.view = _ := hview
    rw [hfiles]
    refine ⟨hsigns.trans (congrArg _ signs_sampleRecords), ?_, by decide +kernel, by decide +kernel,
      by decide +kernel, by decide +kernel, by decide +kernel, by decide +kernel⟩
    -- the checksums are known, so only their digits are left
    refine (View.graft_append _ ["p", "snapshot"] [".sign"] _).trans ?_
    have hsign : source.generation ⟨3, 5⟩ [".sign"] =
        some (.file (Bytes.ofString source.signs.text)) := rfl
    rw [hsign, signs_sampleRecords]
    decide +kernel
  · obtain ⟨hstorable, -, herror⟩ := houtcome (source.withCount .inode 3)
    have hmiscounted : ¬ (source.withCount .inode 3).Storable (sample "p") := by
      intro h
      obtain ⟨count, hcount, hlength⟩ := h.counted .inode
      cases hcount
      exact absurd hlength (by decide)
    rcases heval : miscounted with ⟨error | signs, after⟩
    · rw [herror error after heval]
      exact ⟨⟨error, rfl⟩, by decide +kernel, by decide +kernel, by decide +kernel⟩
    · exact absurd (hstorable.1 ⟨signs, congrArg Prod.fst heval⟩) hmiscounted

/-- A path to the directory `p` that has more slashes in it than are needed. -/
def manySlashes : String := "p" ++ String.ofList (List.replicate 4078 '/')

theorem steps_slashes (n : Nat) :
    (⟨"p" ++ String.ofList (List.replicate n '/')⟩ : Path).steps = [.down "p"] := by
  have hcomponents : Path.componentsFrom [] ('p' :: List.replicate n '/') = [['p']] := by
    induction n with
    | zero => rfl
    | succ n ih =>
      -- a slash at the end adds no component
      rw [List.replicate_succ', ← List.cons_append, Path.components_slash]
      exact ih
  have htext : ("p" ++ String.ofList (List.replicate n '/')).toList =
      'p' :: List.replicate n '/' := by
    simp [String.toList_append]
  rw [Path.steps, htext, hcomponents]
  rfl

theorem size_slashes (n : Nat) :
    ("p" ++ String.ofList (List.replicate n '/')).utf8ByteSize = n + 1 := by
  have hslashes : (String.ofList (List.replicate n '/')).utf8ByteSize = n := by
    induction n with
    | zero => rfl
    | succ n ih =>
      rw [List.replicate_succ, String.ofList_cons, String.utf8ByteSize_append, ih]
      have hslash : (String.singleton '/').utf8ByteSize = 1 := by decide
      omega
  have hp : "p".utf8ByteSize = 1 := by decide
  rw [String.utf8ByteSize_append, hslashes, hp, Nat.add_comm]

/-- The two conditions on the root are needed. Under a root whose path leads through the current
generation, and under one whose path is too long, a source that can be stored is not. -/
theorem storeSnapshot_refused :
    (let tree : FileTree := .directory [("p", .directory [("snapshot", .directory [])])]
      let store := sample "p/snapshot/.."
      tree.hasDirectory store.root = true ∧
        (∀ name ∈ Layout.generations, (tree.view.below (["p"] ++ [name])).NoFile) ∧
        Records.empty.source.Storable store ∧
        (Task.eval tree (store.storeSnapshot Records.empty.source ⟨3, 5⟩)).1.isOk = false) ∧
      (let tree : FileTree := .directory [("p", .directory [])]
      let store := sample manySlashes
      tree.view.Rooted store.root ["p"] ∧
        (∀ name ∈ Layout.generations, (tree.view.below (["p"] ++ [name])).NoFile) ∧
        Records.empty.source.Storable store ∧
        (Task.eval tree (store.storeSnapshot Records.empty.source ⟨3, 5⟩)).1.isOk = false) := by
  refine ⟨⟨by decide, by decide, storable_empty _, by decide +kernel⟩,
    ⟨by decide, ?_⟩, by decide, storable_empty _, ?_⟩
  · have hsteps : (sample manySlashes).root.steps = [.down "p"] := steps_slashes 4078
    rw [hsteps]
    decide
  · rcases heval : Task.eval (.directory [("p", .directory [])])
      ((sample manySlashes).storeSnapshot Records.empty.source ⟨3, 5⟩) with ⟨error | signs, after⟩
    · rfl
    · -- the file of the last kind would have a path that is too long
      have hbytes := (storable_of_storeSnapshot heval).2.room.bytes
      have htext := Path.size_text_le (sample manySlashes).root
      have hsize : (sample manySlashes).root.text.utf8ByteSize = 4079 := size_slashes 4078
      simp only [FileTree.maxPath] at hbytes
      omega

end PartitionSnapshot.Store
