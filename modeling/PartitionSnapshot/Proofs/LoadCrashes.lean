import PartitionSnapshot.Proofs.Acceptance

/-!
# Crashes while a generation is loaded

A load changes two things on disk. It settles the generations, by one rename or by removing a
backup, and wherever it is cut short in that, the same generation is current once they are settled.
At the end it writes the apply position back, into the file of the current generation itself: the
file is emptied first and then filled, and a crash in between leaves some first part of the
position. What later loads come to then is decided by that part.

## Main statements

* `Store.writeSmallFile_execution`: what is left of a file that is being written.
* `Store.recoverGeneration_execution`: recovery may be cut short anywhere.
* `Store.load_execution`: the stages of a load.
* `Store.load_crash`: what loads come to after the crash of a load.
-/

namespace PartitionSnapshot

open FileTree (Holds)

/-! ## Writing a small file -/

/-- An execution of writing a file of a generation leaves the file as it was, or empties it and
writes some first part of the data. -/
theorem Store.writeSmallFile_execution {tree after : FileTree} {root : Path} {place : List String}
    {name file : String} (hroot : tree.view.Rooted root place) (hname : name ∈ Layout.folders)
    (hfile : file ∈ Layout.files)
    (hcheck : FileTree.checkPath ((root.join name).join file) = .ok ())
    (hfolder : tree.view (place ++ [name]) = some .directory)
    (hfree : tree.view (place ++ [name] ++ [file]) ≠ some .directory) {context : Context}
    {data : Bytes} {granted : List Request} {ending : Ending (Except Error Unit)}
    (h : Execution (writeSmallFile context ((root.join name).join file) data).run tree granted
      after ending) :
    (after = tree ∧ .create ((root.join name).join file) ∉ granted) ∨
    (.create ((root.join name).join file) ∈ granted ∧ ∃ front, front <+: data ∧
      after.view = tree.view.graft (place ++ [name] ++ [file]) (View.ofFile front)) := by
  let path := (root.join name).join file
  obtain ⟨made, hmade, hmadeView, hfill⟩ :=
    FileTree.fill_file hroot hname hfile hcheck hfolder hfree
  have hcreate : tree.perform (.create path) = (.ok (), made) := by
    show tree.settle (tree.create path) = _
    rw [hmade]
    rfl
  have hcreating : Execution (.step (.create path) _) tree granted after ending := h
  rcases hcreating.of_step with ⟨-, rfl, rfl⟩ | ⟨-, -, htorn⟩ | ⟨rest, hnext, hgranted⟩
  · exact .inl ⟨rfl, List.not_mem_nil⟩
  · -- making a file has no intermediate state
    cases htorn
  rw [hcreate] at hnext hgranted
  refine .inr ⟨hgranted ▸ List.mem_cons_self, ?_⟩
  -- the file is empty now, and the data is written into it
  have hwriting : Execution (.step (.append path data) _) made rest after ending := hnext
  rcases hwriting.of_step with ⟨-, -, rfl⟩ | ⟨-, -, htorn⟩ | ⟨rest', hnext', -⟩
  · exact ⟨[], List.nil_prefix, hmadeView⟩
  · cases htorn with
    | append hfront happend =>
      obtain ⟨filled, hfilled, -, hview⟩ := hfill _
      cases hfilled.symm.trans happend
      exact ⟨_, hfront, hview⟩
  obtain ⟨filled, hfilled, hsync, hview⟩ := hfill data
  have happend : made.perform (.append path data) = (.ok (), filled) := by
    show made.settle (made.append path data) = _
    rw [hfilled]
    rfl
  rw [happend] at hnext'
  refine ⟨data, List.prefix_rfl, ?_⟩
  -- forcing it to storage changes nothing
  have hsyncing : Execution (Task.ofProcedure (Procedure.sync path)
    (.storage context (.syncing path))).run filled rest' after ending := hnext'
  rw [hsyncing.of_looks (Task.only_ofProcedure (Procedure.only_request (.sync path)) _), hview]

namespace Store

variable {store : Store} {view : View} {place : List String} {g : Generations}
variable {tree after : FileTree} {granted : List Request}

/-- The request that empties the apply file, so that the position can be written back. -/
def emptying (store : Store) : Request := .create (store.current.join Layout.apply)

theorem not_looks_emptying : ¬ store.emptying.Looks := nofun

/-! ## Recovery -/

/-- Recovery does not empty the apply file. -/
theorem only_recoverGeneration :
    Task.Only (fun request => request ≠ store.emptying) store.recoverGeneration := by
  refine (Task.only_lift (Procedure.only_request nofun)).bind fun hasBackup => ?_
  cases hasBackup with
  | false => exact Task.only_pure _
  | true =>
    refine (Task.only_lift (Procedure.only_request nofun)).bind fun hasCurrent => ?_
    cases hasCurrent with
    | false =>
      exact (Task.only_ofProcedure (Procedure.only_request nofun) _).bind fun _ =>
        Task.only_lift (Procedure.only_log _ _)
    | true =>
      exact Task.only_lift ((Procedure.only_request nofun).bind fun answer => by
        cases answer <;> trivial)

section

variable (hroot : view.Rooted store.root place) (hreadable : Layout.Readable store.root)
variable (h : Holds view place g tree)
include hroot hreadable h

/-- While the backup is put back it is the one of the generations that is current once they are
settled. -/
theorem putBack_execution {α : Type} (hcurrent : g.current.NoFile)
    (hbackup : g.backup [] = some .directory) (hdirectory : g.current [] ≠ some .directory)
    {next : Except Failure Unit → Procedure α} {ending : Ending α}
    (hexecution : Execution (.step (.rename store.backup store.current) next) tree granted after
      ending) (hsilent : (next (.ok ())).Only fun _ => False) :
    ∃ g', g'.current.NoFile ∧ g'.recovered.current = g.recovered.current ∧
      Holds view place g' after := by
  obtain ⟨moved, hrename, hmoved⟩ :=
    putBack hroot hreadable h hbackup (hcurrent.eq_none hdirectory)
  -- it is one request, which is granted
  rcases hexecution.of_step with ⟨-, -, rfl⟩ | ⟨-, -, htorn⟩ | ⟨rest, hlast, -⟩
  · exact ⟨g, hcurrent, rfl, h⟩
  · cases htorn
  have hperform : tree.perform (.rename store.backup store.current) = (.ok (), moved) := by
    show tree.settle (tree.rename store.backup store.current) = _
    rw [hrename]
    rfl
  rw [hperform] at hlast
  obtain ⟨rfl, -, -⟩ := hlast.of_silent hsilent
  refine ⟨_, View.noFile_of_directory hbackup, ?_, hmoved⟩
  rw [Generations.recovered_of_backup hbackup hdirectory,
    Generations.recovered_of_current (by exact nofun)]

omit hreadable in
/-- While the backup is dropped the current generation stays. -/
theorem dropStale_execution (hbackup : g.backup [] = some .directory)
    (hdirectory : g.current [] = some .directory) {ending : Ending (Except Error Unit)}
    (hexecution : Execution (liftM (store.discard "recoverSnapshot" store.backup) : Task Unit).run
      tree granted after ending) :
    ∃ g', g'.current.NoFile ∧ g'.recovered.current = g.recovered.current ∧
      Holds view place g' after := by
  have honly : (store.discard "recoverSnapshot" store.backup).Only fun request =>
      request = .sync store.root ∨ request = .removeTree (store.root.join Layout.backup) :=
    (Procedure.only_request (.inr rfl)).bind fun answer => by cases answer <;> trivial
  obtain ⟨left, -, hholds⟩ := hexecution.backup_of_inside (Task.only_lift honly) hroot h
    (View.noFile_of_directory hbackup)
  refine ⟨{ g with backup := left }, View.noFile_of_directory hdirectory, ?_, hholds⟩
  rw [Generations.recovered_current_of_directory hdirectory]
  exact Generations.recovered_current_of_directory hdirectory

/-- An execution of recovery leaves generations of which the same one is current once they are
settled. -/
theorem recoverGeneration_execution (hcurrent : g.current.NoFile)
    {ending : Ending (Except Error Unit)}
    (hexecution : Execution store.recoverGeneration.run tree granted after ending) :
    ∃ g', g'.current.NoFile ∧ g'.recovered.current = g.recovered.current ∧
      Holds view place g' after := by
  have hsame : ∃ g', g'.current.NoFile ∧ g'.recovered.current = g.recovered.current ∧
      Holds view place g' tree := ⟨g, hcurrent, rfl, h⟩
  have hlooks (path : Path) :
      Task.Only Request.Looks (liftM (Procedure.hasDirectory path) : Task Bool) :=
    Task.only_lift (Procedure.only_request (.hasDirectory path))
  unfold recoverGeneration at hexecution
  dsimp only at hexecution
  -- whether there is a backup
  rcases hexecution.of_looking_bind (hlooks _) with
    ⟨rfl, -⟩ | ⟨hasBackup, front, back, heval, hnext, -, -⟩
  · exact hsame
  rw [Task.eval_lift, Procedure.eval_hasDirectory,
    hasDirectory_backup hroot hreadable h] at heval
  cases heval
  by_cases hbackup : g.backup [] = some .directory
  · rw [decide_eq_true hbackup, if_pos rfl] at hnext
    -- and whether there is a current generation beside it
    rcases hnext.of_looking_bind (hlooks _) with
      ⟨rfl, -⟩ | ⟨hasCurrent, front', back', heval', hnext', -, -⟩
    · exact hsame
    rw [Task.eval_lift, Procedure.eval_hasDirectory,
      hasDirectory_current hroot hreadable h] at heval'
    cases heval'
    by_cases hdirectory : g.current [] = some .directory
    · rw [decide_eq_true hdirectory, if_pos rfl] at hnext'
      exact dropStale_execution hroot h hbackup hdirectory hnext'
    · rw [decide_eq_false hdirectory, if_neg Bool.false_ne_true] at hnext'
      exact putBack_execution hroot hreadable h hcurrent hbackup hdirectory hnext' trivial
  · rw [decide_eq_false hbackup, if_neg Bool.false_ne_true] at hnext
    obtain ⟨rfl, -, -⟩ := hnext.of_silent trivial
    exact hsame

/-! ## The apply position -/

/-- An execution of storing an apply position where there is one leaves everything as it was, or
writes some first part of the position into the apply file. -/
theorem storeApply_execution {position : ApplyPosition} {content : Bytes}
    (hcontent : g.current.readFile Layout.apply = .ok content) {ending : Ending (Except Error Unit)}
    (hexecution : Execution (store.storeApply store.current position).run tree granted after
      ending) :
    (store.emptying ∉ granted ∧ Holds view place g after) ∨
    (store.emptying ∈ granted ∧ ∃ front, front <+: Bytes.ofString position.text ∧
      Holds view place
        { g with current := g.current.graft [Layout.apply] (View.ofFile front) } after) := by
  have hfile : Layout.apply ∈ Layout.files := by decide
  -- a note follows the writing of the file
  obtain ⟨_, hwriting⟩ : ∃ ending', Execution (writeSmallFile (store.context "storeApplyID")
      (store.current.join Layout.apply) (Bytes.ofString position.text)).run tree granted after
      ending' :=
    Execution.of_task_bind_silent (fun _ => Task.only_lift (Procedure.only_log _ _)) hexecution
  obtain ⟨hfolder, happly⟩ := View.readFile_eq_ok hcontent
  have hfree : tree.view (place ++ [Layout.current] ++ [Layout.apply]) ≠ some .directory := by
    rw [h.at_current_file, happly]
    exact nofun
  rcases writeSmallFile_execution (h.rooted hroot) (by decide : Layout.current ∈ Layout.folders)
      hfile (hreadable.file_of_mem hfile) (h.at_current.trans hfolder) hfree hwriting with
    ⟨rfl, hcreate⟩ | ⟨hcreate, written, hwritten, hview⟩
  · exact .inl ⟨hcreate, h⟩
  · exact .inr ⟨hcreate, written, hwritten, h.graft_current_file hview⟩

/-- An execution of loading the apply position leaves everything as it was, or writes some first
part of the position into the apply file. -/
theorem loadApply_execution {cursor : UInt64} {ending : Ending (Except Error ApplyPosition)}
    (hexecution : Execution (store.loadApply store.current cursor).run tree granted after ending) :
    (store.emptying ∉ granted ∧ Holds view place g after) ∨
    (store.emptying ∈ granted ∧ ∃ parsed front,
      (∃ content, g.current.readFile Layout.apply = .ok content ∧
        decodeApply (store.context "loadApplyID") content = .ok parsed) ∧
      front <+: Bytes.ofString (ApplyPosition.reconcile parsed.1 parsed.2 cursor).text ∧
      Holds view place
        { g with current := g.current.graft [Layout.apply] (View.ofFile front) } after) := by
  unfold loadApply at hexecution
  dsimp only at hexecution
  have hreading : Task.Only Request.Looks
      (liftM (Procedure.read (store.current.join Layout.apply)) : Task (Except Failure Bytes)) :=
    Task.only_lift (Procedure.only_request (.read _))
  rcases hexecution.of_looking_bind hreading with
    ⟨rfl, hlooks⟩ | ⟨answer, front, back, heval, hnext, hlooks, rfl⟩
  · exact .inl ⟨fun hmem => not_looks_emptying (hlooks _ hmem), h⟩
  have hmem : store.emptying ∈ front ++ back ↔ store.emptying ∈ back := by
    rw [List.mem_append]
    exact ⟨fun hmem => hmem.resolve_left fun hmem => not_looks_emptying (hlooks _ hmem), .inr⟩
  rw [hmem]
  rw [Task.eval_lift, Procedure.eval_read, readFile_of_holds hroot hreadable h (by decide)] at heval
  cases heval
  cases hcontent : g.current.readFile Layout.apply with
  | error failure =>
    -- a file that is missing counts as no position, and is not made
    rw [hcontent] at hnext
    dsimp only at hnext
    have hsilent : Task.Only (fun _ => False) (if failure.classify = .notFound then
        return ⟨0, cursor⟩
      else throw (.storage (store.context "loadApplyID")
        (.reading (store.current.join Layout.apply)) failure) : Task ApplyPosition) := by
      split <;> trivial
    obtain ⟨rfl, rfl, -⟩ := hnext.of_silent hsilent
    exact .inl ⟨List.not_mem_nil, h⟩
  | ok content =>
    rw [hcontent] at hnext
    dsimp only at hnext
    cases hdecode : decodeApply (store.context "loadApplyID") content with
    | error error =>
      rw [hdecode] at hnext
      obtain ⟨rfl, rfl, -⟩ := hnext.of_silent trivial
      exact .inl ⟨List.not_mem_nil, h⟩
    | ok parsed =>
      rw [hdecode] at hnext
      have hlogging (text : String) : Task.Only (fun _ => False) (do
          liftM (Procedure.log .info text)
          return ApplyPosition.reconcile parsed.1 parsed.2 cursor : Task ApplyPosition) :=
        (Task.only_lift (Procedure.only_log _ _)).bind fun _ => Task.only_pure _
      -- a note follows the storing of the position
      obtain ⟨_, hstoring⟩ : ∃ ending', Execution (store.storeApply store.current
          (ApplyPosition.reconcile parsed.1 parsed.2 cursor)).run tree back after ending' :=
        Execution.of_task_bind_silent (fun _ => hlogging _) hnext
      rcases storeApply_execution hroot hreadable h hcontent hstoring with
        hkept | ⟨hcreate, written, hwritten, hholds⟩
      · exact .inl hkept
      · exact .inr ⟨hcreate, parsed, written, ⟨content, rfl, hdecode⟩, hwritten, hholds⟩

end

/-! ## Loads -/

variable {σ : Type} [StateMachine σ]

/-- How far a load came, and what it left of the generations `g`. -/
inductive LoadStage (store : Store) (view : View) (place : List String) (g : Generations)
    (state : σ) (granted : List Request) (after : FileTree) : Prop
  /-- The generations are being settled, or read. -/
  | settling {g' : Generations} (hgranted : store.emptying ∉ granted) (hfree : g'.current.NoFile)
      (hcurrent : g'.recovered.current = g.recovered.current) (hholds : Holds view place g' after)
  /-- The apply position is being written back. -/
  | rewriting {mid : FileTree} {loaded : LoadStats × UInt64} {parsed : UInt64 × Option UInt64}
      {content front : Bytes} (hgranted : store.emptying ∈ granted)
      (hmid : Holds view place g.recovered mid)
      (hloaded : (Replaying.eval mid state (store.loadFiles store.current)).1.1 = .ok loaded)
      (hcontent : g.recovered.current.readFile Layout.apply = .ok content)
      (hparsed : decodeApply (store.context "loadApplyID") content = .ok parsed)
      (hfront : front <+:
        Bytes.ofString (ApplyPosition.reconcile parsed.1 parsed.2 loaded.2).text)
      (hholds : Holds view place { g.recovered with
        current := g.recovered.current.graft [Layout.apply] (View.ofFile front) } after)

variable {state : σ}

/-- What was granted before, without a file being emptied, makes no difference. -/
theorem LoadStage.append {front back : List Request}
    (h : store.LoadStage view place g state back after) (hfront : store.emptying ∉ front) :
    store.LoadStage view place g state (front ++ back) after := by
  cases h with
  | settling hgranted hfree hcurrent hholds =>
    exact .settling (by simp [hfront, hgranted]) hfree hcurrent hholds
  | rewriting hgranted hmid hloaded hcontent hparsed hprefix hholds =>
    exact .rewriting (List.mem_append_right _ hgranted) hmid hloaded hcontent hparsed hprefix hholds

section

variable (hroot : view.Rooted store.root place) (hreadable : Layout.Readable store.root)
include hroot hreadable

/-- An execution of loading the current generation reads its files, or writes back the position. -/
theorem loadCurrent_execution (h : Holds view place g.recovered tree) (hcurrent : g.current.NoFile)
    {ending : Ending (Except Error LoadedPartition × σ)}
    (hexecution : Execution ((store.loadCurrent : Replaying σ LoadedPartition).runFrom state) tree
      granted after ending) :
    store.LoadStage view place g state granted after := by
  have hsettled : (g.recovered.recovered).current = g.recovered.current := by
    rw [Generations.recovered_recovered]
  have hlooks : Replaying.Only Request.Looks
      (store.loadFiles store.current : Replaying σ (LoadStats × UInt64)) := fun state =>
    (reads_loadFiles store store.current state).mono fun request hreads => by
      obtain ⟨path, -, rfl⟩ := hreads
      exact .read path
  unfold loadCurrent at hexecution
  dsimp only at hexecution
  rcases hexecution.of_replaying_bind with ⟨_, hfiles⟩ |
    ⟨⟨stats, cursor⟩, middle, mid, front, back, hfiles, hnext, rfl⟩
  · rw [hfiles.of_looks (hlooks state)]
    exact .settling (fun hmem => not_looks_emptying (hfiles.allowed_of_mem (hlooks state) _ hmem))
      (Generations.noFile_recovered hcurrent) hsettled h
  · have hmid : mid = tree := hfiles.of_looks (hlooks state)
    rw [hmid] at hfiles hnext
    have hloaded : (Replaying.eval tree state (store.loadFiles store.current)).1.1 =
        .ok (stats, cursor) :=
      congrArg (fun outcome => outcome.1.1) (hfiles.eval_eq rfl)
    refine LoadStage.append ?_ fun hmem =>
      not_looks_emptying (hfiles.allowed_of_mem (hlooks state) _ hmem)
    -- with the files read, what is left is the apply position, and a note
    obtain ⟨_, hposition⟩ : ∃ ending', Execution (store.loadApply store.current cursor).run tree
        back after ending' := by
      rcases hnext.of_replaying_bind with ⟨_, htask⟩ |
        ⟨position, state', mid', front', back', htask, hlast, rfl⟩
      · obtain ⟨ending', -, htask⟩ := Execution.exists_of_bind_done (fun _ => ⟨_, rfl⟩) htask
        exact ⟨ending', htask⟩
      · obtain ⟨rfl, rfl, -⟩ := hlast.of_silent trivial
        obtain ⟨ending', -, htask⟩ := Execution.exists_of_bind_done (fun _ => ⟨_, rfl⟩) htask
        exact ⟨ending', by simpa using htask⟩
    rcases loadApply_execution hroot hreadable h hposition with
      ⟨hgranted, hholds⟩ | ⟨hgranted, parsed, written, ⟨content, hcontent, hdecode⟩, hwritten,
        hholds⟩
    · exact .settling hgranted (Generations.noFile_recovered hcurrent) hsettled hholds
    · exact .rewriting hgranted h hloaded hcontent hdecode hwritten hholds

/-- An execution of a load settles the generations, reads the files of the current one, or writes
back the position. -/
theorem load_execution (hpersisted : store.Persisted view place) (h : Holds view place g tree)
    (hcurrent : g.current.NoFile) {ending : Ending (Except Error LoadedPartition × Store × σ)}
    (hexecution : Execution (store.load state) tree granted after ending) :
    store.LoadStage view place g state granted after := by
  have hlooks : Task.Only Request.Looks (loadMetadata store.root) := by
    refine (Task.only_lift (Procedure.only_request (.read _))).bind fun answer => ?_
    rcases answer with failure | content
    · dsimp only
      split <;> trivial
    · exact (Task.only_ofExcept _ _).bind fun _ => (Task.only_lift (Procedure.only_log _ _)).bind
        fun _ => Task.only_pure _
  unfold load at hexecution
  rcases hexecution.of_bind with ⟨_, -, hmetadata⟩ |
    ⟨result, mid, front, back, hmetadata, hnext, rfl⟩
  · rw [hmetadata.of_looks hlooks]
    exact .settling (fun hmem => not_looks_emptying (hmetadata.allowed_of_mem hlooks _ hmem))
      hcurrent rfl h
  refine LoadStage.append ?_ fun hmem =>
    not_looks_emptying (hmetadata.allowed_of_mem hlooks _ hmem)
  -- the identity is read, and is the one the store has
  have hidentity := hmetadata.eval_eq rfl
  rw [show (loadMetadata store.root).run.eval tree = (.ok store.config, tree) from
    loadMetadata_eval hroot (checkPath_metadata hreadable) hpersisted h] at hidentity
  cases hidentity
  simp only [replaceConfig_self hpersisted] at hnext
  obtain ⟨_, -, hgeneration⟩ := Execution.exists_of_bind_done (fun _ => ⟨_, rfl⟩) hnext
  -- then the generations are settled, and the current one is loaded
  rcases hgeneration.of_replaying_bind with ⟨_, hrecover⟩ |
    ⟨done, middle, mid, front', back', hrecover, hload, rfl⟩
  · obtain ⟨_, -, hrecover⟩ := Execution.exists_of_bind_done (fun _ => ⟨_, rfl⟩) hrecover
    obtain ⟨g', hfree, hsettled, hholds⟩ :=
      recoverGeneration_execution hroot hreadable h hcurrent hrecover
    exact .settling (fun hmem => hrecover.allowed_of_mem only_recoverGeneration _ hmem rfl) hfree
      hsettled hholds
  have hfront' : store.emptying ∉ front' := by
    obtain ⟨_, -, hrecover⟩ := Execution.exists_of_bind_done (fun _ => ⟨_, rfl⟩) hrecover
    exact fun hmem => hrecover.allowed_of_mem only_recoverGeneration _ hmem rfl
  refine LoadStage.append ?_ hfront'
  have heval : Replaying.eval tree state (Replaying.ofTask store.recoverGeneration) =
      ((.ok done, middle), mid) := hrecover.eval_eq rfl
  obtain ⟨settled, hsettled, hholds⟩ := recoverGeneration_eval hroot hreadable h hcurrent
  rw [Replaying.eval_ofTask, hsettled] at heval
  cases heval
  exact loadCurrent_execution hroot hreadable hholds hcurrent hload

/-- What a load restores is read from any tree that holds the generations once they are settled. -/
theorem restored_of_holds (hpersisted : store.Persisted view place) (h : Holds view place g tree)
    (hcurrent : g.current.NoFile) {mid : FileTree} (hmid : Holds view place g.recovered mid)
    (state : σ) :
    store.restored state tree = store.assemble (g.recovered.current.readFile Layout.apply)
      (Replaying.eval mid state (store.loadFiles store.current)).1 := by
  obtain ⟨mid', hmid', hrestored, -⟩ := restored_eq hroot hreadable hpersisted h hcurrent state
  rw [hrestored, loadFiles_congr hroot hreadable hmid hmid' (fun _ _ => rfl)]

/-- Where something else was written into the apply file, a load goes by it, and restores the same
otherwise. -/
theorem restored_of_written (hpersisted : store.Persisted view place) {mid : FileTree}
    (hmid : Holds view place g.recovered mid) {loaded : LoadStats × UInt64} {machine : σ}
    (hfiles : (Replaying.eval mid state (store.loadFiles store.current)).1 =
      (.ok loaded, machine))
    (hfolder : g.recovered.current [] = some .directory) {content : Bytes}
    (hholds : Holds view place { g.recovered with
      current := g.recovered.current.graft [Layout.apply] (View.ofFile content) } after) :
    after.read (store.current.join Layout.apply) = .ok content ∧
      store.restored state after =
        ((store.positionOf (.ok content) loaded.2).map fun position =>
          ⟨store.config, position, loaded.1⟩, machine) := by
  let part := g.recovered.current.graft [Layout.apply] (View.ofFile content)
  have hwritten : part.readFile Layout.apply = .ok content :=
    View.readFile_graft_self hfolder Layout.apply content
  have hfree : part.NoFile := View.noFile_graft_file (View.noFile_of_directory hfolder)
  -- there is nothing left to settle, and the entity files are as they were
  have hsettled : (⟨part, g.recovered.staging, g.recovered.backup⟩ : Generations).recovered = _ :=
    Generations.recovered_of_current (Generations.recovered_backup _)
  have hafter := restored_of_holds hroot hreadable hpersisted hholds hfree
    (by rw [hsettled]; exact hholds) state
  have hsame := loadFiles_congr hroot hreadable hmid hholds
    (fun file hfile => View.readFile_graft hfile) state
  rw [hsettled, hwritten, hsame, hfiles] at hafter
  exact ⟨by rw [readFile_of_holds hroot hreadable hholds (by decide), hwritten], hafter⟩

end

/-- **What loads come to after the crash of a load.** Up to the emptying of the apply file a crash
loses nothing: the next load comes to what the one that crashed would have come to. From then on the
next load goes by the part of the position that was written, whatever that is. If nothing was
written, it fails. If all was written, nothing is lost. In between an index that was cut short is
taken for the index, and when the cursor is missing or was cut short, the cursor falls back towards
the one that the inodes give. -/
theorem load_crash (store : Store) (state : σ) {tree after : FileTree} {place : List String}
    {partition : LoadedPartition} {granted : List Request}
    {ending : Ending (Except Error LoadedPartition × Store × σ)}
    (hroot : tree.view.Rooted store.root place) (hpersisted : store.Persisted tree.view place)
    (hload : (store.restored state tree).1 = .ok partition)
    (hexecution : Execution (store.load state) tree granted after ending) :
    (store.emptying ∉ granted → store.restored state after = store.restored state tree) ∧
    (store.emptying ∈ granted → ∃ front cursor stored,
      front <+: Bytes.ofString partition.position.text ∧
      after.read (store.current.join Layout.apply) = .ok front ∧
      partition.position = .reconcile partition.position.index stored cursor ∧
      store.restored state after =
        ((store.positionOf (.ok front) cursor).map fun position => { partition with position },
          (store.restored state tree).2) ∧
      (front = [] → ∃ error, (store.restored state after).1 = .error error) ∧
      (front = Bytes.ofString partition.position.text →
        store.restored state after = store.restored state tree)) := by
  have hreadable := readable_of_restored hroot hpersisted hload
  have hcurrent := noFile_of_restored hroot hpersisted hload
  have h := Holds.self tree place
  cases load_execution hroot hreadable hpersisted h hcurrent hexecution with
  | settling hgranted hfree hsettled hholds =>
    refine ⟨fun _ => ?_, fun hmem => absurd hmem hgranted⟩
    exact restored_congr hroot hreadable hpersisted h hholds hcurrent hfree hsettled state
  | @rewriting mid loaded parsed content front hgranted hmid hloaded hcontent hparsed hfront
      hholds =>
    refine ⟨fun hmem => absurd hgranted hmem, fun _ => ?_⟩
    let position := ApplyPosition.reconcile parsed.1 parsed.2 loaded.2
    -- what the load would have come to
    have hbefore := restored_of_holds hroot hreadable hpersisted h hcurrent hmid state
    rcases hfiles : (Replaying.eval mid state (store.loadFiles store.current)).1
      with ⟨result, machine⟩
    rw [hfiles] at hloaded hbefore
    cases hloaded
    have hposition : store.positionOf (.ok content) loaded.2 = .ok position := by
      simp only [positionOf, hparsed]
      rfl
    simp only [hcontent, assemble, hposition] at hbefore
    rw [hbefore] at hload ⊢
    cases hload
    obtain ⟨hread, hafter⟩ := restored_of_written hroot hreadable hpersisted hmid hfiles
      (View.readFile_eq_ok hcontent).1 hholds
    refine ⟨front, loaded.2, parsed.2, hfront, hread, rfl, hafter, ?_, ?_⟩
    · rintro rfl
      rw [hafter]
      exact ⟨_, rfl⟩
    · rintro rfl
      have hsettles : store.positionOf (.ok (Bytes.ofString position.text)) loaded.2 =
          .ok position := by
        simp only [positionOf, decodeApply_text]
        exact congrArg Except.ok (ApplyPosition.reconcile_reconcile _ _ _)
      rw [hafter, hsettles]

/-- A load is cut short right after it has emptied the apply file, and then no load goes through. -/
theorem load_crash_emptied :
    let store := sample "p"
    let tree := identified [(Layout.current, recordless ⟨42, 5⟩)]
    let after := ((store.load MemoryPartition.empty).cut tree 9).2
    (∃ partition, (store.restored MemoryPartition.empty tree).1 = .ok partition ∧
      partition.position = ⟨42, 5⟩) ∧
    (∃ granted, Execution (store.load MemoryPartition.empty) tree granted after (.crashed none)) ∧
    ∃ error, (store.restored MemoryPartition.empty after).1 = .error error := by
  intro store tree after
  let partition : LoadedPartition :=
    ⟨store.config, ⟨42, 5⟩, 0, 0, 0, 0, ⟨0, 0, 3523407757, 3523407757⟩, true⟩
  have hload : (store.restored MemoryPartition.empty tree).1 = .ok partition :=
    eq_ok_of_toOption (by decide +kernel)
  have hexecution := Execution.crash_after (store.load MemoryPartition.empty) tree 9
  obtain ⟨-, hwritten⟩ := load_crash store MemoryPartition.empty (by decide +kernel)
    (persisted_identified (by decide) _) hload hexecution
  obtain ⟨front, -, -, -, hread, -, -, hempty, -⟩ := hwritten (by decide +kernel)
  have hnothing : after.read (store.current.join Layout.apply) = .ok [] :=
    eq_ok_of_toOption (by decide +kernel)
  cases hread.symm.trans hnothing
  exact ⟨⟨partition, hload, rfl⟩, ⟨_, hexecution⟩, hempty rfl⟩

end Store

end PartitionSnapshot
