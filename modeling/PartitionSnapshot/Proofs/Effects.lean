import PartitionSnapshot.Proofs.Identity
import PartitionSnapshot.Proofs.Settling

/-!
# What loads change

Of all that a load does, two steps change the tree: the recovery that settles an interrupted swap,
and the apply file that is written back. A load that fails has gone no further than the recovery. A
load that goes through has also written back the position, and what it has written is the position
that it gives: the index that was read, and the greatest of the cursor that was read and the numbers
of the inodes that were loaded.

This is said of every root, also of one whose path is cut off by the recovery.

## Main statements

* `Store.Reconciles`, `Store.loadApply_run`: what becomes of the apply file.
* `Store.load_refused`, `Store.load_granted`: what a load does that fails, and one that does not.
-/

namespace PartitionSnapshot

namespace Store

/-! ## The apply file -/

/-- What loading the apply file at a path comes to, once inode numbers up to a cursor are known to
be taken. -/
inductive Reconciles (path : Path) (cursor : UInt64) (tree : FileTree) :
    ApplyPosition → FileTree → Prop
  /-- A file that is missing is not made, and the index is zero. -/
  | absent {failure : Failure} : tree.read path = .error failure → failure.classify = .notFound →
      Reconciles path cursor tree ⟨0, cursor⟩ tree
  /-- A file that is there holds the position from now on. -/
  | present {content : Bytes} {index : UInt64} {stored : Option UInt64} {after : FileTree} :
      tree.read path = .ok content → ApplyPosition.Says content (index, stored) →
      tree.Overwritten path
        (Bytes.ofString (ApplyPosition.reconcile index stored cursor).text) after →
      Reconciles path cursor tree (.reconcile index stored cursor) after

section

variable {store : Store} {tree : FileTree}

theorem loadApply_absent (cursor : UInt64) {failure : Failure}
    (hread : tree.read (applyPath store.root) = .error failure)
    (hnotFound : failure.classify = .notFound) :
    Task.eval tree (store.loadApply store.current cursor) = (.ok ⟨0, cursor⟩, tree) := by
  rw [loadApply_eq, hread]
  dsimp only
  rw [if_pos hnotFound]

/-- An apply file that says a position is written over with the position reconciled. -/
theorem loadApply_overwrites {directory : Path} (cursor : UInt64) {content : Bytes}
    {index : UInt64} {stored : Option UInt64}
    (hread : tree.read (directory.join Layout.apply) = .ok content)
    (hparsed : ApplyPosition.Says content (index, stored)) :
    ∃ after, Task.eval tree (store.loadApply directory cursor) =
        (.ok (.reconcile index stored cursor), after) ∧
      tree.Overwritten (directory.join Layout.apply)
        (Bytes.ofString (ApplyPosition.reconcile index stored cursor).text) after := by
  have hname : Path.IsName Layout.apply := by decide
  obtain ⟨after, hwrite, hafter⟩ := writeSmallFile_overwrites hname hread
    (store.context "storeApplyID")
    (Bytes.ofString (ApplyPosition.reconcile index stored cursor).text)
  refine ⟨after, ?_, hafter⟩
  have hstore : Task.eval tree (store.storeApply directory
      (.reconcile index stored cursor)) = (.ok (), after) := storeApply_eval hwrite
  rw [loadApply_in, hread]
  dsimp only
  rw [decodeApply_eq_ok.2 hparsed]
  dsimp only
  rw [hstore]

theorem loadApply_present (cursor : UInt64) {content : Bytes} {index : UInt64}
    {stored : Option UInt64} (hread : tree.read (applyPath store.root) = .ok content)
    (hparsed : ApplyPosition.Says content (index, stored)) :
    ∃ after, Task.eval tree (store.loadApply store.current cursor) =
        (.ok (.reconcile index stored cursor), after) ∧
      tree.Overwritten (applyPath store.root)
        (Bytes.ofString (ApplyPosition.reconcile index stored cursor).text) after :=
  loadApply_overwrites cursor hread hparsed

/-- Loading the apply position fails and changes nothing, or reconciles the position with the
cursor. -/
theorem loadApply_run (store : Store) (tree : FileTree) (cursor : UInt64) :
    (∃ error, Task.eval tree (store.loadApply store.current cursor) = (.error error, tree)) ∨
    ∃ position after, Task.eval tree (store.loadApply store.current cursor) =
        (.ok position, after) ∧
      Reconciles (applyPath store.root) cursor tree position after := by
  cases hread : tree.read (applyPath store.root) with
  | error failure =>
    by_cases hnotFound : failure.classify = .notFound
    · exact .inr ⟨_, _, loadApply_absent cursor hread hnotFound, .absent hread hnotFound⟩
    · rw [loadApply_eq, hread]
      dsimp only
      rw [if_neg hnotFound]
      exact .inl ⟨_, rfl⟩
  | ok content =>
    cases hdecode : decodeApply (store.context "loadApplyID") content with
    | ok parsed =>
      have hparsed := decodeApply_eq_ok.1 hdecode
      obtain ⟨after, hload, hafter⟩ := loadApply_present cursor hread hparsed
      exact .inr ⟨_, _, hload, .present hread hparsed hafter⟩
    | error error =>
      rw [loadApply_eq, hread]
      dsimp only
      rw [hdecode]
      exact .inl ⟨error, rfl⟩

end

/-! ## The current generation -/

section

variable {σ : Type} [StateMachine σ] {store : Store} {tree after : FileTree} {state state' : σ}

/-- Loading the current generation fails and changes nothing, or it loads the files and then the
apply position. -/
theorem loadCurrent_run {result : Except Error LoadedPartition}
    (h : Replaying.eval tree state store.loadCurrent = ((result, state'), after)) :
    (∃ error, result = .error error ∧ after = tree) ∨
    ∃ stats cursor position, result = .ok ⟨store.config, position, stats⟩ ∧
      Replaying.eval tree state (store.loadFiles store.current) =
        ((.ok (stats, cursor), state'), tree) ∧
      Task.eval tree (store.loadApply store.current cursor) = (.ok position, after) := by
  have hstays := loadFiles_eval store tree store.current state
  unfold loadCurrent at h
  dsimp only at h
  rcases hfiles : Replaying.eval tree state (store.loadFiles store.current)
    with ⟨⟨error | ⟨stats, cursor⟩, state''⟩, tree'⟩
  · rw [hfiles] at hstays
    cases hstays
    rw [Replaying.eval_bind_error _ hfiles] at h
    cases h
    exact .inl ⟨error, rfl, rfl⟩
  · rw [hfiles] at hstays
    cases hstays
    rw [Replaying.eval_bind_ok _ hfiles] at h
    have hstep := Replaying.eval_ofTask tree' state'' (store.loadApply store.current cursor)
    rcases loadApply_run store _ cursor with ⟨error, happly⟩ | ⟨position, after', happly, -⟩
    · rw [happly] at hstep
      rw [Replaying.eval_bind_error _ hstep] at h
      cases h
      exact .inl ⟨error, rfl, rfl⟩
    · rw [happly] at hstep
      rw [Replaying.eval_bind_ok _ hstep] at h
      cases h
      exact .inr ⟨stats, cursor, position, rfl, rfl, happly⟩

theorem loadCurrent_of_files {stats : LoadStats} {cursor : UInt64} {position : ApplyPosition}
    (hfiles : Replaying.eval tree state (store.loadFiles store.current) =
      ((.ok (stats, cursor), state'), tree))
    (happly : Task.eval tree (store.loadApply store.current cursor) = (.ok position, after)) :
    Replaying.eval tree state store.loadCurrent =
      ((.ok ⟨store.config, position, stats⟩, state'), after) := by
  unfold loadCurrent
  dsimp only
  rw [Replaying.eval_bind_ok _ hfiles, Replaying.eval_bind, Replaying.eval_ofTask, happly]
  rfl

/-- What is found in a file is a matter of the options. -/
theorem Finds.of_options {store' : Store} {kind : Kind} {answer : Except Failure Bytes}
    {found : Option Contents} (h : store'.Finds kind answer found)
    (hoptions : store'.options = store.options) : store.Finds kind answer found := by
  intro context path
  have hfound := h context path
  unfold contentsOf source at hfound ⊢
  rwa [hoptions] at hfound

/-- The records of a file of which the contents were found, if there was one. -/
def recordsOf : Option Contents → List Bytes
  | none => []
  | some contents => contents.records

/-- When files are loaded, the cursor is the greatest of the first number of the partition and the
numbers of the inodes that were found. -/
theorem cursor_of_loadFiles {stats : LoadStats} {cursor : UInt64}
    (h : Replaying.eval tree state (store.loadFiles store.current) =
      ((.ok (stats, cursor), state'), after)) :
    ∃ found, store.Finds .inode (tree.read (Layout.entityFile store.current .inode)) found ∧
      cursor = cursorOf store.config.first (recordsOf found) := by
  have hfiles : (Replaying.eval tree state (store.loadFiles store.current)).1.1 =
      .ok (stats, cursor) := by rw [h]
  obtain ⟨load, hload, rfl⟩ := loadInodes_of_loadFiles hfiles
  obtain ⟨found, hfound, hcursor⟩ := cursor_of_loadInodes hload
  refine ⟨found, finds_of_contentsOf hfound, ?_⟩
  rcases hcursor with ⟨rfl, hcursor⟩ | ⟨contents, rfl, hcursor⟩
  · exact hcursor
  · exact hcursor

end

/-! ## Loads -/

section

variable {σ : Type} [StateMachine σ] {store store' : Store} {tree after : FileTree}
variable {state state' : σ}

/-- A load that goes through has read the identity, settled the swap, and loaded the current
generation. -/
theorem load_run {result : Except Error LoadedPartition}
    (h : (store.load state).eval tree = ((result, store', state'), after)) :
    (∃ error, result = .error error ∧ (after = tree ∨ Settles store.root tree after)) ∨
    ∃ config mid, store' = { store with config } ∧
      identityOf store.root (tree.read (store.root.join Layout.metadata)) = .ok config ∧
      Settles store.root tree mid ∧
      (∃ partition, result = .ok partition) ∧
      Replaying.eval mid state store'.loadCurrent = ((result, state'), after) := by
  rw [load_identified] at h
  cases hidentity : identityOf store.root (tree.read (store.root.join Layout.metadata)) with
  | error error =>
    rw [hidentity] at h
    cases h
    exact .inl ⟨error, rfl, .inl rfl⟩
  | ok config =>
    rw [hidentity] at h
    let opened : Store := { store with config }
    have hroot : opened.root = store.root := (identityOf_eq_ok hidentity).1
    have hgeneration : Replaying.eval tree state opened.loadGeneration =
        ((result, state'), after) ∧ store' = opened := by
      dsimp only at h
      rcases hload : Replaying.eval tree state ({ store with config } : Store).loadGeneration
        with ⟨⟨result', state''⟩, tree'⟩
      rw [hload] at h
      cases h
      exact ⟨rfl, rfl⟩
    obtain ⟨hload, rfl⟩ := hgeneration
    have hbind := Replaying.eval_bind tree state (Replaying.ofTask opened.recoverGeneration)
      fun _ => (opened.loadCurrent : Replaying σ LoadedPartition)
    rw [Replaying.eval_ofTask] at hbind
    have hload := hbind.symm.trans hload
    rcases recoverGeneration_run opened tree with ⟨error, hrecover⟩ | ⟨mid, hrecover, hmid⟩
    · rw [hrecover] at hload
      cases hload
      exact .inl ⟨error, rfl, .inl rfl⟩
    · rw [hrecover] at hload
      rw [hroot] at hmid
      rcases loadCurrent_run hload with ⟨error, rfl, rfl⟩ | ⟨stats, cursor, position, rfl, -, -⟩
      · exact .inl ⟨error, rfl, .inr hmid⟩
      · exact .inr ⟨config, mid, rfl, rfl, hmid, ⟨_, rfl⟩, hload⟩

/-- A load that fails has changed nothing, or has settled the swap. -/
theorem load_refused {error : Error}
    (h : (store.load state).eval tree = ((.error error, store', state'), after)) :
    after = tree ∨ Settles store.root tree after := by
  rcases load_run h with ⟨_, -, heffect⟩ | ⟨_, _, _, _, _, ⟨_, hpartition⟩, _⟩
  · exact heffect
  · cases hpartition

/-- What a load has met and done that goes through: the identity was read, and the swap settled;
then the files were loaded, and the position was reconciled with the cursor they come to. -/
structure Restores (store : Store) (tree : FileTree) (partition : LoadedPartition) (store' : Store)
    (mid after : FileTree) (cursor : UInt64) : Prop where
  identity : identityOf store.root (tree.read (store.root.join Layout.metadata)) =
    .ok partition.config
  store_eq : store' = { store with config := partition.config }
  settles : Settles store.root tree mid
  found : ∃ found, store.Finds .inode
      (mid.read (Layout.entityFile (store.root.join Layout.current) .inode)) found ∧
    cursor = cursorOf partition.config.first (recordsOf found)
  reconciles : Reconciles (applyPath store.root) cursor mid partition.position after

theorem load_granted {partition : LoadedPartition}
    (h : (store.load state).eval tree = ((.ok partition, store', state'), after)) :
    ∃ mid cursor, store.Restores tree partition store' mid after cursor ∧
      Replaying.eval mid state (store'.loadFiles store'.current) =
        ((.ok (partition.stats, cursor), state'), mid) := by
  rcases load_run h with ⟨_, herror, -⟩ | ⟨config, mid, rfl, hidentity, hmid, -, hload⟩
  · cases herror
  · have hroot : ({ store with config } : Store).root = store.root := (identityOf_eq_ok hidentity).1
    rcases loadCurrent_run hload with ⟨_, herror, -⟩ | ⟨stats, cursor, position, hresult, hfiles,
      happly⟩
    · cases herror
    · cases hresult
      obtain ⟨found, hfound, hcursor⟩ := cursor_of_loadFiles hfiles
      refine ⟨mid, cursor, ⟨hidentity, rfl, hmid, ⟨found, ?_, hcursor⟩, ?_⟩, hfiles⟩
      · rw [current, hroot] at hfound
        exact hfound.of_options rfl
      · rcases loadApply_run { store with config } mid cursor with
          ⟨error, hrefused⟩ | ⟨position', after', hgranted, hreconciles⟩
        · rw [happly] at hrefused
          cases hrefused
        · rw [happly] at hgranted
          cases hgranted
          rwa [hroot] at hreconciles

end

end Store

end PartitionSnapshot
