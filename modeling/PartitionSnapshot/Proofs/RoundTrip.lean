import PartitionSnapshot.Proofs.Partitions

/-!
# Stored partitions are restored

A partition in memory is captured, stored, and restored by another process from what is on disk. The
entities come back as they were, the free list as far as inodes say it, and the position with a
cursor that is not behind any of the inodes.

Again the path of the root must not lead through the directories of the generations: under such a
root a partition can be stored, but the root is gone with the directory that its path leads through.

## Main statements

* `Store.storeSnapshot_load`: what is restored of a partition that was stored.
-/

namespace PartitionSnapshot

open FileTree (Holds)

namespace MemoryPartition

/-- The inodes that are marked deleted, by ascending number. -/
def deleted (partition : MemoryPartition) : List InodeId :=
  (partition.inodes.values.filter Inode.isDeleted).map Inode.id

theorem Keyed.deleted_ascending {config : Config} {partition : MemoryPartition}
    (h : partition.Keyed config) : partition.deleted.Pairwise (· < ·) := by
  rw [deleted, List.pairwise_map]
  -- the inodes stand by ascending number, and filtering keeps the order
  refine (h.inodes.ascending.filter _).imp fun hlt => ?_
  exact Std.compare_eq_lt.1 hlt

theorem length_records (partition : MemoryPartition) (kind : Kind) :
    (partition.records kind).length = partition.size kind := by
  cases kind <;> simp [records, size, OrderedMap.size, OrderedMap.values]

end MemoryPartition

namespace Store

/-- **What is restored of a partition that was stored.** When a partition was built by calls to the
state machine, captured and stored, its store is opened and the partition is restored: the same
entities, the inodes marked deleted as the free list, the index of the position, and the greatest of
the cursor, the first number of the partition and the numbers of the inodes. The numbers of records
are the sizes of the partition, and the signs are those with which it was stored. -/
theorem storeSnapshot_load (store : Store) (partition : MemoryPartition)
    (position : ApplyPosition) {tree : FileTree} {place : List String}
    (hroot : tree.view.Rooted store.root place) (hpersisted : store.Persisted tree.view place)
    (hbuffer : 1 ≤ store.options.readBuffer) (hbuilt : MemoryPartition.Built store.config partition)
    (haddressable : partition.Addressable) {signs : Signs} {after : FileTree}
    (hstore : Task.eval tree
      (store.storeSnapshot (Records.capture partition).source position) = (.ok signs, after)) :
    ∃ loaded restored final,
      Task.eval after (Store.open store.root store.options) = (.ok store, after) ∧
      (store.load MemoryPartition.empty).eval after = ((.ok loaded, store, restored), final) ∧
      (restored.inodes = partition.inodes ∧ restored.dentries = partition.dentries ∧
        restored.xattrs = partition.xattrs ∧ restored.multiparts = partition.multiparts) ∧
      (restored.freeList = partition.deleted ∧ restored.freeList.Pairwise (· < ·)) ∧
      loaded.position = ⟨position.index, max position.cursor
        ((partition.inodes.values.map Inode.id).foldl max store.config.first)⟩ ∧
      (loaded.stats.inodes = partition.size .inode ∧
        loaded.stats.dentries = partition.size .dentry ∧
        loaded.stats.extendCount = partition.size .extend ∧
        loaded.stats.multiparts = partition.size .multipart) ∧
      loaded.stats.signs = signs ∧ loaded.stats.verified = store.options.verifyChecksums := by
  let source := (Records.capture partition).source
  have hkeyed := hbuilt.keyed
  obtain ⟨hstorable, haccepted⟩ := storable_of_storeSnapshot hstore
  obtain ⟨rfl, hafter⟩ := holds_of_storeSnapshot hroot haccepted (Holds.self tree place) hstore
  have hdirectory : View.NoFile (source.generation position) := View.noFile_of_directory rfl
  -- what was stored is the generation of the source, so the source is restored
  have hrestored := restored_generation hroot haccepted.readable hpersisted hbuffer hstorable
    (MemoryPartition.loadable_capture haddressable hkeyed) hafter hdirectory
    (Generations.recovered_current_of_directory rfl) MemoryPartition.empty
  have hload := load_eq hroot haccepted.readable hpersisted hafter hdirectory MemoryPartition.empty
  rw [hrestored, MemoryPartition.replay_capture haddressable hkeyed] at hload
  let restored : MemoryPartition := { partition with freed := partition.deleted.reverse }
  have hfree : restored.freeList = partition.deleted := List.reverse_reverse _
  have hascending : restored.freeList.Pairwise (· < ·) := by
    rw [hfree]
    exact hkeyed.deleted_ascending
  have hlength (kind : Kind) : (source.records kind).length = partition.size kind := by
    rw [MemoryPartition.records_capture, MemoryPartition.length_records]
  refine ⟨source.partition store position, restored, _,
    open_eval hroot haccepted.readable hpersisted hafter, hload, ⟨rfl, rfl, rfl, rfl⟩,
    ⟨hfree, hascending⟩, ?_,
    ⟨hlength .inode, hlength .dentry, hlength .extend, hlength .multipart⟩, rfl, rfl⟩
  -- the cursor is a fold over the inodes that the records stand for
  show (⟨position.index, max position.cursor
    (cursorOf store.config.first (source.records .inode))⟩ : ApplyPosition) = _
  rw [MemoryPartition.records_capture, cursorOf, MemoryPartition.ofRecords_inode haddressable,
    List.foldl_map]

theorem storeSnapshot_load_deleted :
    let store := sample "p"
    let partition := StateMachine.createInode { id := 5 }
      (StateMachine.createInode { id := 2, flag := Inode.deletedFlag } MemoryPartition.empty)
    let stored := Task.eval (identified [])
      (store.storeSnapshot (Records.capture partition).source ⟨3, 1⟩)
    stored.1.isOk = true ∧
      (store.restored MemoryPartition.empty stored.2).1.toOption.map LoadedPartition.position =
        some ⟨3, 5⟩ ∧
      (store.restored MemoryPartition.empty stored.2).2.freeList = [2] := by
  intro store partition stored
  have hbuilt : MemoryPartition.Built store.config partition :=
    .createInode _ (by decide) (.createInode _ (by decide) .empty)
  have hroot : (identified []).view.Rooted store.root ["p"] := by decide +kernel
  have hok : stored.1.isOk = true := by decide +kernel
  rcases hstored : stored with ⟨error | signs, after⟩
  · rw [hstored] at hok
    cases hok
  obtain ⟨loaded, restored, final, -, hload, -, ⟨hfree, -⟩, hposition, -⟩ :=
    storeSnapshot_load store partition ⟨3, 1⟩ hroot (persisted_identified (by decide) _)
      (by decide) hbuilt (by decide +kernel) hstored
  simp only [Store.restored, hload]
  refine ⟨rfl, ?_, ?_⟩
  · rw [Except.toOption, Option.map, hposition]
    decide +kernel
  · rw [hfree]
    decide +kernel

/-- The condition on the root is needed: this one leads through the staging directory, and when the
partition was stored, it leads nowhere. -/
theorem storeSnapshot_load_refused :
    let store := sample "p/.snapshot/.."
    let tree := identified [(Layout.staging, .directory [])]
    let stored := Task.eval tree
      (store.storeSnapshot (Records.capture MemoryPartition.empty).source ⟨3, 5⟩)
    store.Persisted tree.view ["p"] ∧ tree.view.enter [] store.root.steps = some ["p"] ∧
      MemoryPartition.Built store.config MemoryPartition.empty ∧
      MemoryPartition.Addressable MemoryPartition.empty ∧ stored.1.isOk = true ∧
      (Task.eval stored.2 (Store.open store.root store.options)).1.isOk = false :=
  ⟨persisted_identified (by decide) _, by decide +kernel, .empty, by decide +kernel,
    by decide +kernel, by decide +kernel⟩

end Store

end PartitionSnapshot
