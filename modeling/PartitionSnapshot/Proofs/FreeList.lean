import Mathlib.Data.List.Induction
import PartitionSnapshot.Proofs.Effects
import PartitionSnapshot.Proofs.Overriding

/-!
# The list of inodes to be freed

A partition notes every inode that is marked deleted, when it is handed over. The inodes themselves
stand under their numbers, and the last one handed over counts; nothing is struck off the list when
another inode takes that place. So the list tells what was handed over, and it names the inodes that
are held and marked deleted only as long as no inode is handed over under a number that was noted
before: a second one that is marked is noted twice, and one that is not marked leaves a note of an
inode that is in use again.

## Main statements

* `MemoryPartition.namesDeleted_takeInode`: what one inode does to a list that names the deleted
  ones.
* `MemoryPartition.LoadedInodes.freeList_names`: what the list is after any number of loads, and
  when it names the deleted inodes.
-/

namespace PartitionSnapshot

namespace MemoryPartition

open OrderedMap (last? putAll)
open StateMachine (takeInode)

/-! ## Lists and what is held -/

/-- The partition holds an inode under this number, and it is marked deleted. -/
def HoldsDeleted (partition : MemoryPartition) (id : InodeId) : Prop :=
  ∃ inode, partition.inodes.get? id = some inode ∧ inode.isDeleted = true

/-- The list of inodes to be freed names those that are held and marked deleted, each of them
once. -/
structure NamesDeleted (partition : MemoryPartition) : Prop where
  once : partition.freeList.Nodup
  names : ∀ id, id ∈ partition.freeList ↔ partition.HoldsDeleted id

/-- No inode that is held and marked deleted is missing from the list. -/
def NotesDeleted (partition : MemoryPartition) : Prop :=
  ∀ id, partition.HoldsDeleted id → id ∈ partition.freeList

/-! ## Taking in one inode -/

section

variable (inode : Inode) (partition : MemoryPartition)

theorem freeList_takeInode : (takeInode inode partition).freeList =
    partition.freeList ++ if inode.isDeleted then [inode.id] else [] := by
  show (checkFree inode (createInode inode partition)).freeList = _
  unfold checkFree
  cases inode.isDeleted with
  | true => simp [freeList, createInode]
  | false => simp [freeList, createInode]

theorem inodes_takeInode :
    (takeInode inode partition).inodes = partition.inodes.insert inode.id inode := by
  show (checkFree inode (createInode inode partition)).inodes = _
  unfold checkFree
  split <;> rfl

theorem holdsDeleted_takeInode (id : InodeId) : (takeInode inode partition).HoldsDeleted id ↔
    if id = inode.id then inode.isDeleted = true else partition.HoldsDeleted id := by
  unfold HoldsDeleted
  rw [inodes_takeInode, OrderedMap.get?_insert]
  split
  · simp
  · rfl

variable {inode partition}

/-- Whatever inode is taken in, none that is marked deleted is missed. -/
theorem NotesDeleted.takeInode (h : partition.NotesDeleted) (inode : Inode) :
    (takeInode inode partition).NotesDeleted := by
  intro id hid
  rw [holdsDeleted_takeInode] at hid
  rw [freeList_takeInode, List.mem_append]
  split at hid
  · next hsame => exact .inr (by simp [hid, hsame])
  · exact .inl (h id hid)

/-- **One inode more.** The list goes on naming the deleted inodes just when the number of the inode
has not been noted before. A list that has ceased to name them does not come to name them again. -/
theorem namesDeleted_takeInode (h : partition.NotesDeleted) :
    (takeInode inode partition).NamesDeleted ↔
      partition.NamesDeleted ∧ inode.id ∉ partition.freeList := by
  constructor
  · rintro ⟨honce, hnames⟩
    rw [freeList_takeInode] at honce
    simp only [freeList_takeInode, holdsDeleted_takeInode, List.mem_append] at hnames
    have hfresh : inode.id ∉ partition.freeList := by
      intro hnoted
      -- what is noted is marked, so the inode is, and is noted once more
      have hdeleted : inode.isDeleted = true := by
        simpa using (hnames inode.id).1 (.inl hnoted)
      rw [if_pos hdeleted] at honce
      exact (List.nodup_append.1 honce).2.2 _ hnoted _ (List.mem_singleton_self _) rfl
    refine ⟨⟨(List.nodup_append.1 honce).1, fun id => ⟨fun hnoted => ?_, h id⟩⟩, hfresh⟩
    have hother : id ≠ inode.id := fun hsame => hfresh (hsame ▸ hnoted)
    simpa only [if_neg hother] using (hnames id).1 (.inl hnoted)
  · rintro ⟨⟨honce, hnames⟩, hfresh⟩
    refine ⟨?_, fun id => ?_⟩
    · rw [freeList_takeInode]
      split
      · refine List.nodup_append.2 ⟨honce, List.pairwise_singleton _ _, ?_⟩
        intro id hnoted other hother hsame
        exact hfresh (List.mem_singleton.1 hother ▸ hsame ▸ hnoted)
      · rwa [List.append_nil]
    · rw [freeList_takeInode, holdsDeleted_takeInode, List.mem_append]
      by_cases hsame : id = inode.id
      · subst hsame
        simp [hfresh]
      · rw [if_neg hsame, ← hnames id]
        refine or_iff_left fun hnoted => hsame ?_
        split at hnoted
        · exact List.mem_singleton.1 hnoted
        · cases hnoted

end

/-! ## Taking in one inode after the other -/

/-- Takes in inodes, one after the other. -/
def takeInodes (inodes : List Inode) (partition : MemoryPartition) : MemoryPartition :=
  inodes.foldl (fun partition inode => takeInode inode partition) partition

theorem takeInodes_append (inodes others : List Inode) (partition : MemoryPartition) :
    takeInodes (inodes ++ others) partition = takeInodes others (takeInodes inodes partition) :=
  List.foldl_append

theorem freeList_takeInodes (inodes : List Inode) : (takeInodes inodes empty).freeList =
    (inodes.filter Inode.isDeleted).map Inode.id := by
  rw [takeInodes, foldl_takeInode]
  simp [freeList, empty]

theorem get?_takeInodes (inodes : List Inode) (id : InodeId) :
    (takeInodes inodes empty).inodes.get? id = last? Inode.id inodes id := by
  have hnone : (empty : MemoryPartition).inodes.get? id = none := rfl
  rw [takeInodes, foldl_takeInode]
  exact (OrderedMap.get?_putAll Inode.id inodes _ id).trans (by rw [hnone, Option.or_none])

theorem notesDeleted_takeInodes (inodes : List Inode) :
    (takeInodes inodes empty).NotesDeleted := by
  -- along the inodes, from a partition that holds none
  induction inodes using List.reverseRecOn with
  | nil => exact fun _ hid => nomatch hid
  | append_singleton inodes inode ih =>
    rw [takeInodes_append]
    exact ih.takeInode inode

/-- A run of inodes leaves a list that names the deleted ones just when no number is handed over
again after an inode that was marked. -/
theorem namesDeleted_takeInodes (inodes : List Inode) : (takeInodes inodes empty).NamesDeleted ↔
    inodes.Pairwise fun earlier later => earlier.isDeleted = true → earlier.id ≠ later.id := by
  induction inodes using List.reverseRecOn with
  | nil => exact iff_of_true ⟨List.nodup_nil, fun id => by simp [takeInodes, freeList, empty,
      HoldsDeleted, OrderedMap.get?, OrderedMap.empty, OrderedMap.find?]⟩ .nil
  | append_singleton inodes inode ih =>
    rw [takeInodes_append]
    refine (namesDeleted_takeInode (notesDeleted_takeInodes inodes)).trans ?_
    rw [ih, freeList_takeInodes, List.pairwise_append]
    simp only [List.mem_map, List.mem_filter, not_exists, not_and, List.pairwise_singleton,
      List.mem_singleton, forall_eq, true_and, and_imp]

end MemoryPartition

/-! ## Loading inode files -/

namespace Store

/-- The inodes that the store finds in the file in a directory. -/
def inodesIn (store : Store) (tree : FileTree) (directory : Path) : List Inode :=
  match store.contentsOf (store.context "loadInode") (Layout.entityFile directory .inode) .inode
      (tree.read (Layout.entityFile directory .inode)) with
  | .ok found => Entity.ofRecords Inode (recordsOf found)
  | .error _ => []

/-- A load of inodes that goes through takes in the inodes that are found, one after the other. -/
theorem takeInodes_of_loadInodes {store : Store} {tree tree' : FileTree} {directory : Path}
    {cursor : UInt64} {partition after : MemoryPartition} {load : InodeLoad}
    (h : Replaying.eval tree partition (store.loadInodes directory cursor) =
      ((.ok load, after), tree')) :
    after = MemoryPartition.takeInodes (store.inodesIn tree directory) partition := by
  rw [loadInodes_eval] at h
  unfold inodesIn
  rcases hreplay : replayed (store.context "loadInode")
      (handleInode store.config (store.context "loadInode")) (cursor, partition)
      (store.contentsOf (store.context "loadInode") (Layout.entityFile directory .inode) .inode
        (tree.read (Layout.entityFile directory .inode))) with ⟨error | outcome, cursor', state⟩
  · rw [hreplay] at h
    cases h
  · rw [hreplay] at h
    cases h
    -- there is no file, or all of its records are taken in
    rcases replayed_inv hreplay with ⟨hfound, -, hstate⟩ | ⟨records, checksum, hfound, heach,
      hstate, -⟩
    · rw [hfound]
      exact congrArg Prod.snd hstate
    · have haccepts := (uniform_handleInode store.config (store.context "loadInode")).accepts heach
      rw [(haccepts.each _).2, takeAll_inode] at hstate
      rw [hfound]
      exact congrArg Prod.snd hstate

end Store

namespace MemoryPartition

open OrderedMap (last?)

/-- A partition that began without entities, and into which inode files were loaded, each of them
with success, beside the inodes that were found in them, in order. Each load may be that of another
store, from another tree, or of a file that was loaded before. -/
inductive LoadedInodes : List Inode → MemoryPartition → Prop
  | fresh : LoadedInodes [] empty
  | loaded {inodes : List Inode} {partition after : MemoryPartition} (store : Store)
      {tree tree' : FileTree} {directory : Path} {cursor : UInt64} {load : Store.InodeLoad} :
      LoadedInodes inodes partition →
      Replaying.eval tree partition (store.loadInodes directory cursor) =
        ((.ok load, after), tree') →
      LoadedInodes (inodes ++ store.inodesIn tree directory) after

theorem LoadedInodes.eq_takeInodes {inodes : List Inode} {partition : MemoryPartition}
    (h : LoadedInodes inodes partition) : partition = takeInodes inodes empty := by
  -- along the loads, each of which takes in inodes after those of the loads before
  induction h with
  | fresh => rfl
  | loaded store _ hload ih =>
    rw [takeInodes_append, ← ih]
    exact Store.takeInodes_of_loadInodes hload

/-- **What the list of inodes to be freed names.** After any number of loads that went through, the
list is the numbers of all inodes that were handed over and marked deleted, in order; the inode that
was handed over last under a number is held under it, and none that is held and marked deleted is
missing from the list. The list names just the inodes that are held and marked deleted, each of them
once, exactly when after an inode that was marked none was handed over under the same number. -/
theorem LoadedInodes.freeList_names {inodes : List Inode} {partition : MemoryPartition}
    (h : LoadedInodes inodes partition) :
    partition.freeList = (inodes.filter Inode.isDeleted).map Inode.id ∧
    (∀ id, partition.inodes.get? id = last? Inode.id inodes id) ∧
    (∀ id, partition.HoldsDeleted id → id ∈ partition.freeList) ∧
    ((partition.freeList.Nodup ∧
        ∀ id, id ∈ partition.freeList ↔ partition.HoldsDeleted id) ↔
      inodes.Pairwise fun earlier later => earlier.isDeleted = true → earlier.id ≠ later.id) := by
  obtain rfl := h.eq_takeInodes
  refine ⟨freeList_takeInodes inodes, get?_takeInodes inodes, notesDeleted_takeInodes inodes, ?_⟩
  rw [← namesDeleted_takeInodes]
  exact ⟨fun ⟨honce, hnames⟩ => ⟨honce, hnames⟩, fun ⟨honce, hnames⟩ => ⟨honce, hnames⟩⟩

/-- A file with an inode that is marked and then one that is not, under one number, and a marked one
under another: loaded once, and once more. -/
theorem LoadedInodes.freeList_names_reloaded :
    let store := Store.sample "p"
    let inodes : List Inode := [{ id := 5, flag := 1 }, { id := 5 }, { id := 6, flag := 1 }]
    let content := Framing.fixed.frames (inodes.map Inode.toRecord)
    let tree := Store.identified [(Layout.current, .directory [("inode", .file content)])]
    ∃ first second load load',
      Replaying.eval tree empty (store.loadInodes store.current 1) = ((.ok load, first), tree) ∧
      Replaying.eval tree first (store.loadInodes store.current 1) = ((.ok load', second), tree) ∧
      first.freeList = [5, 6] ∧ first.inodes.get? 5 = some { id := 5 } ∧
      second.freeList = [5, 6, 5, 6] ∧ 6 ∈ second.freeList ∧
      ¬ (second.freeList.Nodup ∧ ∀ id, id ∈ second.freeList ↔ second.HoldsDeleted id) := by
  intro store inodes content tree
  have hfound : store.inodesIn tree store.current = inodes := by decide +kernel
  have hload (partition : MemoryPartition)
      (hok : (Replaying.eval tree partition (store.loadInodes store.current 1)).1.1.isOk = true) :
      ∃ load, Replaying.eval tree partition (store.loadInodes store.current 1) =
        ((.ok load, takeInodes inodes partition), tree) := by
    rcases heval : Replaying.eval tree partition (store.loadInodes store.current 1) with
      ⟨⟨error | load, after⟩, tree'⟩
    · rw [heval] at hok
      cases hok
    · have hafter := Store.takeInodes_of_loadInodes heval
      rw [hfound] at hafter
      rw [Store.loadInodes_eval] at heval
      exact ⟨load, by rw [← hafter, ← (Prod.mk.inj heval).2]⟩
  obtain ⟨load, hfirst⟩ := hload empty (by decide +kernel)
  obtain ⟨load', hsecond⟩ := hload (takeInodes inodes empty) (by decide +kernel)
  have hloaded := LoadedInodes.loaded store .fresh hfirst
  have hreloaded := LoadedInodes.loaded store hloaded hsecond
  rw [hfound, List.nil_append] at hloaded hreloaded
  obtain ⟨hlist, hheld, -⟩ := hloaded.freeList_names
  obtain ⟨hlist', hheld', hnotes, hnames⟩ := hreloaded.freeList_names
  refine ⟨_, _, load, load', hfirst, hsecond, hlist, hheld 5, hlist', ?_, ?_⟩
  · exact hnotes 6 ⟨{ id := 6, flag := 1 }, hheld' 6, rfl⟩
  · rw [hnames]
    decide

end MemoryPartition

end PartitionSnapshot
