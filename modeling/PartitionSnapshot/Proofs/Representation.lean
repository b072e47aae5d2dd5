import PartitionSnapshot.Proofs.RoundTrip

/-!
# What calls make of a partition

Whatever calls a partition in memory has seen, each of its entities stands under its own key, and
what is captured of it is one record for each entity, by ascending key.

A directory entry that is created outside replay needs its parent and a free key, and is refused
otherwise. Inodes are never taken away. So as long as there is no replay every directory entry has
its parent, and a key that was taken once holds the same entry ever after.

## Main statements

* `MemoryPartition.built_perform`: calls build a partition.
* `MemoryPartition.captures_inodes` and its siblings: what is captured of each kind.
* `MemoryPartition.createDentry_outside_replay`: the answers to a directory entry.
* `MemoryPartition.Parented.performAll`, `MemoryPartition.get?_performAll`: runs without replay.
* `MemoryPartition.performAll_represents`: partitions, their captures and their directory entries.
-/

namespace PartitionSnapshot

/-! ## The order of keys -/

/-- Keys of directory entries are in order of their parents, and under one parent of their names. -/
theorem DentryKey.compare_eq_lt {key other : DentryKey} : compare key other = .lt ↔
    key.parent < other.parent ∨ key.parent = other.parent ∧ key.name < other.name := by
  have hparts : compare key other =
      (compare key.parent other.parent).then (compare key.name other.name) := rfl
  rw [hparts, Ordering.then_eq_lt, Std.compare_eq_lt, Std.LawfulEqOrd.compare_eq_iff_eq]
  exact or_congr_right (and_congr_right fun _ => compareOfLessAndEq_eq_lt)

namespace MemoryPartition

/-! ## Calls -/

/-- A call to a partition that may change it. -/
inductive Change where
  | createInode (inode : Inode)
  | checkFree (inode : Inode)
  | createDentry (dentry : Dentry) (replay : Bool)
  | setAttributes (extend : Extend)
  | createMultipart (multipart : Multipart)

namespace Change

/-- The partition after a call. -/
def perform (partition : MemoryPartition) : Change → MemoryPartition
  | .createInode inode => StateMachine.createInode inode partition
  | .checkFree inode => StateMachine.checkFree inode partition
  | .createDentry dentry replay => (StateMachine.createDentry dentry replay partition).2
  | .setAttributes extend => (StateMachine.setAttributes extend partition).2
  | .createMultipart multipart => StateMachine.createMultipart multipart partition

/-- Whether a directory entry is created in replay. -/
def isReplay : Change → Bool
  | .createDentry _ replay => replay
  | _ => false

/-- The directory entry that a call creates, if it is one to create a directory entry and is
answered with ok. -/
def creates? (partition : MemoryPartition) : Change → Option Dentry
  | .createDentry dentry replay =>
    if (StateMachine.createDentry dentry replay partition).1 = .ok then some dentry else none
  | _ => none

end Change

/-- The partition after calls, one after the other. -/
def performAll (partition : MemoryPartition) (changes : List Change) : MemoryPartition :=
  changes.foldl Change.perform partition

/-- The directory entries that calls create one after the other, in order. -/
def created (partition : MemoryPartition) : List Change → List Dentry
  | [] => []
  | change :: changes =>
    (change.creates? partition).toList ++ created (change.perform partition) changes

/-! ## Entities under their own keys -/

/-- A partition that owns every inode number. -/
def unbounded : Config := { (default : Config) with first := 0, last := 18446744073709551615 }

theorem owns_unbounded (id : InodeId) : unbounded.owns id = true := by
  have hfirst : (0 : UInt64) ≤ id := UInt64.le_iff_toNat_le.2 (Nat.zero_le _)
  have hlast : id ≤ 18446744073709551615 :=
    UInt64.le_iff_toNat_le.2 (Nat.le_of_lt_succ id.toNat_lt)
  exact Bool.and_eq_true_iff.2 ⟨decide_eq_true hfirst, decide_eq_true hlast⟩

variable {partition : MemoryPartition}

theorem built_perform (h : Built unbounded partition) (change : Change) :
    Built unbounded (change.perform partition) := by
  cases change with
  | createInode inode => exact .createInode inode (owns_unbounded inode.id) h
  | checkFree inode => exact .checkFree inode h
  | createDentry dentry replay => exact .createDentry dentry replay h
  | setAttributes extend => exact .setAttributes extend h
  | createMultipart multipart => exact .createMultipart multipart h

/-- What calls lead to keeps every entity under its own key. -/
theorem keyed_performAll (changes : List Change) :
    (performAll empty changes).Keyed unbounded := by
  have hbuilt : ∀ partition, Built unbounded partition →
      Built unbounded (performAll partition changes) := by
    -- along the calls, each of which builds on what was there
    induction changes with
    | nil => exact fun _ h => h
    | cons change changes ih => exact fun _ h => ih _ (built_perform h change)
  exact (hbuilt _ .empty).keyed

/-! ## Captures -/

/-- The records decode to the entities, one to one and in order, and these strictly ascend. -/
structure Captures {ε : Type} [Entity ε] (records : List Bytes) (entities : List ε)
    (before : ε → ε → Prop) : Prop where
  decode : records.map (Entity.ofRecord ε) = entities.map .ok
  ascend : entities.Pairwise before

theorem Captures.of_toRecord {ε : Type} [Entity ε] {entities : List ε} {before : ε → ε → Prop}
    (hdecode : ∀ entity ∈ entities, Entity.ofRecord ε (Entity.toRecord entity) = .ok entity)
    (hascend : entities.Pairwise before) :
    Captures (entities.map Entity.toRecord) entities before where
  decode := by
    rw [List.map_map]
    exact List.map_congr_left hdecode
  ascend := hascend

section

variable {config : Config} (hkeyed : partition.Keyed config) (h : partition.Addressable)
include hkeyed h

theorem captures_inodes : Captures (partition.records .inode) partition.inodes.values
    fun a b => a.id < b.id :=
  .of_toRecord (fun _ hinode => Inode.ofRecord_toRecord (h .inode _ (List.mem_map_of_mem hinode)))
    (hkeyed.inodes.ascending.imp Std.compare_eq_lt.1)

theorem captures_dentries : Captures (partition.records .dentry) partition.dentries.values
    fun a b => a.parent < b.parent ∨ a.parent = b.parent ∧ a.name < b.name :=
  .of_toRecord
    (fun _ hdentry => Dentry.ofRecord_toRecord (h .dentry _ (List.mem_map_of_mem hdentry)))
    (hkeyed.dentries.ascending.imp DentryKey.compare_eq_lt.1)

theorem captures_xattrs : Captures (partition.records .extend) partition.xattrs.values
    fun a b => a.inode < b.inode :=
  .of_toRecord
    (fun _ hextend => Extend.ofRecord_toRecord (h .extend _ (List.mem_map_of_mem hextend)))
    (hkeyed.xattrs.ascending.imp Std.compare_eq_lt.1)

theorem captures_multiparts : Captures (partition.records .multipart)
    partition.multiparts.values fun a b => a.id < b.id :=
  .of_toRecord
    (fun _ hmultipart =>
      Multipart.ofRecord_toRecord (h .multipart _ (List.mem_map_of_mem hmultipart)))
    (hkeyed.multiparts.ascending.imp compareOfLessAndEq_eq_lt.1)

end

/-! ## Directory entries outside replay -/

/-- A directory entry is refused for want of its parent, or else because its key is taken, and then
nothing changes; otherwise it is put under its key. -/
theorem createDentry_outside_replay (dentry : Dentry) (partition : MemoryPartition) :
    (partition.inodes.contains dentry.parent = false →
      StateMachine.createDentry dentry false partition = (.notExist, partition)) ∧
    (partition.inodes.contains dentry.parent = true →
      partition.dentries.contains dentry.key = true →
        StateMachine.createDentry dentry false partition = (.alreadyExists, partition)) ∧
    (partition.inodes.contains dentry.parent = true →
      partition.dentries.contains dentry.key = false →
        StateMachine.createDentry dentry false partition =
          (.ok, { partition with
            dentries := partition.dentries.insert dentry.key dentry })) := by
  have hcreate : StateMachine.createDentry dentry false partition =
      createDentry dentry false partition := rfl
  rw [hcreate]
  unfold createDentry
  refine ⟨fun hparent => ?_, fun hparent hkey => ?_, fun hparent hkey => ?_⟩
  · rw [hparent]
    rfl
  · rw [hparent, hkey]
    rfl
  · rw [hparent, hkey]
    rfl

/-- The parent of every directory entry is there. -/
def Parented (partition : MemoryPartition) : Prop :=
  ∀ entry ∈ partition.dentries.entries, partition.inodes.contains entry.2.parent = true

/-- Outside replay a call keeps the parents of directory entries, and an entry that it creates has
one. -/
theorem Parented.perform (h : partition.Parented) {change : Change}
    (hreplay : change.isReplay = false) : (change.perform partition).Parented := by
  cases change with
  | createInode inode =>
    intro entry hentry
    exact (OrderedMap.contains_insert _ _ _ _).trans
      (Bool.or_eq_true_iff.2 (.inr (h entry hentry)))
  | checkFree inode =>
    show (MemoryPartition.checkFree inode partition).Parented
    unfold MemoryPartition.checkFree
    split
    · exact h
    · exact h
  | createDentry dentry replay =>
    obtain rfl : replay = false := hreplay
    obtain ⟨hmissing, htaken, hfree⟩ := createDentry_outside_replay dentry partition
    show (StateMachine.createDentry dentry false partition).2.Parented
    cases hparent : partition.inodes.contains dentry.parent with
    | false =>
      rw [hmissing hparent]
      exact h
    | true =>
      cases hkey : partition.dentries.contains dentry.key with
      | true =>
        rw [htaken hparent hkey]
        exact h
      | false =>
        rw [hfree hparent hkey]
        exact OrderedMap.forall_mem_insert hparent h
  | setAttributes extend => exact h
  | createMultipart multipart => exact h

theorem Parented.performAll (h : partition.Parented) {changes : List Change}
    (hreplay : ∀ change ∈ changes, change.isReplay = false) :
    (partition.performAll changes).Parented := by
  induction changes generalizing partition with
  | nil => exact h
  | cons change changes ih =>
    exact ih (h.perform (hreplay change List.mem_cons_self)) fun other hother =>
      hreplay other (List.mem_cons_of_mem _ hother)

/-- Outside replay what a key holds is left to it, and what a call creates was not held before. -/
theorem get?_perform {change : Change} (hreplay : change.isReplay = false) (key : DentryKey) :
    (change.perform partition).dentries.get? key = (partition.dentries.get? key).or
      ((change.creates? partition).toList.find? fun dentry => dentry.key = key) := by
  have hsame (held : Option Dentry) :
      held.or (([] : List Dentry).find? fun dentry => dentry.key = key) = held := Option.or_none
  cases change with
  | createInode inode => exact (hsame _).symm
  | checkFree inode =>
    refine Eq.trans ?_ (hsame _).symm
    show (MemoryPartition.checkFree inode partition).dentries.get? key = _
    unfold MemoryPartition.checkFree
    split <;> rfl
  | createDentry dentry replay =>
    obtain rfl : replay = false := hreplay
    obtain ⟨hmissing, htaken, hfree⟩ := createDentry_outside_replay dentry partition
    simp only [Change.perform, Change.creates?]
    cases hparent : partition.inodes.contains dentry.parent with
    | false =>
      rw [hmissing hparent]
      exact (hsame _).symm
    | true =>
      cases hkey : partition.dentries.contains dentry.key with
      | true =>
        rw [htaken hparent hkey]
        exact (hsame _).symm
      | false =>
        have hnone : partition.dentries.get? dentry.key = none :=
          Option.isNone_iff_eq_none.1 (Option.isSome_eq_false_iff.1 hkey)
        rw [hfree hparent hkey, if_pos rfl, OrderedMap.get?_insert]
        split
        · next hown => simp [hown, hnone]
        · next hother => simp [Ne.symm hother]
  | setAttributes extend => exact (hsame _).symm
  | createMultipart multipart => exact (hsame _).symm

/-- In a run without replay a key holds what it held before, or else the entry created first. -/
theorem get?_performAll {changes : List Change}
    (hreplay : ∀ change ∈ changes, change.isReplay = false) (key : DentryKey) :
    (partition.performAll changes).dentries.get? key = (partition.dentries.get? key).or
      ((partition.created changes).find? fun dentry => dentry.key = key) := by
  -- along the calls; what the first one creates comes before all others
  induction changes generalizing partition with
  | nil => exact Option.or_none.symm
  | cons change changes ih =>
    show ((change.perform partition).performAll changes).dentries.get? key = _
    rw [ih fun other hother => hreplay other (List.mem_cons_of_mem _ hother),
      get?_perform (hreplay change List.mem_cons_self), created, List.find?_append,
      Option.or_assoc]

/-! ## Partitions and what is captured of them -/

/-- **What calls make of a partition.** After any calls on an empty partition each entity stands
under its own key. What is captured are as many records of each kind as there are entities; they
decode to the entities, by strictly ascending key. A directory entry is refused outside replay when
its parent is missing or its key taken, and then nothing changes. After calls without replay the
parent of every directory entry is there, and under each key stands the entry that was first created
under it. -/
theorem performAll_represents (changes : List Change) :
    let partition := performAll empty changes
    let source := (Records.capture partition).source
    (partition.inodes.Keyed Inode.id ∧ partition.dentries.Keyed Dentry.key ∧
      partition.xattrs.Keyed Extend.inode ∧ partition.multiparts.Keyed Multipart.id) ∧
    (∀ kind, (source.walk kind).failure = none ∧
      (source.records kind).length = partition.size kind ∧
      source.count kind = .ok (UInt64.ofNat (partition.size kind))) ∧
    (partition.Addressable →
      Captures (source.records .inode) partition.inodes.values (fun a b => a.id < b.id) ∧
      Captures (source.records .dentry) partition.dentries.values
        (fun a b => a.parent < b.parent ∨ a.parent = b.parent ∧ a.name < b.name) ∧
      Captures (source.records .extend) partition.xattrs.values
        (fun a b => a.inode < b.inode) ∧
      Captures (source.records .multipart) partition.multiparts.values
        fun a b => a.id < b.id) ∧
    (∀ dentry,
      (partition.inodes.contains dentry.parent = false →
        StateMachine.createDentry dentry false partition = (.notExist, partition)) ∧
      (partition.inodes.contains dentry.parent = true →
        partition.dentries.contains dentry.key = true →
          StateMachine.createDentry dentry false partition = (.alreadyExists, partition)) ∧
      (partition.inodes.contains dentry.parent = true →
        partition.dentries.contains dentry.key = false →
          StateMachine.createDentry dentry false partition =
            (.ok, { partition with
              dentries := partition.dentries.insert dentry.key dentry }))) ∧
    ((∀ change ∈ changes, change.isReplay = false) →
      (∀ dentry ∈ partition.dentries.values,
        partition.inodes.contains dentry.parent = true) ∧
      ∀ key, partition.dentries.get? key =
        (created empty changes).find? fun dentry => dentry.key = key) := by
  intro partition source
  have hkeyed : partition.Keyed unbounded := keyed_performAll changes
  have hrecords (kind : Kind) : source.records kind = partition.records kind :=
    records_capture partition kind
  refine ⟨⟨hkeyed.inodes, hkeyed.dentries, hkeyed.xattrs, hkeyed.multiparts⟩, fun kind => ?_,
    fun haddressable => ?_, fun dentry => createDentry_outside_replay dentry partition,
    fun hreplay => ⟨?_, fun key => ?_⟩⟩
  · have hlength : (source.records kind).length = partition.size kind := by
      rw [hrecords, length_records]
    exact ⟨rfl, hlength, by rw [← hlength]; rfl⟩
  · simp only [hrecords]
    exact ⟨captures_inodes hkeyed haddressable, captures_dentries hkeyed haddressable,
      captures_xattrs hkeyed haddressable, captures_multiparts hkeyed haddressable⟩
  · intro dentry hdentry
    obtain ⟨entry, hentry, rfl⟩ := List.mem_map.1 hdentry
    have hempty : empty.Parented := nofun
    exact hempty.performAll hreplay entry hentry
  · have hnone : empty.dentries.get? key = none := rfl
    exact (get?_performAll hreplay key).trans (by rw [hnone, Option.none_or])

/-- Two directory entries under one key, one without its parent, one in front of the others, and an
inode that comes again: four entities are captured by ascending key, and the key keeps the entry
that came first. -/
theorem performAll_represents_conflict :
    let first : Dentry := ⟨7, "b", 10, 0⟩
    let changes : List Change := [.createInode { id := 7 }, .createDentry first false,
      .createDentry ⟨7, "b", 11, 0⟩ false, .createDentry ⟨9, "c", 12, 0⟩ false,
      .createInode { id := 2, flag := 1 }, .createDentry ⟨7, "a", 13, 0⟩ false,
      .createInode { id := 7, flag := 1 }]
    let partition := performAll empty changes
    partition.Addressable ∧ (∀ change ∈ changes, change.isReplay = false) ∧
    Captures ((Records.capture partition).source.records .dentry)
      [(⟨7, "a", 13, 0⟩ : Dentry), first]
      (fun a b => a.parent < b.parent ∨ a.parent = b.parent ∧ a.name < b.name) ∧
    partition.dentries.get? ⟨7, "b"⟩ = some first ∧ partition.dentries.get? ⟨9, "c"⟩ = none := by
  intro first changes partition
  have haddressable : partition.Addressable := by decide +kernel
  have hreplay : ∀ change ∈ changes, change.isReplay = false := by decide
  obtain ⟨-, -, hcaptures, -, hruns⟩ := performAll_represents changes
  obtain ⟨-, hdentries, -⟩ := hcaptures haddressable
  have hvalues : partition.dentries.values = [⟨7, "a", 13, 0⟩, first] := by decide +kernel
  obtain ⟨-, hheld⟩ := hruns hreplay
  refine ⟨haddressable, hreplay, hvalues ▸ hdentries, (hheld _).trans ?_, (hheld _).trans ?_⟩
  · decide +kernel
  · decide +kernel

end MemoryPartition

end PartitionSnapshot
