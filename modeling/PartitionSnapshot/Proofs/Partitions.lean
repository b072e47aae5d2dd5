import PartitionSnapshot.Proofs.OrderedMap
import PartitionSnapshot.Proofs.Restoring

/-!
# Partitions in memory and their records

Calls to a partition in memory keep every entity under its own key, so a partition is decided by the
entities that it holds. Its records are those entities by ascending key, and taking them in again,
kind by kind, rebuilds the partition. The list of inodes to be freed is not recorded; it is rebuilt
from the inodes that are marked deleted.

## Main statements

* `MemoryPartition.Built.keyed`: what calls build is kept under its own keys.
* `MemoryPartition.replay_capture`: records rebuild the partition.
-/

namespace PartitionSnapshot

/-! ## Maps whose entries are kept under their own keys -/

namespace OrderedMap

variable {κ : Type u} {α : Type v} [Ord κ]

/-- Every entry stands under the key that its value has. -/
def Keyed (key : α → κ) (map : OrderedMap κ α) : Prop :=
  ∀ entry ∈ map.entries, entry.1 = key entry.2

theorem keyed_empty (key : α → κ) : Keyed key (empty : OrderedMap κ α) := fun _ h => nomatch h

/-- The keys of values by ascending key ascend. -/
theorem Keyed.ascending {key : α → κ} {map : OrderedMap κ α} (h : map.Keyed key) :
    map.values.Pairwise fun a b => compare (key a) (key b) = .lt := by
  rw [values, List.pairwise_map]
  refine map.ascending.imp_of_mem fun ha hb hlt => ?_
  rw [← h _ ha, ← h _ hb]
  exact hlt

variable [Std.TransOrd κ]

theorem Keyed.insert {key : α → κ} {map : OrderedMap κ α} (h : map.Keyed key) (value : α) :
    (map.insert (key value) value).Keyed key :=
  forall_mem_insert rfl h

/-- Such a map is rebuilt from its values. -/
theorem Keyed.rebuild {key : α → κ} {map : OrderedMap κ α} (h : map.Keyed key) :
    map.values.foldl (fun map value => map.insert (key value) value) empty = map := by
  -- inserting the values under their keys inserts the entries
  have hentries : map.values.map (fun value => (key value, value)) = map.entries := by
    rw [values, List.map_map]
    calc map.entries.map ((fun value => (key value, value)) ∘ fun entry => entry.2)
        = map.entries.map id :=
          List.map_congr_left fun entry hentry => Prod.ext (h entry hentry).symm rfl
      _ = map.entries := List.map_id map.entries
  have hlist := ofList_toList map
  unfold ofList toList at hlist
  rw [← hentries, List.foldl_map] at hlist
  exact hlist

end OrderedMap

namespace MemoryPartition

/-! ## What calls build -/

/-- The partitions that calls to the state machine build, when the inodes taken in are ones that the
partition owns. -/
inductive Built (config : Config) : MemoryPartition → Prop
  | empty : Built config .empty
  | createInode {partition : MemoryPartition} (inode : Inode) :
      config.owns inode.id = true → Built config partition →
      Built config (StateMachine.createInode inode partition)
  | checkFree {partition : MemoryPartition} (inode : Inode) :
      Built config partition → Built config (StateMachine.checkFree inode partition)
  | createDentry {partition : MemoryPartition} (dentry : Dentry) (replay : Bool) :
      Built config partition → Built config (StateMachine.createDentry dentry replay partition).2
  | setAttributes {partition : MemoryPartition} (extend : Extend) :
      Built config partition → Built config (StateMachine.setAttributes extend partition).2
  | createMultipart {partition : MemoryPartition} (multipart : Multipart) :
      Built config partition → Built config (StateMachine.createMultipart multipart partition)

/-- Every entity is kept under its own key, and the inodes are ones that the partition owns. -/
structure Keyed (config : Config) (partition : MemoryPartition) : Prop where
  inodes : partition.inodes.Keyed Inode.id
  owned : ∀ entry ∈ partition.inodes.entries, config.owns entry.2.id = true
  dentries : partition.dentries.Keyed Dentry.key
  xattrs : partition.xattrs.Keyed Extend.inode
  multiparts : partition.multiparts.Keyed Multipart.id

theorem createDentry_cases (dentry : Dentry) (replay : Bool) (partition : MemoryPartition) :
    (createDentry dentry replay partition).2 = partition ∨
      (createDentry dentry replay partition).2 =
        { partition with dentries := partition.dentries.insert dentry.key dentry } := by
  -- refused, taken as it is in replay, or inserted
  unfold createDentry
  split
  · exact .inl rfl
  · split
    · exact .inl rfl
    · exact .inr rfl

/-- Each call keeps entities under their own keys. -/
theorem Built.keyed {config : Config} {partition : MemoryPartition} (h : Built config partition) :
    partition.Keyed config := by
  -- one case for each call
  induction h with
  | empty =>
    exact {
      inodes := OrderedMap.keyed_empty _
      owned := fun _ hentry => nomatch hentry
      dentries := OrderedMap.keyed_empty _
      xattrs := OrderedMap.keyed_empty _
      multiparts := OrderedMap.keyed_empty _ }
  | createInode inode howns _ ih =>
    exact ⟨ih.inodes.insert inode, OrderedMap.forall_mem_insert howns ih.owned, ih.dentries,
      ih.xattrs, ih.multiparts⟩
  | checkFree inode _ ih =>
    show Keyed config (MemoryPartition.checkFree inode _)
    unfold MemoryPartition.checkFree
    split
    · exact ⟨ih.inodes, ih.owned, ih.dentries, ih.xattrs, ih.multiparts⟩
    · exact ih
  | createDentry dentry replay _ ih =>
    show Keyed config (MemoryPartition.createDentry dentry replay _).2
    rcases createDentry_cases dentry replay _ with hsame | hinsert
    · rw [hsame]
      exact ih
    · rw [hinsert]
      exact ⟨ih.inodes, ih.owned, ih.dentries.insert dentry, ih.xattrs, ih.multiparts⟩
  | setAttributes extend _ ih =>
    exact ⟨ih.inodes, ih.owned, ih.dentries, ih.xattrs.insert extend, ih.multiparts⟩
  | createMultipart multipart _ ih =>
    exact ⟨ih.inodes, ih.owned, ih.dentries, ih.xattrs, ih.multiparts.insert multipart⟩

/-! ## Taking in entities -/

/-- Taking in inodes puts each under its number, and notes those that are marked deleted. -/
theorem foldl_takeInode (inodes : List Inode) (partition : MemoryPartition) :
    inodes.foldl (fun partition inode => StateMachine.takeInode inode partition) partition =
      { partition with
        inodes := inodes.foldl (fun map inode => map.insert inode.id inode) partition.inodes
        freed := ((inodes.filter Inode.isDeleted).map Inode.id).reverse ++ partition.freed } := by
  induction inodes generalizing partition with
  | nil => rfl
  | cons inode inodes ih =>
    rw [List.foldl_cons, ih]
    -- only an inode that is marked deleted is noted
    cases hdeleted : inode.isDeleted with
    | true =>
      simp [StateMachine.takeInode, StateMachine.checkFree, StateMachine.createInode, checkFree,
        createInode, hdeleted]
    | false =>
      simp [StateMachine.takeInode, StateMachine.checkFree, StateMachine.createInode, checkFree,
        createInode, hdeleted]

theorem foldl_takeDentry (dentries : List Dentry) (partition : MemoryPartition) :
    dentries.foldl (fun partition dentry => StateMachine.takeDentry dentry partition) partition =
      { partition with dentries := dentries.foldl (fun map dentry =>
          map.insert dentry.key dentry) partition.dentries } := by
  induction dentries generalizing partition with
  | nil => rfl
  | cons dentry dentries ih => exact ih _

theorem foldl_takeExtend (xattrs : List Extend) (partition : MemoryPartition) :
    xattrs.foldl (fun partition extend => StateMachine.takeExtend extend partition) partition =
      { partition with xattrs := xattrs.foldl (fun map extend =>
          map.insert extend.inode extend) partition.xattrs } := by
  induction xattrs generalizing partition with
  | nil => rfl
  | cons extend xattrs ih => exact ih _

theorem foldl_createMultipart (multiparts : List Multipart) (partition : MemoryPartition) :
    multiparts.foldl
        (fun partition multipart => StateMachine.createMultipart multipart partition) partition =
      { partition with multiparts := multiparts.foldl (fun map multipart =>
          map.insert multipart.id multipart) partition.multiparts } := by
  induction multiparts generalizing partition with
  | nil => rfl
  | cons multipart multiparts ih => exact ih _

/-! ## Records -/

/-- The lengths of the record forms have 64 bits. -/
def Addressable (partition : MemoryPartition) : Prop :=
  ∀ kind, ∀ record ∈ partition.records kind, record.length < UInt64.size

instance (partition : MemoryPartition) : Decidable partition.Addressable :=
  decidable_of_iff
    (∀ kind ∈ Kind.all, ∀ record ∈ partition.records kind, record.length < UInt64.size)
    ⟨fun h kind => h kind (Kind.mem_all kind), fun h kind _ => h kind⟩

theorem records_capture (partition : MemoryPartition) (kind : Kind) :
    (Records.capture partition).source.records kind = partition.records kind := by
  cases kind <;> rfl

section

variable {partition : MemoryPartition} (h : partition.Addressable)
include h

theorem ofRecords_inode :
    Entity.ofRecords Inode (partition.records .inode) = partition.inodes.values :=
  Entity.ofRecords_map fun _ hinode =>
    Inode.ofRecord_toRecord (h .inode _ (List.mem_map_of_mem hinode))

theorem ofRecords_dentry :
    Entity.ofRecords Dentry (partition.records .dentry) = partition.dentries.values :=
  Entity.ofRecords_map fun _ hdentry =>
    Dentry.ofRecord_toRecord (h .dentry _ (List.mem_map_of_mem hdentry))

theorem ofRecords_extend :
    Entity.ofRecords Extend (partition.records .extend) = partition.xattrs.values :=
  Entity.ofRecords_map fun _ hextend =>
    Extend.ofRecord_toRecord (h .extend _ (List.mem_map_of_mem hextend))

theorem ofRecords_multipart :
    Entity.ofRecords Multipart (partition.records .multipart) = partition.multiparts.values :=
  Entity.ofRecords_map fun _ hmultipart =>
    Multipart.ofRecord_toRecord (h .multipart _ (List.mem_map_of_mem hmultipart))

/-- Every record of a partition decodes. -/
theorem check_records (kind : Kind) : ∀ record ∈ partition.records kind,
    kind.check record = .ok () := by
  intro record hrecord
  have hlength := h kind record hrecord
  cases kind with
  | inode =>
    obtain ⟨inode, -, rfl⟩ := List.mem_map.1 hrecord
    rw [Kind.check, Inode.ofRecord_toRecord hlength]
    rfl
  | dentry =>
    obtain ⟨dentry, -, rfl⟩ := List.mem_map.1 hrecord
    rw [Kind.check, Dentry.ofRecord_toRecord hlength]
    rfl
  | extend =>
    obtain ⟨extend, -, rfl⟩ := List.mem_map.1 hrecord
    rw [Kind.check, Extend.ofRecord_toRecord hlength]
    rfl
  | multipart =>
    obtain ⟨multipart, -, rfl⟩ := List.mem_map.1 hrecord
    rw [Kind.check, Multipart.ofRecord_toRecord hlength]
    rfl

variable {config : Config} (hkeyed : partition.Keyed config)
include hkeyed

/-- What was captured of a partition can be loaded. -/
theorem loadable_capture : (Records.capture partition).source.Loadable config where
  decodes kind := by
    rw [records_capture]
    exact check_records h kind
  owned := by
    rw [records_capture, ofRecords_inode h]
    intro inode hinode
    obtain ⟨entry, hentry, rfl⟩ := List.mem_map.1 hinode
    exact hkeyed.owned entry hentry
  addressable kind := by
    rw [records_capture]
    exact h kind

/-- What was captured of a partition rebuilds it. -/
theorem replay_capture : (Records.capture partition).source.replay MemoryPartition.empty =
    { partition with
      freed := ((partition.inodes.values.filter Inode.isDeleted).map Inode.id).reverse } := by
  simp only [Source.replay, Entity.takeAll, records_capture, ofRecords_inode h,
    ofRecords_dentry h, ofRecords_extend h, ofRecords_multipart h, foldl_takeInode,
    foldl_takeDentry, foldl_takeExtend, foldl_createMultipart]
  -- each map starts empty and is rebuilt on its own
  have hinodes := hkeyed.inodes.rebuild
  have hdentries := hkeyed.dentries.rebuild
  have hxattrs := hkeyed.xattrs.rebuild
  have hmultiparts := hkeyed.multiparts.rebuild
  simp only [empty, hinodes, hdentries, hxattrs, hmultiparts, List.append_nil]

end

end MemoryPartition

end PartitionSnapshot
