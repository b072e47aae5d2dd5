import PartitionSnapshot.Entity.Record
import PartitionSnapshot.Machine.Basic

/-!
# Partitions in memory

The plain state machine: four ordered maps, and the list of inodes to be freed in the order in
which they were noted.
-/

namespace PartitionSnapshot

/-- The state of a partition. -/
structure MemoryPartition where
  inodes : OrderedMap InodeId Inode
  dentries : OrderedMap DentryKey Dentry
  xattrs : OrderedMap InodeId Extend
  multiparts : OrderedMap String Multipart
  /-- Inodes marked deleted, the one noted last first. -/
  freed : List InodeId
  deriving DecidableEq, Inhabited

namespace MemoryPartition

/-- The partition without entities. -/
def empty : MemoryPartition := ⟨.empty, .empty, .empty, .empty, []⟩

/-- Inodes marked deleted, in the order in which they were noted. -/
def freeList (partition : MemoryPartition) : List InodeId := partition.freed.reverse

/-- The number of entities of a kind. -/
def size (partition : MemoryPartition) : Kind → Nat
  | .inode => partition.inodes.size
  | .dentry => partition.dentries.size
  | .extend => partition.xattrs.size
  | .multipart => partition.multiparts.size

/-- Whether there are no entities of any kind. -/
def isEmpty (partition : MemoryPartition) : Bool :=
  Kind.all.all fun kind => partition.size kind == 0

/-- The record forms of the entities of a kind, by ascending key. -/
def records (partition : MemoryPartition) : Kind → List Bytes
  | .inode => partition.inodes.values.map Inode.toRecord
  | .dentry => partition.dentries.values.map Dentry.toRecord
  | .extend => partition.xattrs.values.map Extend.toRecord
  | .multipart => partition.multiparts.values.map Multipart.toRecord

/-! ## Operations -/

/-- Puts an inode under its number. -/
def createInode (inode : Inode) (partition : MemoryPartition) : MemoryPartition :=
  { partition with inodes := partition.inodes.insert inode.id inode }

/-- Notes an inode that is marked deleted. -/
def checkFree (inode : Inode) (partition : MemoryPartition) : MemoryPartition :=
  if inode.isDeleted then { partition with freed := inode.id :: partition.freed }
  else partition

/-- Puts a directory entry under its key. Outside replay its parent has to be there, and its key
free. -/
def createDentry (dentry : Dentry) (replay : Bool) (partition : MemoryPartition) :
    Status × MemoryPartition :=
  if !replay && !partition.inodes.contains dentry.parent then (.notExist, partition)
  else if !replay && partition.dentries.contains dentry.key then (.alreadyExists, partition)
  else (.ok, { partition with dentries := partition.dentries.insert dentry.key dentry })

/-- Puts extended attributes under the number of their inode. -/
def setAttributes (extend : Extend) (partition : MemoryPartition) : MemoryPartition :=
  { partition with xattrs := partition.xattrs.insert extend.inode extend }

/-- Puts a multipart session under its identifier. -/
def createMultipart (multipart : Multipart) (partition : MemoryPartition) : MemoryPartition :=
  { partition with multiparts := partition.multiparts.insert multipart.id multipart }

instance : StateMachine MemoryPartition where
  createInode := createInode
  checkFree := checkFree
  createDentry := createDentry
  setAttributes extend partition := (.ok (), partition.setAttributes extend)
  createMultipart := createMultipart

end MemoryPartition

end PartitionSnapshot
