import PartitionSnapshot.Bytes
import PartitionSnapshot.Entity.Kind
import PartitionSnapshot.OrderedMap

/-!
# Entities

What a metadata partition holds: inodes, directory entries, extended attributes and multipart
upload sessions. Numbers have the width that their record form gives them.
-/

namespace PartitionSnapshot

/-- The number of an inode. -/
abbrev InodeId := UInt64

/-! ## Inodes -/

/-- A file system inode. -/
structure Inode where
  id : InodeId
  /-- File type and permission bits. -/
  mode : UInt32 := 0
  uid : UInt32 := 0
  gid : UInt32 := 0
  size : UInt64 := 0
  generation : UInt64 := 1
  createTime : Int64 := 0
  accessTime : Int64 := 0
  modifyTime : Int64 := 0
  /-- The target of a symbolic link. -/
  linkTarget : Bytes := []
  nlink : UInt32 := 1
  flag : UInt32 := 0
  deriving DecidableEq, Repr, Inhabited

namespace Inode

/-- The flag bit of an inode that was unlinked and waits to be freed. -/
def deletedFlag : UInt32 := 1

/-- Whether the inode is marked deleted. -/
def isDeleted (inode : Inode) : Bool := inode.flag &&& deletedFlag != 0

/-- Marks the inode deleted. -/
def markDeleted (inode : Inode) : Inode := { inode with flag := inode.flag ||| deletedFlag }

end Inode

/-! ## Directory entries -/

/-- A directory entry: `name` under the directory `parent` leads to `inode`. -/
structure Dentry where
  parent : InodeId
  name : String
  inode : InodeId
  fileType : UInt32
  deriving DecidableEq, Repr, Inhabited

/-- What identifies a directory entry in its partition, ordered by parent and then by name. -/
structure DentryKey where
  parent : InodeId
  name : String
  deriving DecidableEq, Repr

instance : Ord DentryKey := ⟨compareLex (compareOn (·.parent)) (compareOn (·.name))⟩

instance : Std.TransOrd DentryKey :=
  inferInstanceAs
    (Std.TransCmp (compareLex (compareOn DentryKey.parent) (compareOn DentryKey.name)))

instance : Std.LawfulEqOrd DentryKey where
  compare_self {a} := by
    show (compare a.parent a.parent).then (compare a.name a.name) = .eq
    rw [Std.ReflOrd.compare_self (a := a.parent), Std.ReflOrd.compare_self (a := a.name)]
    rfl
  eq_of_compare {a b} h := by
    have h : (compare a.parent b.parent).then (compare a.name b.name) = .eq := h
    rw [Ordering.then_eq_eq] at h
    obtain ⟨parent, name⟩ := a
    obtain ⟨parent', name'⟩ := b
    rw [DentryKey.mk.injEq]
    exact ⟨Std.LawfulEqCmp.eq_of_compare h.1, Std.LawfulEqCmp.eq_of_compare h.2⟩

/-- The key of a directory entry. -/
def Dentry.key (dentry : Dentry) : DentryKey := ⟨dentry.parent, dentry.name⟩

/-! ## Extended attributes -/

/-- The extended attributes of one inode, by ascending key. -/
structure Extend where
  inode : InodeId
  attributes : OrderedMap Bytes Bytes
  deriving DecidableEq, Inhabited

/-- Sets one attribute. -/
def Extend.put (extend : Extend) (key value : Bytes) : Extend :=
  { extend with attributes := extend.attributes.insert key value }

/-! ## Multipart sessions -/

/-- One uploaded part of a multipart session. -/
structure Part where
  id : UInt16
  uploadTime : Int64
  md5 : String
  size : UInt64
  inode : InodeId
  deriving DecidableEq, Repr, Inhabited

/-- A multipart upload in progress. -/
structure Multipart where
  id : String
  key : String
  initTime : Int64
  parts : List Part
  deriving DecidableEq, Repr, Inhabited

end PartitionSnapshot
