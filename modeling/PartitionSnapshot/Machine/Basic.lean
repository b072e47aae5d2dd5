import PartitionSnapshot.Error

/-!
# State machines

A partition in memory is driven by five operations, and replaying a snapshot is a sequence of them.
The store works with any state machine; it sees its answers and nothing else.
-/

namespace PartitionSnapshot

/-- A type of states that take in the entities of a partition. -/
class StateMachine (σ : Type) where
  /-- Takes in an inode. -/
  createInode : Inode → σ → σ
  /-- Notes an inode that is marked deleted as one to be freed. -/
  checkFree : Inode → σ → σ
  /-- Takes in a directory entry. In replay an entry under the same key is replaced; otherwise it
  is a conflict. -/
  createDentry : Dentry → (replay : Bool) → σ → Status × σ
  /-- Replaces the extended attributes of an inode. -/
  setAttributes : Extend → σ → Except Error Unit × σ
  /-- Takes in a multipart session, in place of one with the same identifier. -/
  createMultipart : Multipart → σ → σ

end PartitionSnapshot
