/-!
# Kinds of entities

A partition persists four kinds of entities, each in a file of its own inside a snapshot
directory. Files are written, read and signed in the order in which the kinds are listed here.
-/

namespace PartitionSnapshot

/-- The kinds of entities that a partition persists. -/
inductive Kind where
  | inode
  | dentry
  | extend
  | multipart
  deriving DecidableEq, Repr, Inhabited

namespace Kind

/-- All kinds, in their order. -/
def all : List Kind := [.inode, .dentry, .extend, .multipart]

/-- The place of a kind in the order. -/
def rank : Kind → Nat
  | .inode => 0
  | .dentry => 1
  | .extend => 2
  | .multipart => 3

/-- The name of a kind, which is also the name of its file inside a snapshot directory. -/
def name : Kind → String
  | .inode => "inode"
  | .dentry => "dentry"
  | .extend => "extend"
  | .multipart => "multipart"

instance : ToString Kind := ⟨name⟩

/-- A list of kinds in their order, repetitions kept. -/
def sort (kinds : List Kind) : List Kind :=
  kinds.mergeSort fun a b => a.rank ≤ b.rank

theorem mem_all (kind : Kind) : kind ∈ all := by
  cases kind <;> decide

end Kind

end PartitionSnapshot
