import PartitionSnapshot.Machine.Memory

/-!
# Sources of records

What is stored comes from a source: for every kind of entity a count, and a walk through the
records. Each may fail, and a walk may end early, so the two need not agree.
-/

namespace PartitionSnapshot

/-! ## Walks -/

/-- One walk through the records of a kind. -/
structure Walk where
  /-- The records that are handed over, in order. -/
  records : List Bytes
  /-- The error with which the walk ends, unless it just ends. -/
  failure : Option Error

namespace Walk

/-- A walk that ends, as if it were done, once `limit` records were handed over. -/
def limit (walk : Walk) (limit : Nat) : Walk :=
  if limit ≤ walk.records.length then ⟨walk.records.take limit, none⟩ else walk

/-- A walk that fails instead of handing over the record after the first `after`, or at once when
`after` is zero. -/
def failAfter (walk : Walk) (after : Nat) (error : Error) : Walk :=
  if after < walk.records.length ∨ after = 0 then ⟨walk.records.take after, some error⟩ else walk

/-- Follows a walk up to and with its `stop`-th record, or its first when `stop` is zero, or else
to its end: the records seen, and the error met. -/
def follow (walk : Walk) (stop : Option Nat) : List Bytes × Option Error :=
  match stop with
  | none => (walk.records, walk.failure)
  | some stop =>
    let enough := max stop 1
    if enough ≤ walk.records.length then (walk.records.take enough, none)
    else (walk.records, walk.failure)

end Walk

/-! ## Sources -/

/-- A source of records, frozen while it is stored. -/
structure Source where
  /-- The number of entities of a kind. -/
  count : Kind → Except Error UInt64
  /-- The walk through the entities of a kind. -/
  walk : Kind → Walk

/-- Records in memory, by kind. -/
structure Records where
  inodes : List Bytes
  dentries : List Bytes
  xattrs : List Bytes
  multiparts : List Bytes
  deriving DecidableEq, Repr, Inhabited

namespace Records

/-- No records. -/
def empty : Records := ⟨[], [], [], []⟩

/-- The records of a kind. -/
def ofKind (records : Records) : Kind → List Bytes
  | .inode => records.inodes
  | .dentry => records.dentries
  | .extend => records.xattrs
  | .multipart => records.multiparts

/-- Appends a record of a kind. -/
def push (records : Records) (kind : Kind) (record : Bytes) : Records :=
  match kind with
  | .inode => { records with inodes := records.inodes ++ [record] }
  | .dentry => { records with dentries := records.dentries ++ [record] }
  | .extend => { records with xattrs := records.xattrs ++ [record] }
  | .multipart => { records with multiparts := records.multiparts ++ [record] }

/-- Appends the record form of an entity. -/
def pushEntity [Entity ε] (records : Records) (entity : ε) : Records :=
  records.push (Entity.kind ε) (Entity.toRecord entity)

/-- The record forms of everything a partition holds. -/
def capture (partition : MemoryPartition) : Records :=
  ⟨partition.records .inode, partition.records .dentry, partition.records .extend,
   partition.records .multipart⟩

/-- The source that hands over the records. -/
def source (records : Records) : Source where
  count kind := .ok (UInt64.ofNat (records.ofKind kind).length)
  walk kind := ⟨records.ofKind kind, none⟩

end Records

namespace Source

/-- A source whose walks end once `limit` records were handed over. -/
def limit (source : Source) (limit : Nat) : Source :=
  { source with walk := fun kind => (source.walk kind).limit limit }

/-- A source whose walks fail instead of handing over the record after the first `after`; only
those of one kind, if one is given. -/
def failAfter (source : Source) (after : Nat) (only : Option Kind) : Source :=
  { source with walk := fun kind =>
      if only.all (· == kind) then
        (source.walk kind).failAfter after (.source (.described s!"range {kind} failed"))
      else source.walk kind }

/-- A source that reports the given count of a kind. -/
def withCount (source : Source) (kind : Kind) (count : UInt64) : Source :=
  { source with count := fun k => if k = kind then .ok count else source.count k }

/-- A source that cannot count a kind. -/
def withoutCount (source : Source) (kind : Kind) : Source :=
  { source with count := fun k =>
      if k = kind then .error (.source (.described s!"count {kind} failed"))
      else source.count k }

end Source

end PartitionSnapshot
