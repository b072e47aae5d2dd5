import PartitionSnapshot.Source
import PartitionSnapshot.Store.Basic

/-!
# Storing entity files

Storing a kind of entities walks through the records of a source and writes them, framed, into one
file. A source that ends its walk early does not make this fail: the outcome says how many records
were written and how many had been reported, and it is for the caller to compare them.
-/

namespace PartitionSnapshot

/-- What storing an entity file came to. -/
structure StoreOutcome where
  /-- The number of records written. -/
  records : Nat
  /-- The number of records that the source had reported. -/
  expected : Nat
  /-- The count at the head of the file, if it has one. -/
  count : Option Nat
  /-- The checksum of the file. -/
  checksum : UInt32
  deriving DecidableEq, Repr

namespace StoreOutcome

/-- Whether the source stopped before it had handed over every record it had reported. -/
def truncated (outcome : StoreOutcome) : Bool := outcome.records < outcome.expected

/-- Whether the file holds the records reported, and its head counts just these. -/
def complete (outcome : StoreOutcome) : Bool :=
  outcome.records == outcome.expected && outcome.count.all (· == outcome.records)

end StoreOutcome

/-- Writes one record of a source. -/
abbrev RecordWriter := FrameWriter → Bytes → Except Error FrameWriter

/-- A writer at the start of a file, behind the count of the records if one is given. -/
def FrameWriter.start (framing : Framing) : (count : Option Nat) → Except Failure FrameWriter
  | none => .ok (.create framing)
  | some count => (create framing).writeCount count

/-- Writes records one by one, up to the first that fails. -/
def FrameWriter.writeEach (write : RecordWriter) (writer : FrameWriter) :
    List Bytes → FrameWriter × Option Error
  | [] => (writer, none)
  | record :: rest =>
    match write writer record with
    | .error error => (writer, some error)
    | .ok writer => writer.writeEach write rest

/-- Writes the records of a walk, and gives the error with which that ends, if any. -/
def FrameWriter.writeWalk (write : RecordWriter) (writer : FrameWriter) (walk : Walk) :
    FrameWriter × Option Error :=
  let (writer, error) := writer.writeEach write walk.records
  (writer, error.or walk.failure)

namespace Store

/-- Stores the records of a kind. A count, if one is given, stands at the head of the file. -/
def saveKind (store : Store) (context : Context) (directory : Path) (kind : Kind)
    (framing : Framing) (source : Source) (count : Option UInt64) (write : RecordWriter) :
    Task StoreOutcome := do
  let expected ← Task.ofExcept (source.count kind) context.wrap
  let path := Layout.entityFile directory kind
  Task.ofProcedure (.create path) (.storage context (.creating path))
  let writer ← Task.ofExcept (FrameWriter.start framing (count.map UInt64.toNat))
    (.storage context .writingCount)
  let (writer, error) := writer.writeWalk write (source.walk kind)
  Task.ofProcedure (.append path writer.written) (.storage context (.writing path))
  match error with
  | some error =>
    Procedure.log .error
      (s!"range {kind} has err: partition({store.config.partition}) " ++
        s!"volume({store.config.volume}) err({error.message})")
    throw (context.wrap error)
  | none =>
    Task.ofProcedure (.sync path) (.storage context (.syncing path))
    return ⟨writer.records, expected.toNat, count.map UInt64.toNat, writer.checksum.value⟩

/-- Writes a record as it is. -/
def writeAsIs (context : Context) (kind : Kind) : RecordWriter := fun writer record =>
  (writer.writeRecord record).mapError (context.writing (.writingRecord kind))

/-- Decodes an inode and writes its record form. -/
def writeInode (context : Context) : RecordWriter := fun writer record =>
  match Entity.ofRecord Inode record with
  | .error fault => .error (context.wrap (.decoding (.record .inode fault)))
  | .ok inode =>
    (writer.writeRecord inode.toRecord).mapError (context.writing (.writingInode inode.id))

/-- Stores the inodes of a source. -/
def storeInodes (store : Store) (directory : Path) (source : Source) : Task StoreOutcome := do
  let context := store.context "storeInode"
  let outcome ← store.saveKind context directory .inode .fixed source none (writeInode context)
  Procedure.log .info
    (s!"storeInode: store complete: {store.label} numInodes({outcome.records}) " ++
      s!"crc({outcome.checksum})")
  return outcome

/-- Stores the directory entries of a source. -/
def storeDentries (store : Store) (directory : Path) (source : Source) : Task StoreOutcome := do
  let context := store.context "storeDentry"
  let outcome ← store.saveKind context directory .dentry .fixed source none
    (writeAsIs context .dentry)
  Procedure.log .info
    (s!"storeDentry: store complete: {store.label} numDentries({outcome.records}) " ++
      s!"crc({outcome.checksum})")
  return outcome

/-- Stores the extended attributes of a source. -/
def storeExtends (store : Store) (directory : Path) (source : Source) : Task StoreOutcome := do
  let context := store.context "storeExtend"
  let count ← Task.ofExcept (source.count .extend) context.wrap
  let outcome ← store.saveKind context directory .extend .varint source (some count)
    (writeAsIs context .extend)
  Procedure.log .info
    (s!"storeExtend: store complete: {store.label} numExtends({outcome.records}) " ++
      s!"crc({outcome.checksum})")
  return outcome

/-- The kind whose count leads the multipart file. -/
def countedKind (store : Store) : Kind :=
  match store.options.multipartCount with
  | .extends => .extend
  | .multiparts => .multipart

/-- Stores the multipart sessions of a source. -/
def storeMultiparts (store : Store) (directory : Path) (source : Source) :
    Task StoreOutcome := do
  let context := store.context "storeMultipart"
  let count ← Task.ofExcept (source.count store.countedKind) context.wrap
  let outcome ← store.saveKind context directory .multipart .varint source (some count)
    (writeAsIs context .multipart)
  Procedure.log .info
    (s!"storeMultipart: store complete: {store.label} count({count}) " ++
      s!"numMultiparts({outcome.records}) crc({outcome.checksum})")
  return outcome

/-- Stores the entities of a kind. -/
def storeKind (store : Store) (kind : Kind) (directory : Path) (source : Source) :
    Task StoreOutcome :=
  match kind with
  | .inode => store.storeInodes directory source
  | .dentry => store.storeDentries directory source
  | .extend => store.storeExtends directory source
  | .multipart => store.storeMultiparts directory source

end Store

end PartitionSnapshot
