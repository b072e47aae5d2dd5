import PartitionSnapshot.Entity.Kind
import PartitionSnapshot.Json.Reader
import PartitionSnapshot.Json.Writer

/-!
# Options

How snapshot files are read and written. Every option has a default, and a text that sets options
may leave out any of them.
-/

namespace PartitionSnapshot

/-- How a snapshot file is read. -/
inductive ReadStrategy where
  /-- Front to back through a buffer. -/
  | buffered
  /-- As a whole, from a mapping of the file. -/
  | mapped
  deriving DecidableEq, Repr, Inhabited

/-- Whose count leads the multipart file. Files with the count of extends are written for readers
that expect it; they load only when both counts agree. -/
inductive MultipartCount where
  | extends
  | multiparts
  deriving DecidableEq, Repr, Inhabited

/-- How snapshot files are read and written. -/
structure Options where
  /-- The capacity of the buffer of buffered reading. -/
  readBuffer : UInt64 := 4194304
  /-- The capacity of the buffer of writing. -/
  writeBuffer : UInt64 := 4194304
  inodeRead : ReadStrategy := .buffered
  dentryRead : ReadStrategy := .buffered
  extendRead : ReadStrategy := .mapped
  multipartRead : ReadStrategy := .mapped
  /-- Whether loading compares the checksums of the files with the recorded ones. -/
  verifyChecksums : Bool := true
  multipartCount : MultipartCount := .multiparts
  deriving DecidableEq, Repr, Inhabited

namespace Options

/-- How the file of a kind is read. -/
def readStrategy (options : Options) : Kind → ReadStrategy
  | .inode => options.inodeRead
  | .dentry => options.dentryRead
  | .extend => options.extendRead
  | .multipart => options.multipartRead

/-! ## Names -/

/-- The names of the reading strategies. -/
def strategies : List (String × ReadStrategy) := [("buffered", .buffered), ("mapped", .mapped)]

/-- The names of the counts of the multipart file. -/
def counts : List (String × MultipartCount) := [("extend", .extends), ("multipart", .multiparts)]

/-- The name of a reading strategy. -/
def strategyName : ReadStrategy → String
  | .buffered => "buffered"
  | .mapped => "mapped"

/-- The name of a count of the multipart file. -/
def countName : MultipartCount → String
  | .extends => "extend"
  | .multiparts => "multipart"

/-- The names of the options, in their order. -/
def names : List String :=
  ["read_buffer_size", "write_buffer_size", "inode_read", "dentry_read", "extend_read",
   "multipart_read", "verify_checksums", "multipart_count_source"]

/-! ## JSON -/

/-- All options by name. -/
def toJson (options : Options) : Json :=
  .object [
    ("read_buffer_size", .natural options.readBuffer.toNat),
    ("write_buffer_size", .natural options.writeBuffer.toNat),
    ("inode_read", .string (strategyName options.inodeRead)),
    ("dentry_read", .string (strategyName options.dentryRead)),
    ("extend_read", .string (strategyName options.extendRead)),
    ("multipart_read", .string (strategyName options.multipartRead)),
    ("verify_checksums", .bool options.verifyChecksums),
    ("multipart_count_source", .string (countName options.multipartCount))]

/-- The fields of options; each may be missing. -/
def fields : List (Json.Field Options) :=
  let size := Json.Scanner.natural "usize"
  let strategy := Json.Scanner.choice strategies
  [.optional "read_buffer_size" size fun options readBuffer => { options with readBuffer },
   .optional "write_buffer_size" size fun options writeBuffer => { options with writeBuffer },
   .optional "inode_read" strategy fun options inodeRead => { options with inodeRead },
   .optional "dentry_read" strategy fun options dentryRead => { options with dentryRead },
   .optional "extend_read" strategy fun options extendRead => { options with extendRead },
   .optional "multipart_read" strategy fun options multipartRead => { options with multipartRead },
   .optional "verify_checksums" Json.Scanner.bool
     fun options verifyChecksums => { options with verifyChecksums },
   .optional "multipart_count_source" (Json.Scanner.choice counts)
     fun options multipartCount => { options with multipartCount }]

/-- Reads options from a JSON text; the ones left out have their defaults. -/
def decode (bytes : Bytes) : Except Json.Fault Options :=
  Json.decode (Json.Scanner.record "SnapshotOptions" fields {}) bytes

end Options

end PartitionSnapshot
