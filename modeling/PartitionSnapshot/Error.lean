import PartitionSnapshot.Config
import PartitionSnapshot.Entity.Basic
import PartitionSnapshot.Entity.Decoder
import PartitionSnapshot.Failure
import PartitionSnapshot.Machine.Status
import PartitionSnapshot.Text.Quoted

/-!
# Errors

The errors of the partition store. An error that arises inside an operation names the operation and
the partition; four kinds of errors arise without one and are wrapped by the operation that meets
them. An error is kept as its cause, and `Error.message` alone puts it into words.
-/

namespace PartitionSnapshot

/-- The operation in which an error arises, and the partition it works on. -/
structure Context where
  operation : String
  partition : UInt64
  deriving DecidableEq, Repr

/-- The front of every message that names its operation. -/
def Context.label (context : Context) : String :=
  s!"[{context.operation}] partition {context.partition}"

/-! ## What was being done -/

/-- The single step of an operation that failed. -/
inductive Activity where
  | opening (path : Path)
  | reading (path : Path)
  | creating (path : Path)
  | writing (path : Path)
  | syncing (path : Path)
  | renaming (source target : Path)
  | removingStale (path : Path)
  | readingRecordAt (offset : Nat)
  | readingCount
  | readingRecord (index count : Nat)
  | writingCount
  | writingInode (inode : InodeId)
  | writingRecord (kind : Kind)
  | described (text : String)
  deriving DecidableEq, Repr

/-- The step in words. -/
def Activity.message : Activity → String
  | .opening path => s!"open {path}"
  | .reading path => s!"read {path}"
  | .creating path => s!"create {path}"
  | .writing path => s!"write {path}"
  | .syncing path => s!"sync {path}"
  | .renaming source target => s!"rename {source} to {target}"
  | .removingStale path => s!"remove stale {path}"
  | .readingRecordAt offset => s!"read record at offset {offset}"
  | .readingCount => "read record count"
  | .readingRecord index count => s!"read record {index} of {count}"
  | .writingCount => "write record count"
  | .writingInode inode => s!"write inode {inode}"
  | .writingRecord kind => s!"write {kind}"
  | .described text => text

/-! ## What went wrong -/

/-- Why data could not be decoded, apart from where they came from. -/
inductive DecodingFault where
  | record (kind : Kind) (fault : DecodeFault)
  | config (fault : Json.Fault)
  | described (text : String)
  deriving DecidableEq, Repr

/-- The fault in words. -/
def DecodingFault.message : DecodingFault → String
  | .record kind fault => s!"{kind}: {fault.message}"
  | .config fault => fault.message
  | .described text => text

/-- In what way data on disk, or data to be written, are corrupt. -/
inductive Corruption where
  | undecodable (kind : Kind) (fault : DecodeFault)
  | outsideRange (inode first last : UInt64)
  /-- The data ended while more were needed. -/
  | truncated (activity : Activity)
  | malformed (activity : Activity) (failure : Failure)
  | emptyApply
  | applyNotText (fault : Utf8.Fault)
  | unreadableApply (text : String)
  | emptyMetadata (path : Path)
  | unreadableMetadata (path : Path) (fault : Json.Fault)
  | invalidMetadata (fault : ConfigFault)
  | unreadableSigns (path : Path) (text : String)
  /-- The count at the head of a file, the records in it and the records reported disagree. -/
  | miscounted (kind : Kind) (count records expected : Nat)
  | described (text : String)
  deriving DecidableEq, Repr

/-- The corruption in words. -/
def Corruption.message : Corruption → String
  | .undecodable kind fault =>
    s!"deserialization error: {(DecodingFault.record kind fault).message}"
  | .outsideRange inode first last =>
    s!"inode {inode} outside partition range [{first}, {last}]"
  | .truncated activity => s!"{activity.message}: truncated file"
  | .malformed activity failure => s!"{activity.message}: {failure.message}"
  | .emptyApply => "apply ID is empty"
  | .applyNotText fault => s!"apply file is not text: {fault.message}"
  | .unreadableApply text => s!"cannot parse apply file {Text.quoted text}"
  | .emptyMetadata path => s!"{path} is empty"
  | .unreadableMetadata path fault =>
    s!"unmarshal {path}: deserialization error: {fault.message}"
  | .invalidMetadata fault => s!"invalid partition config: {fault.message}"
  | .unreadableSigns path text => s!"cannot parse {path} {Text.quoted text}"
  | .miscounted kind count records expected =>
    s!"{kind} file counts {count} records but holds {records} of {expected} reported"
  | .described text => text

/-- What a state machine refused to take in. -/
inductive Refusal where
  | dentry (entry : Dentry) (status : Status)
  | attributes (inode : InodeId) (reason : String)
  | described (text : String)
  deriving DecidableEq, Repr

/-- The refusal in words. -/
def Refusal.message : Refusal → String
  | .dentry entry status =>
    s!"create dentry parent({entry.parent}) name({entry.name}) inode({entry.inode}): " ++
      status.message
  | .attributes inode reason => s!"set xattr inode({inode}): {reason}"
  | .described text => text

/-- What a source of records reports, or what is found wrong with it. -/
inductive SourceFault where
  /-- The source stopped before it had handed over every record it had reported. -/
  | stopped (kind : Kind) (records expected : Nat)
  | described (text : String)
  deriving DecidableEq, Repr

/-- The fault in words. -/
def SourceFault.message : SourceFault → String
  | .stopped kind records expected =>
    s!"range {kind} stopped after {records} of {expected} records"
  | .described text => text

/-! ## Errors -/

/-- An error of the partition store. -/
inductive Error where
  /-- A file that was asked for is absent. -/
  | notFound (context : Context) (path : Path)
  | corrupt (context : Context) (what : Corruption)
  /-- The storage failed. -/
  | storage (context : Context) (activity : Activity) (failure : Failure)
  /-- The state machine refused a replayed entity. -/
  | rejected (context : Context) (what : Refusal)
  | checksumMismatch (context : Context) (file : String) (expected actual : UInt32)
  | invalidConfig (fault : ConfigFault)
  | source (fault : SourceFault)
  | encoding (text : String)
  | decoding (fault : DecodingFault)
  /-- An error without an operation, inside the operation that met it. -/
  | within (context : Context) (error : Error)
  deriving Repr, Inhabited

namespace Error

/-- The error in words. -/
def message : Error → String
  | .notFound context path => s!"{context.label}: {path} not found"
  | .corrupt context what => s!"{context.label}: corrupt data: {what.message}"
  | .storage context activity failure =>
    s!"{context.label}: {activity.message}: {failure.message}"
  | .rejected context what => s!"{context.label}: replay rejected: {what.message}"
  | .checksumMismatch context file expected actual =>
    s!"{context.label}: checksum mismatch for {file}: expected {expected}, got {actual}"
  | .invalidConfig fault => s!"invalid partition config: {fault.message}"
  | .source fault => s!"snapshot source error: {fault.message}"
  | .encoding text => s!"serialization error: {text}"
  | .decoding fault => s!"deserialization error: {fault.message}"
  | .within context error => s!"{context.label}: {error.message}"

/-- The messages of the causes behind an error, nearest first. -/
def causes : Error → List String
  | .storage _ _ failure => [failure.message]
  | .within _ error => error.message :: error.causes
  | _ => []

/-- Coarse classes of errors. -/
inductive Class where
  | notFound
  | corrupt
  | storage
  | rejected
  | other
  deriving DecidableEq, Repr

/-- The class of an error. -/
def classify : Error → Class
  | .notFound _ _ => .notFound
  | .corrupt _ _ => .corrupt
  | .checksumMismatch _ _ _ _ => .corrupt
  | .invalidConfig _ => .corrupt
  | .decoding _ => .corrupt
  | .storage _ _ _ => .storage
  | .rejected _ _ => .rejected
  | .source _ => .other
  | .encoding _ => .other
  | .within _ error => error.classify

/-- Whether an error says that something is absent. -/
def isNotFound (error : Error) : Bool := error.classify == .notFound

/-- Whether the state on disk cannot be trusted. A refused replay counts: the state machine and
the snapshot disagree. -/
def isCorruption (error : Error) : Bool :=
  error.classify == .corrupt || error.classify == .rejected

/-- Whether an error names the operation in which it arose. -/
def hasContext : Error → Bool
  | .invalidConfig _ => false
  | .source _ => false
  | .encoding _ => false
  | .decoding _ => false
  | _ => true

end Error

/-! ## Errors of an operation -/

namespace Context

/-- Names the operation in an error that names none; leaves any other error as it is. -/
def wrap (context : Context) (error : Error) : Error :=
  if error.hasContext then error else .within context error

/-- The error for a failure while reading. Data that end too early, or are not what they have to
be, are corrupt. -/
def reading (context : Context) (activity : Activity) (failure : Failure) : Error :=
  match failure.classify with
  | .endOfData => .corrupt context (.truncated activity)
  | .invalidData => .corrupt context (.malformed activity failure)
  | _ => .storage context activity failure

/-- The error for a failure while writing. What cannot be expressed is corrupt. -/
def writing (context : Context) (activity : Activity) (failure : Failure) : Error :=
  match failure.classify with
  | .invalidInput => .corrupt context (.malformed activity failure)
  | _ => .storage context activity failure

end Context

end PartitionSnapshot
