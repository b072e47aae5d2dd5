import PartitionSnapshot.Options
import PartitionSnapshot.Signs
import PartitionSnapshot.Stream.Contents
import PartitionSnapshot.Task

/-!
# Partition stores

A store persists one partition under its root directory:

* `meta` holds the identity of the partition, and `.meta` its replacement while that is written;
* `snapshot` holds the current generation: a file for each kind of entity, the apply position in
  `apply` and the checksums in `.sign`;
* `.snapshot` holds a generation while it is written, and `.snapshot_backup` the previous one while
  it is replaced.
-/

namespace PartitionSnapshot

/-! ## Names -/

namespace Layout

/-- The directory of the current generation. -/
def current : String := "snapshot"
/-- The directory of a generation while it is written. -/
def staging : String := ".snapshot"
/-- The directory of the previous generation while it is replaced. -/
def backup : String := ".snapshot_backup"
/-- The file of the checksums of a generation. -/
def signs : String := ".sign"
/-- The file of the identity of the partition. -/
def metadata : String := "meta"
/-- The file of a new identity while it is written. -/
def metadataStaging : String := ".meta"
/-- The file of the apply position of a generation. -/
def apply : String := "apply"

/-- All names, in the order of their introduction. -/
def names : List String := [current, staging, backup, signs, metadata, metadataStaging, apply]

/-- The file of a kind inside a snapshot directory. -/
def entityFile (directory : Path) (kind : Kind) : Path := directory.join kind.name

end Layout

/-! ## Stores -/

/-- The store of a partition: its identity, and how its files are read and written. -/
structure Store where
  config : Config
  options : Options
  deriving DecidableEq, Repr, Inhabited

namespace Store

/-- A store for a valid configuration. -/
def new (config : Config) (options : Options) : Except Error Store :=
  match config.check with
  | .ok () => .ok ⟨config, options⟩
  | .error fault =>
    .error (Context.wrap ⟨"openPartition", config.partition⟩ (.invalidConfig fault))

/-- The store with another configuration, which has to be valid. -/
def replaceConfig (store : Store) (config : Config) : Except Error Store :=
  match config.check with
  | .ok () => .ok { store with config }
  | .error fault =>
    .error (Context.wrap ⟨"replaceConfig", config.partition⟩ (.invalidConfig fault))

/-- The context of an operation of the store. -/
def context (store : Store) (operation : String) : Context := ⟨operation, store.config.partition⟩

/-- The directory that holds the files of the partition. -/
def root (store : Store) : Path := store.config.root

/-- The directory of the current generation. -/
def current (store : Store) : Path := store.root.join Layout.current

/-- The directory of a generation while it is written. -/
def staging (store : Store) : Path := store.root.join Layout.staging

/-- The directory of the previous generation while it is replaced. -/
def backup (store : Store) : Path := store.root.join Layout.backup

/-- The front of most notes: which partition, and of which volume. -/
def label (store : Store) : String :=
  s!"partitionID({store.config.partition}) volume({store.config.volume})"

/-! ## Files -/

/-- The source over the content of the file of a kind, as the options have it read. -/
def source (store : Store) (kind : Kind) (content : Bytes) : ByteSource :=
  match store.options.readStrategy kind with
  | .mapped => .ofBytes content
  | .buffered => .ofBuffered store.options.readBuffer.toNat (some content.length) content

/-- The contents that reading the file of a kind comes to, unless there is no such file. A directory
in its place can be opened for buffered reading and fails at the first byte, and cannot be
mapped. -/
def contentsOf (store : Store) (context : Context) (path : Path) (kind : Kind) :
    Except Failure Bytes → Except Error (Option Contents)
  | .ok content => .ok (some (.ofKind kind (store.source kind content)))
  | .error failure =>
    if failure.classify = .notFound then .ok none
    else if failure = .system .isDirectory then
      match store.options.readStrategy kind with
      | .mapped => .error (.storage context (.opening path) (.system .noDevice))
      | .buffered => .ok (some (.ofKind kind (.unreadable failure)))
    else .error (.storage context (.opening path) failure)

/-- The contents of the file of a kind, unless there is no such file. -/
def contents? (store : Store) (context : Context) (directory : Path) (kind : Kind) :
    Task (Option Contents) := do
  let path := Layout.entityFile directory kind
  let answer ← (Procedure.read path : Procedure _)
  Task.ofExcept (store.contentsOf context path kind answer) id

/-- Writes a small file as a whole: makes or empties it, writes the data, and syncs it. -/
def writeSmallFile (context : Context) (path : Path) (data : Bytes) : Task Unit := do
  Task.ofProcedure (.create path) (.storage context (.creating path))
  Task.ofProcedure (.append path data) (.storage context (.writing path))
  Task.ofProcedure (.sync path) (.storage context (.syncing path))

end Store

end PartitionSnapshot
