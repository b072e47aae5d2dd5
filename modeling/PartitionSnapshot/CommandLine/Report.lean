import PartitionSnapshot.Json.Writer
import PartitionSnapshot.Signs
import PartitionSnapshot.Store.Generation
import PartitionSnapshot.Text.Quoted
import PartitionSnapshot.Toml.Basic

/-!
# Reports

What the commands print: the summary of a partition, the checksums of a snapshot and its apply
position, each as lines of text or as indented JSON. What goes wrong is reported as one line with
the causes behind it.
-/

namespace PartitionSnapshot.CommandLine

/-- The indented JSON of a value, as a line of text. -/
def jsonText (value : Json) : String :=
  (Bytes.toString? value.indented).getD "" ++ "\n"

/-- Checksums by the names of the kinds. -/
def signsJson (signs : Signs) : Json :=
  .object (Kind.all.map fun kind => (kind.name, .natural (signs.get kind).toNat))

/-! ## Summaries -/

/-- The summary of a partition. -/
structure Summary where
  config : Config
  position : ApplyPosition
  stats : LoadStats
  /-- How many inodes are to be freed. -/
  freeInodes : Nat
  deriving DecidableEq, Repr

namespace Summary

/-- The number of entities of a kind. -/
def records (summary : Summary) : Kind → Nat
  | .inode => summary.stats.inodes
  | .dentry => summary.stats.dentries
  | .extend => summary.stats.extendCount
  | .multipart => summary.stats.multiparts

/-- The width of a column of numbers. -/
def columnWidth : Nat := 12

/-- A row of the table of files; the two columns after the first are aligned to the right. -/
def row (file records checksum : String) : String :=
  let column (cell : String) : String := String.ofList (cell.toList.leftpad columnWidth ' ')
  s!"{file} {column records} {column checksum}\n"

/-- The summary as text. -/
def text (summary : Summary) : String :=
  let config := summary.config
  let rows := Kind.all.map fun kind =>
    row kind.name (toString (summary.records kind)) (toString (summary.stats.signs.get kind))
  let checked := if summary.stats.verified then "verified" else "not checked"
  s!"Partition {config.partition}\n=============\n" ++
    s!"Volume:      {config.volume}\n" ++
    s!"Range:       [{config.first}, {config.last}]\n" ++
    s!"Peers:       {config.peers.length}\n" ++
    s!"Apply ID:    {summary.position.index}\n" ++
    s!"Cursor:      {summary.position.cursor}\n\n" ++
    row "FILE        " "RECORDS" "CRC32" ++ String.join rows ++
    s!"\nFree inodes: {summary.freeInodes}\nSign:        {checked}\n"

/-- The summary as JSON. -/
def json (summary : Summary) : Json :=
  let config := summary.config
  let stats := summary.stats
  .object [
    ("partition_id", .natural config.partition.toNat),
    ("volume", .string config.volume),
    ("start", .natural config.first.toNat),
    ("end", .natural config.last.toNat),
    ("peers", .natural config.peers.length),
    ("apply_id", .natural summary.position.index.toNat),
    ("cursor", .natural summary.position.cursor.toNat),
    ("inodes", .natural stats.inodes),
    ("dentries", .natural stats.dentries),
    ("extends", .natural stats.extendCount),
    ("multiparts", .natural stats.multiparts),
    ("free_inodes", .natural summary.freeInodes),
    ("signs", signsJson stats.signs),
    ("verified", .bool stats.verified)]

end Summary

/-! ## Apply positions -/

/-- What an apply file holds: the index, and the cursor if there is one. -/
structure StoredPosition where
  index : UInt64
  cursor : Option UInt64
  deriving DecidableEq, Repr

namespace StoredPosition

/-- The position as a line of text. -/
def text (position : StoredPosition) : String :=
  match position.cursor with
  | some cursor => s!"applyID={position.index} cursor={cursor}\n"
  | none => s!"applyID={position.index} (no cursor)\n"

/-- The position as JSON. -/
def json (position : StoredPosition) : Json :=
  .object [
    ("apply_id", .natural position.index.toNat),
    ("cursor", match position.cursor with
      | some cursor => .natural cursor.toNat
      | none => .null)]

end StoredPosition

/-! ## Troubles -/

/-- Why a command cannot be carried out. -/
inductive Trouble where
  | readSettings (path : Path) (failure : Failure)
  | parseSettings (path : Path) (fault : Toml.Fault)
  | openPartition (root : Path) (error : Error)
  | readApply (path : Path) (failure : Failure)
  | parseApply (path : Path) (text : String)
  /-- An error of the store, with nothing to add. -/
  | store (error : Error)

namespace Trouble

/-- The trouble in words. -/
def message : Trouble → String
  | .readSettings path _ => s!"read config {path}"
  | .parseSettings path _ => s!"parse config {path}"
  | .openPartition root _ => s!"open partition at {root}"
  | .readApply path _ => s!"read {path}"
  | .parseApply path text => s!"cannot parse {path}: {Text.quoted text}"
  | .store error => error.message

/-- The messages of the causes behind a trouble, nearest first. -/
def causes : Trouble → List String
  | .readSettings _ failure => [failure.message]
  | .parseSettings _ fault => [fault.message]
  | .openPartition _ error => error.message :: error.causes
  | .readApply _ failure => [failure.message]
  | .parseApply _ _ => []
  | .store error => error.causes

/-- The lines of a text. -/
def lines (text : String) : List String := text.splitOn "\n"

/-- The lines of a text, with `first` in front of the first and `further` in front of the others. -/
def indentLines (first further text : String) : List String :=
  match lines text with
  | [] => []
  | line :: rest => (first ++ line) :: rest.map (further ++ ·)

/-- The lines of numbered causes; the numbers are aligned to the right. -/
def numberedLines (number : Nat) : List String → List String
  | [] => []
  | cause :: rest =>
    let label := String.ofList ((toString number).toList.leftpad 5 ' ')
    indentLines s!"{label}: " "       " cause ++ numberedLines (number + 1) rest

/-- The lines of causes. They are numbered when there are several. -/
def causeLines : List String → List String
  | [] => []
  | [cause] => "" :: "Caused by:" :: indentLines "    " "    " cause
  | causes => "" :: "Caused by:" :: numberedLines 0 causes

/-- The lines that report a trouble. -/
def reportLines (trouble : Trouble) : List String :=
  lines s!"Error: {trouble.message}" ++ causeLines trouble.causes

end Trouble

end PartitionSnapshot.CommandLine
