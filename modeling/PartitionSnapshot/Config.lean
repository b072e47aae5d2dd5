import PartitionSnapshot.FileTree.Path
import PartitionSnapshot.Json.Reader
import PartitionSnapshot.Json.Writer

/-!
# Partition configurations

The identity of a metadata partition: its number, its volume, the range of inode numbers it owns
and its replicas. These are persisted as JSON; the root directory belongs to the process that opens
the partition and is not.
-/

namespace PartitionSnapshot

/-- A replica of a partition. -/
structure Peer where
  /-- The number of the node that holds the replica. -/
  id : UInt64
  /-- The address on which the replica listens. -/
  addr : String
  deriving DecidableEq, Repr, Inhabited

/-- The identity and topology of a partition. -/
structure Config where
  partition : UInt64
  volume : String
  /-- The least inode number that the partition owns. -/
  first : UInt64
  /-- The greatest inode number that the partition owns. -/
  last : UInt64
  peers : List Peer
  /-- The directory that holds the files of the partition. -/
  root : Path
  deriving DecidableEq, Repr, Inhabited

/-- What makes a configuration invalid. -/
inductive ConfigFault where
  | zeroPartition
  | emptyVolume (partition : UInt64)
  | emptyRange (partition first last : UInt64)
  | emptyRoot (partition : UInt64)
  | described (text : String)
  deriving DecidableEq, Repr

/-- The fault in words. -/
def ConfigFault.message : ConfigFault → String
  | .zeroPartition => "partition id must be at least 1"
  | .emptyVolume partition => s!"partition {partition}: empty volume name"
  | .emptyRange partition first last => s!"partition {partition}: start {first} > end {last}"
  | .emptyRoot partition => s!"partition {partition}: empty root dir"
  | .described text => text

namespace Config

/-- Whether an inode number lies in the range of the partition. -/
def owns (config : Config) (inode : UInt64) : Bool :=
  config.first ≤ inode && inode ≤ config.last

/-- The first thing that makes a configuration invalid, if any. -/
def check (config : Config) : Except ConfigFault Unit :=
  if config.partition = 0 then .error .zeroPartition
  else if config.volume.isEmpty then .error (.emptyVolume config.partition)
  else if config.last < config.first then
    .error (.emptyRange config.partition config.first config.last)
  else if config.root.text.isEmpty then .error (.emptyRoot config.partition)
  else .ok ()

/-! ## JSON -/

/-- A natural number of 64 bits in JSON. -/
def natural (n : UInt64) : Json := .natural n.toNat

/-- A replica as JSON. -/
def peerToJson (peer : Peer) : Json :=
  .object [("id", natural peer.id), ("addr", .string peer.addr)]

/-- The identity of a partition, without its root directory. -/
def toJson (config : Config) : Json :=
  .object [
    ("partition_id", natural config.partition),
    ("vol_name", .string config.volume),
    ("start", natural config.first),
    ("end", natural config.last),
    ("peers", .array (config.peers.map peerToJson))]

/-- The persisted form of a configuration. -/
def encode (config : Config) : Bytes :=
  config.toJson.compact

/-- The fields of a replica. -/
def peerFields : List (Json.Field Peer) := [
  .required "id" (Json.Scanner.natural "u64") fun peer id => { peer with id },
  .required "addr" Json.Scanner.text fun peer addr => { peer with addr }]

/-- Reads a replica. -/
def peer : Json.Scanner Peer :=
  Json.Scanner.record "Peer" peerFields ⟨0, ""⟩

/-- The fields of a configuration. -/
def fields : List (Json.Field Config) := [
  .required "partition_id" (Json.Scanner.natural "u64")
    fun config partition => { config with partition },
  .required "vol_name" Json.Scanner.text fun config volume => { config with volume },
  .required "start" (Json.Scanner.natural "u64") fun config first => { config with first },
  .required "end" (Json.Scanner.natural "u64") fun config last => { config with last },
  .optional "peers" (Json.Scanner.list peer) fun config peers => { config with peers }]

/-- Reads a persisted form, and places the partition under a root directory. -/
def decode (root : Path) (bytes : Bytes) : Except Json.Fault Config :=
  Json.decode (Json.Scanner.record "MetaPartitionConfig" fields ⟨0, "", 0, 0, [], root⟩) bytes

end Config

end PartitionSnapshot
