import PartitionSnapshot.Entity.Basic
import PartitionSnapshot.Entity.Decoder

/-!
# Record forms of entities

An entity is written as its fields in order of declaration: numbers with their least significant
byte first, texts and sequences after their 64-bit length, attributes by ascending key. A record
form is read back by the decoder with the same fields; attributes may come in any order and with
repeated keys, of which the last counts.
-/

namespace PartitionSnapshot

/-! ## Encoding of fields -/

namespace Record

/-- A number of 16 bits. -/
def uint16 (n : UInt16) : Bytes := Bytes.ofNatLE 2 n.toNat

/-- A number of 32 bits. -/
def uint32 (n : UInt32) : Bytes := Bytes.ofNatLE 4 n.toNat

/-- A number of 64 bits. -/
def uint64 (n : UInt64) : Bytes := Bytes.ofNatLE 8 n.toNat

/-- A signed number in two's complement. -/
def int64 (n : Int64) : Bytes := uint64 n.toUInt64

/-- The length of what follows. -/
def length (n : Nat) : Bytes := Bytes.ofNatLE 8 n

/-- A sequence of bytes after its length. -/
def bytes (bytes : Bytes) : Bytes := length bytes.length ++ bytes

/-- A text after its length in bytes. -/
def text (text : String) : Bytes := bytes (Bytes.ofString text)

/-- A sequence of elements after their number. -/
def list (element : α → Bytes) (elements : List α) : Bytes :=
  length elements.length ++ elements.flatMap element

end Record

/-- A type of entities with a record form. -/
class Entity (ε : Type) where
  /-- The kind of these entities. -/
  kind : Kind
  /-- The record form of an entity. -/
  toRecord : ε → Bytes
  /-- Reads a record form from the front of some bytes. -/
  decoder : Decoder ε

/-- The entity whose record form is given, or why it has none. -/
def Entity.ofRecord (ε : Type) [Entity ε] (record : Bytes) : Except DecodeFault ε :=
  (decoder : Decoder ε).run record

/-! ## The four kinds -/

namespace Inode

/-- The record form of an inode. -/
def toRecord (inode : Inode) : Bytes :=
  Record.uint64 inode.id ++ Record.uint32 inode.mode ++ Record.uint32 inode.uid ++
  Record.uint32 inode.gid ++ Record.uint64 inode.size ++ Record.uint64 inode.generation ++
  Record.int64 inode.createTime ++ Record.int64 inode.accessTime ++
  Record.int64 inode.modifyTime ++ Record.bytes inode.linkTarget ++ Record.uint32 inode.nlink ++
  Record.uint32 inode.flag

/-- Reads an inode. -/
def decoder : Decoder Inode := do
  let id ← Decoder.uint64
  let mode ← Decoder.uint32
  let uid ← Decoder.uint32
  let gid ← Decoder.uint32
  let size ← Decoder.uint64
  let generation ← Decoder.uint64
  let createTime ← Decoder.int64
  let accessTime ← Decoder.int64
  let modifyTime ← Decoder.int64
  let linkTarget ← Decoder.bytes
  let nlink ← Decoder.uint32
  let flag ← Decoder.uint32
  return { id, mode, uid, gid, size, generation, createTime, accessTime, modifyTime, linkTarget,
           nlink, flag }

instance : Entity Inode := ⟨.inode, toRecord, decoder⟩

end Inode

namespace Dentry

/-- The record form of a directory entry. -/
def toRecord (dentry : Dentry) : Bytes :=
  Record.uint64 dentry.parent ++ Record.text dentry.name ++ Record.uint64 dentry.inode ++
  Record.uint32 dentry.fileType

/-- Reads a directory entry. -/
def decoder : Decoder Dentry := do
  let parent ← Decoder.uint64
  let name ← Decoder.text
  let inode ← Decoder.uint64
  let fileType ← Decoder.uint32
  return { parent, name, inode, fileType }

instance : Entity Dentry := ⟨.dentry, toRecord, decoder⟩

end Dentry

namespace Extend

/-- An attribute: its key, then its value. -/
def attributeToRecord (entry : Bytes × Bytes) : Bytes :=
  Record.bytes entry.1 ++ Record.bytes entry.2

/-- Reads an attribute. -/
def attributeDecoder : Decoder (Bytes × Bytes) := do
  let key ← Decoder.bytes
  let value ← Decoder.bytes
  return (key, value)

/-- The record form of the extended attributes of an inode. -/
def toRecord (extend : Extend) : Bytes :=
  Record.uint64 extend.inode ++ Record.list attributeToRecord extend.attributes.toList

/-- Reads the extended attributes of an inode. -/
def decoder : Decoder Extend := do
  let inode ← Decoder.uint64
  let attributes ← Decoder.list attributeDecoder
  return { inode, attributes := .ofList attributes }

instance : Entity Extend := ⟨.extend, toRecord, decoder⟩

end Extend

namespace Part

/-- The record form of an uploaded part. -/
def toRecord (part : Part) : Bytes :=
  Record.uint16 part.id ++ Record.int64 part.uploadTime ++ Record.text part.md5 ++
  Record.uint64 part.size ++ Record.uint64 part.inode

/-- Reads an uploaded part. -/
def decoder : Decoder Part := do
  let id ← Decoder.uint16
  let uploadTime ← Decoder.int64
  let md5 ← Decoder.text
  let size ← Decoder.uint64
  let inode ← Decoder.uint64
  return { id, uploadTime, md5, size, inode }

end Part

namespace Multipart

/-- The record form of a multipart session. -/
def toRecord (multipart : Multipart) : Bytes :=
  Record.text multipart.id ++ Record.text multipart.key ++ Record.int64 multipart.initTime ++
  Record.list Part.toRecord multipart.parts

/-- Reads a multipart session. -/
def decoder : Decoder Multipart := do
  let id ← Decoder.text
  let key ← Decoder.text
  let initTime ← Decoder.int64
  let parts ← Decoder.list Part.decoder
  return { id, key, initTime, parts }

instance : Entity Multipart := ⟨.multipart, toRecord, decoder⟩

end Multipart

/-- Whether a record is the record form of an entity of the given kind. -/
def Kind.check : Kind → Bytes → Except DecodeFault Unit
  | .inode, record => do let _ ← Entity.ofRecord Inode record
  | .dentry, record => do let _ ← Entity.ofRecord Dentry record
  | .extend, record => do let _ ← Entity.ofRecord Extend record
  | .multipart, record => do let _ ← Entity.ofRecord Multipart record

end PartitionSnapshot
