import PartitionSnapshot.Error
import PartitionSnapshot.Stream.Frame

/-!
# Contents of entity files

What reading an entity file from its start to its end finds: the complete records in order, and
either the checksum of the whole file or the step that failed. Files of inodes and dentries hold
records up to their end; files of extends and multiparts hold as many as the count at their head
says.
-/

namespace PartitionSnapshot

/-- What reading an entity file finds. -/
structure Contents where
  /-- The complete records, in order. -/
  records : List Bytes
  /-- The checksum of the file, or the step at which reading stopped. -/
  ending : Except (Activity × Failure) UInt32

namespace Contents

/-- Contents without records. -/
def none (ending : Except (Activity × Failure) UInt32) : Contents := ⟨[], ending⟩

/-- The contents behind one more record. -/
def cons (record : Bytes) (rest : Contents) : Contents := ⟨record :: rest.records, rest.ending⟩

/-- The records from here to the end of the file. -/
def untilEnd (reader : FrameReader) : Contents :=
  match _h : reader.next with
  | (.error failure, _) => none (.error (.readingRecordAt reader.position, failure))
  | (.ok .none, after) => none (.ok after.checksum.value)
  | (.ok (some record), after) => cons record (untilEnd after)
termination_by reader.source.rest.length
decreasing_by exact FrameReader.length_rest_next ‹_›

/-- The records from number `index` of `total` on, when `left` of them are to come. -/
def counted (reader : FrameReader) (total index : Nat) : (left : Nat) → Contents
  | 0 => none (.ok reader.checksum.value)
  | left + 1 =>
    match reader.readRecord with
    | (.error failure, _) => none (.error (.readingRecord index total, failure))
    | (.ok record, after) => cons record (counted after total (index + 1) left)

/-- The records of a file that holds them up to its end. -/
def ofStream (source : ByteSource) : Contents :=
  untilEnd (.create .fixed source)

/-- The records of a file that begins with their count. -/
def ofCounted (source : ByteSource) : Contents :=
  match (FrameReader.create .varint source).readCount with
  | (.error failure, _) => none (.error (.readingCount, failure))
  | (.ok count, after) => counted after count 0 count

/-- The contents of the file of a kind. -/
def ofKind : Kind → ByteSource → Contents
  | .inode | .dentry => ofStream
  | .extend | .multipart => ofCounted

end Contents

end PartitionSnapshot
