import PartitionSnapshot.Checksum
import PartitionSnapshot.Stream.Source

/-!
# Framed records

A record on disk stands behind a header with its length. Two header forms are in use: four bytes,
most significant first, in the files of inodes and dentries, whose records run to the end of the
file; and a variable-length number in the files of extends and multiparts, which begin with the
count of their records in the same form.

Every byte that a writer writes or a reader takes, headers included, feeds a running checksum in
file order.
-/

namespace PartitionSnapshot

/-- The form of the headers of a file. -/
inductive Framing where
  /-- Four bytes, most significant first. -/
  | fixed
  /-- A variable-length number. -/
  | varint
  deriving DecidableEq, Repr, Inhabited

namespace Framing

/-- The header for a count or a length. Four bytes cannot express every length. -/
def header (framing : Framing) (n : Nat) : Except Failure Bytes :=
  match framing with
  | .fixed => if n < UInt32.size then .ok (Bytes.ofNatBE 4 n) else .error (.oversized n)
  | .varint => .ok (Varint.encode n)

/-- Takes a header, and gives its bytes beside the number. -/
def readHeader (framing : Framing) (source : ByteSource) :
    Except Failure Nat × Bytes × ByteSource :=
  match framing with
  | .fixed =>
    match source.read 4 with
    | (.ok bytes, after) => (.ok (Bytes.toNatBE bytes), bytes, after)
    | (.error failure, after) => (.error failure, [], after)
  | .varint => source.readVarint

/-- A header that was read consumed at least one byte, and what is left follows it. -/
theorem rest_readHeader {framing : Framing} {source after : ByteSource} {n : Nat} {bytes : Bytes}
    (h : framing.readHeader source = (.ok n, bytes, after)) :
    0 < bytes.length ∧ source.rest = bytes ++ after.rest := by
  cases framing with
  | varint => exact ByteSource.rest_readVarint h
  | fixed =>
    simp only [readHeader] at h
    split at h
    · next hread =>
      cases h
      obtain ⟨hlen, hrest⟩ := ByteSource.rest_read hread
      exact ⟨by omega, hrest⟩
    · cases h

end Framing

/-! ## Writing -/

/-- Writes framed records and signs everything it writes. -/
structure FrameWriter where
  framing : Framing
  /-- What was written, in pieces, the last one first. -/
  chunks : List Bytes
  checksum : Checksum
  /-- The number of records written. -/
  records : Nat
  deriving DecidableEq, Repr

namespace FrameWriter

/-- A writer that has written nothing. -/
def create (framing : Framing) : FrameWriter := ⟨framing, [], .empty, 0⟩

/-- Everything written, in order. -/
def written (writer : FrameWriter) : Bytes := writer.chunks.reverse.flatten

/-- Writes a piece and signs it. -/
def put (writer : FrameWriter) (chunk : Bytes) : FrameWriter :=
  { writer with
    chunks := chunk :: writer.chunks
    checksum := writer.checksum.update chunk }

/-- Writes the count of the records that follow. -/
def writeCount (writer : FrameWriter) (count : Nat) : Except Failure FrameWriter := do
  return writer.put (← writer.framing.header count)

/-- Writes one record: its header, then its bytes. A record that has no header is not written. -/
def writeRecord (writer : FrameWriter) (record : Bytes) : Except Failure FrameWriter := do
  let header ← writer.framing.header record.length
  return { (writer.put header).put record with records := writer.records + 1 }

end FrameWriter

/-! ## Reading -/

/-- Reads framed records and signs everything it reads. -/
structure FrameReader where
  framing : Framing
  source : ByteSource
  checksum : Checksum
  /-- The number of records read. -/
  records : Nat
  deriving DecidableEq, Repr

namespace FrameReader

/-- A reader at the start of a source. -/
def create (framing : Framing) (source : ByteSource) : FrameReader := ⟨framing, source, .empty, 0⟩

/-- The number of bytes consumed. -/
def position (reader : FrameReader) : Nat := reader.source.position

/-- Reads a header and signs it. A header that is not complete is not signed. -/
def readHeader (reader : FrameReader) : Except Failure Nat × FrameReader :=
  match reader.framing.readHeader reader.source with
  | (.ok n, bytes, source) =>
    (.ok n, { reader with source, checksum := reader.checksum.update bytes })
  | (.error failure, _, source) => (.error failure, { reader with source })

/-- Reads the count of the records that follow. -/
def readCount (reader : FrameReader) : Except Failure Nat × FrameReader :=
  reader.readHeader

/-- Reads one record that has to be there. -/
def readRecord (reader : FrameReader) : Except Failure Bytes × FrameReader :=
  match reader.readHeader with
  | (.error failure, after) => (.error failure, after)
  | (.ok length, after) =>
    match after.source.read length with
    | (.error failure, source) => (.error failure, { after with source })
    | (.ok record, source) =>
      (.ok record, { after with
        source
        checksum := after.checksum.update record
        records := after.records + 1 })

/-- Reads the next record, or finds that there is none. -/
def next (reader : FrameReader) : Except Failure (Option Bytes) × FrameReader :=
  match reader.source.isExhausted with
  | (.error failure, source) => (.error failure, { reader with source })
  | (.ok true, source) => (.ok none, { reader with source })
  | (.ok false, source) =>
    match { reader with source }.readRecord with
    | (.error failure, after) => (.error failure, after)
    | (.ok record, after) => (.ok (some record), after)

/-! ## What a reading leaves -/

theorem length_rest_readRecord {reader after : FrameReader} {record : Bytes}
    (h : reader.readRecord = (.ok record, after)) :
    after.source.rest.length < reader.source.rest.length := by
  simp only [readRecord, readHeader] at h
  split at h
  · cases h
  · next hheader =>
    split at h
    · cases h
    · next hread =>
      cases h
      split at hheader
      · next hraw =>
        cases hheader
        obtain ⟨hpos, hrest⟩ := Framing.rest_readHeader hraw
        have hrest' := (ByteSource.rest_read hread).2
        simp only [hrest, hrest', List.length_append]
        omega
      · cases hheader

/-- Every record that is read brings the end nearer. -/
theorem length_rest_next {reader after : FrameReader} {record : Bytes}
    (h : reader.next = (.ok (some record), after)) :
    after.source.rest.length < reader.source.rest.length := by
  simp only [next] at h
  split at h
  · cases h
  · cases h
  · next source hexhausted =>
    split at h
    · cases h
    · next hrecord =>
      cases h
      have hlt := length_rest_readRecord hrecord
      have hrest := ByteSource.rest_isExhausted reader.source
      rw [hexhausted] at hrest
      simp only at hrest hlt
      rw [← hrest]
      exact hlt

end FrameReader

end PartitionSnapshot
