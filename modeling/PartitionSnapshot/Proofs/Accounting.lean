import Mathlib.Data.List.DropRight
import PartitionSnapshot.Proofs.Draining
import PartitionSnapshot.Proofs.Simulation

/-!
# Checksums of what was consumed

A reader feeds its checksum the headers as it finds them, in whichever form they are written, and
the records behind them. So after every call that goes through, whatever the bytes are and wherever
they come from, its checksum is the CRC-32 of just the bytes that were consumed, and it has counted
the records that it returned. Looking for the end consumes nothing.

A running checksum for its part does not tell how its data were cut into chunks, and after a reset
it does not tell what was fed before.

## Main statements

* `Checksum.foldl_perform`: a running checksum after any calls.
* `FrameReader.Signed.collect`: what no call to a reader breaks.
* `FrameReader.checksum_of_consumed`: a reader over any bytes.
-/

namespace PartitionSnapshot

/-! ## Running checksums -/

namespace Checksum

/-- A call that feeds a running checksum or starts it anew. -/
inductive Call where
  | update (chunk : Bytes)
  | write (chunk : Bytes)
  | reset
  deriving DecidableEq, Repr

/-- The data that come with a call. -/
def Call.data : Call → Bytes
  | .update chunk | .write chunk => chunk
  | .reset => []

/-- The running checksum after a call. -/
def perform (sum : Checksum) : Call → Checksum
  | .update chunk => sum.update chunk
  | .write chunk => (sum.write chunk).2
  | .reset => sum.reset

/-- The data of the calls since the last reset. -/
def fed (calls : List Call) : Bytes := (calls.rtakeWhile (· ≠ .reset)).flatMap Call.data

theorem fed_concat_reset (calls : List Call) : fed (calls ++ [.reset]) = [] := by
  rw [fed, List.rtakeWhile_concat, if_neg (by decide), List.flatMap_nil]

theorem fed_concat {call : Call} (h : call ≠ .reset) (calls : List Call) :
    fed (calls ++ [call]) = fed calls ++ call.data := by
  rw [fed, List.rtakeWhile_concat, if_pos (decide_eq_true h), List.flatMap_append,
    List.flatMap_singleton, fed]

/-- However the data were cut, the checksum is that of all data since the last reset. -/
theorem foldl_perform (calls : List Call) : calls.foldl perform empty = ofBytes (fed calls) := by
  -- the last call decides whether what was fed before still counts
  induction calls using List.reverseRecOn with
  | nil => rfl
  | append_singleton calls call ih =>
    rw [List.foldl_concat, ih]
    cases call with
    | update chunk => rw [fed_concat (by nofun), ofBytes_append]; rfl
    | write chunk => rw [fed_concat (by nofun), ofBytes_append]; rfl
    | reset => rw [fed_concat_reset]; rfl

end Checksum

/-! ## Readers -/

namespace FrameReader

variable {bytes : Bytes} {reader after : FrameReader}

/-- The reader stands in the bytes, and its checksum is that of those it has consumed. -/
structure Signed (bytes : Bytes) (reader : FrameReader) : Prop where
  stands : ByteSource.At bytes reader.source
  checksum : reader.checksum = .ofBytes (bytes.take reader.position)

theorem signed_create (framing : Framing) {source : ByteSource}
    (h : ByteSource.At bytes source) (hstart : source.position = 0) :
    Signed bytes (create framing source) := by
  refine ⟨h, ?_⟩
  have hnone : bytes.take (create framing source).position = [] := by
    rw [position, create, hstart, List.take_zero]
  rw [hnone]
  rfl

namespace Signed

/-- Bytes that are consumed and fed in one go. -/
theorem taken (h : Signed bytes reader) {front : Bytes} {source : ByteSource}
    (hrest : reader.source.rest = front ++ source.rest)
    (hposition : source.position = reader.source.position + front.length) :
    Signed bytes { reader with source, checksum := reader.checksum.update front } := by
  refine ⟨h.stands.moved hrest hposition, ?_⟩
  calc reader.checksum.update front
      = (Checksum.ofBytes (bytes.take reader.position)).update front := by rw [h.checksum]
    _ = .ofBytes (bytes.take reader.position ++ front) := (Checksum.ofBytes_append _ _).symm
    _ = .ofBytes (bytes.take source.position) := by
      rw [hposition, h.stands.take_moved hrest, position]

theorem readHeader (h : Signed bytes reader) {n : Nat}
    (hread : reader.readHeader = (.ok n, after)) : Signed bytes after := by
  simp only [FrameReader.readHeader] at hread
  split at hread
  · next hraw =>
    cases hread
    exact h.taken (Framing.rest_readHeader hraw).2 (Framing.position_readHeader hraw)
  · cases hread

theorem readRecord (h : Signed bytes reader) {record : Bytes}
    (hread : reader.readRecord = (.ok record, after)) : Signed bytes after := by
  simp only [FrameReader.readRecord] at hread
  split at hread
  · cases hread
  · next hheader =>
    split at hread
    · cases hread
    · next hrecord =>
      cases hread
      obtain ⟨hlength, hrest⟩ := ByteSource.rest_read hrecord
      have hposition := ByteSource.position_read hrecord
      have htaken := (h.readHeader hheader).taken hrest (by rw [hposition, hlength])
      exact ⟨htaken.stands, htaken.checksum⟩

/-- Looking for the end feeds nothing, and nothing is consumed. -/
theorem isExhausted (h : Signed bytes reader) :
    Signed bytes { reader with source := reader.source.isExhausted.2 } := by
  have hchecksum : reader.checksum.update [] = reader.checksum := Checksum.update_nil _
  have hrest := ByteSource.rest_isExhausted reader.source
  have hposition := ByteSource.position_isExhausted reader.source
  exact hchecksum ▸ h.taken hrest.symm hposition

theorem next (h : Signed bytes reader) {record : Option Bytes}
    (hread : reader.next = (.ok record, after)) : Signed bytes after := by
  have hexhausted := h.isExhausted
  simp only [FrameReader.next] at hread
  split at hread
  · cases hread
  · next hend =>
    cases hread
    rwa [hend] at hexhausted
  · next hmore =>
    rw [hmore] at hexhausted
    split at hread
    · cases hread
    · next hrecord =>
      cases hread
      exact hexhausted.readRecord hrecord

end Signed

/-! ## Calls one after the other -/

/-- A call to a reader. -/
inductive Call where
  | readCount
  | next
  | readRecord
  deriving DecidableEq, Repr

/-- How a call ends, with the record that it returns, if it returns one, and the reader then. -/
def perform (reader : FrameReader) : Call → Except Failure (Option Bytes) × FrameReader
  | .readCount => (reader.readCount.1.map fun _ => none, reader.readCount.2)
  | .next => reader.next
  | .readRecord => (reader.readRecord.1.map some, reader.readRecord.2)

/-- The records that calls return, one after the other and up to the first one that fails, and the
reader behind the last one that goes through. -/
def collect (reader : FrameReader) : List Call → List Bytes × FrameReader
  | [] => ([], reader)
  | call :: calls =>
    match reader.perform call with
    | (.ok record, after) => (record.toList ++ (after.collect calls).1, (after.collect calls).2)
    | (.error _, _) => ([], reader)

/-- A call goes through with what is made of its result only if it goes through. -/
theorem exists_of_map {α β : Type} {f : α → β} {call : Except Failure α × FrameReader} {b : β}
    (h : (call.1.map f, call.2) = (.ok b, after)) : ∃ a, call = (.ok a, after) ∧ f a = b := by
  rcases call with ⟨failure | a, mid⟩
  · cases h
  · cases h
    exact ⟨a, rfl, rfl⟩

theorem Signed.perform (h : Signed bytes reader) {call : Call} {record : Option Bytes}
    (hcall : reader.perform call = (.ok record, after)) :
    Signed bytes after ∧ after.records = reader.records + record.toList.length := by
  cases call with
  | readCount =>
    obtain ⟨n, hread, rfl⟩ := exists_of_map hcall
    exact ⟨h.readHeader hread, records_readHeader hread⟩
  | next => exact ⟨h.next hcall, records_next hcall⟩
  | readRecord =>
    obtain ⟨record, hread, rfl⟩ := exists_of_map hcall
    exact ⟨h.readRecord hread, records_readRecord hread⟩

theorem Signed.collect (h : Signed bytes reader) (calls : List Call) :
    Signed bytes (reader.collect calls).2 ∧
      (reader.collect calls).2.records = reader.records + (reader.collect calls).1.length := by
  induction calls generalizing reader with
  | nil => exact ⟨h, rfl⟩
  | cons call calls ih =>
    rw [FrameReader.collect]
    split
    · next record after hcall =>
      obtain ⟨hafter, hrecords⟩ := h.perform hcall
      obtain ⟨hlast, hothers⟩ := ih hafter
      exact ⟨hlast, by rw [hothers, hrecords, List.length_append, Nat.add_assoc]⟩
    · exact ⟨h, rfl⟩

/-- **A reader signs just what it has consumed.** Over any bytes, in memory or behind a buffer of
any size, told any length or none: as long as its calls go through, the checksum is that of the
bytes in front of its position, and it has counted the records that it returned. A running checksum
is that of the data since the last reset, and its size is theirs. -/
theorem checksum_of_consumed (framing : Framing) (bytes : Bytes) (capacity : Nat)
    (declared : Option Nat) (calls : List Call) (feeds : List Checksum.Call) :
    (∀ source ∈ [ByteSource.ofBytes bytes, ByteSource.ofBuffered capacity declared bytes],
      ∃ records after, (create framing source).collect calls = (records, after) ∧
        after.position ≤ bytes.length ∧ after.source.rest = bytes.drop after.position ∧
        after.checksum.value = crc32 (bytes.take after.position) ∧
        after.records = records.length) ∧
    (feeds.foldl Checksum.perform .empty).value = crc32 (Checksum.fed feeds) ∧
    (feeds.foldl Checksum.perform .empty).size = (Checksum.fed feeds).length := by
  refine ⟨fun source hsource => ?_, ?_, ?_⟩
  · have hsigned : Signed bytes (create framing source) := by
      rw [List.mem_cons, List.mem_singleton] at hsource
      rcases hsource with rfl | rfl
      · exact signed_create framing (ByteSource.at_ofBytes bytes) rfl
      · exact signed_create framing (ByteSource.at_ofBuffered capacity declared bytes) rfl
    obtain ⟨hafter, hrecords⟩ := hsigned.collect calls
    refine ⟨_, _, rfl, hafter.stands.within, hafter.stands.rest, ?_, ?_⟩
    · rw [hafter.checksum, Checksum.value_ofBytes]
    · rw [hrecords, create, Nat.zero_add]
  · rw [Checksum.foldl_perform, Checksum.value_ofBytes]
  · rw [Checksum.foldl_perform, Checksum.size_ofBytes]

/-- A count and a length with more groups than they need, and behind the two records something that
is no header: the checksum is that of the eight bytes in front of it, as they stand. -/
theorem checksum_of_consumed_overlong :
    let bytes : Bytes := [0x82, 0x00, 0x01, 0x61, 0x81, 0x80, 0x00, 0x62, 0xFF]
    let source := ByteSource.ofBuffered 2 none bytes
    let calls : List Call := [.readCount, .readRecord, .next, .readRecord]
    source ∈ [ByteSource.ofBytes bytes, source] ∧
    ∃ after, (create .varint source).collect calls = ([[0x61], [0x62]], after) ∧
      after.position = 8 ∧ after.checksum.value = crc32 (bytes.take 8) ∧ after.records = 2 := by
  intro bytes source calls
  have hsource : source ∈ [ByteSource.ofBytes bytes, source] := .tail _ (.head _)
  obtain ⟨records, after, hcollect, -, -, hchecksum, hrecords⟩ :=
    (checksum_of_consumed .varint bytes 2 none calls []).1 source hsource
  have hfirst : ((create .varint source).collect calls).1 = [[0x61], [0x62]] := by decide +kernel
  have hposition : ((create .varint source).collect calls).2.position = 8 := by decide +kernel
  rw [hcollect] at hfirst hposition
  subst hfirst
  exact ⟨hsource, after, hcollect, hposition, hposition ▸ hchecksum, hrecords⟩

end FrameReader

end PartitionSnapshot
