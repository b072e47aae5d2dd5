import PartitionSnapshot.Proofs.Frames
import PartitionSnapshot.Proofs.Sources

/-!
# What is read from entity files

A faithful source is read frame by frame, and whether there is a record is decided by the bytes that
are left.

## Main statements

* `FrameReader.readRecord_of_honest`, `FrameReader.readRecord_of_none`: one record, from any source
  that hands over its bytes.
* `FrameReader.Stands.readRecord_of_some`, `FrameReader.Stands.readRecord_of_none`: one record.
* `FrameReader.Stands.next_of_nil`, `FrameReader.Stands.next_of_some`,
  `FrameReader.Stands.next_of_none`: the next record, or the end.
* `Contents.untilEnd_of_record`, `Contents.untilEnd_of_end`, `Contents.untilEnd_of_error`: the file
  from one reading on.
-/

namespace PartitionSnapshot

/-! ## Frames in front of bytes -/

namespace Framing

/-- The header in front of some bytes: the number, the bytes of the header, and what follows. -/
def header? : Framing → Bytes → Option (Nat × Bytes × Bytes)
  | .fixed, bytes => (bytes.split? 4).map fun (front, rest) => (Bytes.toNatBE front, front, rest)
  | .varint, bytes => Varint.decode? bytes

/-- The frame in front of some bytes: the record, the bytes of the frame, and what follows. -/
def frame? (framing : Framing) (bytes : Bytes) : Option (Bytes × Bytes × Bytes) := do
  let (n, header, rest) ← framing.header? bytes
  let (record, rest) ← rest.split? n
  return (record, header ++ record, rest)

theorem header?_append {framing : Framing} {n : Nat} (h : framing.Expresses n)
    (hn : n < UInt64.size) (rest : Bytes) :
    framing.header? (framing.headerBytes n ++ rest) =
      some (n, framing.headerBytes n, rest) := by
  cases framing with
  | varint => exact Varint.decode?_encode hn rest
  | fixed =>
    -- the header has four bytes, which are read as the number that was written
    have hsplit : (Bytes.ofNatBE 4 n ++ rest).split? 4 = some (Bytes.ofNatBE 4 n, rest) :=
      Bytes.split?_eq_some.2 ⟨Bytes.length_ofNatBE 4 n, rfl⟩
    have hvalue : Bytes.toNatBE (Bytes.ofNatBE 4 n) = n := by
      rw [Bytes.toNatBE_ofNatBE]
      exact Nat.mod_eq_of_lt h
    simp only [header?, headerBytes, hsplit, hvalue, Option.map_some]

/-- A frame is found in front of whatever follows it. -/
theorem frame?_append {framing : Framing} {record : Bytes}
    (h : framing.Expresses record.length) (hlength : record.length < UInt64.size) (rest : Bytes) :
    framing.frame? (framing.frame record ++ rest) =
      some (record, framing.frame record, rest) := by
  -- the header tells the length of the record behind it
  rw [frame, List.append_assoc]
  simp only [frame?, header?_append h hlength, Bytes.split?_append, Option.bind_eq_bind,
    Option.bind_some, Option.pure_def]

theorem frame?_eq_some {framing : Framing} {bytes record front rest : Bytes}
    (h : framing.frame? bytes = some (record, front, rest)) : ∃ n header middle,
    framing.header? bytes = some (n, header, middle) ∧ record.length = n ∧
      middle = record ++ rest ∧ front = header ++ record := by
  simp only [frame?, Option.bind_eq_bind, Option.bind_eq_some_iff, Prod.exists, Option.pure_def,
    Option.some.injEq, Prod.mk.injEq] at h
  obtain ⟨n, header, middle, hheader, record', rest', hsplit, rfl, rfl, rfl⟩ := h
  obtain ⟨hlength, hmiddle⟩ := Bytes.split?_eq_some.1 hsplit
  exact ⟨n, header, middle, hheader, hlength, hmiddle, rfl⟩

theorem frame?_eq_none {framing : Framing} {bytes : Bytes} (h : framing.frame? bytes = none) :
    framing.header? bytes = none ∨ ∃ n header middle,
      framing.header? bytes = some (n, header, middle) ∧ middle.length < n := by
  cases hheader : framing.header? bytes with
  | none => exact .inl rfl
  | some header =>
    obtain ⟨n, front, middle⟩ := header
    simp only [frame?, hheader, Option.bind_eq_bind, Option.bind_some, Option.bind_eq_none_iff,
      Prod.forall, Option.pure_def, reduceCtorEq, imp_false] at h
    refine .inr ⟨n, front, middle, rfl, Bytes.split?_eq_none.1 ?_⟩
    -- there is a header, so it is the record that is cut short
    rw [Option.eq_none_iff_forall_ne_some]
    exact fun split => h split.1 split.2

/-- The header in front is read, in whichever form it is. -/
theorem readHeader_of_honest {framing : Framing} {source : ByteSource} (h : source.Honest)
    {n : Nat} {header rest : Bytes}
    (hheader : framing.header? source.rest = some (n, header, rest)) :
    ∃ after, framing.readHeader source = (.ok n, header, after) ∧ source.Leaves after rest := by
  cases framing with
  | varint => exact h.readVarint_of_some hheader
  | fixed =>
    simp only [header?, Option.map_eq_some_iff, Prod.mk.injEq, Prod.exists] at hheader
    obtain ⟨front, rest', hsplit, rfl, rfl, rfl⟩ := hheader
    -- the four bytes of a fixed header are read, the groups of a variable one collected
    obtain ⟨hlength, hrest⟩ := Bytes.split?_eq_some.1 hsplit
    obtain ⟨after, hread, hleaves⟩ := h.read_of_append hrest
    rw [hlength] at hread
    exact ⟨after, by simp only [readHeader, hread], hleaves⟩

theorem readHeader_of_none {framing : Framing} {source : ByteSource} (h : source.Honest)
    (hheader : framing.header? source.rest = none) :
    ∃ failure header after, framing.readHeader source = (.error failure, header, after) := by
  cases framing with
  | varint => exact h.readVarint_of_none hheader
  | fixed =>
    simp only [header?, Option.map_eq_none_iff] at hheader
    obtain ⟨failure, after, hread⟩ := h.read_of_lt (Bytes.split?_eq_none.1 hheader)
    exact ⟨failure, [], after, by simp only [readHeader, hread]⟩

end Framing

/-! ## Reading one record -/

namespace FrameReader

/-- The reader stands before `rest`, and `checksum` is that of what it has read. -/
structure Stands (reader : FrameReader) (framing : Framing) (checksum : Checksum)
    (rest : Bytes) : Prop where
  framed : reader.framing = framing
  signed : reader.checksum = checksum
  faithful : reader.source.Faithful
  left : reader.source.rest = rest

theorem stands_create {source : ByteSource} (h : source.Faithful) (framing : Framing) :
    (create framing source).Stands framing .empty source.rest :=
  ⟨rfl, rfl, h, rfl⟩

/-- The reader has taken and signed `bytes`, and stands before `rest`. -/
structure Takes (reader after : FrameReader) (bytes rest : Bytes) : Prop where
  framing : after.framing = reader.framing
  signed : after.checksum = reader.checksum.update bytes
  source : reader.source.Leaves after.source rest

section

variable {reader : FrameReader} {framing : Framing} {checksum : Checksum} {front rest : Bytes}

theorem Takes.stands {after : FrameReader} {rest' : Bytes} (h : reader.Takes after front rest')
    (hreader : reader.Stands framing checksum rest) :
    after.Stands framing (checksum.update front) rest' where
  framed := h.framing.trans hreader.framed
  signed := by rw [h.signed, hreader.signed]
  faithful := h.source.faithful hreader.faithful
  left := h.source.rest

theorem readHeader_of_honest (h : reader.source.Honest) {n : Nat} {header : Bytes}
    (hheader : reader.framing.header? reader.source.rest = some (n, header, rest)) :
    ∃ after, reader.readHeader = (.ok n, after) ∧ reader.Takes after header rest ∧
      after.records = reader.records := by
  obtain ⟨source, hread, hleaves⟩ := Framing.readHeader_of_honest h hheader
  refine ⟨{ reader with source, checksum := reader.checksum.update header }, ?_,
    ⟨rfl, rfl, hleaves⟩, rfl⟩
  simp only [readHeader, hread]

theorem readRecord_of_honest (h : reader.source.Honest) {record : Bytes}
    (hframe : reader.framing.frame? reader.source.rest = some (record, front, rest)) :
    ∃ after, reader.readRecord = (.ok record, after) ∧ reader.Takes after front rest ∧
      after.records = reader.records + 1 := by
  obtain ⟨n, header, middle, hheader, rfl, rfl, rfl⟩ := Framing.frame?_eq_some hframe
  -- first the header is read, and then as many bytes as it says
  obtain ⟨mid, hmid, htakes, hrecords⟩ := readHeader_of_honest h hheader
  obtain ⟨source, hread, hleaves⟩ := htakes.source.honest.read_of_append htakes.source.rest
  refine ⟨{ mid with
    source
    checksum := mid.checksum.update record
    records := mid.records + 1 }, ?_, ⟨htakes.framing, ?_, hleaves.honest, ?_, hleaves.rest⟩, ?_⟩
  · simp only [readRecord, hmid, hread]
  · simp only [htakes.signed, Checksum.update_append]
  · exact fun hfaithful => hleaves.faithful (htakes.source.faithful hfaithful)
  · simp only [hrecords]

theorem readHeader_of_none (h : reader.source.Honest)
    (hheader : reader.framing.header? reader.source.rest = none) :
    ∃ failure after, reader.readHeader = (.error failure, after) := by
  obtain ⟨failure, header, after, hread⟩ := Framing.readHeader_of_none h hheader
  exact ⟨failure, _, by simp only [readHeader, hread]; rfl⟩

/-- Where there is no frame in front, no record is read. -/
theorem readRecord_of_none (h : reader.source.Honest)
    (hframe : reader.framing.frame? reader.source.rest = none) :
    ∃ failure after, reader.readRecord = (.error failure, after) := by
  rcases Framing.frame?_eq_none hframe with hheader | ⟨n, header, middle, hheader, hlength⟩
  · obtain ⟨failure, after, hread⟩ := readHeader_of_none h hheader
    exact ⟨failure, after, by simp only [readRecord, hread]⟩
  · -- the header is read, and less is left than it says
    obtain ⟨mid, hmid, htakes, -⟩ := readHeader_of_honest h hheader
    obtain ⟨failure, after, hread⟩ :=
      htakes.source.honest.read_of_lt (by rwa [htakes.source.rest])
    exact ⟨failure, _, by simp only [readRecord, hmid, hread]; rfl⟩

end

namespace Stands

variable {reader : FrameReader} {framing : Framing} {checksum : Checksum} {rest : Bytes}

theorem readHeader_of_some (h : reader.Stands framing checksum rest) {n : Nat}
    {header rest' : Bytes} (hheader : framing.header? rest = some (n, header, rest')) :
    ∃ after, reader.readHeader = (.ok n, after) ∧
      after.Stands framing (checksum.update header) rest' := by
  rw [← h.framed, ← h.left] at hheader
  obtain ⟨after, hread, htakes, -⟩ := readHeader_of_honest h.faithful.honest hheader
  exact ⟨after, hread, htakes.stands h⟩

/-- The record of the frame in front is read. -/
theorem readRecord_of_some (h : reader.Stands framing checksum rest) {record front rest' : Bytes}
    (hframe : framing.frame? rest = some (record, front, rest')) :
    ∃ after, reader.readRecord = (.ok record, after) ∧
      after.Stands framing (checksum.update front) rest' := by
  rw [← h.framed, ← h.left] at hframe
  obtain ⟨after, hread, htakes, -⟩ := readRecord_of_honest h.faithful.honest hframe
  exact ⟨after, hread, htakes.stands h⟩

/-- Where there is no frame in front, no record is read. -/
theorem readRecord_of_none (h : reader.Stands framing checksum rest)
    (hframe : framing.frame? rest = none) :
    ∃ failure after, reader.readRecord = (.error failure, after) := by
  rw [← h.framed, ← h.left] at hframe
  exact FrameReader.readRecord_of_none h.faithful.honest hframe

theorem isExhausted_eq (h : reader.Stands framing checksum rest) :
    ∃ source, reader.source.isExhausted = (.ok rest.isEmpty, source) ∧
      ({ reader with source } : FrameReader).Stands framing checksum rest := by
  obtain ⟨rfl, rfl, hfaithful, rfl⟩ := h
  obtain ⟨source, hexhausted, hsource, hrest⟩ := ByteSource.isExhausted_eq hfaithful
  exact ⟨source, hexhausted, rfl, rfl, hsource, hrest⟩

theorem next_of_nil (h : reader.Stands framing checksum []) :
    ∃ after, reader.next = (.ok none, after) ∧ after.Stands framing checksum [] := by
  obtain ⟨source, hexhausted, hstands⟩ := h.isExhausted_eq
  exact ⟨_, by simp only [next, hexhausted, List.isEmpty_nil], hstands⟩

theorem next_of_some (h : reader.Stands framing checksum rest) (hne : rest ≠ [])
    {record front rest' : Bytes} (hframe : framing.frame? rest = some (record, front, rest')) :
    ∃ after, reader.next = (.ok (some record), after) ∧
      after.Stands framing (checksum.update front) rest' := by
  obtain ⟨source, hexhausted, hstands⟩ := h.isExhausted_eq
  obtain ⟨after, hread, hafter⟩ := hstands.readRecord_of_some hframe
  rw [List.isEmpty_eq_false_iff.2 hne] at hexhausted
  exact ⟨after, by simp only [next, hexhausted, hread], hafter⟩

theorem next_of_none (h : reader.Stands framing checksum rest) (hne : rest ≠ [])
    (hframe : framing.frame? rest = none) :
    ∃ failure after, reader.next = (.error failure, after) := by
  obtain ⟨source, hexhausted, hstands⟩ := h.isExhausted_eq
  obtain ⟨failure, after, hread⟩ := hstands.readRecord_of_none hframe
  rw [List.isEmpty_eq_false_iff.2 hne] at hexhausted
  exact ⟨failure, after, by simp only [next, hexhausted, hread]⟩

end Stands

end FrameReader

/-! ## Reading whole files -/

namespace Contents

theorem untilEnd_of_end {reader after : FrameReader} (h : reader.next = (.ok .none, after)) :
    untilEnd reader = none (.ok after.checksum.value) := by
  -- `untilEnd` is by recursion on what is left, and the answer decides the branch
  rw [untilEnd]
  split
  · next h' => rw [h] at h'; cases h'
  · next h' => rw [h] at h'; cases h'; rfl
  · next h' => rw [h] at h'; cases h'

theorem untilEnd_of_record {reader after : FrameReader} {record : Bytes}
    (h : reader.next = (.ok (some record), after)) :
    untilEnd reader = cons record (untilEnd after) := by
  rw [untilEnd]
  split
  · next h' => rw [h] at h'; cases h'
  · next h' => rw [h] at h'; cases h'
  · next h' => rw [h] at h'; cases h'; rfl

theorem untilEnd_of_error {reader after : FrameReader} {failure : Failure}
    (h : reader.next = (.error failure, after)) :
    untilEnd reader = none (.error (.readingRecordAt reader.position, failure)) := by
  rw [untilEnd]
  split
  · next h' => rw [h] at h'; cases h'; rfl
  · next h' => rw [h] at h'; cases h'
  · next h' => rw [h] at h'; cases h'

end Contents

end PartitionSnapshot
