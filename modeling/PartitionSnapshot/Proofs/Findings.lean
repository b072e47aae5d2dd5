import PartitionSnapshot.Proofs.Coverage
import PartitionSnapshot.Proofs.Strategies

/-!
# What is found in a file

Any bytes at all may stand in an entity file. They are read frame by frame, up to the end of the
file or the last record that its count announces, or up to the first place where no frame stands:
because the data end there too early, or because a number is malformed. The bytes alone decide what
is found, in whichever way they are read.

So a reading that goes through has taken the bytes that belong to the records, and the checksum that
it finds is theirs. In the files of inodes and dentries these are all bytes, since frames are read
up to the end. In the files of extends and multiparts the count says where the last frame ends; what
comes behind it is not read, and is not part of the checksum.

## Main statements

* `Contents.frames_ofKind`: the frames that are found in a file, and how it ends behind them.
* `Kind.Frames.unique`: the content of the file determines both.
* `Contents.ofKind_eq_ok`: what a reading that goes through has read.
* `Contents.ofKind_file`: from the file of a kind its records are read back.
-/

namespace PartitionSnapshot

/-! ## Failures that a file is to blame for -/

/-- The data end too early, or a number in them is malformed. -/
def Failure.Breaks (failure : Failure) : Prop :=
  failure.classify = .endOfData ∨ failure = .badVarint false

/-- In what way a file is corrupt at a step of its reading. -/
inductive Corruption.Breaks (activity : Activity) : Corruption → Prop
  | truncated : Breaks activity (.truncated activity)
  | malformed : Breaks activity (.malformed activity (.badVarint false))

theorem Context.reading_of_breaks (context : Context) (activity : Activity) {failure : Failure}
    (h : failure.Breaks) :
    ∃ what, Corruption.Breaks activity what ∧
      context.reading activity failure = .corrupt context what := by
  rcases h with h | rfl
  · exact ⟨_, .truncated, by simp only [reading, h]⟩
  · exact ⟨_, .malformed, rfl⟩

namespace Framing

variable {framing : Framing} {source after : ByteSource} {failure : Failure}

/-- The data end too early, or a variable-length number in them is malformed. -/
def Breaks (framing : Framing) (failure : Failure) : Prop :=
  failure.classify = .endOfData ∨ framing = .varint ∧ failure = .badVarint false

theorem Breaks.toFailure (h : framing.Breaks failure) : failure.Breaks := h.imp_right And.right

/-- Where headers have four bytes, nothing is malformed. -/
theorem Breaks.endOfData (h : Framing.fixed.Breaks failure) : failure.classify = .endOfData :=
  h.resolve_right fun hvarint => absurd hvarint.1 nofun

theorem breaks_readHeader (h : source.Honest) {header : Bytes}
    (hread : framing.readHeader source = (.error failure, header, after)) :
    framing.Breaks failure := by
  cases framing with
  | fixed =>
    simp only [readHeader] at hread
    split at hread
    · cases hread
    · next hfour =>
      cases hread
      exact .inl (h.classify_read hfour)
  | varint =>
    rcases h.classify_readVarint hread with ⟨-, hclass⟩ | ⟨-, rfl⟩
    · exact .inl hclass
    · exact .inr ⟨rfl, rfl⟩

theorem position_readHeader {n : Nat} {header : Bytes}
    (h : framing.readHeader source = (.ok n, header, after)) :
    after.position = source.position + header.length := by
  cases framing with
  | fixed =>
    simp only [readHeader] at h
    split at h
    · next hfour =>
      cases h
      rw [ByteSource.position_read hfour, (ByteSource.rest_read hfour).1]
    · cases h
  | varint => exact ByteSource.position_readVarint h

end Framing

namespace FrameReader

/-! ## Where a reader stands -/

variable {reader after : FrameReader}

/-- What a reader has consumed and what is left make up one whole, whatever is read. -/
theorem position_readHeader {n : Nat} (h : reader.readHeader = (.ok n, after)) :
    after.position + after.source.rest.length = reader.position + reader.source.rest.length := by
  simp only [readHeader] at h
  split at h
  · next hread =>
    cases h
    rw [(Framing.rest_readHeader hread).2, List.length_append, position, position,
      Framing.position_readHeader hread, Nat.add_assoc]
  · cases h

theorem position_readRecord {record : Bytes} (h : reader.readRecord = (.ok record, after)) :
    after.position + after.source.rest.length = reader.position + reader.source.rest.length := by
  simp only [readRecord] at h
  split at h
  · cases h
  · next hheader =>
    split at h
    · cases h
    · next hread =>
      cases h
      -- the bytes of the record have moved from what is left to what is consumed
      obtain ⟨hlength, hrest⟩ := ByteSource.rest_read hread
      rw [← position_readHeader hheader, hrest, List.length_append, position, position,
        ByteSource.position_read hread, hlength, Nat.add_assoc]

theorem position_next {record : Option Bytes} (h : reader.next = (.ok record, after)) :
    after.position + after.source.rest.length = reader.position + reader.source.rest.length := by
  -- looking for the end moves nothing
  have hrest := ByteSource.rest_isExhausted reader.source
  have hposition := ByteSource.position_isExhausted reader.source
  simp only [next] at h
  split at h
  · cases h
  · next source hexhausted =>
    cases h
    rw [hexhausted] at hrest hposition
    simp only [position] at hrest hposition ⊢
    rw [hrest, hposition]
  · next source hexhausted =>
    split at h
    · cases h
    · next hrecord =>
      cases h
      rw [hexhausted] at hrest hposition
      have hread := position_readRecord hrecord
      simp only [position] at hread hrest hposition ⊢
      rw [hread, hrest, hposition]

/-! ## Readings that break off -/

section

variable {failure : Failure}

theorem breaks_readHeader (h : reader.source.Honest)
    (hread : reader.readHeader = (.error failure, after)) : reader.framing.Breaks failure := by
  simp only [readHeader] at hread
  split at hread
  · cases hread
  · next hraw =>
    cases hread
    exact Framing.breaks_readHeader h hraw

theorem breaks_readRecord (h : reader.source.Honest)
    (hread : reader.readRecord = (.error failure, after)) : reader.framing.Breaks failure := by
  -- the header is read, or it is what breaks
  cases hheader : reader.framing.header? reader.source.rest with
  | none =>
    obtain ⟨failure', mid, hmid⟩ := readHeader_of_none h hheader
    simp only [readRecord, hmid] at hread
    cases hread
    exact breaks_readHeader h hmid
  | some found =>
    obtain ⟨n, header, rest⟩ := found
    obtain ⟨mid, hmid, htakes, -⟩ := readHeader_of_honest h hheader
    simp only [readRecord, hmid] at hread
    split at hread
    · next hrecord =>
      cases hread
      exact .inl (htakes.source.honest.classify_read hrecord)
    · cases hread

end

namespace Stands

variable {framing : Framing} {checksum : Checksum} {rest : Bytes} {failure : Failure}

theorem breaks_readRecord (h : reader.Stands framing checksum rest)
    (hread : reader.readRecord = (.error failure, after)) : framing.Breaks failure :=
  h.framed ▸ FrameReader.breaks_readRecord h.faithful.honest hread

theorem breaks_next (h : reader.Stands framing checksum rest)
    (hread : reader.next = (.error failure, after)) : framing.Breaks failure := by
  obtain ⟨source, hexhausted, hstands⟩ := h.isExhausted_eq
  cases hempty : rest.isEmpty with
  | true =>
    rw [hempty] at hexhausted
    simp only [next, hexhausted] at hread
    cases hread
  | false =>
    rw [hempty] at hexhausted
    simp only [next, hexhausted] at hread
    split at hread
    · next hrecord =>
      cases hread
      exact hstands.breaks_readRecord hrecord
    · cases hread

end Stands

end FrameReader

/-! ## Reading frames -/

namespace Contents

section

variable {reader : FrameReader} {framing : Framing} {checksum : Checksum} {rest : Bytes}
variable {records : List Bytes} {sign : UInt32}

/-- Where nothing is left no record is found, and all that was read is in the checksum. -/
theorem untilEnd_of_nil (h : reader.Stands framing checksum []) :
    untilEnd reader = ⟨[], .ok checksum.value⟩ := by
  obtain ⟨after, hnext, hafter⟩ := h.next_of_nil
  rw [untilEnd_of_end hnext, hafter.signed]
  rfl

/-- The record of a frame in front is found, and then what is found behind the frame. -/
theorem untilEnd_of_frame {record front : Bytes} (hfront : framing.IsFrame record front)
    (h : reader.Stands framing checksum (front ++ rest)) :
    ∃ after : FrameReader, untilEnd reader = cons record (untilEnd after) ∧
      after.Stands framing (checksum.update front) rest ∧
      after.position = reader.position + front.length := by
  -- a frame is not empty, so this is not taken for the end
  have hne : front ++ rest ≠ [] := List.append_ne_nil_of_left_ne_nil hfront.ne_nil _
  obtain ⟨after, hnext, hafter⟩ := h.next_of_some hne (Framing.frame?_eq_some_iff.2 ⟨hfront, rfl⟩)
  have hposition := FrameReader.position_next hnext
  rw [h.left, hafter.left, List.length_append] at hposition
  exact ⟨after, untilEnd_of_record hnext, hafter, by omega⟩

/-- Up to the end of a file, or to the first place where there is no frame, all frames are read. -/
theorem untilEnd_frames (h : reader.Stands framing checksum rest) :
    ∃ front behind records ending, rest = front ++ behind ∧ framing.Covers front records ∧
      untilEnd reader = ⟨records, ending⟩ ∧
      ((behind = [] ∧ ending = .ok (checksum.update front).value) ∨
        (behind ≠ [] ∧ framing.frame? behind = .none ∧ ∃ failure, framing.Breaks failure ∧
          ending = .error (.readingRecordAt (reader.position + front.length), failure))) := by
  -- every record that is read leaves less, so the induction is on what is left
  induction hlength : rest.length using Nat.strongRecOn generalizing reader checksum rest
  rename_i length ih
  by_cases hrest : rest = []
  · subst hrest
    exact ⟨[], [], [], _, rfl, .nil, untilEnd_of_nil h, .inl ⟨rfl, rfl⟩⟩
  · cases hframe : framing.frame? rest with
    | none =>
      obtain ⟨failure, after, hnext⟩ := h.next_of_none hrest hframe
      exact ⟨[], rest, [], _, rfl, .nil, untilEnd_of_error hnext,
        .inr ⟨hrest, hframe, failure, h.breaks_next hnext, rfl⟩⟩
    | some frame =>
      obtain ⟨record, frame, rest'⟩ := frame
      obtain ⟨hfront, rfl⟩ := Framing.frame?_eq_some_iff.1 hframe
      obtain ⟨after, hfound, hafter, hposition⟩ := untilEnd_of_frame hfront h
      have hless : rest'.length < length := by
        have hpositive := List.length_pos_iff.2 hfront.ne_nil
        rw [List.length_append] at hlength
        omega
      obtain ⟨front, behind, records, ending, rfl, hcovers, hread, hending⟩ :=
        ih rest'.length hless hafter rfl
      refine ⟨frame ++ front, behind, record :: records, ending,
        (List.append_assoc _ _ _).symm, .cons hfront hcovers, ?_, ?_⟩
      · rw [hfound, hread]
        rfl
      · -- the offset has moved by the frame
        rw [hposition, Nat.add_assoc, ← List.length_append] at hending
        rwa [Checksum.update_append]

/-- Of a number of records those are read that are there; for this the end of the data need not be
found. -/
theorem counted_frames (h : reader.source.Honest) (total index left : Nat) :
    ∃ front behind records ending, reader.source.rest = front ++ behind ∧
      reader.framing.Covers front records ∧ counted reader total index left = ⟨records, ending⟩ ∧
      ((records.length = left ∧ ending = .ok (reader.checksum.update front).value) ∨
        (records.length < left ∧ reader.framing.frame? behind = .none ∧
          ∃ failure, reader.framing.Breaks failure ∧
            ending = .error (.readingRecord (index + records.length) total, failure))) := by
  -- along the records that are still to come
  induction left generalizing reader index with
  | zero => exact ⟨[], reader.source.rest, [], _, rfl, .nil, rfl, .inl ⟨rfl, rfl⟩⟩
  | succ left ih =>
    cases hframe : reader.framing.frame? reader.source.rest with
    | none =>
      obtain ⟨failure, after, hrecord⟩ := FrameReader.readRecord_of_none h hframe
      refine ⟨[], reader.source.rest, [], .error (.readingRecord index total, failure), rfl, .nil,
        ?_, .inr ⟨Nat.succ_pos left, hframe, failure, FrameReader.breaks_readRecord h hrecord,
          rfl⟩⟩
      simp only [counted, hrecord]
      rfl
    | some frame =>
      obtain ⟨record, frame, rest⟩ := frame
      obtain ⟨hfront, hrest⟩ := Framing.frame?_eq_some_iff.1 hframe
      obtain ⟨after, hrecord, htakes, -⟩ := FrameReader.readRecord_of_honest h hframe
      obtain ⟨front, behind, records, ending, hleft, hcovers, hread, hending⟩ :=
        ih htakes.source.honest (index + 1)
      rw [htakes.source.rest] at hleft
      rw [htakes.framing] at hcovers hending
      refine ⟨frame ++ front, behind, record :: records, ending, ?_, .cons hfront hcovers, ?_, ?_⟩
      · rw [hrest, hleft, List.append_assoc]
      · simp only [counted, hrecord, hread]
        rfl
      · rw [htakes.signed, Nat.add_assoc, Nat.add_comm 1] at hending
        rw [Checksum.update_append, List.length_cons, Nat.succ_inj, Nat.succ_lt_succ_iff]
        exact hending

/-- A reading up to the end goes through just when all that is left is frames. -/
theorem untilEnd_eq_ok (h : reader.Stands framing checksum rest) :
    untilEnd reader = ⟨records, .ok sign⟩ ↔
      framing.Covers rest records ∧ sign = (checksum.update rest).value := by
  constructor
  · intro hread
    obtain ⟨front, behind, _, _, rfl, hcovers, hfound, hending⟩ := untilEnd_frames h
    rw [hread] at hfound
    cases hfound
    rcases hending with ⟨rfl, hsign⟩ | ⟨-, -, failure, -, herror⟩
    · cases hsign
      rw [List.append_nil]
      exact ⟨hcovers, rfl⟩
    · cases herror
  · rintro ⟨hcovers, rfl⟩
    -- along the frames
    induction hcovers generalizing reader checksum with
    | nil => exact untilEnd_of_nil h
    | cons hfront _ ih =>
      obtain ⟨after, hfound, hafter, -⟩ := untilEnd_of_frame hfront h
      rw [hfound, ih hafter, Checksum.update_append]
      rfl

/-- A reading of a number of records goes through just when as many frames are in front; what is
behind them does not matter. -/
theorem counted_eq_ok (h : reader.Stands framing checksum rest) {total index left : Nat} :
    counted reader total index left = ⟨records, .ok sign⟩ ↔
      ∃ front behind, rest = front ++ behind ∧ framing.Covers front records ∧
        records.length = left ∧ sign = (checksum.update front).value := by
  constructor
  · intro hread
    obtain ⟨rfl, rfl, hfaithful, rfl⟩ := h
    obtain ⟨front, behind, _, _, hrest, hcovers, hfound, hending⟩ :=
      counted_frames hfaithful.honest total index left
    rw [hread] at hfound
    cases hfound
    rcases hending with ⟨hlength, hsign⟩ | ⟨-, -, failure, -, herror⟩
    · cases hsign
      exact ⟨front, behind, hrest, hcovers, hlength, rfl⟩
    · cases herror
  · rintro ⟨front, behind, rfl, hcovers, rfl, rfl⟩
    induction hcovers generalizing reader checksum index with
    | nil =>
      simp only [List.length_nil, counted, h.signed]
      rfl
    | cons hfront _ ih =>
      rw [List.append_assoc] at h
      obtain ⟨after, hrecord, hafter⟩ :=
        h.readRecord_of_some (Framing.frame?_eq_some_iff.2 ⟨hfront, rfl⟩)
      simp only [List.length_cons, counted, hrecord, ih hafter, Checksum.update_append]
      rfl

end

end Contents

/-! ## The frames of a file -/

/-- The frames that a file begins with, and how it ends behind them: with the checksum of what was
read, or at the step where there is no frame. Offsets are counted from `start`. -/
inductive Kind.Frames (kind : Kind) (start : Nat) (content : Bytes) :
    List Bytes → Except Activity UInt32 → Prop
  /-- All records are there. Bytes behind the last one that is counted do not matter. -/
  | whole {front behind : Bytes} {records : List Bytes} (hcontent : content = front ++ behind)
      (hcovers : kind.Covers front records) (hbehind : kind.framing = .fixed → behind = []) :
      Frames kind start content records (.ok (crc32 front))
  /-- In a file without a count, something follows the records that is not a frame. -/
  | broken {front behind : Bytes} {records : List Bytes} (hframing : kind.framing = .fixed)
      (hcontent : content = front ++ behind) (hcovers : Framing.fixed.Covers front records)
      (hbehind : behind ≠ []) (hnone : Framing.fixed.frame? behind = none) :
      Frames kind start content records (.error (.readingRecordAt (start + front.length)))
  /-- In a file with a count, no frame follows the records, and more of them were to come. -/
  | brokenOff {count : Nat} {head front behind : Bytes} {records : List Bytes}
      (hframing : kind.framing = .varint)
      (hcount : Framing.varint.header? content = some (count, head, front ++ behind))
      (hcovers : Framing.varint.Covers front records) (hmore : records.length < count)
      (hnone : Framing.varint.frame? behind = none) :
      Frames kind start content records (.error (.readingRecord records.length count))
  /-- Where there has to be a count there is none. -/
  | uncounted (hframing : kind.framing = .varint)
      (hnone : Framing.varint.header? content = none) :
      Frames kind start content [] (.error .readingCount)

namespace Contents

variable {kind : Kind} {source : ByteSource} {records : List Bytes} {sign : UInt32}

/-- The contents are those of a file that begins with the frames found, and where reading stopped
the file is to blame. -/
def Shows (contents : Contents) (kind : Kind) (start : Nat) (content : Bytes) : Prop :=
  kind.Frames start content contents.records (contents.ending.mapError Prod.fst) ∧
    ∀ step, contents.ending = .error step → step.2.Breaks

theorem shows_ofStream (hframing : kind.framing = .fixed) (h : source.Faithful) :
    (ofStream source).Shows kind source.position source.rest := by
  obtain ⟨front, behind, records, ending, hrest, hcovers, hread, hending⟩ :=
    untilEnd_frames (FrameReader.stands_create h .fixed)
  have hstream : ofStream source = ⟨records, ending⟩ := hread
  rw [hstream, hrest]
  rcases hending with ⟨rfl, rfl⟩ | ⟨hbehind, hnone, failure, hbreaks, rfl⟩
  · have hkind : kind.Covers front records := by
      simp only [Kind.Covers, hframing]
      exact hcovers
    exact ⟨.whole rfl hkind fun _ => rfl, nofun⟩
  · refine ⟨.broken hframing rfl hcovers hbehind hnone, ?_⟩
    rintro _ ⟨⟩
    exact hbreaks.toFailure

/-- A file with a count is read up to the last record that it counts, so its end need not be
found. -/
theorem shows_ofCounted (hframing : kind.framing = .varint) (h : source.Honest) :
    (ofCounted source).Shows kind source.position source.rest := by
  unfold ofCounted FrameReader.readCount
  -- the count comes first, and then as many records
  cases hheader : Framing.varint.header? source.rest with
  | none =>
    obtain ⟨failure, after, hcount⟩ : ∃ failure after,
        (FrameReader.create .varint source).readHeader = (.error failure, after) :=
      FrameReader.readHeader_of_none h hheader
    simp only [hcount]
    refine ⟨.uncounted hframing hheader, ?_⟩
    rintro _ ⟨⟩
    exact (FrameReader.breaks_readHeader h hcount).toFailure
  | some header =>
    obtain ⟨count, head, rest⟩ := header
    obtain ⟨after, hcount, htakes, -⟩ : ∃ after,
        (FrameReader.create .varint source).readHeader = (.ok count, after) ∧
          (FrameReader.create .varint source).Takes after head rest ∧ after.records = 0 :=
      FrameReader.readHeader_of_honest h hheader
    obtain ⟨halone, hrest⟩ := Framing.header?_eq_some.1 hheader
    obtain ⟨front, behind, records, ending, hleft, hcovers, hread, hending⟩ :=
      counted_frames htakes.source.honest count 0 count
    rw [htakes.source.rest] at hleft
    rw [htakes.framing] at hcovers hending
    rw [htakes.signed] at hending
    subst hleft
    simp only [hcount, hread]
    rcases hending with ⟨rfl, rfl⟩ | ⟨hmore, hnone, failure, hbreaks, rfl⟩
    · have hkind : kind.Covers (head ++ front) records := by
        simp only [Kind.Covers, hframing]
        exact ⟨head, front, rfl, halone, hcovers⟩
      rw [← Checksum.update_append]
      exact ⟨.whole (hrest.trans (List.append_assoc _ _ _).symm) hkind
        fun hfixed => absurd (hframing.symm.trans hfixed) nofun, nofun⟩
    · rw [Nat.zero_add]
      refine ⟨.brokenOff hframing hheader hcovers hmore hnone, ?_⟩
      rintro _ ⟨⟩
      exact hbreaks.toFailure

/-- **What is found in any file**: the frames it begins with, in order, up to its end or the number
of records it counts, or up to the first place where there is no frame. There the reading fails at
the step that belongs to that place, because of what is in the file. -/
theorem frames_ofKind (h : source.Faithful) (kind : Kind) :
    (ofKind kind source).Shows kind source.position source.rest := by
  cases kind with
  | inode => exact shows_ofStream rfl h
  | dentry => exact shows_ofStream rfl h
  | extend => exact shows_ofCounted rfl h.honest
  | multipart => exact shows_ofCounted rfl h.honest

/-- **What a reading that goes through has read**: the bytes in front that belong to the records it
has found, of which it has the checksum. In a file without a count these are all bytes; in one with
a count any others may follow. -/
theorem ofKind_eq_ok (h : source.Faithful) :
    ofKind kind source = ⟨records, .ok sign⟩ ↔
      ∃ front behind, source.rest = front ++ behind ∧ kind.Covers front records ∧
        sign = crc32 front ∧ (kind.framing = .fixed → behind = []) := by
  have hstream (hframing : kind.framing = .fixed) {front behind : Bytes}
      (hrest : source.rest = front ++ behind) (hcovers : kind.Covers front records)
      (hbehind : kind.framing = .fixed → behind = []) :
      ofStream source = ⟨records, .ok (crc32 front)⟩ := by
    rw [hbehind hframing, List.append_nil] at hrest
    simp only [Kind.Covers, hframing] at hcovers
    exact (untilEnd_eq_ok (FrameReader.stands_create h .fixed)).2 ⟨hrest ▸ hcovers, hrest ▸ rfl⟩
  have hcounted (hframing : kind.framing = .varint) {front behind : Bytes}
      (hrest : source.rest = front ++ behind) (hcovers : kind.Covers front records) :
      ofCounted source = ⟨records, .ok (crc32 front)⟩ := by
    simp only [Kind.Covers, hframing] at hcovers
    obtain ⟨count, frames, rfl, halone, hframes⟩ := hcovers
    rw [List.append_assoc] at hrest
    obtain ⟨after, hcount, hafter⟩ := (FrameReader.stands_create h .varint).readHeader_of_some
      (Framing.header?_eq_some.2 ⟨halone, hrest⟩)
    unfold ofCounted FrameReader.readCount
    simp only [hcount]
    refine (counted_eq_ok hafter).2 ⟨frames, behind, rfl, hframes, rfl, ?_⟩
    rw [← Checksum.update_append]
    rfl
  constructor
  · intro hread
    have hframes := (frames_ofKind h kind).1
    rw [hread] at hframes
    cases hframes with
    | whole hcontent hcovers hbehind => exact ⟨_, _, hcontent, hcovers, rfl, hbehind⟩
  · rintro ⟨front, behind, hrest, hcovers, rfl, hbehind⟩
    cases kind with
    | inode => exact hstream rfl hrest hcovers hbehind
    | dentry => exact hstream rfl hrest hcovers hbehind
    | extend => exact hcounted rfl hrest hcovers
    | multipart => exact hcounted rfl hrest hcovers

/-- From the file of a kind its records are read back, and its checksum is found. -/
theorem ofKind_file
    (h : source.Faithful) (hrest : source.rest = kind.file records)
    (hcount : records.length < UInt64.size)
    (hrecords : ∀ record ∈ records, kind.framing.Expresses record.length ∧
      record.length < UInt64.size) :
    ofKind kind source = ⟨records, .ok (crc32 (kind.file records))⟩ :=
  (ofKind_eq_ok h).2 ⟨kind.file records, [], hrest.trans (List.append_nil _).symm,
    Kind.covers_file hcount hrecords, rfl, fun _ => rfl⟩

end Contents

/-! ## The frames of a file are determined -/

section

variable {framing : Framing} {front front' behind behind' : Bytes} {records records' : List Bytes}

/-- Frames go no further than to a place where there is none. -/
theorem Framing.Covers.furthest (h : framing.Covers front records)
    (h' : framing.Covers front' records') (hsame : front ++ behind = front' ++ behind')
    (hnone : framing.frame? behind = none) : records' <+: records ∧ front' <+: front := by
  -- along the second frames, each of which is found among the first as well
  induction h' generalizing front records with
  | nil => exact ⟨List.nil_prefix, List.nil_prefix⟩
  | @cons record' frame' rest' records' hframe' _ ih =>
    rw [List.append_assoc] at hsame
    have hfound' := Framing.frame?_eq_some_iff.2 ⟨hframe', hsame⟩
    cases h with
    | nil =>
      rw [List.nil_append, hnone] at hfound'
      cases hfound'
    | @cons record frame rest records hframe hcovers =>
      rw [List.append_assoc] at hsame hfound'
      rw [Framing.frame?_eq_some_iff.2 ⟨hframe, rfl⟩] at hfound'
      simp only [Option.some.injEq, Prod.mk.injEq] at hfound'
      obtain ⟨rfl, rfl, hrest⟩ := hfound'
      obtain ⟨hrecords, hfront⟩ := ih hcovers hrest
      exact ⟨(List.cons_prefix_cons).2 ⟨rfl, hrecords⟩, (List.prefix_append_right_inj _).2 hfront⟩

theorem Framing.Covers.unique (h : framing.Covers front records)
    (h' : framing.Covers front' records') (hsame : front ++ behind = front' ++ behind')
    (hnone : framing.frame? behind = none) (hnone' : framing.frame? behind' = none) :
    front = front' ∧ records = records' := by
  obtain ⟨hrecords, hfront⟩ := h.furthest h' hsame hnone
  obtain ⟨hrecords', hfront'⟩ := h'.furthest h hsame.symm hnone'
  exact ⟨hfront'.eq_of_length_le hfront.length_le, hrecords'.eq_of_length_le hrecords.length_le⟩

end

namespace Kind.Frames

variable {kind : Kind} {start : Nat} {content : Bytes} {frames frames' : List Bytes}
variable {sign : UInt32} {activity activity' : Activity}

theorem ofKind_ofBytes (h : kind.Frames start content frames (.ok sign)) :
    Contents.ofKind kind (.ofBytes content) = ⟨frames, .ok sign⟩ := by
  cases h with
  | whole hcontent hcovers hbehind =>
    exact (Contents.ofKind_eq_ok (ByteSource.faithful_ofBytes content)).2
      ⟨_, _, (ByteSource.rest_ofBytes content).trans hcontent, hcovers, rfl, hbehind⟩

/-- A file does not both end well and break off. -/
theorem not_broken (h : kind.Frames start content frames (.ok sign)) :
    ¬ kind.Frames start content frames' (.error activity) := by
  intro h'
  cases h with
  | @whole front behind _ hcontent hcovers hbehind =>
    cases h' with
    | @broken front' behind' _ hframing hcontent' hcovers' hne hnone =>
      -- nothing is left behind the frames of the whole file
      simp only [Kind.Covers, hframing] at hcovers
      have hnil : Framing.fixed.frame? [] = none := rfl
      rw [hbehind hframing] at hcontent
      obtain ⟨rfl, -⟩ := hcovers.unique hcovers' (hcontent.symm.trans hcontent') hnil hnone
      exact hne (List.append_cancel_left (hcontent'.symm.trans hcontent))
    | brokenOff hframing hcount hcovers' hmore hnone =>
      simp only [Kind.Covers, hframing] at hcovers
      obtain ⟨head, frames, rfl, halone, hcovers⟩ := hcovers
      rw [List.append_assoc] at hcontent
      rw [Framing.header?_eq_some.2 ⟨halone, hcontent⟩] at hcount
      simp only [Option.some.injEq, Prod.mk.injEq] at hcount
      obtain ⟨rfl, rfl, hsame⟩ := hcount
      -- there would be more frames than are found
      exact absurd (hcovers'.furthest hcovers hsame.symm hnone).1.length_le (Nat.not_le.2 hmore)
    | uncounted hframing hnone =>
      simp only [Kind.Covers, hframing] at hcovers
      obtain ⟨head, frames, rfl, halone, -⟩ := hcovers
      rw [List.append_assoc] at hcontent
      rw [Framing.header?_eq_some.2 ⟨halone, hcontent⟩] at hnone
      cases hnone

theorem unique_broken (h : kind.Frames start content frames (.error activity))
    (h' : kind.Frames start content frames' (.error activity')) :
    frames = frames' ∧ activity = activity' := by
  cases h with
  | broken hframing hcontent hcovers _ hnone =>
    cases h' with
    | broken _ hcontent' hcovers' _ hnone' =>
      obtain ⟨rfl, rfl⟩ := hcovers.unique hcovers' (hcontent.symm.trans hcontent') hnone hnone'
      exact ⟨rfl, rfl⟩
    | brokenOff hframing' => cases hframing.symm.trans hframing'
    | uncounted hframing' => cases hframing.symm.trans hframing'
  | brokenOff hframing hcount hcovers _ hnone =>
    cases h' with
    | broken hframing' => cases hframing.symm.trans hframing'
    | brokenOff _ hcount' hcovers' _ hnone' =>
      rw [hcount] at hcount'
      simp only [Option.some.injEq, Prod.mk.injEq] at hcount'
      obtain ⟨rfl, -, hsame⟩ := hcount'
      obtain ⟨-, rfl⟩ := hcovers.unique hcovers' hsame hnone hnone'
      exact ⟨rfl, rfl⟩
    | uncounted _ hnone' => cases hcount.symm.trans hnone'
  | uncounted hframing hnone =>
    cases h' with
    | broken hframing' => cases hframing.symm.trans hframing'
    | brokenOff _ hcount' => cases hnone.symm.trans hcount'
    | uncounted => exact ⟨rfl, rfl⟩

/-- The content of a file determines its frames and how it ends. -/
theorem unique {ending ending' : Except Activity UInt32}
    (h : kind.Frames start content frames ending)
    (h' : kind.Frames start content frames' ending') : frames = frames' ∧ ending = ending' := by
  cases ending with
  | ok sign =>
    cases ending' with
    | ok sign' =>
      have hsame := h.ofKind_ofBytes.symm.trans h'.ofKind_ofBytes
      cases hsame
      exact ⟨rfl, rfl⟩
    | error activity' => exact absurd h' h.not_broken
  | error activity =>
    cases ending' with
    | ok sign' => exact absurd h h'.not_broken
    | error activity' =>
      obtain ⟨rfl, rfl⟩ := h.unique_broken h'
      exact ⟨rfl, rfl⟩

end Kind.Frames

end PartitionSnapshot
