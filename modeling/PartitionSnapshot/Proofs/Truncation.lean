import PartitionSnapshot.Proofs.Exhaustion

/-!
# Entity files that are cut short

Of a file that ends too early the records in front of the cut are read, and then the end is met:
inside the count, inside a header, inside a record, or between two of them. A reading that fails
there fails for want of data, whichever way the file is read and whatever the form of its headers.
A file with a count is known to be cut wherever that is. A file without one looks whole when it is
cut between two records.

## Main statements

* `Framing.le_whole_iff`: which records end in front of a cut.
* `FrameReader.Stands.readRecord_of_cut`: reading a record that is cut.
* `Contents.untilEnd_cut`, `Contents.counted_cut`, `Contents.ofKind_cut`: what is found in a file
  that is cut.
-/

namespace PartitionSnapshot

/-! ## Numbers, headers and records that are cut -/

namespace Varint

/-- No number is split off from data that end inside it. -/
theorem split?_of_isCut {limit : Nat} {bytes : Bytes} (h : isCut limit bytes = true) :
    split? limit bytes = none := by
  -- along the limit, as long as there are groups
  induction limit generalizing bytes with
  | zero => rfl
  | succ limit ih =>
    cases bytes with
    | nil => rfl
    | cons group rest =>
      by_cases hlast : group < 0x80
      · rw [isCut_cons_of_lt hlast] at h
        cases h
      · rw [isCut_cons hlast] at h
        rw [split?, if_neg hlast, ih h, Option.map_none]

/-- Data end inside the shortest form of a number wherever it is cut. -/
theorem isCut_take {n limit length : Nat} (h : n < Nat.pow 128 limit) (hlimit : 0 < limit)
    (hlength : length < (encode n).length) : isCut limit ((encode n).take length) = true := by
  -- along the limit, with one group fewer to come at every step
  induction limit generalizing n length with
  | zero => exact absurd hlimit (Nat.lt_irrefl 0)
  | succ limit ih =>
    cases length with
    | zero => simp [isCut]
    | succ length =>
      rw [encode] at hlength ⊢
      split at hlength
      · simp at hlength
      · next hle =>
        rw [if_neg hle, List.take_succ_cons, isCut_cons]
        · -- the other groups are those of a number that is 128 times smaller
          have hpow : Nat.pow 128 (limit + 1) = Nat.pow 128 limit * 128 := rfl
          have hpos : 0 < limit := by
            rcases Nat.eq_zero_or_pos limit with rfl | hpos
            · have hone : Nat.pow 128 0 = 1 := rfl
              omega
            · exact hpos
          apply ih (by omega) hpos
          simpa using hlength
        · rw [UInt8.lt_iff_toNat_lt, toNat_group (by omega)]
          have h128 : (0x80 : UInt8).toNat = 128 := rfl
          omega

end Varint

namespace Framing

variable {framing : Framing}

theorem length_header_pos (framing : Framing) (n : Nat) :
    0 < (framing.headerBytes n).length := by
  cases framing with
  | fixed => simp [headerBytes]
  | varint =>
    show 0 < (Varint.encode n).length
    rw [Varint.encode]
    split <;> simp

/-- Where a header is cut, reading it meets the end of the data. -/
theorem readHeader_of_cut {source : ByteSource} (h : source.Honest) {n length : Nat}
    (hn : n < UInt64.size) (hlength : length < (framing.headerBytes n).length)
    (hrest : source.rest = (framing.headerBytes n).take length) :
    ∃ failure header after, framing.readHeader source = (.error failure, header, after) ∧
      failure.classify = .endOfData := by
  cases framing with
  | fixed =>
    have hfour : (Framing.fixed.headerBytes n).length = 4 := Bytes.length_ofNatBE 4 n
    have hshort : source.rest.length < 4 := by
      rw [hrest, List.length_take]
      omega
    obtain ⟨failure, after, hread⟩ := h.read_of_lt hshort
    exact ⟨failure, [], after, by simp only [readHeader, hread], h.classify_read hread⟩
  | varint =>
    have hcut : Varint.isCut Varint.maxGroups source.rest = true := by
      rw [hrest]
      exact Varint.isCut_take (Nat.lt_trans hn (by decide)) (by decide) hlength
    -- a number that is cut is none, and its reading fails because it is cut
    have hnone : Varint.decode? source.rest = none := by
      rw [Varint.decode?, Varint.split?_of_isCut hcut]
      rfl
    obtain ⟨failure, groups, after, hread⟩ := h.readVarint_of_none hnone
    rcases h.classify_readVarint hread with ⟨-, hclass⟩ | ⟨hwhole, -⟩
    · exact ⟨failure, groups, after, hread, hclass⟩
    · rw [hcut] at hwhole
      cases hwhole

end Framing

/-! ## Records that are cut -/

namespace FrameReader.Stands

variable {reader : FrameReader} {framing : Framing} {checksum : Checksum} {record : Bytes}
variable {length : Nat}

/-- A number that is cut is not read for want of data. -/
theorem readHeader_of_cut {n : Nat} (hn : n < UInt64.size)
    (hlength : length < (framing.headerBytes n).length)
    (h : reader.Stands framing checksum ((framing.headerBytes n).take length)) :
    ∃ failure after, reader.readHeader = (.error failure, after) ∧
      failure.classify = .endOfData := by
  obtain ⟨rfl, rfl, hfaithful, hrest⟩ := h
  obtain ⟨failure, header, after, hread, hclass⟩ :=
    Framing.readHeader_of_cut hfaithful.honest hn hlength hrest
  exact ⟨failure, { reader with source := after }, by simp only [readHeader, hread], hclass⟩

/-- A record that is cut, in its header or behind it, is not read for want of data. -/
theorem readRecord_of_cut (hexpresses : framing.Expresses record.length)
    (hsize : record.length < UInt64.size) (hlength : length < (framing.frame record).length)
    (h : reader.Stands framing checksum ((framing.frame record).take length)) :
    ∃ failure after, reader.readRecord = (.error failure, after) ∧
      failure.classify = .endOfData := by
  rw [Framing.frame, List.take_append] at h
  rw [Framing.frame, List.length_append] at hlength
  by_cases hheader : (framing.headerBytes record.length).length ≤ length
  · -- the header is whole, and what is behind it is shorter than it says
    rw [List.take_of_length_le hheader] at h
    obtain ⟨mid, hmid, hstands⟩ := h.readHeader_of_some
      (Framing.header?_append hexpresses hsize _)
    have hshort : mid.source.rest.length < record.length := by
      rw [hstands.left, List.length_take]
      omega
    obtain ⟨failure, after, hread⟩ := hstands.faithful.honest.read_of_lt hshort
    exact ⟨failure, { mid with source := after }, by simp only [readRecord, hmid, hread],
      hstands.faithful.honest.classify_read hread⟩
  · have hnone : length - (framing.headerBytes record.length).length = 0 := by omega
    rw [hnone, List.take_zero, List.append_nil] at h
    obtain ⟨failure, after, hread, hclass⟩ := h.readHeader_of_cut hsize (by omega)
    exact ⟨failure, after, by simp only [readRecord, hread], hclass⟩

theorem next_of_cut (hexpresses : framing.Expresses record.length)
    (hsize : record.length < UInt64.size) (hlength : length < (framing.frame record).length)
    (hpos : 0 < length)
    (h : reader.Stands framing checksum ((framing.frame record).take length)) :
    ∃ failure after, reader.next = (.error failure, after) ∧ failure.classify = .endOfData := by
  obtain ⟨source, hexhausted, hstands⟩ := h.isExhausted_eq
  have hne : ((framing.frame record).take length).isEmpty = false := by
    rw [List.isEmpty_eq_false_iff, ← List.length_pos_iff, List.length_take]
    omega
  rw [hne] at hexhausted
  obtain ⟨failure, after, hread, hclass⟩ := hstands.readRecord_of_cut hexpresses hsize hlength
  exact ⟨failure, after, by simp only [next, hexhausted, hread], hclass⟩

end FrameReader.Stands

/-! ## Records in front of a cut -/

namespace Framing

variable {framing : Framing} {records : List Bytes} {length : Nat}

/-- How many of the frames of some records end within their first `length` bytes. -/
def whole (framing : Framing) : List Bytes → (length : Nat) → Nat
  | [], _ => 0
  | record :: records, length =>
    if (framing.frame record).length ≤ length then
      whole framing records (length - (framing.frame record).length) + 1
    else 0

theorem whole_cons_of_le {record : Bytes} (h : (framing.frame record).length ≤ length) :
    framing.whole (record :: records) length =
      framing.whole records (length - (framing.frame record).length) + 1 := if_pos h

theorem whole_cons_of_lt {record : Bytes} (h : length < (framing.frame record).length) :
    framing.whole (record :: records) length = 0 := if_neg (Nat.not_le.2 h)

/-- No frame is empty. -/
theorem length_frame_pos (framing : Framing) (record : Bytes) :
    0 < (framing.frame record).length := by
  have hheader := framing.length_header_pos record.length
  rw [frame, List.length_append]
  omega

theorem whole_zero (framing : Framing) (records : List Bytes) :
    framing.whole records 0 = 0 := by
  cases records with
  | nil => rfl
  | cons record records => exact whole_cons_of_lt (framing.length_frame_pos record)

theorem whole_le (framing : Framing) (records : List Bytes) (length : Nat) :
    framing.whole records length ≤ records.length := by
  induction records generalizing length with
  | nil => exact Nat.le_refl 0
  | cons record records ih =>
    rw [whole]
    split
    · exact Nat.succ_le_succ (ih _)
    · exact Nat.zero_le _

/-- In front of a cut behind some of the records, just these end. -/
theorem whole_frames (framing : Framing) (records more : List Bytes) :
    framing.whole (records ++ more) (framing.frames records).length = records.length := by
  -- along the records in front of the cut; each of them is whole
  induction records with
  | nil => exact framing.whole_zero more
  | cons record records ih =>
    have hle : (framing.frame record).length ≤ (framing.frames (record :: records)).length := by
      rw [frames_cons, List.length_append]
      exact Nat.le_add_right _ _
    rw [List.cons_append, whole_cons_of_le hle, frames_cons, List.length_append,
      Nat.add_sub_cancel_left, ih, List.length_cons]

/-- **Which records end in front of a cut**: the first ones, as many as are whole there. -/
theorem le_whole_iff {n : Nat} (hn : n ≤ records.length) :
    n ≤ framing.whole records length ↔ (framing.frames (records.take n)).length ≤ length := by
  induction records generalizing length n with
  | nil =>
    rw [List.take_nil]
    exact ⟨fun _ => Nat.zero_le _, fun _ => hn⟩
  | cons record records ih =>
    cases n with
    | zero => simp
    | succ n =>
      rw [List.take_succ_cons, frames_cons, List.length_append, whole]
      have hothers := @ih (length - (framing.frame record).length) n (Nat.le_of_succ_le_succ hn)
      split
      · rw [Nat.succ_le_succ_iff, hothers]
        omega
      · omega

theorem take_frames_of_le {record : Bytes} (h : (framing.frame record).length ≤ length) :
    (framing.frames (record :: records)).take length =
      framing.frame record ++
        (framing.frames records).take (length - (framing.frame record).length) := by
  rw [frames_cons, List.take_append, List.take_of_length_le h]

theorem take_frames_of_lt {record : Bytes} (h : length < (framing.frame record).length) :
    (framing.frames (record :: records)).take length = (framing.frame record).take length := by
  have hnone : length - (framing.frame record).length = 0 := by omega
  rw [frames_cons, List.take_append, hnone, List.take_zero, List.append_nil]

end Framing

/-! ## What is found in front of a cut -/

namespace Contents

/-- Reading stopped at a step for want of data. -/
def RanOut (activity : Activity) (ending : Except (Activity × Failure) UInt32) : Prop :=
  ∃ failure, ending = .error (activity, failure) ∧ failure.classify = .endOfData

/-- Whatever the failure was, the error of the operation says that the file ends too early. -/
theorem RanOut.result {contents : Contents} {activity : Activity}
    (h : RanOut activity contents.ending) (context : Context) :
    contents.result context = .error (.corrupt context (.truncated activity)) := by
  obtain ⟨failure, hending, hclass⟩ := h
  rw [Contents.result, hending]
  show Except.error (context.reading activity failure) = _
  simp only [Context.reading, hclass]

section

variable {reader : FrameReader} {framing : Framing} {checksum : Checksum}
variable {records : List Bytes} {length : Nat}

/-- Up to the end of a file that is cut, the records in front of the cut are found; behind them the
end, or a record that is cut. -/
theorem untilEnd_cut
    (hrecords : ∀ record ∈ records, framing.Expresses record.length ∧
      record.length < UInt64.size)
    (hlength : length ≤ (framing.frames records).length)
    (h : reader.Stands framing checksum ((framing.frames records).take length)) :
    let kept := records.take (framing.whole records length)
    ∃ ending, untilEnd reader = ⟨kept, ending⟩ ∧
      ((framing.frames kept).length = length →
        ending = .ok (checksum.update ((framing.frames records).take length)).value) ∧
      ((framing.frames kept).length ≠ length →
        RanOut (.readingRecordAt (reader.position + (framing.frames kept).length)) ending) := by
  intro kept
  -- along the records, each of which is in front of the cut or cut itself
  induction records generalizing reader checksum length with
  | nil =>
    obtain rfl : length = 0 := Nat.le_zero.1 hlength
    exact ⟨_, untilEnd_of_nil h, fun _ => rfl, fun hne => absurd rfl hne⟩
  | cons record records ih =>
    obtain ⟨hexpresses, hsize⟩ := hrecords record List.mem_cons_self
    by_cases hwhole : (framing.frame record).length ≤ length
    · rw [Framing.take_frames_of_le hwhole] at h
      rw [Framing.frames_cons, List.length_append] at hlength
      obtain ⟨after, hfound, hafter, hposition⟩ :=
        untilEnd_of_frame (Framing.isFrame_frame hexpresses hsize) h
      obtain ⟨ending, hread, hend, hcut⟩ := ih
        (fun other hother => hrecords other (List.mem_cons_of_mem _ hother)) (by omega) hafter
      have hkept : kept = record :: records.take
          (framing.whole records (length - (framing.frame record).length)) := by
        simp only [kept, Framing.whole_cons_of_le hwhole, List.take_succ_cons]
      -- the offset has moved by the frame
      rw [hposition, Nat.add_assoc] at hcut
      rw [hkept, Framing.frames_cons, List.length_append, Framing.take_frames_of_le hwhole,
        hfound, hread]
      refine ⟨ending, rfl, fun hboundary => ?_, fun hboundary => hcut (by omega)⟩
      rw [hend (by omega), Checksum.update_append]
    · have hlt : length < (framing.frame record).length := Nat.lt_of_not_le hwhole
      have hkept : kept = [] := by
        simp only [kept, Framing.whole_cons_of_lt hlt, List.take_zero]
      rw [hkept, Framing.take_frames_of_lt hlt]
      rw [Framing.take_frames_of_lt hlt] at h
      rcases Nat.eq_zero_or_pos length with rfl | hpos
      · -- the cut is right here
        exact ⟨_, untilEnd_of_nil h, fun _ => rfl, fun hne => absurd rfl hne⟩
      · obtain ⟨failure, after, hnext, hclass⟩ := h.next_of_cut hexpresses hsize hlt hpos
        exact ⟨_, untilEnd_of_error hnext, fun hzero => absurd hzero (Nat.ne_of_lt hpos),
          fun _ => ⟨failure, rfl, hclass⟩⟩

/-- Of a number of records those in front of a cut are found; the next one is cut. -/
theorem counted_cut
    (hrecords : ∀ record ∈ records, framing.Expresses record.length ∧
      record.length < UInt64.size)
    (hlength : length < (framing.frames records).length)
    (h : reader.Stands framing checksum ((framing.frames records).take length))
    (total index : Nat) :
    ∃ ending, counted reader total index records.length =
        ⟨records.take (framing.whole records length), ending⟩ ∧
      RanOut (.readingRecord (index + framing.whole records length) total) ending := by
  -- along the records, up to the one that is cut
  induction records generalizing reader checksum length index with
  | nil => exact absurd hlength (Nat.not_lt_zero length)
  | cons record records ih =>
    obtain ⟨hexpresses, hsize⟩ := hrecords record List.mem_cons_self
    by_cases hwhole : (framing.frame record).length ≤ length
    · rw [Framing.take_frames_of_le hwhole] at h
      rw [Framing.frames_cons, List.length_append] at hlength
      obtain ⟨after, hread, hafter⟩ := h.readRecord_of_some
        (Framing.frame?_append hexpresses hsize _)
      obtain ⟨ending, hothers, hshort⟩ := ih
        (fun other hother => hrecords other (List.mem_cons_of_mem _ hother)) (by omega) hafter
        (index + 1)
      rw [Nat.add_assoc, Nat.add_comm 1] at hshort
      rw [List.length_cons, counted, hread, Framing.whole_cons_of_le hwhole, List.take_succ_cons]
      dsimp only
      rw [hothers]
      exact ⟨ending, rfl, hshort⟩
    · have hlt : length < (framing.frame record).length := Nat.lt_of_not_le hwhole
      rw [Framing.take_frames_of_lt hlt] at h
      obtain ⟨failure, after, hread, hclass⟩ := h.readRecord_of_cut hexpresses hsize hlt
      rw [List.length_cons, counted, hread, Framing.whole_cons_of_lt hlt]
      exact ⟨_, rfl, failure, rfl, hclass⟩

end

end Contents

/-! ## Files that are cut -/

namespace Kind

variable {kind : Kind} {records : List Bytes} {length n : Nat}

/-- Where the first `n` records of a file end. -/
def offset (kind : Kind) (records : List Bytes) (n : Nat) : Nat :=
  (kind.head records.length).length + (kind.framing.frames (records.take n)).length

/-- How many of the records of a file end within its first `length` bytes. -/
def whole (kind : Kind) (records : List Bytes) (length : Nat) : Nat :=
  kind.framing.whole records (length - (kind.head records.length).length)

/-- A record ends in front of a cut when it is one of the whole ones. -/
theorem lt_whole_iff (hn : n < records.length) :
    n < kind.whole records length ↔ kind.offset records (n + 1) ≤ length := by
  have hpos : 0 < (kind.framing.frames (records.take (n + 1))).length := by
    cases records with
    | nil => exact absurd hn (Nat.not_lt_zero n)
    | cons record records =>
      rw [List.take_succ_cons, Framing.frames_cons, List.length_append]
      exact Nat.add_pos_left (kind.framing.length_frame_pos record) _
  have hn : n + 1 ≤ records.length := hn
  rw [Nat.lt_iff_add_one_le, whole, Framing.le_whole_iff hn, offset]
  omega

theorem offset_mono (kind : Kind) (records : List Bytes) {m : Nat} (h : n ≤ m) :
    kind.offset records n ≤ kind.offset records m := by
  have hprefix : records.take n <+: records.take m := List.take_prefix_take_left h
  obtain ⟨rest, hrest⟩ := hprefix
  rw [offset, offset, ← hrest, Framing.frames_append, List.length_append]
  omega

/-- In a file without a count, a cut falls between two records when nothing is left of it behind
the whole ones. -/
theorem offset_whole_eq_iff (hframing : kind.framing = .fixed) :
    kind.offset records (kind.whole records length) = length ↔
      ∃ n ≤ records.length, kind.offset records n = length := by
  have hhead : kind.head records.length = [] := by rw [head, hframing]
  have hwhole : kind.offset records (kind.whole records length) ≤ length := by
    have hle := Framing.whole_le kind.framing records (length - (kind.head records.length).length)
    have hframes := (Framing.le_whole_iff hle).1 (Nat.le_refl _)
    rw [hhead, List.length_nil, Nat.sub_zero] at hframes
    rw [offset, whole, hhead, List.length_nil, Nat.zero_add, Nat.sub_zero]
    exact hframes
  constructor
  · exact fun h => ⟨_, Framing.whole_le _ _ _, h⟩
  · rintro ⟨n, hn, hoffset⟩
    -- the records up to the cut are among the whole ones
    have hframes : (kind.framing.frames (records.take n)).length ≤
        length - (kind.head records.length).length := by
      rw [offset] at hoffset
      omega
    have hmono := offset_mono kind records ((Framing.le_whole_iff hn).2 hframes)
    rw [hoffset] at hmono
    exact Nat.le_antisymm hwhole hmono

end Kind

namespace Contents

variable {kind : Kind} {records : List Bytes} {source : ByteSource} {length : Nat}

section

variable (h : source.Faithful) (hrest : source.rest = (kind.file records).take length)
variable (hlength : length < (kind.file records).length)
variable (hrecords : ∀ record ∈ records, kind.framing.Expresses record.length ∧
  record.length < UInt64.size)
include h hrest hlength hrecords

/-- A file without a count that is cut between two records ends well, and one that is cut inside a
record ends too early. -/
theorem ofStream_cut (hframing : kind.framing = .fixed) (hposition : source.position = 0) :
    ∃ ending, ofStream source = ⟨records.take (kind.whole records length), ending⟩ ∧
      ((∃ n ≤ records.length, kind.offset records n = length) →
        ending = .ok (crc32 ((kind.file records).take length))) ∧
      ((∀ n ≤ records.length, kind.offset records n ≠ length) →
        RanOut (.readingRecordAt (kind.offset records (kind.whole records length))) ending) := by
  have hstands := FrameReader.stands_create h kind.framing
  have hhead : kind.head records.length = [] := by rw [Kind.head, hframing]
  have hboundary := @Kind.offset_whole_eq_iff kind records length hframing
  rw [hrest] at hstands
  simp only [Kind.whole, Kind.offset, Kind.file, hhead, hframing, List.nil_append,
    List.length_nil, Nat.zero_add, Nat.sub_zero] at hstands hlength hrecords hboundary ⊢
  obtain ⟨ending, hread, hend, hcut⟩ := untilEnd_cut hrecords (Nat.le_of_lt hlength) hstands
  have hstart : (FrameReader.create .fixed source).position = 0 := hposition
  rw [hstart, Nat.zero_add] at hcut
  refine ⟨ending, hread, fun hcuts => ?_, fun hcuts => hcut fun hwhole => ?_⟩
  · exact hend (hboundary.2 hcuts)
  · obtain ⟨n, hn, hoffset⟩ := hboundary.1 hwhole
    exact hcuts n hn hoffset

/-- A file with a count ends too early wherever it is cut. -/
theorem ofCounted_cut (hframing : kind.framing = .varint) (hcount : records.length < UInt64.size) :
    ∃ ending, ofCounted source = ⟨records.take (kind.whole records length), ending⟩ ∧
      RanOut (if length < (kind.head records.length).length then .readingCount
        else .readingRecord (kind.whole records length) records.length) ending := by
  have hstands := FrameReader.stands_create h kind.framing
  have hhead : kind.head records.length = Framing.varint.headerBytes records.length := by
    rw [Kind.head, hframing]
    rfl
  rw [hrest, Kind.file, hframing, hhead, List.take_append] at hstands
  rw [Kind.file, List.length_append] at hlength
  rw [hframing] at hrecords
  by_cases hcut : length < (kind.head records.length).length
  · -- not even the count is read
    have hnone : length - (Framing.varint.headerBytes records.length).length = 0 := by
      rw [← hhead]
      omega
    rw [hnone, List.take_zero, List.append_nil] at hstands
    obtain ⟨failure, after, hread, hclass⟩ := hstands.readHeader_of_cut hcount (hhead ▸ hcut)
    have hwhole : kind.whole records length = 0 := by
      have hzero : length - (kind.head records.length).length = 0 := by omega
      rw [Kind.whole, hzero, Framing.whole_zero]
    rw [if_pos hcut, hwhole, List.take_zero]
    refine ⟨.error (.readingCount, failure), ?_, failure, rfl, hclass⟩
    simp only [ofCounted, FrameReader.readCount, hread]
    rfl
  · rw [List.take_of_length_le (hhead ▸ Nat.le_of_not_lt hcut)] at hstands
    obtain ⟨after, hread, hafter⟩ := hstands.readHeader_of_some
      (@Framing.header?_append .varint _ trivial hcount _)
    rw [if_neg hcut, Kind.whole, hframing]
    rw [hframing] at hlength
    obtain ⟨ending, hcontents, hshort⟩ := counted_cut hrecords (by omega)
      (hhead ▸ hafter) records.length 0
    rw [Nat.zero_add] at hshort
    refine ⟨ending, ?_, hshort⟩
    rw [← hcontents]
    simp only [ofCounted, FrameReader.readCount, hread]

end

/-- **What is found in a file that is cut.** The records are those in front of the cut. A file that
is cut between two records and has no count ends well, with the checksum of what is left of it; in
all other cases the data end too early, at the record or the count that is cut. -/
theorem ofKind_cut (h : source.Faithful) (hrest : source.rest = (kind.file records).take length)
    (hposition : source.position = 0) (hlength : length < (kind.file records).length)
    (hcount : records.length < UInt64.size)
    (hrecords : ∀ record ∈ records, kind.framing.Expresses record.length ∧
      record.length < UInt64.size) :
    ∃ ending, ofKind kind source = ⟨records.take (kind.whole records length), ending⟩ ∧
      (kind.framing = .fixed → (∃ n ≤ records.length, kind.offset records n = length) →
        ending = .ok (crc32 ((kind.file records).take length))) ∧
      (kind.framing = .fixed → (∀ n ≤ records.length, kind.offset records n ≠ length) →
        RanOut (.readingRecordAt (kind.offset records (kind.whole records length))) ending) ∧
      (kind.framing = .varint →
        RanOut (if length < (kind.head records.length).length then .readingCount
          else .readingRecord (kind.whole records length) records.length) ending) := by
  have hstream := fun hframing => ofStream_cut h hrest hlength hrecords hframing hposition
  have hcounted := fun hframing => ofCounted_cut h hrest hlength hrecords hframing hcount
  cases kind with
  | inode =>
    obtain ⟨ending, hread, hend, hcut⟩ := hstream rfl
    exact ⟨ending, hread, fun _ => hend, fun _ => hcut, fun h => absurd h (by decide)⟩
  | dentry =>
    obtain ⟨ending, hread, hend, hcut⟩ := hstream rfl
    exact ⟨ending, hread, fun _ => hend, fun _ => hcut, fun h => absurd h (by decide)⟩
  | extend =>
    obtain ⟨ending, hread, hcut⟩ := hcounted rfl
    exact ⟨ending, hread, fun h => absurd h (by decide), fun h => absurd h (by decide),
      fun _ => hcut⟩
  | multipart =>
    obtain ⟨ending, hread, hcut⟩ := hcounted rfl
    exact ⟨ending, hread, fun h => absurd h (by decide), fun h => absurd h (by decide),
      fun _ => hcut⟩

end Contents

end PartitionSnapshot
