import PartitionSnapshot.Proofs.Findings

/-!
# Draining a stream

The records of a stream are asked for one after the other, until the reader finds the end or fails.
That always comes to an end, in one way. It goes through just when the bytes are the records, each
behind its length in four bytes, and then the checksum is that of all bytes. All other bytes begin
with as many records as they can, and what follows these is not enough for one more.

## Main statements

* `FrameReader.exists_drains`, `FrameReader.Drains.unique`: draining a reader.
* `FrameReader.Drains.untilEnd`: it finds the contents of the file.
* `FrameReader.drains_stream`: what it comes to, for any bytes.
-/

namespace PartitionSnapshot

/-- The bytes are the records, each behind its length in four bytes. -/
def IsStream (bytes : Bytes) (records : List Bytes) : Prop :=
  (∀ record ∈ records, record.length < UInt32.size) ∧ bytes = Framing.fixed.frames records

theorem isStream_iff_covers {bytes : Bytes} {records : List Bytes} :
    IsStream bytes records ↔ Framing.fixed.Covers bytes records := by
  constructor
  · rintro ⟨hsizes, rfl⟩
    exact Framing.covers_frames fun record hrecord =>
      ⟨hsizes record hrecord, Nat.lt_trans (hsizes record hrecord) (by decide)⟩
  · intro h
    obtain ⟨hbytes, hsizes⟩ := Framing.frames_of_covers h
    exact ⟨hsizes, hbytes⟩

theorem IsStream.unique {bytes : Bytes} {records records' : List Bytes}
    (h : IsStream bytes records) (h' : IsStream bytes records') : records = records' := by
  have hnil : Framing.fixed.frame? [] = none := rfl
  exact ((isStream_iff_covers.1 h).unique (isStream_iff_covers.1 h') rfl hnil hnil).2

namespace FrameReader

/-! ## Asking for records -/

/-- The records that a reader returns when it is asked for the next one again and again, up to the
end or to a failure, and the reader then. -/
inductive Drains : FrameReader → List Bytes → Except Failure Unit → FrameReader → Prop
  | ended {reader after : FrameReader} (hnext : reader.next = (.ok none, after)) :
      Drains reader [] (.ok ()) after
  | failed {reader after : FrameReader} {failure : Failure}
      (hnext : reader.next = (.error failure, after)) : Drains reader [] (.error failure) after
  | record {reader mid after : FrameReader} {record : Bytes} {records : List Bytes}
      {ending : Except Failure Unit} (hnext : reader.next = (.ok (some record), mid))
      (hothers : Drains mid records ending after) : Drains reader (record :: records) ending after

variable {reader after after' : FrameReader} {records records' : List Bytes}
variable {ending ending' : Except Failure Unit}

/-- Any reader is drained in the end, well or not. -/
theorem exists_drains (reader : FrameReader) :
    ∃ records ending after, reader.Drains records ending after := by
  -- every record that is read leaves less, so the induction is on what is left
  induction hlength : reader.source.rest.length using Nat.strongRecOn generalizing reader
  rename_i length ih
  rcases hnext : reader.next with ⟨failure | record, mid⟩
  · exact ⟨_, _, _, .failed hnext⟩
  · cases record with
    | none => exact ⟨_, _, _, .ended hnext⟩
    | some record =>
      have hless : mid.source.rest.length < length := hlength ▸ length_rest_next hnext
      obtain ⟨records, ending, after, hothers⟩ := ih _ hless mid rfl
      exact ⟨_, _, _, .record hnext hothers⟩

theorem Drains.unique (h : reader.Drains records ending after)
    (h' : reader.Drains records' ending' after') :
    records = records' ∧ ending = ending' ∧ after = after' := by
  -- along the first run; what the reader answers decides how the second one goes on
  induction h generalizing records' with
  | ended hnext =>
    cases h' with
    | ended hnext' => cases hnext.symm.trans hnext'; exact ⟨rfl, rfl, rfl⟩
    | failed hnext' => cases hnext.symm.trans hnext'
    | record hnext' => cases hnext.symm.trans hnext'
  | failed hnext =>
    cases h' with
    | ended hnext' => cases hnext.symm.trans hnext'
    | failed hnext' => cases hnext.symm.trans hnext'; exact ⟨rfl, rfl, rfl⟩
    | record hnext' => cases hnext.symm.trans hnext'
  | record hnext _ ih =>
    cases h' with
    | ended hnext' => cases hnext.symm.trans hnext'
    | failed hnext' => cases hnext.symm.trans hnext'
    | record hnext' hothers' =>
      cases hnext.symm.trans hnext'
      obtain ⟨rfl, rfl, rfl⟩ := ih hothers'
      exact ⟨rfl, rfl, rfl⟩

/-- What is found in a file is what draining its reader returns. -/
theorem Drains.untilEnd (h : reader.Drains records ending after) :
    ∃ activity, Contents.untilEnd reader = ⟨records,
      match ending with
      | .ok () => .ok after.checksum.value
      | .error failure => .error (activity, failure)⟩ := by
  induction h with
  | ended hnext => exact ⟨.readingCount, Contents.untilEnd_of_end hnext⟩
  | failed hnext => exact ⟨_, Contents.untilEnd_of_error hnext⟩
  | record hnext _ ih =>
    obtain ⟨activity, hothers⟩ := ih
    refine ⟨activity, ?_⟩
    rw [Contents.untilEnd_of_record hnext, hothers]
    rfl

/-! ## What a reader has counted -/

theorem records_readHeader {n : Nat} (h : reader.readHeader = (.ok n, after)) :
    after.records = reader.records := by
  simp only [readHeader] at h
  split at h
  · cases h
    rfl
  · cases h

theorem records_readRecord {record : Bytes} (h : reader.readRecord = (.ok record, after)) :
    after.records = reader.records + 1 := by
  simp only [readRecord] at h
  split at h
  · cases h
  · next hheader =>
    split at h
    · cases h
    · cases h
      simp only [records_readHeader hheader]

theorem records_next {record : Option Bytes} (h : reader.next = (.ok record, after)) :
    after.records = reader.records + record.toList.length := by
  simp only [next] at h
  split at h
  · cases h
  · cases h
    rfl
  · split at h
    · cases h
    · next hrecord =>
      cases h
      have hcount := records_readRecord hrecord
      exact hcount

theorem Drains.records_eq (h : reader.Drains records (.ok ()) after) :
    after.records = reader.records + records.length := by
  generalize hending : Except.ok () = ending at h
  -- along the run, counting one record at a time
  induction h with
  | ended hnext => exact records_next hnext
  | failed hnext => cases hending
  | record hnext _ ih =>
    rw [ih hending, records_next hnext, List.length_cons]
    exact Nat.add_right_comm _ 1 _

/-! ## Where a reader stands at the end -/

section

variable {framing : Framing} {checksum : Checksum} {rest : Bytes}

/-- A record is returned only where its frame is in front. -/
theorem Stands.of_next_some (h : reader.Stands framing checksum rest) {record : Bytes}
    (hnext : reader.next = (.ok (some record), after)) : ∃ front rest',
    rest = front ++ rest' ∧ after.Stands framing (checksum.update front) rest' := by
  by_cases hrest : rest = []
  · subst hrest
    obtain ⟨after', hnext', -⟩ := h.next_of_nil
    cases hnext.symm.trans hnext'
  · cases hframe : framing.frame? rest with
    | none =>
      obtain ⟨failure, after', hnext'⟩ := h.next_of_none hrest hframe
      cases hnext.symm.trans hnext'
    | some frame =>
      obtain ⟨record', front, rest'⟩ := frame
      obtain ⟨after', hnext', hafter⟩ := h.next_of_some hrest hframe
      cases hnext.symm.trans hnext'
      exact ⟨front, rest', (Framing.frame?_eq_some_iff.1 hframe).2, hafter⟩

/-- The end is found only where nothing is left. -/
theorem Stands.of_next_none (h : reader.Stands framing checksum rest)
    (hnext : reader.next = (.ok none, after)) : rest = [] ∧ after.Stands framing checksum [] := by
  by_cases hrest : rest = []
  · subst hrest
    obtain ⟨after', hnext', hafter⟩ := h.next_of_nil
    cases hnext.symm.trans hnext'
    exact ⟨rfl, hafter⟩
  · cases hframe : framing.frame? rest with
    | none =>
      obtain ⟨failure, after', hnext'⟩ := h.next_of_none hrest hframe
      cases hnext.symm.trans hnext'
    | some frame =>
      obtain ⟨after', hnext', -⟩ := h.next_of_some hrest hframe
      cases hnext.symm.trans hnext'

/-- A reader that has found the end has consumed and signed all that was left. -/
theorem Drains.stands (h : reader.Drains records (.ok ()) after)
    (hreader : reader.Stands framing checksum rest) :
    after.Stands framing (checksum.update rest) [] ∧
      after.position = reader.position + rest.length := by
  generalize hending : Except.ok () = ending at h
  -- along the run: the frame of one record, and behind it what is left for the others
  induction h generalizing checksum rest with
  | ended hnext =>
    obtain ⟨rfl, hafter⟩ := hreader.of_next_none hnext
    have hposition := position_next hnext
    rw [hafter.left, hreader.left] at hposition
    exact ⟨hafter, hposition⟩
  | failed hnext => cases hending
  | record hnext _ ih =>
    obtain ⟨front, rest', rfl, hmid⟩ := hreader.of_next_some hnext
    obtain ⟨hafter, hend⟩ := ih hmid hending
    have hposition := position_next hnext
    rw [hmid.left, hreader.left, List.length_append] at hposition
    rw [Checksum.update_append, List.length_append]
    exact ⟨hafter, by omega⟩

end

/-! ## Streams -/

section

variable {source : ByteSource} {bytes : Bytes}

theorem Drains.isStream (h : source.Over bytes 1)
    (hdrains : (create .fixed source).Drains records (.ok ()) after) : IsStream bytes records := by
  obtain ⟨activity, hread⟩ := hdrains.untilEnd
  have hstands := stands_create h.faithful .fixed
  rw [h.rest] at hstands
  exact isStream_iff_covers.2 ((Contents.untilEnd_eq_ok hstands).1 hread).1

/-- A stream is drained well, and in no other way. -/
theorem drains_iff_isStream (h : source.Over bytes 1) :
    (∃ after, (create .fixed source).Drains records (.ok ()) after) ↔ IsStream bytes records := by
  refine ⟨fun ⟨after, hdrains⟩ => hdrains.isStream h, fun hstream => ?_⟩
  have hstands := stands_create h.faithful .fixed
  rw [h.rest] at hstands
  have hread := (Contents.untilEnd_eq_ok hstands).2 ⟨isStream_iff_covers.1 hstream, rfl⟩
  -- the one run there is returns what is found in the file
  obtain ⟨records', ending, after, hdrains⟩ := exists_drains (create .fixed source)
  obtain ⟨activity, hfound⟩ := hdrains.untilEnd
  obtain rfl : records = records' := congrArg Contents.records (hread.symm.trans hfound)
  cases ending with
  | ok done => exact ⟨after, hdrains⟩
  | error failure => cases hread.symm.trans hfound

/-- Bytes that are no stream begin with the records that are returned, and with no more than these;
what follows them ends too early. -/
theorem drains_of_not_isStream (h : source.Over bytes 1)
    (hdrains : (create .fixed source).Drains records ending after)
    (hnone : ∀ others, ¬ IsStream bytes others) :
    (∃ failure, ending = .error failure ∧ failure.classify = .endOfData) ∧
      (∃ front, front <+: bytes ∧ IsStream front records) ∧
      ∀ front others, front <+: bytes → IsStream front others → others <+: records := by
  have hstands := stands_create h.faithful .fixed
  rw [h.rest] at hstands
  obtain ⟨activity, hfound⟩ := hdrains.untilEnd
  obtain ⟨front, behind, _, _, rfl, hcovers, hread, hending⟩ := Contents.untilEnd_frames hstands
  cases ending with
  | ok done => exact absurd (hdrains.isStream h) (hnone records)
  | error failure =>
    cases hread.symm.trans hfound
    rcases hending with ⟨-, hok⟩ | ⟨-, hframe, failure', hbreaks, herror⟩
    · cases hok
    · cases herror
      refine ⟨⟨failure, rfl, hbreaks.endOfData⟩,
        ⟨front, List.prefix_append _ _, isStream_iff_covers.2 hcovers⟩, ?_⟩
      rintro front' others ⟨behind', hsame⟩ hstream
      exact (hcovers.furthest (isStream_iff_covers.1 hstream) hsame.symm hframe).1

/-- **What draining a stream comes to.** There is one run, whatever the bytes are and in whichever
way they are read. It goes through with some records just when the bytes are these, each behind its
length; the records are then unique, and they are counted, all bytes are signed and all of them are
consumed. From any other bytes the run returns the records that they begin with, as many as there
are, and then the data end too early. -/
theorem drains_stream (h : source.Over bytes 1) :
    (∃ records ending after, (create .fixed source).Drains records ending after ∧
      ∀ records' ending' after', (create .fixed source).Drains records' ending' after' →
        records' = records ∧ ending' = ending ∧ after' = after) ∧
    (∀ records, (∃ after, (create .fixed source).Drains records (.ok ()) after) ↔
      IsStream bytes records) ∧
    (∀ records after, (create .fixed source).Drains records (.ok ()) after →
      (∀ others, IsStream bytes others → others = records) ∧ after.records = records.length ∧
        after.checksum.value = crc32 bytes ∧ after.position = bytes.length) ∧
    ((∀ others, ¬ IsStream bytes others) → ∃ records failure after,
      (create .fixed source).Drains records (.error failure) after ∧
        failure.classify = .endOfData ∧ (∃ front, front <+: bytes ∧ IsStream front records) ∧
        ∀ front others, front <+: bytes → IsStream front others → others <+: records) := by
  obtain ⟨found, ending, last, hrun⟩ := exists_drains (create .fixed source)
  refine ⟨⟨found, ending, last, hrun, fun _ _ _ hdrains => hdrains.unique hrun⟩,
    fun records => drains_iff_isStream h, fun records after hdrains => ?_, fun hnone => ?_⟩
  · have hstands := stands_create h.faithful .fixed
    rw [h.rest] at hstands
    obtain ⟨hafter, hposition⟩ := hdrains.stands hstands
    refine ⟨fun others hothers => hothers.unique (hdrains.isStream h), ?_, ?_, ?_⟩
    · rw [hdrains.records_eq]
      exact Nat.zero_add _
    · rw [hafter.signed]
      rfl
    · have hstart : (create .fixed source).position = 0 := h.position
      rw [hposition, hstart, Nat.zero_add]
  · obtain ⟨⟨failure, rfl, hclass⟩, hfront, hfurthest⟩ := drains_of_not_isStream h hrun hnone
    exact ⟨found, failure, last, hrun, hclass, hfront, hfurthest⟩

/-- A stream of two records, and one whose second record is torn, through a buffer of two bytes. -/
theorem drains_stream_torn :
    let whole : Bytes := [0, 0, 0, 1, 7, 0, 0, 0, 0]
    let torn : Bytes := [0, 0, 0, 1, 7, 0, 0, 0, 9, 1]
    (∃ after, (create .fixed (.ofBuffered 2 (some 9) whole)).Drains [[7], []] (.ok ()) after ∧
      after.records = 2 ∧ after.checksum.value = crc32 whole ∧ after.position = 9) ∧
    ∃ failure after, (create .fixed (.ofBuffered 2 none torn)).Drains [[7]] (.error failure) after ∧
      failure.classify = .endOfData ∧
      ∀ front others, front <+: torn → IsStream front others → others <+: [[7]] := by
  intro whole torn
  have hwhole : (ByteSource.ofBuffered 2 (some 9) whole).Over whole 1 :=
    .buffered (by decide) fun length hlength => by cases hlength; rfl
  have htorn : (ByteSource.ofBuffered 2 none torn).Over torn 1 := .buffered (by decide) nofun
  constructor
  · have hstream : IsStream whole [[7], []] := ⟨by decide, by decide⟩
    obtain ⟨-, haccepts, hends, -⟩ := drains_stream hwhole
    obtain ⟨after, hdrains⟩ := (haccepts _).2 hstream
    exact ⟨after, hdrains, (hends _ _ hdrains).2⟩
  · obtain ⟨-, haccepts, -, hbreaks⟩ := drains_stream htorn
    have hframe : Framing.fixed.frame? torn = some ([7], [0, 0, 0, 1, 7], [0, 0, 0, 9, 1]) := by
      decide
    obtain ⟨mid, hfirst, hmid⟩ :=
      (stands_create htorn.faithful .fixed).next_of_some (List.cons_ne_nil _ _) hframe
    obtain ⟨failure, last, hsecond⟩ := hmid.next_of_none (List.cons_ne_nil _ _) (by decide)
    have hdrains : (create .fixed (.ofBuffered 2 none torn)).Drains [[7]] (.error failure) last :=
      .record hfirst (.failed hsecond)
    -- bytes that are drained to a failure are no stream
    have hnone (others : List Bytes) : ¬ IsStream torn others := fun hstream => by
      obtain ⟨after, hwell⟩ := (haccepts others).2 hstream
      exact nomatch (hwell.unique hdrains).2.1
    obtain ⟨records, failure, after, hrun, hclass, -, hfurthest⟩ := hbreaks hnone
    obtain ⟨rfl, -, -⟩ := hrun.unique hdrains
    exact ⟨failure, after, hrun, hclass, hfurthest⟩

end

end FrameReader

end PartitionSnapshot
