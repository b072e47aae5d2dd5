import PartitionSnapshot.Proofs.Contents

/-!
# Ways of reading are alike

A source in memory and a buffered one find the end of a file in different ways, and say different
things of it. What an operation makes of a reading is the same: either both hand over the same bytes
and stand at the same offset afterwards, or both fail, and the error of the operation that meets the
failures is one error. Sources that stand so beside each other are *alike*, and so are the readers
over them and the contents that these find.

The delicate case is a variable-length number that cannot be read. In memory it is known whether the
data end inside it; a buffered source fails by running out of data just in that case.

## Main statements

* `ByteSource.Alike.read`, `ByteSource.Alike.readVarint`, `ByteSource.Alike.isExhausted`: sources
  stay alike.
* `FrameReader.Alike.next`, `FrameReader.Alike.readRecord`: so do readers.
* `Contents.alike_ofKind`: what is found in a file is alike, however it is read.
-/

namespace PartitionSnapshot

/-! ## Failures that mean the same -/

/-- Every operation that meets one of the failures in reading ends in the error that the other would
have led to. -/
def Failure.Alike (failure failure' : Failure) : Prop :=
  ∀ (context : Context) (activity : Activity),
    context.reading activity failure = context.reading activity failure'

theorem Failure.alike_of_endOfData {failure failure' : Failure}
    (h : failure.classify = .endOfData) (h' : failure'.classify = .endOfData) :
    failure.Alike failure' := by
  intro context activity
  simp only [Context.reading, h, h']

/-- Two readings come to the same: the same value, and what is left is related; or failures that are
alike. -/
inductive Readings {α τ : Type} (Related : τ → τ → Prop) :
    Except Failure α × τ → Except Failure α × τ → Prop
  | ok (value : α) {after after' : τ} (h : Related after after') :
    Readings Related (.ok value, after) (.ok value, after')
  | error {failure failure' : Failure} (h : failure.Alike failure') (after after' : τ) :
    Readings Related (.error failure, after) (.error failure', after')

/-! ## Numbers that end too early -/

namespace Varint

/-- Whether data end inside the groups of a number: fewer than `limit` are left, and none of them is
the last of the number. -/
def isCut (limit : Nat) (bytes : Bytes) : Bool := bytes.length < limit && bytes.all (0x80 ≤ ·)

theorem isCut_cons {limit : Nat} {group : UInt8} (h : ¬ group < 0x80) (rest : Bytes) :
    isCut (limit + 1) (group :: rest) = isCut limit rest := by
  simp only [isCut, List.length_cons, List.all_cons, decide_eq_true (UInt8.not_lt.1 h),
    Bool.true_and, Nat.add_lt_add_iff_right]

theorem isCut_cons_of_lt {limit : Nat} {group : UInt8} (h : group < 0x80) (rest : Bytes) :
    isCut limit (group :: rest) = false := by
  have hgroup : ¬ 0x80 ≤ group := UInt8.not_le.2 h
  simp only [isCut, List.all_cons, decide_eq_false hgroup, Bool.false_and, Bool.and_false]

end Varint

/-! ## Buffered sources -/

namespace BufferedSource

variable {source after : BufferedSource}

/-- A reading that fails has met the end of the data. -/
theorem classify_read {n : Nat} {failure : Failure} (h : source.read n = (.error failure, after)) :
    failure.classify = .endOfData := by
  unfold read at h
  split at h
  · cases h
    rfl
  · dsimp only at h
    split at h
    · cases h
    · cases h
      rfl

theorem position_read {n : Nat} {bytes : Bytes} (h : source.read n = (.ok bytes, after)) :
    after.position = source.position + n := by
  unfold read at h
  split at h
  · cases h
  · dsimp only at h
    split at h
    · cases h
      rfl
    · cases h

theorem position_collect {limit : Nat} {groups : Bytes}
    (h : source.collect limit = (.ok (), groups, after)) :
    after.position = source.position + groups.length := by
  -- along the limit, one group at a time
  induction limit generalizing source groups with
  | zero =>
    cases h
    rfl
  | succ limit ih =>
    simp only [collect] at h
    split at h
    · cases h
    · next bytes mid hread =>
      have hmid := position_read hread
      have hone := (length_rest_read hread).1
      split at h
      · cases h
        rw [hmid, hone]
      · rcases hmore : mid.collect limit with ⟨result, more, last⟩
        rw [hmore] at h
        cases h
        rw [ih hmore, hmid, List.length_append, hone, Nat.add_assoc]

/-- Where the data end inside a number, collecting its groups meets the end. -/
theorem Honest.collect_of_isCut (h : source.Honest) {limit : Nat}
    (hcut : Varint.isCut limit source.rest = true) : ∃ failure groups after,
      source.collect limit = (.error failure, groups, after) ∧ failure.classify = .endOfData := by
  -- along the limit; with no byte left the next reading fails
  induction limit generalizing source with
  | zero => simp [Varint.isCut] at hcut
  | succ limit ih =>
    cases hrest : source.rest with
    | nil =>
      obtain ⟨failure, after, hread⟩ := read_of_lt (n := 1) (by rw [hrest]; simp)
      exact ⟨failure, [], after, by simp only [collect, hread], classify_read hread⟩
    | cons group tail =>
      have hfirst : source.rest = [group] ++ tail := hrest
      obtain ⟨mid, hread, hmid⟩ := h.read_of_append hfirst
      have hread : source.read 1 = (.ok [group], mid) := hread
      by_cases hlast : group < 0x80
      · rw [hrest, Varint.isCut_cons_of_lt hlast] at hcut
        cases hcut
      · rw [hrest, Varint.isCut_cons hlast, ← hmid.rest] at hcut
        obtain ⟨failure, groups, after, hcollect, hclass⟩ := ih hmid.honest hcut
        exact ⟨failure, group :: groups, after, by simp [collect, hread, hlast, hcollect], hclass⟩

/-- Where the data do not end inside a number, as many groups are collected as are wanted. -/
theorem Honest.collect_of_not_isCut (h : source.Honest) {limit : Nat}
    (hcut : Varint.isCut limit source.rest = false) : ∃ groups after,
      source.collect limit = (.ok (), groups, after) := by
  induction limit generalizing source with
  | zero => exact ⟨[], source, rfl⟩
  | succ limit ih =>
    cases hrest : source.rest with
    | nil => simp [hrest, Varint.isCut] at hcut
    | cons group tail =>
      have hfirst : source.rest = [group] ++ tail := hrest
      obtain ⟨mid, hread, hmid⟩ := h.read_of_append hfirst
      have hread : source.read 1 = (.ok [group], mid) := hread
      by_cases hlast : group < 0x80
      · exact ⟨[group], mid, by simp [collect, hread, hlast]⟩
      · rw [hrest, Varint.isCut_cons hlast, ← hmid.rest] at hcut
        obtain ⟨groups, after, hcollect⟩ := ih hmid.honest hcut
        exact ⟨group :: groups, after, by simp [collect, hread, hlast, hcollect]⟩

end BufferedSource

/-! ## Any source -/

namespace ByteSource

section

variable {source after : ByteSource}

theorem position_read {n : Nat} {bytes : Bytes} (h : source.read n = (.ok bytes, after)) :
    after.position = source.position + n := by
  cases source with
  | slice source =>
    simp only [read, SliceSource.read] at h
    split at h
    · cases h
      rfl
    · cases h
  | buffered source =>
    simp only [read, Prod.mk.injEq] at h
    obtain ⟨hok, rfl⟩ := h
    exact BufferedSource.position_read (Prod.ext hok rfl)
  | unreadable failure => cases h

theorem position_readVarint {n : Nat} {groups : Bytes}
    (h : source.readVarint = (.ok n, groups, after)) :
    after.position = source.position + groups.length := by
  cases source with
  | slice source =>
    simp only [readVarint, SliceSource.readVarint] at h
    split at h
    · cases h
      rfl
    · cases h
  | buffered source =>
    simp only [readVarint, BufferedSource.readVarint] at h
    -- the groups were collected before the number was found in them
    rcases hcollect : source.collect Varint.maxGroups with ⟨failure | ⟨⟩, looked, mid⟩
    · rw [hcollect] at h
      cases h
    · rw [hcollect] at h
      dsimp only at h
      split at h
      · cases h
        exact BufferedSource.position_collect hcollect
      · cases h
  | unreadable failure => cases h

theorem position_isExhausted (source : ByteSource) :
    source.isExhausted.2.position = source.position := by
  cases source with
  | slice source => rfl
  | buffered source =>
    show source.fill.position = source.position
    unfold BufferedSource.fill
    split <;> rfl
  | unreadable failure => rfl

/-- A reading that fails has met the end of the data. -/
theorem Honest.classify_read (h : source.Honest) {n : Nat} {failure : Failure}
    (hread : source.read n = (.error failure, after)) : failure.classify = .endOfData := by
  cases source with
  | slice source =>
    simp only [read, SliceSource.read] at hread
    split at hread
    · cases hread
    · cases hread
      rfl
  | buffered source =>
    simp only [read, Prod.mk.injEq] at hread
    obtain ⟨herror, rfl⟩ := hread
    exact BufferedSource.classify_read (Prod.ext herror rfl)
  | unreadable failure => exact h.elim

/-- A number that is not read is cut off by the end of the data, or it is malformed. -/
theorem Honest.classify_readVarint (h : source.Honest) {failure : Failure} {groups : Bytes}
    (hread : source.readVarint = (.error failure, groups, after)) :
    (Varint.isCut Varint.maxGroups source.rest = true ∧ failure.classify = .endOfData) ∨
      (Varint.isCut Varint.maxGroups source.rest = false ∧ failure = .badVarint false) := by
  cases source with
  | slice source =>
    simp only [readVarint, SliceSource.readVarint] at hread
    split at hread
    · cases hread
    · cases hread
      -- what is in memory is looked through for the end of the number
      rw [← Varint.isCut.eq_1 Varint.maxGroups source.rest]
      cases hcut : Varint.isCut Varint.maxGroups source.rest with
      | true => exact .inl ⟨hcut, rfl⟩
      | false => exact .inr ⟨hcut, rfl⟩
  | buffered source =>
    cases hcut : Varint.isCut Varint.maxGroups source.rest with
    | true =>
      obtain ⟨failure', groups', after', hcollect, hclass⟩ :=
        BufferedSource.Honest.collect_of_isCut h hcut
      simp only [readVarint, BufferedSource.readVarint, hcollect] at hread
      cases hread
      exact .inl ⟨hcut, hclass⟩
    | false =>
      obtain ⟨groups', after', hcollect⟩ := BufferedSource.Honest.collect_of_not_isCut h hcut
      simp only [readVarint, BufferedSource.readVarint, hcollect] at hread
      -- the groups are there, and are no number
      cases hdecode : Varint.decode? groups' with
      | some decoded =>
        rw [hdecode] at hread
        cases hread
      | none =>
        rw [hdecode] at hread
        cases hread
        exact .inr ⟨hcut, rfl⟩
  | unreadable failure => exact h.elim

end

/-- Two sources before the same bytes, at the same offset, that hand over all of these. -/
structure Alike (source source' : ByteSource) : Prop where
  faithful : source.Faithful
  faithful' : source'.Faithful
  rest : source.rest = source'.rest
  position : source.position = source'.position

namespace Alike

variable {source source' : ByteSource}

theorem read (h : source.Alike source') (n : Nat) :
    Readings Alike (source.read n) (source'.read n) := by
  by_cases hn : n ≤ source.rest.length
  · -- both hand over the first `n` bytes
    have hlength : (source.rest.take n).length = n := List.length_take_of_le hn
    have hsplit : source.rest = source.rest.take n ++ source.rest.drop n :=
      (List.take_append_drop n source.rest).symm
    obtain ⟨after, hread, hafter, hrest⟩ := read_of_append h.faithful hsplit
    obtain ⟨after', hread', hafter', hrest'⟩ :=
      read_of_append h.faithful' (h.rest.symm.trans hsplit)
    rw [hlength] at hread
    rw [hlength] at hread'
    rw [hread, hread']
    refine .ok _ ⟨hafter, hafter', hrest.trans hrest'.symm, ?_⟩
    rw [position_read hread, position_read hread', h.position]
  · obtain ⟨failure, after, hread⟩ := h.faithful.honest.read_of_lt (Nat.lt_of_not_le hn)
    obtain ⟨failure', after', hread'⟩ :=
      h.faithful'.honest.read_of_lt (h.rest ▸ Nat.lt_of_not_le hn)
    rw [hread, hread']
    exact .error (Failure.alike_of_endOfData (h.faithful.honest.classify_read hread)
      (h.faithful'.honest.classify_read hread')) _ _

theorem readVarint (h : source.Alike source') :
    Readings (fun after after' => after.1 = after'.1 ∧ after.2.Alike after'.2)
      source.readVarint source'.readVarint := by
  cases hdecode : Varint.decode? source.rest with
  | some decoded =>
    obtain ⟨n, groups, rest⟩ := decoded
    obtain ⟨after, hread, hafter, hrest⟩ := readVarint_of_some h.faithful hdecode
    obtain ⟨after', hread', hafter', hrest'⟩ := readVarint_of_some h.faithful' (h.rest ▸ hdecode)
    rw [hread, hread']
    refine .ok n ⟨rfl, hafter, hafter', hrest.trans hrest'.symm, ?_⟩
    rw [position_readVarint hread, position_readVarint hread', h.position]
  | none =>
    obtain ⟨failure, groups, after, hread⟩ := h.faithful.honest.readVarint_of_none hdecode
    obtain ⟨failure', groups', after', hread'⟩ :=
      h.faithful'.honest.readVarint_of_none (h.rest ▸ hdecode)
    rw [hread, hread']
    refine .error ?_ _ _
    -- the bytes decide whether the data end inside the number, for both sources
    rcases h.faithful.honest.classify_readVarint hread with ⟨hcut, hclass⟩ | ⟨hcut, rfl⟩
    · rcases h.faithful'.honest.classify_readVarint hread' with ⟨-, hclass'⟩ | ⟨hcut', -⟩
      · exact Failure.alike_of_endOfData hclass hclass'
      · rw [← h.rest, hcut] at hcut'
        cases hcut'
    · rcases h.faithful'.honest.classify_readVarint hread' with ⟨hcut', -⟩ | ⟨-, rfl⟩
      · rw [← h.rest, hcut] at hcut'
        cases hcut'
      · exact fun _ _ => rfl

theorem isExhausted (h : source.Alike source') :
    Readings Alike source.isExhausted source'.isExhausted := by
  have hposition := position_isExhausted source
  have hposition' := position_isExhausted source'
  obtain ⟨after, hexhausted, hafter, hrest⟩ := isExhausted_eq h.faithful
  obtain ⟨after', hexhausted', hafter', hrest'⟩ := isExhausted_eq h.faithful'
  rw [hexhausted] at hposition
  rw [hexhausted'] at hposition'
  rw [hexhausted, hexhausted', ← h.rest]
  exact .ok _ ⟨hafter, hafter', by rw [hrest, hrest', h.rest],
    hposition.trans (h.position.trans hposition'.symm)⟩

end Alike

end ByteSource

/-! ## Readers -/

theorem Framing.alike_readHeader (framing : Framing) {source source' : ByteSource}
    (h : source.Alike source') :
    Readings (fun after after' => after.1 = after'.1 ∧ after.2.Alike after'.2)
      (framing.readHeader source) (framing.readHeader source') := by
  cases framing with
  | varint => exact h.readVarint
  | fixed =>
    have hread := h.read 4
    unfold readHeader
    generalize source.read 4 = reading at hread
    generalize source'.read 4 = reading' at hread
    cases hread with
    | ok bytes hafter => exact .ok _ ⟨rfl, hafter⟩
    | error hfailure after after' => exact .error hfailure _ _

namespace FrameReader

/-- Two readers over sources that are alike, which have signed the same. -/
structure Alike (reader reader' : FrameReader) : Prop where
  framing : reader.framing = reader'.framing
  source : reader.source.Alike reader'.source
  checksum : reader.checksum = reader'.checksum

namespace Alike

variable {reader reader' : FrameReader}

theorem readHeader (h : reader.Alike reader') :
    Readings Alike reader.readHeader reader'.readHeader := by
  have hheader := Framing.alike_readHeader reader.framing h.source
  unfold FrameReader.readHeader
  rw [← h.framing]
  generalize reader.framing.readHeader reader.source = reading at hheader
  generalize reader.framing.readHeader reader'.source = reading' at hheader
  cases hheader with
  | ok n hafter =>
    obtain ⟨hbytes, hsource⟩ := hafter
    exact .ok n ⟨rfl, hsource, by simp only [hbytes, h.checksum]⟩
  | error hfailure after after' => exact .error hfailure _ _

theorem readRecord (h : reader.Alike reader') :
    Readings Alike reader.readRecord reader'.readRecord := by
  have hheader := h.readHeader
  unfold FrameReader.readRecord
  generalize reader.readHeader = header at hheader
  generalize reader'.readHeader = header' at hheader
  cases hheader with
  | error hfailure after after' => exact .error hfailure _ _
  | @ok length after after' hafter =>
    -- behind the header stand as many bytes as it says, or not
    have hread := hafter.source.read length
    dsimp only
    generalize after.source.read length = reading at hread
    generalize after'.source.read length = reading' at hread
    cases hread with
    | ok record hsource =>
      exact .ok record ⟨hafter.framing, hsource, by simp only [hafter.checksum]⟩
    | error hfailure source source' => exact .error hfailure _ _

theorem next (h : reader.Alike reader') : Readings Alike reader.next reader'.next := by
  have hexhausted := h.source.isExhausted
  unfold FrameReader.next
  generalize reader.source.isExhausted = reading at hexhausted
  generalize reader'.source.isExhausted = reading' at hexhausted
  cases hexhausted with
  | error hfailure after after' => exact .error hfailure _ _
  | @ok exhausted source source' hsource =>
    have hmid : Alike { reader with source } { reader' with source := source' } :=
      ⟨h.framing, hsource, h.checksum⟩
    cases exhausted with
    | true => exact .ok none hmid
    | false =>
      have hrecord := hmid.readRecord
      dsimp only
      generalize ({ reader with source } : FrameReader).readRecord = reading at hrecord
      generalize ({ reader' with source := source' } : FrameReader).readRecord = reading'
        at hrecord
      cases hrecord with
      | ok record hafter => exact .ok (some record) hafter
      | error hfailure after after' => exact .error hfailure _ _

end Alike

end FrameReader

/-! ## Contents -/

namespace Contents

/-- The checksum of the file, or the error of the operation that reads it. -/
def result (contents : Contents) (context : Context) : Except Error UInt32 :=
  contents.ending.mapError fun stop => context.reading stop.1 stop.2

/-- Contents with the same records, which end in the same checksum or in the same error. -/
def Alike (contents contents' : Contents) : Prop :=
  contents.records = contents'.records ∧
    ∀ context, contents.result context = contents'.result context

theorem Alike.cons {contents contents' : Contents} (h : contents.Alike contents')
    (record : Bytes) : (Contents.cons record contents).Alike (Contents.cons record contents') :=
  ⟨congrArg (record :: ·) h.1, h.2⟩

theorem alike_error {failure failure' : Failure} (h : failure.Alike failure')
    (activity : Activity) :
    (none (.error (activity, failure))).Alike (none (.error (activity, failure'))) :=
  ⟨rfl, fun context => congrArg Except.error (h context activity)⟩

variable {reader reader' : FrameReader}

/-- Readers that are alike find alike contents up to the end. -/
theorem alike_untilEnd (h : reader.Alike reader') : (untilEnd reader).Alike (untilEnd reader') := by
  -- every record that is read leaves less, so the induction is on what is left
  induction hlength : reader.source.rest.length using Nat.strongRecOn
    generalizing reader reader'
  rename_i length ih
  have hnext := h.next
  rcases hreading : reader.next with ⟨failure | found, after⟩
  · rcases hreading' : reader'.next with ⟨failure' | found', after'⟩
    · rw [hreading, hreading'] at hnext
      cases hnext with
      | error hfailure =>
        -- both stopped at the same offset
        rw [untilEnd_of_error hreading, untilEnd_of_error hreading', FrameReader.position,
          FrameReader.position, h.source.position]
        exact alike_error hfailure _
    · rw [hreading, hreading'] at hnext
      cases hnext
  · rcases hreading' : reader'.next with ⟨failure' | found', after'⟩
    · rw [hreading, hreading'] at hnext
      cases hnext
    · rw [hreading, hreading'] at hnext
      cases hnext with
      | ok value hafter =>
        cases found with
        | none =>
          rw [untilEnd_of_end hreading, untilEnd_of_end hreading', hafter.checksum]
          exact ⟨rfl, fun _ => rfl⟩
        | some record =>
          have hlt := FrameReader.length_rest_next hreading
          rw [untilEnd_of_record hreading, untilEnd_of_record hreading']
          exact (ih after.source.rest.length (hlength ▸ hlt) hafter rfl).cons record

/-- Readers that are alike find alike contents in the records of a count. -/
theorem alike_counted (h : reader.Alike reader') (total index left : Nat) :
    (counted reader total index left).Alike (counted reader' total index left) := by
  -- along the records that are still to come
  induction left generalizing reader reader' index with
  | zero => exact ⟨rfl, fun _ => by simp only [counted, h.checksum]⟩
  | succ left ih =>
    have hrecord := h.readRecord
    unfold counted
    generalize reader.readRecord = reading at hrecord
    generalize reader'.readRecord = reading' at hrecord
    cases hrecord with
    | ok record hafter => exact (ih hafter (index + 1)).cons record
    | error hfailure after after' => exact alike_error hfailure _

/-- **What is found in a file does not depend on how it is read**: neither the records, nor the
checksum, nor the error. -/
theorem alike_ofKind {source source' : ByteSource} (h : source.Alike source') (kind : Kind) :
    (ofKind kind source).Alike (ofKind kind source') := by
  have hcreate (framing : Framing) :
      (FrameReader.create framing source).Alike (.create framing source') :=
    ⟨rfl, h, rfl⟩
  have hstream : (ofStream source).Alike (ofStream source') := alike_untilEnd (hcreate .fixed)
  have hcounted : (ofCounted source).Alike (ofCounted source') := by
    have hcount := (hcreate .varint).readHeader
    unfold ofCounted FrameReader.readCount
    generalize (FrameReader.create .varint source).readHeader = reading at hcount
    generalize (FrameReader.create .varint source').readHeader = reading' at hcount
    cases hcount with
    | ok count hafter => exact alike_counted hafter count 0 count
    | error hfailure after after' => exact alike_error hfailure _
  cases kind with
  | inode => exact hstream
  | dentry => exact hstream
  | extend => exact hcounted
  | multipart => exact hcounted

end Contents

end PartitionSnapshot
