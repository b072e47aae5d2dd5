import PartitionSnapshot.Proofs.Codec
import PartitionSnapshot.Store.Save

/-!
# What is written into entity files

An entity file is the frames of its records, one after the other, behind their count where the kind
asks for one. A writer that is handed records writes just that, and its running checksum is at all
times the checksum of what it has written.

Which records are written is a matter of the kind: records of inodes have to decode, and what is
written then is the record as it came; records of inodes and dentries have to have a length that
four bytes express; all others are written.

## Main statements

* `FrameWriter.written_addAll`, `FrameWriter.Signed.addAll`: what a writer has written, and its
  checksum.
* `writes_writeInode`, `writes_writeAsIs`: which records the writers of the kinds write.
* `writeWalk_of_forall`, `forall_of_writeWalk`: a walk is written as a whole or fails.
-/

namespace PartitionSnapshot

/-! ## Frames -/

namespace Framing

/-- Whether there is a header for a number. -/
def Expresses : Framing → Nat → Prop
  | .fixed, n => n < UInt32.size
  | .varint, _ => True

/-- The header of a number, when there is one. -/
def headerBytes : Framing → Nat → Bytes
  | .fixed, n => Bytes.ofNatBE 4 n
  | .varint, n => Varint.encode n

theorem header_of_expresses {framing : Framing} {n : Nat} (h : framing.Expresses n) :
    framing.header n = .ok (framing.headerBytes n) := by
  cases framing with
  | fixed => exact if_pos h
  | varint => rfl

theorem header_of_not_expresses {framing : Framing} {n : Nat} (h : ¬ framing.Expresses n) :
    framing.header n = .error (.oversized n) := by
  cases framing with
  | fixed => exact if_neg h
  | varint => exact absurd trivial h

/-- A record behind the header of its length. -/
def frame (framing : Framing) (record : Bytes) : Bytes :=
  framing.headerBytes record.length ++ record

/-- Records, each behind the header of its length. -/
def frames (framing : Framing) (records : List Bytes) : Bytes := records.flatMap framing.frame

@[simp] theorem frames_nil (framing : Framing) : framing.frames [] = [] := rfl

@[simp] theorem frames_cons (framing : Framing) (record : Bytes) (records : List Bytes) :
    framing.frames (record :: records) = framing.frame record ++ framing.frames records := rfl

theorem frames_append (framing : Framing) (records more : List Bytes) :
    framing.frames (records ++ more) = framing.frames records ++ framing.frames more :=
  List.flatMap_append

end Framing

namespace Kind

/-- How the records of a kind are framed. -/
def framing : Kind → Framing
  | .inode | .dentry => .fixed
  | .extend | .multipart => .varint

/-- What stands before the frames in the file of a kind. -/
def head (kind : Kind) (count : Nat) : Bytes :=
  match kind.framing with
  | .fixed => []
  | .varint => Varint.encode count

/-- The content of the file of a kind with the given records. -/
def file (kind : Kind) (records : List Bytes) : Bytes :=
  kind.head records.length ++ kind.framing.frames records

/-- Whether a record can be stored as one of a kind. -/
def Fits (kind : Kind) (record : Bytes) : Prop :=
  (kind = .inode → ∃ inode, Entity.ofRecord Inode record = .ok inode) ∧
    kind.framing.Expresses record.length

end Kind

/-! ## Writers -/

namespace FrameWriter

variable {writer : FrameWriter}

/-- The writer after one more record. -/
def add (writer : FrameWriter) (record : Bytes) : FrameWriter :=
  { (writer.put (writer.framing.headerBytes record.length)).put record with
    records := writer.records + 1 }

/-- The writer after more records. -/
def addAll (writer : FrameWriter) (records : List Bytes) : FrameWriter :=
  records.foldl add writer

theorem writeCount_of_expresses {n : Nat} (h : writer.framing.Expresses n) :
    writer.writeCount n = .ok (writer.put (writer.framing.headerBytes n)) := by
  rw [writeCount, Framing.header_of_expresses h]
  rfl

theorem writeCount_of_not_expresses {n : Nat} (h : ¬ writer.framing.Expresses n) :
    writer.writeCount n = .error (.oversized n) := by
  rw [writeCount, Framing.header_of_not_expresses h]
  rfl

theorem writeRecord_of_expresses {record : Bytes} (h : writer.framing.Expresses record.length) :
    writer.writeRecord record = .ok (writer.add record) := by
  simp only [writeRecord, Framing.header_of_expresses h, add]
  rfl

theorem writeRecord_of_not_expresses {record : Bytes}
    (h : ¬ writer.framing.Expresses record.length) :
    writer.writeRecord record = .error (.oversized record.length) := by
  simp only [writeRecord, Framing.header_of_not_expresses h]
  rfl

theorem written_put (writer : FrameWriter) (chunk : Bytes) :
    (writer.put chunk).written = writer.written ++ chunk := by
  simp [written, put]

@[simp] theorem framing_add (writer : FrameWriter) (record : Bytes) :
    (writer.add record).framing = writer.framing := rfl

theorem written_add (writer : FrameWriter) (record : Bytes) :
    (writer.add record).written = writer.written ++ writer.framing.frame record := by
  have h : (writer.add record).written =
      ((writer.put (writer.framing.headerBytes record.length)).put record).written := rfl
  rw [h, written_put, written_put, List.append_assoc, Framing.frame]

/-- Behind what was there, the frames of the records are written. -/
theorem written_addAll (writer : FrameWriter) (records : List Bytes) :
    (writer.addAll records).written = writer.written ++ writer.framing.frames records := by
  -- along the records: the frame of one, and behind it those of the others
  induction records generalizing writer with
  | nil => simp [addAll]
  | cons record records ih =>
    have h : (writer.addAll (record :: records)).written =
        ((writer.add record).addAll records).written := rfl
    rw [h, ih, written_add, framing_add, Framing.frames_cons, List.append_assoc]

theorem records_addAll (writer : FrameWriter) (records : List Bytes) :
    (writer.addAll records).records = writer.records + records.length := by
  -- along the records, counting one at a time
  induction records generalizing writer with
  | nil => rfl
  | cons record records ih =>
    have h : (writer.addAll (record :: records)).records =
        ((writer.add record).addAll records).records := rfl
    have hadd : (writer.add record).records = writer.records + 1 := rfl
    rw [h, ih, List.length_cons, hadd]
    omega

/-- The checksum of a writer is that of what it has written. -/
def Signed (writer : FrameWriter) : Prop := writer.checksum = .ofBytes writer.written

theorem signed_create (framing : Framing) : (create framing).Signed := rfl

theorem Signed.put (h : writer.Signed) (chunk : Bytes) : (writer.put chunk).Signed := by
  have hchecksum : (writer.put chunk).checksum = writer.checksum.update chunk := rfl
  -- the checksum is updated with just what is written
  unfold Signed
  rw [written_put, Checksum.ofBytes_append, hchecksum, h]

theorem Signed.add (h : writer.Signed) (record : Bytes) : (writer.add record).Signed :=
  (h.put (writer.framing.headerBytes record.length)).put record

theorem Signed.addAll (h : writer.Signed) (records : List Bytes) :
    (writer.addAll records).Signed := by
  -- along the records
  induction records generalizing writer with
  | nil => exact h
  | cons record records ih => exact ih (h.add record)

end FrameWriter

/-! ## Writing records -/

/-- The writer writes a record that fits, and fails at all others. -/
structure RecordWriter.Writes (write : RecordWriter) (framing : Framing) (fits : Bytes → Prop) :
    Prop where
  accepts : ∀ {writer record}, writer.framing = framing → fits record →
    write writer record = .ok (writer.add record)
  refuses : ∀ {writer record}, writer.framing = framing → ¬ fits record →
    ∃ error, write writer record = .error error

namespace Store

/-- Any record whose length can be expressed is written as it is. -/
theorem writes_writeAsIs (context : Context) {kind : Kind} (h : kind ≠ .inode) :
    RecordWriter.Writes (writeAsIs context kind) kind.framing kind.Fits where
  accepts := by
    intro writer record hframing hfits
    have hexpresses : writer.framing.Expresses record.length := hframing ▸ hfits.2
    simp only [writeAsIs, FrameWriter.writeRecord_of_expresses hexpresses]
    rfl
  refuses := by
    intro writer record hframing hfits
    -- only the length can stand in the way
    have hexpresses : ¬ writer.framing.Expresses record.length := fun hexpresses =>
      hfits ⟨fun hkind => absurd hkind h, hframing ▸ hexpresses⟩
    simp only [writeAsIs, FrameWriter.writeRecord_of_not_expresses hexpresses]
    exact ⟨_, rfl⟩

/-- An inode record is decoded and written again, which gives the record as it was. -/
theorem writes_writeInode (context : Context) :
    RecordWriter.Writes (writeInode context) Kind.inode.framing Kind.inode.Fits where
  accepts := by
    intro writer record hframing hfits
    obtain ⟨inode, hinode⟩ := hfits.1 rfl
    have hexpresses : writer.framing.Expresses record.length := hframing ▸ hfits.2
    simp only [writeInode, hinode, Inode.toRecord_of_ofRecord hinode,
      FrameWriter.writeRecord_of_expresses hexpresses]
    rfl
  refuses := by
    intro writer record hframing hfits
    -- a record that does not decode, or one whose length cannot be expressed
    cases hinode : Entity.ofRecord Inode record with
    | error fault =>
      simp only [writeInode, hinode]
      exact ⟨_, rfl⟩
    | ok inode =>
      have hexpresses : ¬ writer.framing.Expresses record.length := fun hexpresses =>
        hfits ⟨fun _ => ⟨inode, hinode⟩, hframing ▸ hexpresses⟩
      simp only [writeInode, hinode, Inode.toRecord_of_ofRecord hinode,
        FrameWriter.writeRecord_of_not_expresses hexpresses]
      exact ⟨_, rfl⟩

end Store

namespace FrameWriter

variable {writer : FrameWriter} {write : RecordWriter} {fits : Bytes → Prop}

/-- Records that all fit are all written. -/
theorem writeEach_of_forall (hwrite : write.Writes writer.framing fits) {records : List Bytes}
    (h : ∀ record ∈ records, fits record) :
    writer.writeEach write records = (writer.addAll records, none) := by
  -- along the records; the writer keeps its framing, so it goes on to write
  induction records generalizing writer with
  | nil => rfl
  | cons record records ih =>
    have hfirst := hwrite.accepts rfl (h record List.mem_cons_self)
    have hnext : write.Writes (writer.add record).framing fits := hwrite
    have hrest := ih hnext fun other hother => h other (List.mem_cons_of_mem _ hother)
    rw [writeEach, hfirst]
    exact hrest

/-- When no error is met, all records fit. -/
theorem forall_of_writeEach (hwrite : write.Writes writer.framing fits) {records : List Bytes}
    (h : (writer.writeEach write records).2 = none) : ∀ record ∈ records, fits record := by
  induction records generalizing writer with
  | nil => simp
  | cons record records ih =>
    -- the first record is not refused, and then no other
    have hfits : fits record := by
      apply Classical.byContradiction
      intro hfits
      obtain ⟨error, herror⟩ := hwrite.refuses rfl hfits
      rw [writeEach, herror] at h
      cases h
    rw [writeEach, hwrite.accepts rfl hfits] at h
    have hnext : write.Writes (writer.add record).framing fits := hwrite
    have hrest := ih hnext h
    intro other hother
    rcases List.mem_cons.1 hother with rfl | hother
    · exact hfits
    · exact hrest other hother

/-- A walk whose records fit and that ends without an error is written. -/
theorem writeWalk_of_forall (hwrite : write.Writes writer.framing fits) {walk : Walk}
    (h : ∀ record ∈ walk.records, fits record) (hfailure : walk.failure = none) :
    writer.writeWalk write walk = (writer.addAll walk.records, none) := by
  rw [writeWalk, writeEach_of_forall hwrite h, hfailure]
  rfl

/-- No walk is written without an error but one whose records fit and that ends without one. -/
theorem forall_of_writeWalk (hwrite : write.Writes writer.framing fits) {walk : Walk}
    (h : (writer.writeWalk write walk).2 = none) :
    (∀ record ∈ walk.records, fits record) ∧ walk.failure = none := by
  -- the error of a walk is that of writing, or else its own
  have h : (writer.writeEach write walk.records).2.or walk.failure = none := h
  rw [Option.or_eq_none_iff] at h
  exact ⟨forall_of_writeEach hwrite h.1, h.2⟩

end FrameWriter

end PartitionSnapshot
