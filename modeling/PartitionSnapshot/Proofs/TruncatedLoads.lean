import PartitionSnapshot.Proofs.Applying
import PartitionSnapshot.Proofs.Commits
import PartitionSnapshot.Proofs.Truncation

/-!
# Loading files that are cut short

A file that was stored as a whole and cut afterwards is loaded as far as it goes. The state machine
takes in the records in front of the cut, one after the other, and no part of any other; then the
load fails, and says at which record the file ends. Only a file of inodes or directory entries that
is cut between two records is taken for a shorter one.

Nothing is asked of the machine but that it takes in these records in their turn, from the state in
which the load finds it.

## Main statements

* `Store.read_of_storeKind`: what is in a file that was stored.
* `Store.load_truncated`: what loading a file that is cut comes to.
-/

namespace PartitionSnapshot

namespace Store

variable {store : Store} {source : Source} {kind : Kind} {directory : Path}
variable {tree after : FileTree} {outcome : StoreOutcome}

/-- The number at the head of a file, if it has one, is that of its records where the source counts
them right. -/
theorem headCount_of_counted
    (hmode : kind = .multipart → store.options.multipartCount = .multiparts)
    (hcounted : ∃ count, source.count kind = .ok count ∧
      count.toNat = (source.records kind).length) :
    ∃ count, store.headCount source kind = .ok count ∧
      ∀ n ∈ count, UInt64.toNat n = (source.records kind).length := by
  obtain ⟨number, hnumber, hlength⟩ := hcounted
  cases kind with
  | inode => exact ⟨none, rfl, nofun⟩
  | dentry => exact ⟨none, rfl, nofun⟩
  | extend => exact ⟨some number, by rw [headCount, hnumber]; rfl, by simpa using hlength⟩
  | multipart =>
    have hkind : store.countedKind = .multipart := by rw [countedKind, hmode rfl]
    exact ⟨some number, by rw [headCount, hkind, hnumber]; rfl, by simpa using hlength⟩

/-- When a walk goes through, what its writer has written is in the file. -/
theorem read_of_saveKind {context : Context} {framing : Framing} {count : Option UInt64}
    {write : RecordWriter} {writer writer' : FrameWriter}
    (hstart : FrameWriter.start framing (count.map UInt64.toNat) = .ok writer)
    (hwalk : writer.writeWalk write (source.walk kind) = (writer', none))
    (h : Task.eval tree (store.saveKind context directory kind framing source count write) =
      (.ok outcome, after)) :
    after.read (Layout.entityFile directory kind) = .ok writer'.written := by
  -- the task step by step: count, create, walk, append, sync
  unfold saveKind at h
  obtain ⟨_, mid, hexpected, h⟩ := Task.eval_bind_eq_ok h
  obtain ⟨_, made, hcreate, h⟩ := Task.eval_bind_eq_ok h
  rw [hstart] at h
  obtain ⟨_, _, hwriter, h⟩ := Task.eval_bind_eq_ok h
  rw [Task.eval_ofExcept] at hwriter
  cases hwriter
  rw [hwalk] at h
  dsimp only at h
  obtain ⟨_, filled, happend, h⟩ := Task.eval_bind_eq_ok h
  obtain ⟨_, synced, hsync, h⟩ := Task.eval_bind_eq_ok h
  have hsame : filled = after := by
    have hsync := ofProcedure_eq_ok hsync
    rw [Procedure.eval_sync] at hsync
    exact (Prod.mk.inj hsync).2.trans (Prod.mk.inj h).2
  have happended : made.append (Layout.entityFile directory kind) writer'.written = .ok filled :=
    settled_of_ofProcedure (Procedure.eval_append made _ _) happend
  rw [← hsame]
  exact FileTree.read_of_append (Kind.isName_name kind) (create_of_ofProcedure hcreate) happended

/-- **What is in a file that was stored**: what the source hands over of the kind, all of which fits
its file, behind its count where the file has one. -/
theorem read_of_storeKind
    (hmode : kind = .multipart → store.options.multipartCount = .multiparts)
    (hcounted : ∃ count, source.count kind = .ok count ∧
      count.toNat = (source.records kind).length)
    (h : Task.eval tree (store.storeKind kind directory source) = (.ok outcome, after)) :
    (∀ record ∈ source.records kind, kind.Fits record) ∧
      after.read (Layout.entityFile directory kind) = .ok (source.content kind) := by
  obtain ⟨count, hcount, hheaded⟩ := headCount_of_counted hmode hcounted
  obtain ⟨context, write, hwrite, hstore⟩ := storeKind_eval hcount directory
  rw [hstore] at h
  have hhead := expresses_headCount hcount
  obtain ⟨-, hfits, hfailure, -⟩ := saveKind_eq_ok hwrite hhead h
  refine ⟨hfits, ?_⟩
  obtain ⟨writer, hstart, hframing, -, -, hwritten⟩ := FrameWriter.start_eq_ok hhead
  rw [← hframing] at hwrite
  have hall : (writer.addAll (source.walk kind).records).written = source.content kind := by
    have hkind := head_of_headCount hcount hheaded
    rw [FrameWriter.written_addAll, hwritten, hframing, Source.content, Kind.file, ← hkind]
    rfl
  rw [← hall]
  exact read_of_saveKind hstart (FrameWriter.writeWalk_of_forall hwrite hfits hfailure) h

end Store

namespace Store

open StateMachine (AbsorbsAll)

variable {σ : Type} [StateMachine σ]

/-! ## Loading a file that is cut -/

/-- **What loading a file that is cut comes to.** A file that was stored whole is cut anywhere
before its end, and loaded by any store with room in its buffer into any machine that would take in
all its records. The machine takes in exactly the records that end in front of the cut. Files of
extends and multiparts are found too short wherever they are cut. Files of inodes and directory
entries are loaded when they are cut between two records, and then they are shorter files; cut
anywhere else, they are found too short. -/
theorem load_truncated {writer reader : Store} {kind : Kind} {source : Source}
    {directory : Path} {before written : FileTree} {outcome : StoreOutcome} {state final : σ}
    (hmode : kind = .multipart → writer.options.multipartCount = .multiparts)
    (hcounted : ∃ count, source.count kind = .ok count ∧
      count.toNat = (source.records kind).length)
    (hstore : Task.eval before (writer.storeKind kind directory source) = (.ok outcome, written))
    (haddressable : ∀ record ∈ source.records kind, record.length < UInt64.size)
    (hbuffer : 1 ≤ reader.options.readBuffer)
    (habsorbs : AbsorbsAll reader.config kind state (source.records kind) final) :
    written.read (Layout.entityFile directory kind) = .ok (source.content kind) ∧
    ∀ length < (source.content kind).length, ∀ (cut : FileTree) (directory' : Path),
      cut.read (Layout.entityFile directory' kind) = .ok ((source.content kind).take length) →
      ∀ cursor, ∃ whole result after,
        Replaying.eval cut state (reader.loadFile directory' cursor kind) =
          ((result, after), cut) ∧
        (whole ≤ (source.records kind).length ∧ ∀ n < (source.records kind).length,
          n < whole ↔ kind.offset (source.records kind) (n + 1) ≤ length) ∧
        AbsorbsAll reader.config kind state ((source.records kind).take whole) after ∧
        (kind.framing = .varint → result = .error (.corrupt (reader.loadContext kind) (.truncated
          (if length < (kind.head (source.records kind).length).length then .readingCount
            else .readingRecord whole (source.records kind).length)))) ∧
        (kind.framing = .fixed →
          (∃ n ≤ (source.records kind).length, kind.offset (source.records kind) n = length) →
          result = .ok ⟨true, whole, crc32 ((source.content kind).take length)⟩) ∧
        (kind.framing = .fixed →
          (∀ n ≤ (source.records kind).length, kind.offset (source.records kind) n ≠ length) →
          result = .error (.corrupt (reader.loadContext kind) (.truncated
            (.readingRecordAt (kind.offset (source.records kind) whole))))) := by
  obtain ⟨hfits, hread⟩ := read_of_storeKind hmode hcounted hstore
  refine ⟨hread, fun length hlength cut directory' hcut cursor => ?_⟩
  obtain ⟨count, -, hcount⟩ := hcounted
  have hsize : (source.records kind).length < UInt64.size := hcount ▸ count.toNat_lt_size
  have hrecords : ∀ record ∈ source.records kind, kind.framing.Expresses record.length ∧
      record.length < UInt64.size :=
    fun record hrecord => ⟨(hfits record hrecord).2, haddressable record hrecord⟩
  obtain ⟨hfaithful, hrest⟩ :=
    faithful_source hbuffer kind ((source.content kind).take length)
  obtain ⟨ending, hcontents, hboundary, hinside, hvarint⟩ := Contents.ofKind_cut hfaithful hrest
    (position_source reader kind _) hlength hsize hrecords
  have hwhole : kind.whole (source.records kind) length ≤ (source.records kind).length :=
    Framing.whole_le _ _ _
  -- the records in front of the cut are taken in, and then the ending of the file decides
  obtain ⟨after, hafter⟩ := habsorbs.take (kind.whole (source.records kind) length)
  have hload := loadFile_of_absorbs hcut hcontents hafter cursor
  refine ⟨_, _, after, hload, ⟨hwhole, fun n hn => Kind.lt_whole_iff hn⟩, hafter, ?_, ?_, ?_⟩
  · intro hframing
    rw [(hvarint hframing).result]
    rfl
  · intro hframing hcuts
    rw [Contents.result, hboundary hframing hcuts, List.length_take, Nat.min_eq_left hwhole]
    rfl
  · intro hframing hcuts
    rw [(hinside hframing hcuts).result]
    rfl

/-- A file with one inode, cut inside the header of its record. -/
theorem load_truncated_inode :
    let store := sample "p"
    let source := (Records.empty.push .inode (Inode.toRecord { id := 5 })).source
    let before : FileTree := .directory [("p", .directory [])]
    let cut : FileTree :=
      .directory [("p", .directory [("inode", .file ((source.content .inode).take 3))])]
    ∃ outcome written,
      Task.eval before (store.storeKind .inode store.root source) = (.ok outcome, written) ∧
      written.read (Layout.entityFile store.root .inode) = .ok (source.content .inode) ∧
      Replaying.eval cut MemoryPartition.empty (store.loadFile store.root 1 .inode) =
        ((.error (.corrupt (store.context "loadInode") (.truncated (.readingRecordAt 0))),
          MemoryPartition.empty), cut) := by
  intro store source before cut
  have hstored : (Task.eval before (store.storeKind .inode store.root source)).1.toOption.isSome =
      true := by decide +kernel
  have hinode : Entity.ofRecord Inode (Inode.toRecord { id := 5 }) = .ok { id := 5 } :=
    Inode.ofRecord_toRecord (by decide)
  rcases hstore : Task.eval before (store.storeKind .inode store.root source) with
    ⟨error | outcome, written⟩
  · rw [hstore] at hstored
    cases hstored
  · have hcut : cut.read (Layout.entityFile store.root .inode) =
        .ok ((source.content .inode).take 3) := eq_ok_of_toOption (by decide +kernel)
    have hmode : Kind.inode = .multipart → store.options.multipartCount = .multiparts :=
      fun _ => rfl
    have hcounted : ∃ count, source.count .inode = .ok count ∧
        count.toNat = (source.records .inode).length := ⟨1, rfl, rfl⟩
    have haddressable : ∀ record ∈ source.records .inode, record.length < UInt64.size := by
      decide +kernel
    have habsorbs : AbsorbsAll store.config .inode MemoryPartition.empty
        (source.records .inode) (MemoryPartition.empty.createInode { id := 5 }) :=
      .cons (.inode hinode rfl) (.nil _)
    have hlength : 3 < (source.content .inode).length := by decide +kernel
    obtain ⟨hread, hcuts⟩ :=
      load_truncated hmode hcounted hstore haddressable (by decide) habsorbs
    obtain ⟨whole, result, after, hload, ⟨-, hwhole⟩, hafter, -, -, hinside⟩ :=
      hcuts 3 hlength cut store.root hcut 1
    -- the only record ends behind the cut
    obtain rfl : whole = 0 := by
      have hnone : ¬ 0 < whole := (not_congr (hwhole 0 (by decide +kernel))).2 (by decide +kernel)
      exact Nat.eq_zero_of_not_pos hnone
    cases hafter
    rw [hinside rfl (by decide +kernel)] at hload
    exact ⟨outcome, written, rfl, hread, hload⟩

end Store

end PartitionSnapshot
