import PartitionSnapshot.Proofs.Decimals
import PartitionSnapshot.Proofs.Files
import PartitionSnapshot.Proofs.Frames

/-!
# Writing a generation

A source is stored when it can be: every count is there and is the number of records handed over,
every walk goes through to its end, and every record fits its file. Then the staging directory holds
six files and nothing else. In all other cases writing fails.

## Main statements

* `Store.writeKind_eval`, `Store.complete_of_writeKind`: when a kind is stored.
* `Store.writeGeneration_eval`, `Store.storable_of_writeGeneration`: when a generation is written.
-/

namespace PartitionSnapshot

/-! ## What is stored -/

namespace Source

open Text (decimal)

/-- The records of a kind that the source hands over. -/
def records (source : Source) (kind : Kind) : List Bytes := (source.walk kind).records

/-- The content of the file of a kind. -/
def content (source : Source) (kind : Kind) : Bytes := kind.file (source.records kind)

/-- The checksums of the files. -/
def signs (source : Source) : Signs where
  inode := crc32 (source.content .inode)
  dentry := crc32 (source.content .dentry)
  extend := crc32 (source.content .extend)
  multipart := crc32 (source.content .multipart)

/-- The files of the generation that the source is stored as, by name. The texts of the signs and of
the position are read back as these, by `Signs.parse?_text` and `ApplyPosition.parse?_text`. -/
def files (source : Source) (position : ApplyPosition) (name : String) : Option Bytes :=
  if name = Layout.signs then some (Bytes.ofString source.signs.text)
  else if name = Layout.apply then some (Bytes.ofString position.text)
  else (Kind.all.find? fun kind => name = kind.name).map source.content

/-- The file of the signs holds the four checksums in decimal digits, with a blank between two. -/
theorem files_signs_text (source : Source) (position : ApplyPosition) :
    ∃ text, source.files position Layout.signs = some (Bytes.ofString text) ∧
      Signs.parse? text = some source.signs ∧
      text = decimal (crc32 (source.content .inode)).toNat ++ " " ++
        decimal (crc32 (source.content .dentry)).toNat ++ " " ++
        decimal (crc32 (source.content .extend)).toNat ++ " " ++
        decimal (crc32 (source.content .multipart)).toNat :=
  ⟨_, rfl, Signs.parse?_text _, Signs.text_eq _⟩

/-- The apply file holds the index and the cursor in decimal digits, with a bar between them. -/
theorem files_apply_text (source : Source) (position : ApplyPosition) :
    ∃ text, source.files position Layout.apply = some (Bytes.ofString text) ∧
      ApplyPosition.parse? text = some (position.index, some position.cursor) ∧
      text = decimal position.index.toNat ++ "|" ++ decimal position.cursor.toNat :=
  ⟨_, rfl, ApplyPosition.parse?_text _, ApplyPosition.text_eq _⟩

/-- The generation that the source is stored as. -/
def generation (source : Source) (position : ApplyPosition) : View :=
  View.ofFiles (source.files position)

/-- When a source is stored: the source can count every kind, and goes through it to its end; it
hands over as many records as it counts, and as many multipart sessions as stand at the head of
their file; records of inodes decode, and those of inodes and dentries are short enough for their
headers. -/
structure Storable (source : Source) (store : Store) : Prop where
  counted : ∀ kind, ∃ count, source.count kind = .ok count ∧
    count.toNat = (source.records kind).length
  unfailing : ∀ kind, (source.walk kind).failure = none
  headed : ∃ count, source.count store.countedKind = .ok count ∧
    count.toNat = (source.records .multipart).length
  decodes : ∀ record ∈ source.records .inode, ∃ inode, Entity.ofRecord Inode record = .ok inode
  short : ∀ kind, kind = .inode ∨ kind = .dentry → ∀ record ∈ source.records kind,
    record.length < UInt32.size

end Source

/-! ## One kind -/

namespace Store

/-- The count at the head of the file of a kind. -/
def headCount (store : Store) (source : Source) : Kind → Except Error (Option UInt64)
  | .inode | .dentry => .ok none
  | .extend => (source.count .extend).map some
  | .multipart => (source.count store.countedKind).map some

/-- When a kind is stored. -/
structure Complete (store : Store) (source : Source) (kind : Kind) : Prop where
  counted : ∃ count, source.count kind = .ok count ∧ count.toNat = (source.records kind).length
  headed : ∃ count, store.headCount source kind = .ok count ∧
    ∀ n ∈ count, UInt64.toNat n = (source.records kind).length
  unfailing : (source.walk kind).failure = none
  fits : ∀ record ∈ source.records kind, kind.Fits record

/-- A source is stored when every kind is. -/
theorem storable_iff {store : Store} {source : Source} :
    source.Storable store ↔ ∀ kind, store.Complete source kind := by
  constructor
  · intro h kind
    refine ⟨h.counted kind, ?_, h.unfailing kind, ?_⟩
    · -- the header of inodes and dentries holds no count
      cases kind with
      | inode => exact ⟨none, rfl, by simp⟩
      | dentry => exact ⟨none, rfl, by simp⟩
      | extend =>
        obtain ⟨count, hcount, hlength⟩ := h.counted .extend
        exact ⟨some count, by rw [headCount, hcount]; rfl, by simpa using hlength⟩
      | multipart =>
        obtain ⟨count, hcount, hlength⟩ := h.headed
        exact ⟨some count, by rw [headCount, hcount]; rfl, by simpa using hlength⟩
    · intro record hrecord
      constructor
      · rintro rfl
        exact h.decodes record hrecord
      · cases kind with
        | inode => exact h.short .inode (.inl rfl) record hrecord
        | dentry => exact h.short .dentry (.inr rfl) record hrecord
        | extend => trivial
        | multipart => trivial
  · intro h
    refine ⟨fun kind => (h kind).counted, fun kind => (h kind).unfailing, ?_,
      fun record hrecord => ((h .inode).fits record hrecord).1 rfl, ?_⟩
    · -- the multipart file is headed by the count of `countedKind`
      obtain ⟨count, hcount, hlength⟩ := (h .multipart).headed
      simp only [headCount] at hcount
      cases hsource : source.count store.countedKind with
      | error error =>
        rw [hsource] at hcount
        cases hcount
      | ok n =>
        rw [hsource] at hcount
        cases hcount
        exact ⟨n, rfl, hlength n rfl⟩
    · rintro kind (rfl | rfl) record hrecord
      · exact ((h .inode).fits record hrecord).2
      · exact ((h .dentry).fits record hrecord).2

theorem expresses_headCount {store : Store} {source : Source} {kind : Kind}
    {count : Option UInt64} (h : store.headCount source kind = .ok count) :
    ∀ n ∈ count, kind.framing.Expresses (UInt64.toNat n) := by
  cases kind with
  | inode => cases h; simp
  | dentry => cases h; simp
  | extend => exact fun _ _ => trivial
  | multipart => exact fun _ _ => trivial

theorem head_of_headCount {store : Store} {source : Source} {kind : Kind} {count : Option UInt64}
    (h : store.headCount source kind = .ok count) {length : Nat}
    (hlength : ∀ n ∈ count, UInt64.toNat n = length) :
    (count.elim [] fun n => kind.framing.headerBytes n.toNat) = kind.head length := by
  -- only the two varint files have a head
  have hvarint (hkind : kind.framing = .varint)
      (hsome : ∃ n, count = some n) :
      (count.elim [] fun n => kind.framing.headerBytes n.toNat) = kind.head length := by
    obtain ⟨n, rfl⟩ := hsome
    rw [Kind.head, hkind, Option.elim_some, hlength n rfl]
    rfl
  have hmap {result : Except Error UInt64} (hresult : result.map some = .ok count) :
      ∃ n, count = some n := by
    cases result with
    | error error => cases hresult
    | ok n =>
      cases hresult
      exact ⟨n, rfl⟩
  cases kind with
  | inode => cases h; rfl
  | dentry => cases h; rfl
  | extend => exact hvarint rfl (hmap h)
  | multipart => exact hvarint rfl (hmap h)

end Store

namespace FrameWriter

/-- A writer at the start of a file has written the count, if there is one. -/
theorem start_eq_ok {framing : Framing} {count : Option UInt64}
    (h : ∀ n ∈ count, framing.Expresses (UInt64.toNat n)) :
    ∃ writer, start framing (count.map UInt64.toNat) = .ok writer ∧ writer.framing = framing ∧
      writer.Signed ∧ writer.records = 0 ∧
      writer.written = count.elim [] fun n => framing.headerBytes n.toNat := by
  cases count with
  | none => exact ⟨create framing, rfl, rfl, signed_create framing, rfl, rfl⟩
  | some n =>
    exact ⟨(create framing).put (framing.headerBytes n.toNat),
      writeCount_of_expresses (h n rfl), rfl, (signed_create framing).put _, rfl,
      written_put _ _⟩

end FrameWriter

namespace Store

open FileTree (Holds)

variable {store : Store} {tree : FileTree} {place : List String} {source : Source}

section

variable (context : Context) {kind : Kind} {count : Option UInt64} {write : RecordWriter}
variable {expected : UInt64} {content : Bytes}
variable (hexpected : source.count kind = .ok expected)
variable (hwrite : write.Writes kind.framing kind.Fits)
variable (hhead : ∀ n ∈ count, kind.framing.Expresses (UInt64.toNat n))
variable (hfits : ∀ record ∈ source.records kind, kind.Fits record)
variable (hfailure : (source.walk kind).failure = none)
variable (hcontent : content = (count.elim [] fun n => kind.framing.headerBytes n.toNat) ++
  kind.framing.frames (source.records kind))
include hexpected hwrite hhead hfits hfailure hcontent

/-- Where the file can be made and filled, a kind whose records all fit is written. -/
theorem saveKind_of_fill {directory : Path} {made filled : FileTree}
    (hmade : tree.create (Layout.entityFile directory kind) = .ok made)
    (hfilled : made.append (Layout.entityFile directory kind) content = .ok filled)
    (hsync : (filled.find (Layout.entityFile directory kind)).map (fun _ => ()) = .ok ()) :
    Task.eval tree (store.saveKind context directory kind kind.framing source count write) =
      (.ok ⟨(source.records kind).length, expected.toNat, count.map UInt64.toNat,
        crc32 content⟩, filled) := by
  obtain ⟨writer, hstart, hframing, hsigned, hrecords, hwritten⟩ := FrameWriter.start_eq_ok hhead
  -- every record is written, so the walk is not cut short
  rw [← hframing] at hwrite
  have hwalk := FrameWriter.writeWalk_of_forall hwrite hfits hfailure
  have hall : (writer.addAll (source.walk kind).records).written = content := by
    rw [FrameWriter.written_addAll, hwritten, hframing, hcontent]
    rfl
  have hchecksum : (writer.addAll (source.walk kind).records).checksum.value = crc32 content := by
    rw [hsigned.addAll, hall, Checksum.value_ofBytes]
  have hlength : (writer.addAll (source.walk kind).records).records =
      (source.records kind).length := by
    rw [FrameWriter.records_addAll, hrecords, Nat.zero_add]
    rfl
  -- the task step by step: count, create, walk, append, sync
  unfold saveKind
  rw [Task.eval_bind, Task.eval_ofExcept, hexpected]
  dsimp only [Except.mapError]
  rw [Task.eval_bind, Task.eval_ofProcedure, Procedure.eval_create, hmade]
  dsimp only [FileTree.settle]
  rw [Task.eval_bind, Task.eval_ofExcept, hstart]
  dsimp only [Except.mapError]
  rw [hwalk, hall, Task.eval_bind, Task.eval_ofProcedure, Procedure.eval_append, hfilled]
  dsimp only [FileTree.settle]
  rw [Task.eval_bind, Task.eval_ofProcedure, Procedure.eval_sync, hsync]
  dsimp only
  rw [hlength, hchecksum]
  rfl

/-- The file of a kind whose records all fit is written. -/
theorem saveKind_eval (hroot : tree.view.Rooted store.root place)
    (haccepted : Layout.Accepted store.root)
    (hfolder : tree.view (place ++ [Layout.staging]) = some .directory)
    (hfree : tree.view (place ++ [Layout.staging] ++ [kind.name]) ≠ some .directory) :
    ∃ after,
      Task.eval tree (store.saveKind context store.staging kind kind.framing source count write) =
        (.ok ⟨(source.records kind).length, expected.toNat, count.map UInt64.toNat,
          crc32 content⟩, after) ∧
      after.view = tree.view.graft (place ++ [Layout.staging] ++ [kind.name])
        (View.ofFile content) := by
  obtain ⟨made, hmade, -, hfill⟩ := FileTree.fill_file hroot
    (by decide : Layout.staging ∈ Layout.folders) (Layout.mem_files kind)
    (haccepted.file_of_mem (by decide) (Layout.mem_files kind)) hfolder hfree
  obtain ⟨filled, hfilled, hsync, hview⟩ := hfill content
  exact ⟨filled, saveKind_of_fill context hexpected hwrite hhead hfits hfailure hcontent hmade
    hfilled hsync, hview⟩

end

/-- What was ended with a value was granted. -/
theorem ofProcedure_eq_ok {α : Type} {procedure : Procedure (Except Failure α)}
    {toError : Failure → Error} {value : α} {after : FileTree}
    (h : Task.eval tree (Task.ofProcedure procedure toError) = (.ok value, after)) :
    procedure.eval tree = (.ok value, after) := by
  rw [Task.eval_ofProcedure] at h
  rcases hprocedure : procedure.eval tree with ⟨failure | value', after'⟩
  · rw [hprocedure] at h
    cases h
  · rw [hprocedure] at h
    cases h
    rfl

/-- So what was to become of the tree has become of it. -/
theorem settled_of_ofProcedure {procedure : Procedure (Except Failure Unit)}
    {toError : Failure → Error} {tree after : FileTree} {result : Except Failure FileTree}
    (hprocedure : procedure.eval tree = tree.settle result)
    (h : Task.eval tree (Task.ofProcedure procedure toError) = (.ok (), after)) :
    result = .ok after := by
  have hsettle := hprocedure.symm.trans (ofProcedure_eq_ok h)
  cases result with
  | error failure => cases hsettle
  | ok after' =>
    cases hsettle
    rfl

/-- Only files whose paths the system accepts are made. -/
theorem checkPath_of_create {path : Path} {after : FileTree} {toError : Failure → Error}
    (h : Task.eval tree (Task.ofProcedure (.create path) toError) = (.ok (), after)) :
    FileTree.checkPath path = .ok () := by
  have hcreate := ofProcedure_eq_ok h
  -- `create` starts by locating its path, and `locate` by checking it
  rw [Procedure.eval_create, FileTree.create, FileTree.write, FileTree.locate] at hcreate
  cases hcheck : FileTree.checkPath path with
  | ok _ => rfl
  | error failure =>
    rw [hcheck] at hcreate
    cases hcreate

/-- A kind that is saved was counted, and its records were all handed over and fit. -/
theorem saveKind_eq_ok {context : Context} {directory : Path} {kind : Kind}
    {count : Option UInt64} {write : RecordWriter} {outcome : StoreOutcome} {after : FileTree}
    (hwrite : write.Writes kind.framing kind.Fits)
    (hhead : ∀ n ∈ count, kind.framing.Expresses (UInt64.toNat n))
    (h : Task.eval tree (store.saveKind context directory kind kind.framing source count write) =
      (.ok outcome, after)) :
    (∃ expected, source.count kind = .ok expected ∧ outcome.expected = expected.toNat) ∧
      (∀ record ∈ source.records kind, kind.Fits record) ∧
      (source.walk kind).failure = none ∧
      outcome.records = (source.records kind).length ∧
      outcome.count = count.map UInt64.toNat ∧
      FileTree.checkPath (Layout.entityFile directory kind) = .ok () := by
  obtain ⟨writer, hstart, hframing, -, hrecords, -⟩ := FrameWriter.start_eq_ok hhead
  rw [← hframing] at hwrite
  unfold saveKind at h
  obtain ⟨expected, _, hcount, h⟩ := Task.eval_bind_eq_ok h
  obtain ⟨_, _, hcreate, h⟩ := Task.eval_bind_eq_ok h
  rw [hstart] at h
  obtain ⟨writer', _, hwriter, h⟩ := Task.eval_bind_eq_ok h
  cases hwriter
  dsimp only at h
  obtain ⟨_, _, -, h⟩ := Task.eval_bind_eq_ok h
  -- the walk ended with an error, which the task would have raised
  cases herror : (writer.writeWalk write (source.walk kind)).2 with
  | some error =>
    rw [herror] at h
    obtain ⟨_, _, -, h⟩ := Task.eval_bind_eq_ok h
    cases h
  | none =>
    rw [herror] at h
    obtain ⟨_, _, -, h⟩ := Task.eval_bind_eq_ok h
    cases h
    obtain ⟨hfits, hfailure⟩ := FrameWriter.forall_of_writeWalk hwrite herror
    refine ⟨⟨expected, ?_, rfl⟩, hfits, hfailure, ?_, rfl, checkPath_of_create hcreate⟩
    · cases hsource : source.count kind with
      | error error =>
        rw [Task.eval_ofExcept, hsource] at hcount
        cases hcount
      | ok n =>
        rw [Task.eval_ofExcept, hsource] at hcount
        cases hcount
        rfl
    · rw [FrameWriter.writeWalk_of_forall hwrite hfits hfailure, FrameWriter.records_addAll,
        hrecords, Nat.zero_add]
      rfl

/-- A note at the end changes nothing. -/
theorem eval_noted {α : Type} (tree : FileTree) (task : Task α) (level : Level)
    (text : α → String) :
    Task.eval tree (do
      let value ← task
      Procedure.log level (text value)
      return value) = Task.eval tree task := by
  rw [Task.eval_bind]
  rcases Task.eval tree task with ⟨error | value, after⟩ <;> rfl

/-- The context in which a kind is stored. -/
def storing (store : Store) : Kind → Context
  | .inode => store.context "storeInode"
  | .dentry => store.context "storeDentry"
  | .extend => store.context "storeExtend"
  | .multipart => store.context "storeMultipart"

/-- How a record of a kind is written. -/
def recordWriter (context : Context) : Kind → RecordWriter
  | .inode => writeInode context
  | .dentry => writeAsIs context .dentry
  | .extend => writeAsIs context .extend
  | .multipart => writeAsIs context .multipart

theorem writes_recordWriter (context : Context) (kind : Kind) :
    RecordWriter.Writes (recordWriter context kind) kind.framing kind.Fits := by
  cases kind with
  | inode => exact writes_writeInode context
  | dentry => exact writes_writeAsIs context (by decide)
  | extend => exact writes_writeAsIs context (by decide)
  | multipart => exact writes_writeAsIs context (by decide)

/-- Storing the entities of a kind is saving them behind the count at the head of their file. -/
theorem storeKind_eq_saveKind {kind : Kind} {count : Option UInt64}
    (h : store.headCount source kind = .ok count) (directory : Path) (tree : FileTree) :
    Task.eval tree (store.storeKind kind directory source) =
      Task.eval tree (store.saveKind (store.storing kind) directory kind kind.framing source count
        (recordWriter (store.storing kind) kind)) := by
  cases kind with
  | inode =>
    cases h
    exact eval_noted tree _ _ _
  | dentry =>
    cases h
    exact eval_noted tree _ _ _
  | extend =>
    simp only [headCount] at h
    cases hcount : source.count .extend with
    | error error =>
      rw [hcount] at h
      cases h
    | ok n =>
      rw [hcount] at h
      cases h
      -- the count has been taken, so the task goes on as in the other cases
      dsimp only [storeKind]
      unfold storeExtends
      rw [hcount]
      exact eval_noted tree _ _ _
  | multipart =>
    simp only [headCount] at h
    cases hcount : source.count store.countedKind with
    | error error =>
      rw [hcount] at h
      cases h
    | ok n =>
      rw [hcount] at h
      cases h
      dsimp only [storeKind]
      unfold storeMultiparts
      rw [hcount]
      exact eval_noted tree _ _ _

theorem storeKind_eval {kind : Kind} {count : Option UInt64}
    (h : store.headCount source kind = .ok count) (directory : Path) :
    ∃ context write, RecordWriter.Writes write kind.framing kind.Fits ∧ ∀ tree,
      Task.eval tree (store.storeKind kind directory source) =
        Task.eval tree
          (store.saveKind context directory kind kind.framing source count write) :=
  ⟨store.storing kind, _, writes_recordWriter _ kind, storeKind_eq_saveKind h directory⟩

/-- Without the count for the head of the file nothing is stored, and the error is that of the
count. -/
theorem storeKind_eval_error {kind : Kind} {error : Error}
    (h : store.headCount source kind = .error error) (directory : Path) (tree : FileTree) :
    Task.eval tree (store.storeKind kind directory source) =
      (.error ((store.storing kind).wrap error), tree) := by
  cases kind with
  | inode => cases h
  | dentry => cases h
  | extend =>
    simp only [headCount] at h
    dsimp only [storeKind]
    unfold storeExtends
    cases hcount : source.count .extend with
    | error error =>
      rw [hcount] at h
      cases h
      rfl
    | ok n =>
      rw [hcount] at h
      cases h
  | multipart =>
    simp only [headCount] at h
    dsimp only [storeKind]
    unfold storeMultiparts
    cases hcount : source.count store.countedKind with
    | error error =>
      rw [hcount] at h
      cases h
      rfl
    | ok n =>
      rw [hcount] at h
      cases h

/-- What is checked of a kind that was stored is that all the numbers agree. -/
theorem checkComplete_eq_ok {context : Context} {kind : Kind} {outcome : StoreOutcome} :
    checkComplete context kind outcome = .ok () ↔
      outcome.records = outcome.expected ∧ ∀ n ∈ outcome.count, n = outcome.records := by
  have hall : outcome.count.all (· == outcome.records) = true ↔
      ∀ n ∈ outcome.count, n = outcome.records := by
    cases outcome.count <;> simp
  -- cut short, incomplete, or complete
  unfold checkComplete
  split
  · next htruncated =>
    have hlt : outcome.records < outcome.expected := by
      simpa [StoreOutcome.truncated] using htruncated
    exact ⟨fun h => (nomatch h), fun h => absurd h.1 (by omega)⟩
  · split
    · next hcomplete =>
      refine ⟨fun h => (nomatch h), fun h => absurd hcomplete ?_⟩
      simp [StoreOutcome.complete, h.1, ← hall.2 h.2]
    · next hcomplete =>
      have hcomplete : outcome.complete = true := by simpa using hcomplete
      rw [StoreOutcome.complete, Bool.and_eq_true, beq_iff_eq, hall] at hcomplete
      exact ⟨fun _ => hcomplete, fun _ => rfl⟩

section

variable (hroot : tree.view.Rooted store.root place)
variable (haccepted : Layout.Accepted store.root)
variable (hfolder : tree.view (place ++ [Layout.staging]) = some .directory)
include hroot haccepted hfolder

/-- A kind that can be stored is written into its file and signed. -/
theorem writeKind_eval {kind : Kind} (hcomplete : store.Complete source kind)
    (hfree : tree.view (place ++ [Layout.staging] ++ [kind.name]) ≠ some .directory)
    (context : Context) (signs : Signs) :
    ∃ after, Task.eval tree (store.writeKind context store.staging source signs kind) =
        (.ok (signs.set kind (crc32 (source.content kind))), after) ∧
      after.view = tree.view.graft (place ++ [Layout.staging] ++ [kind.name])
        (View.ofFile (source.content kind)) := by
  obtain ⟨expected, hexpected, hlength⟩ := hcomplete.counted
  obtain ⟨count, hcount, hheaded⟩ := hcomplete.headed
  obtain ⟨context', write, hwrite, hstore⟩ := storeKind_eval hcount store.staging
  have hcontent : source.content kind =
      (count.elim [] fun n => kind.framing.headerBytes n.toNat) ++
        kind.framing.frames (source.records kind) := by
    rw [head_of_headCount hcount hheaded]
    rfl
  obtain ⟨after, hsave, hview⟩ := saveKind_eval context' hexpected hwrite
    (expresses_headCount hcount) hcomplete.fits hcomplete.unfailing hcontent hroot haccepted
    hfolder hfree
  refine ⟨after, ?_, hview⟩
  -- the three numbers compared are the number of records
  have hcheck : checkComplete context kind ⟨(source.records kind).length, expected.toNat,
      count.map UInt64.toNat, crc32 (source.content kind)⟩ = .ok () := by
    rw [checkComplete_eq_ok]
    refine ⟨hlength.symm, ?_⟩
    intro n hn
    obtain ⟨m, hm, rfl⟩ := Option.map_eq_some_iff.1 hn
    exact hheaded m hm
  unfold writeKind
  rw [Task.eval_bind, hstore, hsave]
  dsimp only
  rw [hcheck]
  rfl

end

/-- A kind that is written can be stored, and the path of its file is accepted. -/
theorem complete_of_writeKind {context : Context} {directory : Path} {signs signs' : Signs}
    {kind : Kind} {after : FileTree}
    (h : Task.eval tree (store.writeKind context directory source signs kind) =
      (.ok signs', after)) :
    store.Complete source kind ∧
      FileTree.checkPath (Layout.entityFile directory kind) = .ok () := by
  unfold writeKind at h
  obtain ⟨outcome, mid, houtcome, h⟩ := Task.eval_bind_eq_ok h
  obtain ⟨_, _, hcheck, -⟩ := Task.eval_bind_eq_ok h
  have hcheck : checkComplete context kind outcome = .ok () := by
    rw [Task.eval_ofExcept] at hcheck
    cases hresult : checkComplete context kind outcome with
    | ok _ => rfl
    | error error =>
      rw [hresult] at hcheck
      cases hcheck
  obtain ⟨hrecords, hcounts⟩ := checkComplete_eq_ok.1 hcheck
  -- without a count for the head nothing is written
  cases hcount : store.headCount source kind with
  | error error =>
    rw [storeKind_eval_error hcount directory tree] at houtcome
    cases houtcome
  | ok count =>
    obtain ⟨context', write, hwrite, hstore⟩ := storeKind_eval hcount directory
    rw [hstore] at houtcome
    obtain ⟨⟨expected, hexpected, hreported⟩, hfits, hfailure, hlength, hheaded, haccepted⟩ :=
      saveKind_eq_ok hwrite (expresses_headCount hcount) houtcome
    refine ⟨⟨⟨expected, hexpected, by omega⟩, ⟨count, hcount, ?_⟩, hfailure, hfits⟩, haccepted⟩
    intro n hn
    rw [← hlength]
    exact hcounts _ (by rw [hheaded]; exact Option.map_eq_some_iff.2 ⟨n, hn, rfl⟩)

/-! ## One generation -/

section

variable {view : View} {g : Generations} {files : String → Option Bytes}

theorem staging_folder (h : Holds view place g tree) (hfiles : g.staging = View.ofFiles files) :
    tree.view (place ++ [Layout.staging]) = some .directory := by
  rw [h.at_staging, hfiles]
  rfl

theorem staging_free (h : Holds view place g tree) (hfiles : g.staging = View.ofFiles files)
    (file : String) :
    tree.view (place ++ [Layout.staging] ++ [file]) ≠ some .directory := by
  -- `View.ofFiles` shows only files below its directory
  have hbelow := congrFun h.below_staging [file]
  rw [View.below_apply, hfiles, View.ofFiles] at hbelow
  rw [hbelow]
  cases files file <;> simp

variable (hroot : view.Rooted store.root place) (haccepted : Layout.Accepted store.root)
variable (h : Holds view place { g with staging := View.ofFiles files } tree)
include hroot haccepted h

/-- One more kind in the staging directory. -/
theorem writeKind_staged {kind : Kind} (hcomplete : store.Complete source kind)
    (context : Context) (signs : Signs) :
    ∃ after, Task.eval tree (store.writeKind context store.staging source signs kind) =
        (.ok (signs.set kind (crc32 (source.content kind))), after) ∧
      Holds view place { g with staging := View.ofFiles fun other =>
        if other = kind.name then some (source.content kind) else files other } after := by
  -- the files that are there stay, and one is added
  obtain ⟨after, heval, hview⟩ := writeKind_eval (h.rooted hroot) haccepted
    (staging_folder h rfl) hcomplete (staging_free h rfl kind.name) context signs
  have hafter := h.graft_staging_file hview
  dsimp only at hafter
  rw [View.ofFiles_graft] at hafter
  exact ⟨after, heval, hafter⟩

/-- One more small file in the staging directory. -/
theorem writeSmallFile_staged {file : String} (hfile : file ∈ Layout.files) (context : Context)
    (data : Bytes) :
    ∃ after, Task.eval tree (writeSmallFile context (store.staging.join file) data) =
        (.ok (), after) ∧
      Holds view place { g with staging := View.ofFiles fun other =>
        if other = file then some data else files other } after := by
  obtain ⟨after, heval, hview⟩ := writeSmallFile_eval (h.rooted hroot)
    (by decide : Layout.staging ∈ Layout.folders) hfile (haccepted.file_of_mem (by decide) hfile)
    (staging_folder h rfl) (staging_free h rfl file) context data
  have hafter := h.graft_staging_file hview
  dsimp only at hafter
  rw [View.ofFiles_graft] at hafter
  exact ⟨after, heval, hafter⟩

end

theorem syncDirectory_eval (store : Store) (tree : FileTree) (directory : Path) :
    (store.syncDirectory directory).eval tree = ((), tree) := by
  unfold syncDirectory
  rw [Procedure.eval_bind, Procedure.eval_sync]
  cases (tree.find directory).map fun _ => () <;> rfl

/-- The names of the files of a generation, one after the other. -/
theorem files_eq (source : Source) (position : ApplyPosition) :
    (fun other => if other = Layout.signs then some (Bytes.ofString source.signs.text)
      else if other = Layout.apply then some (Bytes.ofString position.text)
      else if other = Kind.multipart.name then some (source.content .multipart)
      else if other = Kind.extend.name then some (source.content .extend)
      else if other = Kind.dentry.name then some (source.content .dentry)
      else if other = Kind.inode.name then some (source.content .inode) else none) =
    source.files position := by
  -- the names are told apart in the order in which `find?` looks at them
  funext name
  by_cases hinode : name = Kind.inode.name
  · subst hinode
    rfl
  by_cases hdentry : name = Kind.dentry.name
  · subst hdentry
    rfl
  by_cases hextend : name = Kind.extend.name
  · subst hextend
    rfl
  by_cases hmultipart : name = Kind.multipart.name
  · subst hmultipart
    rfl
  · simp only [if_neg hmultipart, if_neg hextend, if_neg hdentry, if_neg hinode, Source.files,
      Kind.all, List.find?, decide_eq_false hmultipart, decide_eq_false hextend,
      decide_eq_false hdentry, decide_eq_false hinode, Option.map_none]

/-- A source that can be stored is written into the staging directory, and nothing else is. -/
theorem writeGeneration_eval {view : View} {g : Generations}
    (hroot : view.Rooted store.root place) (haccepted : Layout.Accepted store.root)
    (h : Holds view place { g with staging := View.ofFiles fun _ => none } tree)
    (hstorable : source.Storable store) (context : Context) (position : ApplyPosition) :
    ∃ after,
      Task.eval tree (store.writeGeneration context store.staging source position) =
        (.ok source.signs, after) ∧
      Holds view place { g with staging := source.generation position } after := by
  have hcomplete := storable_iff.1 hstorable
  -- each step adds its file to those of the steps before
  obtain ⟨tree₁, heval₁, h₁⟩ :=
    writeKind_staged hroot haccepted h (hcomplete .inode) context {}
  obtain ⟨tree₂, heval₂, h₂⟩ :=
    writeKind_staged hroot haccepted h₁ (hcomplete .dentry) context _
  obtain ⟨tree₃, heval₃, h₃⟩ :=
    writeKind_staged hroot haccepted h₂ (hcomplete .extend) context _
  obtain ⟨tree₄, heval₄, h₄⟩ :=
    writeKind_staged hroot haccepted h₃ (hcomplete .multipart) context _
  obtain ⟨tree₅, heval₅, h₅⟩ := writeSmallFile_staged hroot haccepted h₄
    (by decide : Layout.apply ∈ Layout.files) (store.context "storeApplyID")
    (Bytes.ofString position.text)
  obtain ⟨tree₆, heval₆, h₆⟩ := writeSmallFile_staged hroot haccepted h₅
    (by decide : Layout.signs ∈ Layout.files) context (Bytes.ofString source.signs.text)
  -- the six files are there
  rw [files_eq] at h₆
  refine ⟨tree₆, ?_, h₆⟩
  have hkinds : Task.eval tree (Kind.all.foldlM (store.writeKind context store.staging source) {}) =
      (.ok source.signs, tree₄) := by
    simp only [Kind.all, List.foldlM_cons, List.foldlM_nil]
    rw [Task.eval_bind_ok _ heval₁, Task.eval_bind_ok _ heval₂, Task.eval_bind_ok _ heval₃,
      Task.eval_bind_ok _ heval₄]
    rfl
  have happly : Task.eval tree₄ (store.storeApply store.staging position) = (.ok (), tree₅) :=
    storeApply_eval heval₅
  unfold writeGeneration
  rw [Task.eval_bind_ok _ hkinds, Task.eval_bind_ok _ happly, Task.eval_bind_ok _ heval₆,
    Task.eval_bind_ok _ (Task.eval_lift tree₆ _), syncDirectory_eval]
  rfl

/-- A generation that is written is that of a source that can be stored, and the paths of its files
are accepted. -/
theorem storable_of_writeGeneration {context : Context} {directory : Path}
    {position : ApplyPosition} {signs : Signs} {after : FileTree}
    (h : Task.eval tree (store.writeGeneration context directory source position) =
      (.ok signs, after)) :
    source.Storable store ∧
      FileTree.checkPath (Layout.entityFile directory .multipart) = .ok () := by
  unfold writeGeneration at h
  obtain ⟨_, _, hkinds, -⟩ := Task.eval_bind_eq_ok h
  simp only [Kind.all, List.foldlM_cons] at hkinds
  -- one equation for each kind, in the order of `Kind.all`
  obtain ⟨_, _, hinode, hkinds⟩ := Task.eval_bind_eq_ok hkinds
  obtain ⟨_, _, hdentry, hkinds⟩ := Task.eval_bind_eq_ok hkinds
  obtain ⟨_, _, hextend, hkinds⟩ := Task.eval_bind_eq_ok hkinds
  obtain ⟨_, _, hmultipart, -⟩ := Task.eval_bind_eq_ok hkinds
  refine ⟨storable_iff.2 fun kind => ?_, (complete_of_writeKind hmultipart).2⟩
  cases kind with
  | inode => exact (complete_of_writeKind hinode).1
  | dentry => exact (complete_of_writeKind hdentry).1
  | extend => exact (complete_of_writeKind hextend).1
  | multipart => exact (complete_of_writeKind hmultipart).1

end Store

end PartitionSnapshot
