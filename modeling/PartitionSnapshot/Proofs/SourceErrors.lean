import PartitionSnapshot.Proofs.LegacyCounts
import PartitionSnapshot.Proofs.NamedErrors

/-!
# Errors of a source

Storing a kind asks a source for one or two numbers and then goes through its records. Either may
fail, with any error, and so may the writing of a record. What comes out of the storing is that
error: as it is when it names an operation, and otherwise inside the operation that stores the kind,
once. Storing a generation passes it on. Apart from these errors there is one that has nothing to do
with the source: the file of the kind cannot be made.

## Main statements

* `Kind.exists_refuses_iff`, `Walk.exists_fails_iff`: when a record is refused and a walk fails.
* `Store.storeKind_of_meets`, `Store.storeKind_eq_error`: the errors of storing a kind.
* `Store.storeSnapshot_of_meets`, `Store.meetsIn_of_first`: those of the source in a generation.
* `Store.errors_named`: errors keep their class and name their operation.
-/

namespace PartitionSnapshot

/-! ## Records that are refused -/

namespace Kind

/-- The error about a record that the file of a kind does not take: one of an inode that does not
decode, or one of an inode or a directory entry that is too long for its header. -/
inductive Refuses (context : Context) : Kind → Bytes → Error → Prop
  | undecodable {record : Bytes} {fault : DecodeFault}
      (h : Entity.ofRecord Inode record = .error fault) :
      Refuses context .inode record (.decoding (.record .inode fault))
  | longInode {record : Bytes} {inode : Inode} (h : Entity.ofRecord Inode record = .ok inode)
      (hlong : UInt32.size ≤ record.length) :
      Refuses context .inode record
        (.corrupt context (.malformed (.writingInode inode.id) (.oversized record.length)))
  | longDentry {record : Bytes} (hlong : UInt32.size ≤ record.length) :
      Refuses context .dentry record
        (.corrupt context (.malformed (.writingRecord .dentry) (.oversized record.length)))

variable {context : Context} {kind : Kind} {record : Bytes} {error : Error}

/-- The records that are refused are those that do not fit. -/
theorem exists_refuses_iff : (∃ error, kind.Refuses context record error) ↔ ¬ kind.Fits record := by
  constructor
  · rintro ⟨error, h⟩ hfits
    cases h with
    | undecodable h =>
      obtain ⟨inode, hinode⟩ := hfits.1 rfl
      rw [h] at hinode
      cases hinode
    | longInode _ hlong => exact absurd hfits.2 (Nat.not_lt.2 hlong)
    | longDentry hlong => exact absurd hfits.2 (Nat.not_lt.2 hlong)
  · intro hfits
    cases kind with
    | inode =>
      cases hinode : Entity.ofRecord Inode record with
      | error fault => exact ⟨_, .undecodable hinode⟩
      | ok inode =>
        refine ⟨_, .longInode hinode (Nat.not_lt.1 fun hshort => hfits ⟨fun _ => ?_, hshort⟩)⟩
        exact ⟨inode, hinode⟩
    | dentry =>
      exact ⟨_, .longDentry (Nat.not_lt.1 fun hshort => hfits ⟨nofun, hshort⟩)⟩
    | extend => exact absurd ⟨nofun, trivial⟩ hfits
    | multipart => exact absurd ⟨nofun, trivial⟩ hfits

/-- Records that do not all fit do up to a first one. -/
theorem exists_first_unfit {records : List Bytes} (h : ¬ ∀ record ∈ records, kind.Fits record) :
    ∃ taken record rest, records = taken ++ record :: rest ∧ (∀ other ∈ taken, kind.Fits other) ∧
      ¬ kind.Fits record := by
  induction records with
  | nil => exact absurd nofun h
  | cons record records ih =>
    by_cases hrecord : kind.Fits record
    · obtain ⟨taken, other, rest, hsplit, htaken, hother⟩ :=
        ih fun hall => h (List.forall_mem_cons.2 ⟨hrecord, hall⟩)
      exact ⟨record :: taken, other, rest, congrArg (record :: ·) hsplit,
        List.forall_mem_cons.2 ⟨hrecord, htaken⟩, hother⟩
    · exact ⟨[], record, records, rfl, nofun, hrecord⟩

/-- Writing a record that is refused ends in the error about it, which may have been named
already. -/
theorem Refuses.recordWriter {writer : FrameWriter} (h : kind.Refuses context record error)
    (hframing : writer.framing = kind.framing) :
    ∃ met, Store.recordWriter context kind writer record = .error met ∧
      context.wrap met = context.wrap error := by
  cases h with
  | undecodable h =>
    refine ⟨context.wrap _, ?_, context.wrap_wrap _⟩
    simp only [Store.recordWriter, Store.writeInode, h]
  | longInode h hlong =>
    have hlong : ¬ writer.framing.Expresses record.length := hframing ▸ Nat.not_lt.2 hlong
    refine ⟨_, ?_, rfl⟩
    simp only [Store.recordWriter, Store.writeInode, h, Inode.toRecord_of_ofRecord h,
      FrameWriter.writeRecord_of_not_expresses hlong]
    rfl
  | longDentry hlong =>
    have hlong : ¬ writer.framing.Expresses record.length := hframing ▸ Nat.not_lt.2 hlong
    refine ⟨_, ?_, rfl⟩
    simp only [Store.recordWriter, Store.writeAsIs, FrameWriter.writeRecord_of_not_expresses hlong]
    rfl

/-- So does writing it behind records that are written. -/
theorem Refuses.writeEach {writer : FrameWriter} (h : kind.Refuses context record error)
    (hframing : writer.framing = kind.framing) {taken : List Bytes}
    (hfits : ∀ other ∈ taken, kind.Fits other) (rest : List Bytes) :
    ∃ met, (writer.writeEach (Store.recordWriter context kind) (taken ++ record :: rest)).2 =
        some met ∧ context.wrap met = context.wrap error := by
  have hwrites := Store.writes_recordWriter context kind
  -- the writer keeps its framing from record to record
  induction taken generalizing writer with
  | nil =>
    obtain ⟨met, hmet, hwrap⟩ := h.recordWriter hframing
    refine ⟨met, ?_, hwrap⟩
    rw [List.nil_append, FrameWriter.writeEach, hmet]
  | cons first taken ih =>
    obtain ⟨hfirst, hfits⟩ := List.forall_mem_cons.1 hfits
    have hadd : (writer.add first).framing = kind.framing := hframing
    rw [List.cons_append, FrameWriter.writeEach, hwrites.accepts hframing hfirst]
    exact ih hadd hfits

end Kind

/-! ## Walks that fail -/

namespace Walk

/-- The error in which going through a walk ends: that about the first record that is refused, or
else that of the walk, behind its last record. -/
inductive Fails (context : Context) (kind : Kind) (walk : Walk) : Error → Prop
  | visit {taken rest : List Bytes} {record : Bytes} {error : Error}
      (hrecords : walk.records = taken ++ record :: rest) (hfits : ∀ other ∈ taken, kind.Fits other)
      (hrefuses : kind.Refuses context record error) : Fails context kind walk error
  | own {error : Error} (hfits : ∀ record ∈ walk.records, kind.Fits record)
      (hfailure : walk.failure = some error) : Fails context kind walk error

variable {context : Context} {kind : Kind} {walk : Walk} {error : Error}

/-- A walk fails unless its records all fit and it just ends. -/
theorem exists_fails_iff : (∃ error, walk.Fails context kind error) ↔
    ¬ ((∀ record ∈ walk.records, kind.Fits record) ∧ walk.failure = none) := by
  constructor
  · rintro ⟨error, h⟩ ⟨hfits, hfailure⟩
    cases h with
    | visit hrecords _ hrefuses =>
      refine Kind.exists_refuses_iff.1 ⟨error, hrefuses⟩ (hfits _ ?_)
      rw [hrecords]
      exact List.mem_append_right _ List.mem_cons_self
    | own _ herror =>
      rw [hfailure] at herror
      cases herror
  · intro h
    by_cases hfits : ∀ record ∈ walk.records, kind.Fits record
    · cases hfailure : walk.failure with
      | none => exact absurd ⟨hfits, hfailure⟩ h
      | some error => exact ⟨error, .own hfits hfailure⟩
    · obtain ⟨taken, record, rest, hrecords, htaken, hrecord⟩ := Kind.exists_first_unfit hfits
      obtain ⟨error, herror⟩ := Kind.exists_refuses_iff.2 hrecord
      exact ⟨error, .visit hrecords htaken herror⟩

/-- Writing a walk that fails meets its error, which may have been named already. -/
theorem Fails.writeWalk {writer : FrameWriter} (h : walk.Fails context kind error)
    (hframing : writer.framing = kind.framing) :
    ∃ met, (writer.writeWalk (Store.recordWriter context kind) walk).2 = some met ∧
      context.wrap met = context.wrap error := by
  have hwrites := Store.writes_recordWriter context kind
  cases h with
  | own hfits hfailure =>
    refine ⟨error, ?_, rfl⟩
    rw [FrameWriter.writeWalk, FrameWriter.writeEach_of_forall (hframing ▸ hwrites) hfits, hfailure]
    rfl
  | @visit taken rest record _ hrecords hfits hrefuses =>
    obtain ⟨met, hmet, hwrap⟩ := hrefuses.writeEach hframing hfits rest
    refine ⟨met, ?_, hwrap⟩
    have hor : (writer.writeWalk (Store.recordWriter context kind) walk).2 =
      (writer.writeEach (Store.recordWriter context kind) walk.records).2.or walk.failure := rfl
    rw [hor, hrecords, hmet]
    rfl

end Walk

namespace Store

open FileTree (Holds)

variable {store : Store} {source : Source} {directory : Path} {kind : Kind} {tree : FileTree}
variable {error : Error}

/-! ## Storing a kind -/

/-- The numbers that storing a kind asks a source for: the one for the head of the file, if there
is to be one, and then that of the records. -/
def counts (store : Store) (source : Source) (kind : Kind) :
    Except Error (Option UInt64 × UInt64) := do
  let count ← store.headCount source kind
  let expected ← source.count kind
  return (count, expected)

/-- Storing a kind in a directory meets an error of the source: a number that it is asked for it
does not have; or the numbers are there, the file is made, and going through the records fails. -/
inductive Meets (store : Store) (source : Source) (directory : Path) (kind : Kind)
    (tree : FileTree) : Error → Prop
  | counting {error : Error} (h : store.counts source kind = .error error) :
      Meets store source directory kind tree error
  | walking {error : Error} {counts : Option UInt64 × UInt64} {made : FileTree}
      (hcounts : store.counts source kind = .ok counts) (htree : tree.isDirectory = true)
      (hmade : tree.create (Layout.entityFile directory kind) = .ok made)
      (hfails : (source.walk kind).Fails (store.storing kind) kind error) :
      Meets store source directory kind tree error

theorem counts_eq_ok {counts : Option UInt64 × UInt64} (h : store.counts source kind = .ok counts) :
    store.headCount source kind = .ok counts.1 ∧ source.count kind = .ok counts.2 := by
  unfold Store.counts at h
  cases hcount : store.headCount source kind with
  | error error =>
    rw [hcount] at h
    cases h
  | ok count =>
    cases hexpected : source.count kind with
    | error error =>
      rw [hcount, hexpected] at h
      cases h
    | ok expected =>
      rw [hcount, hexpected] at h
      cases h
      exact ⟨rfl, rfl⟩

/-- Without the numbers nothing is done. -/
theorem storeKind_of_counts_error (h : store.counts source kind = .error error)
    (directory : Path) (tree : FileTree) :
    Task.eval tree (store.storeKind kind directory source) =
      (.error ((store.storing kind).wrap error), tree) := by
  unfold counts at h
  cases hcount : store.headCount source kind with
  | error error =>
    rw [hcount] at h
    cases h
    exact storeKind_eval_error hcount directory tree
  | ok count =>
    rw [hcount] at h
    rw [storeKind_eq_saveKind hcount]
    unfold saveKind
    cases hexpected : source.count kind with
    | ok expected =>
      rw [hexpected] at h
      cases h
    | error error =>
      rw [hexpected] at h
      cases h
      rfl

/-- Where the file can be made, going through records that fails ends the storing with its error. -/
theorem storeKind_of_fails {counts : Option UInt64 × UInt64} {made : FileTree}
    (hcounts : store.counts source kind = .ok counts) (htree : tree.isDirectory = true)
    (hmade : tree.create (Layout.entityFile directory kind) = .ok made)
    (hfails : (source.walk kind).Fails (store.storing kind) kind error) :
    ∃ after, Task.eval tree (store.storeKind kind directory source) =
      (.error ((store.storing kind).wrap error), after) := by
  obtain ⟨hcount, hexpected⟩ := counts_eq_ok hcounts
  have hname := Kind.isName_name kind
  have htop : tree.view [] = some .directory := FileTree.view_top_iff.2 htree
  obtain ⟨writer, hstart, hframing, -⟩ := FrameWriter.start_eq_ok (expresses_headCount hcount)
  obtain ⟨met, hmet, hwrap⟩ := hfails.writeWalk hframing
  -- what was written by then goes into the file
  obtain ⟨filled, hfilled, -⟩ := FileTree.fill_of_read hname
    (FileTree.read_of_made hname htop hmade)
    (writer.writeWalk (recordWriter (store.storing kind) kind) (source.walk kind)).1.written
  refine ⟨filled, ?_⟩
  rw [storeKind_eq_saveKind hcount]
  unfold saveKind
  rw [Task.eval_bind, Task.eval_ofExcept, hexpected]
  dsimp only [Except.mapError]
  rw [Task.eval_bind, Task.eval_ofProcedure, Procedure.eval_create, hmade]
  dsimp only [FileTree.settle]
  rw [Task.eval_bind, Task.eval_ofExcept, hstart]
  dsimp only [Except.mapError]
  rw [Task.eval_bind, Task.eval_ofProcedure, Procedure.eval_append]
  have happend : made.append (Layout.entityFile directory kind)
    (writer.writeWalk (recordWriter (store.storing kind) kind) (source.walk kind)).1.written =
      .ok filled := hfilled
  rw [happend]
  dsimp only [FileTree.settle]
  rw [hmet, ← hwrap]
  rfl

/-- Storing a kind ends in the error of the source that it meets. -/
theorem storeKind_of_meets (h : store.Meets source directory kind tree error) :
    ∃ after, Task.eval tree (store.storeKind kind directory source) =
      (.error ((store.storing kind).wrap error), after) := by
  cases h with
  | counting h => exact ⟨tree, storeKind_of_counts_error h directory tree⟩
  | walking hcounts htree hmade hfails => exact storeKind_of_fails hcounts htree hmade hfails

/-- A file that cannot be made ends the storing before the records are asked for. -/
theorem storeKind_of_create_error {counts : Option UInt64 × UInt64} {failure : Failure}
    (hcounts : store.counts source kind = .ok counts)
    (hcreate : tree.create (Layout.entityFile directory kind) = .error failure) :
    Task.eval tree (store.storeKind kind directory source) =
      (.error (.storage (store.storing kind) (.creating (Layout.entityFile directory kind))
        failure), tree) := by
  obtain ⟨hcount, hexpected⟩ := counts_eq_ok hcounts
  rw [storeKind_eq_saveKind hcount]
  unfold saveKind
  rw [Task.eval_bind, Task.eval_ofExcept, hexpected]
  dsimp only [Except.mapError]
  rw [Task.eval_bind, Task.eval_ofProcedure, Procedure.eval_create, hcreate]
  rfl

/-- **The errors of storing a kind** are those of the source, and the one that says that the file
cannot be made. -/
theorem storeKind_eq_error (htree : tree.isDirectory = true) {reported : Error} :
    (∃ after, Task.eval tree (store.storeKind kind directory source) = (.error reported, after)) ↔
      (∃ error, store.Meets source directory kind tree error ∧
        reported = (store.storing kind).wrap error) ∨
      ∃ counts failure, store.counts source kind = .ok counts ∧
        tree.create (Layout.entityFile directory kind) = .error failure ∧
        reported = .storage (store.storing kind) (.creating (Layout.entityFile directory kind))
          failure := by
  constructor
  · rintro ⟨after, heval⟩
    cases hcounts : store.counts source kind with
    | error error =>
      rw [storeKind_of_counts_error hcounts] at heval
      cases heval
      exact .inl ⟨error, .counting hcounts, rfl⟩
    | ok counts =>
      cases hcreate : tree.create (Layout.entityFile directory kind) with
      | error failure =>
        rw [storeKind_of_create_error hcounts hcreate] at heval
        cases heval
        exact .inr ⟨counts, failure, rfl, rfl, rfl⟩
      | ok made =>
        by_cases hwhole : (∀ record ∈ (source.walk kind).records, kind.Fits record) ∧
            (source.walk kind).failure = none
        · -- then the kind is stored
          obtain ⟨hcount, hexpected⟩ := counts_eq_ok hcounts
          obtain ⟨written, hstored, -⟩ :=
            storeKind_of_create hcount hexpected hwhole.1 hwhole.2 htree hcreate
          rw [hstored] at heval
          cases heval
        · obtain ⟨error, hfails⟩ := Walk.exists_fails_iff.2 hwhole
          obtain ⟨after', heval'⟩ := storeKind_of_fails hcounts htree hcreate hfails
          rw [heval'] at heval
          cases heval
          exact .inl ⟨error, .walking hcounts htree hcreate hfails, rfl⟩
  · rintro (⟨error, hmeets, rfl⟩ | ⟨counts, failure, hcounts, hcreate, rfl⟩)
    · exact storeKind_of_meets hmeets
    · exact ⟨tree, storeKind_of_create_error hcounts hcreate⟩

/-! ## Storing a generation -/

/-- Storing a generation meets an error of the source in a kind: the staging directory is made, the
kinds before are written, and storing this one meets the error. -/
inductive MeetsIn (store : Store) (source : Source) (tree : FileTree) (kind : Kind)
    (error : Error) : Prop
  | intro {dropped made written : FileTree} {before behind : List Kind} {signs : Signs}
      (hdropped : (removeIfPresent store.staging).eval tree = (.ok (), dropped))
      (hmade : (Procedure.makeDirectories store.staging).eval dropped = (.ok (), made))
      (hkinds : Kind.all = before ++ kind :: behind)
      (hwritten : Task.eval made
        (before.foldlM (store.writeKind (store.context "storeSnapshot") store.staging source) {}) =
          (.ok signs, written))
      (hmeets : store.Meets source store.staging kind written error) :
      MeetsIn store source tree kind error

/-- A fold goes on where its first steps end. -/
theorem eval_foldlM_append {α ι : Type} {step : α → ι → Task α} {items : List ι} {value result : α}
    {after : FileTree} (h : Task.eval tree (items.foldlM step value) = (.ok result, after))
    (more : List ι) :
    Task.eval tree ((items ++ more).foldlM step value) =
      Task.eval after (more.foldlM step result) := by
  induction items generalizing value tree with
  | nil =>
    cases h
    rfl
  | cons item items ih =>
    rw [List.foldlM_cons] at h
    obtain ⟨next, mid, hstep, h⟩ := Task.eval_bind_eq_ok h
    rw [List.cons_append, List.foldlM_cons, Task.eval_bind_ok _ hstep]
    exact ih h

/-- Storing a generation ends in the error of the source that it meets, and drops what was
written. -/
theorem storeSnapshot_of_meets (h : store.MeetsIn source tree kind error)
    (position : ApplyPosition) :
    ∃ after, Task.eval tree (store.storeSnapshot source position) =
      (.error ((store.storing kind).wrap error), after) := by
  obtain @⟨dropped, made, written, before, behind, signs, hdropped, hmade, hkinds, hwritten,
    hmeets⟩ := h
  obtain ⟨left, hkind⟩ := storeKind_of_meets hmeets
  have hall : Task.eval made
      (Kind.all.foldlM (store.writeKind (store.context "storeSnapshot") store.staging source) {}) =
        (.error ((store.storing kind).wrap error), left) := by
    rw [hkinds, eval_foldlM_append hwritten, List.foldlM_cons]
    exact Task.eval_bind_error _ (Task.eval_bind_error _ hkind)
  have hgeneration : Task.eval made (store.writeGeneration (store.context "storeSnapshot")
      store.staging source position) = (.error ((store.storing kind).wrap error), left) :=
    Task.eval_bind_error _ hall
  refine ⟨((store.discard "storeSnapshot" store.staging).eval left).2, ?_⟩
  unfold storeSnapshot
  dsimp only
  rw [Task.eval_bind_ok _ (Task.eval_ofProcedure_ok _ hdropped),
    Task.eval_bind_ok _ (Task.eval_ofProcedure_ok _ hmade),
    Task.eval_bind_ok _ (Task.eval_attempt made _), hgeneration]
  dsimp only
  rw [Task.eval_bind_ok _ (Task.eval_lift left _)]
  rfl

section

variable {view : View} {place : List String} {g : Generations} {files : String → Option Bytes}
variable (hroot : view.Rooted store.root place) (haccepted : Layout.Accepted store.root)
include hroot haccepted

/-- Kinds that can be stored are written one after the other. -/
theorem writeKinds_staged (h : Holds view place { g with staging := View.ofFiles files } tree)
    {kinds : List Kind} (hcomplete : ∀ kind ∈ kinds, store.Complete source kind)
    (context : Context) (signs : Signs) :
    ∃ signs' files' after,
      Task.eval tree (kinds.foldlM (store.writeKind context store.staging source) signs) =
        (.ok signs', after) ∧
      Holds view place { g with staging := View.ofFiles files' } after := by
  induction kinds generalizing tree signs files with
  | nil => exact ⟨signs, files, tree, rfl, h⟩
  | cons kind kinds ih =>
    obtain ⟨hkind, hothers⟩ := List.forall_mem_cons.1 hcomplete
    obtain ⟨mid, hwrite, hmid⟩ := writeKind_staged hroot haccepted h hkind context signs
    obtain ⟨signs', files', after, hrest, hafter⟩ := ih hmid hothers _
    refine ⟨signs', files', after, ?_, hafter⟩
    rw [List.foldlM_cons, Task.eval_bind_ok _ hwrite]
    exact hrest

/-- Under a root whose paths are accepted, storing a generation meets the error of the source in the
first kind that cannot be stored because of it. -/
theorem meetsIn_of_first (h : Holds view place g tree) (hstaging : g.staging.NoFile)
    {before behind : List Kind} (hkinds : Kind.all = before ++ kind :: behind)
    (hcomplete : ∀ other ∈ before, store.Complete source other)
    (herror : store.counts source kind = .error error ∨
      (∃ counts, store.counts source kind = .ok counts) ∧
        (source.walk kind).Fails (store.storing kind) kind error) :
    store.MeetsIn source tree kind error := by
  obtain ⟨dropped, hdropped, h₁⟩ := dropStaging hroot haccepted.readable h hstaging
  obtain ⟨made, hmade, h₂⟩ := makeStaging hroot haccepted h₁ rfl
  obtain ⟨signs, files, written, hwritten, h₃⟩ :=
    writeKinds_staged hroot haccepted h₂ hcomplete (store.context "storeSnapshot") {}
  refine .intro hdropped hmade hkinds hwritten ?_
  rcases herror with hcounts | ⟨⟨counts, hcounts⟩, hfails⟩
  · exact .counting hcounts
  · -- the file is made in the staging directory
    have hfolder := staging_folder h₃ rfl
    have htree : written.isDirectory = true :=
      FileTree.view_top_iff.1 (FileTree.view_above (by rw [List.nil_append, hfolder]))
    obtain ⟨file, hfile, -⟩ := FileTree.fill_file (h₃.rooted hroot)
      (by decide : Layout.staging ∈ Layout.folders) (Layout.mem_files kind)
      (haccepted.file_of_mem (by decide) (Layout.mem_files kind)) hfolder
      (staging_free h₃ rfl kind.name)
    exact .walking hcounts htree hfile hfails

end

/-! ## All errors -/

/-- **Errors keep their class and name their operation.** Storing a kind ends in whatever error of
the source it meets, and so does storing a generation that meets it in a kind: with the class that
it had, as it was when it named an operation, and otherwise inside the operation that stores the
kind, once. And no operation of a store ends in an error that names none, whatever it is given,
however the file system answers, and whatever the state machine does. -/
theorem errors_named {σ : Type} [StateMachine σ] (store : Store) (source : Source) :
    (∀ tree directory kind error, store.Meets source directory kind tree error →
      ∃ reported after,
        Task.eval tree (store.storeKind kind directory source) = (.error reported, after) ∧
        (store.storing kind).Reports error reported) ∧
    (∀ tree position kind error, store.MeetsIn source tree kind error →
      ∃ reported after,
        Task.eval tree (store.storeSnapshot source position) = (.error reported, after) ∧
        (store.storing kind).Reports error reported) ∧
    (∀ config options, NamedResult (Store.new config options)) ∧
    (∀ config, NamedResult (store.replaceConfig config)) ∧
    (∀ root options, Task.Named (Store.open root options)) ∧
    (∀ root, Task.Named (loadMetadata root)) ∧
    Task.Named store.persistMetadata ∧
    Task.Named store.verify ∧
    (∀ kind directory, Task.Named (store.storeKind kind directory source)) ∧
    (∀ directory position, Task.Named (store.storeApply directory position)) ∧
    (∀ position, Task.Named (store.storeSnapshot source position)) ∧
    (∀ directory cursor, Replaying.Named (store.loadInodes directory cursor : Replaying σ _)) ∧
    (∀ directory, Replaying.Named (store.loadDentries directory : Replaying σ _)) ∧
    (∀ directory, Replaying.Named (store.loadExtends directory : Replaying σ _)) ∧
    (∀ directory, Replaying.Named (store.loadMultiparts directory : Replaying σ _)) ∧
    (∀ directory cursor, Task.Named (store.loadApply directory cursor)) ∧
    ∀ state : σ, (store.load state).Ends fun result => NamedResult result.1 := by
  refine ⟨fun tree directory kind error h => ?_, fun tree position kind error h => ?_,
    named_new, named_replaceConfig store, named_open, named_loadMetadata,
    named_persistMetadata store, named_verify store,
    fun kind directory => named_storeKind store kind directory source, named_storeApply store,
    named_storeSnapshot store source, named_loadInodes store, named_loadDentries store,
    named_loadExtends store, named_loadMultiparts store, named_loadApply store, named_load store⟩
  · obtain ⟨after, heval⟩ := storeKind_of_meets h
    exact ⟨_, after, heval, Context.reports_wrap _ _⟩
  · obtain ⟨after, heval⟩ := storeSnapshot_of_meets h position
    exact ⟨_, after, heval, Context.reports_wrap _ _⟩

/-- Two bytes that are not the record of an inode; a generation whose extends cannot be gone
through, behind inodes and directory entries that are written; and a directory without a
generation to verify. -/
theorem errors_named_inside :
    let store := sample "p"
    let tree : FileTree := .directory [("p", .directory [])]
    let garbage := (Records.empty.push .inode [0xff, 0xff]).source
    let broken := Records.empty.source.failAfter 0 (some .extend)
    (∃ after, Task.eval tree (store.storeInodes store.root garbage) =
      (.error (.within ⟨"storeInode", 7⟩ (.decoding (.record .inode .endOfRecord))), after)) ∧
    (∃ after, Task.eval tree (store.storeSnapshot broken ⟨3, 5⟩) =
      (.error (.within ⟨"storeExtend", 7⟩ (.source (.described "range extend failed"))),
        after)) ∧
    ∃ error after, Task.eval tree store.verify = (.error error, after) ∧
      error.hasContext = true := by
  intro store tree garbage broken
  have hgarbage : store.Meets garbage store.root .inode tree
      (.decoding (.record .inode .endOfRecord)) := by
    let path := Layout.entityFile store.root .inode
    have hcreated : (tree.create path).isOk = true := by decide +kernel
    obtain ⟨made, hmade⟩ : ∃ made, tree.create path = .ok made := by
      rcases hcreate : tree.create path with failure | made
      · rw [hcreate] at hcreated
        cases hcreated
      · exact ⟨made, rfl⟩
    have hfault : (Entity.ofRecord Inode [0xff, 0xff] : Except DecodeFault Inode) =
      .error .endOfRecord := rfl
    have hrecords : (garbage.walk .inode).records = [] ++ [0xff, 0xff] :: [] := rfl
    exact .walking rfl rfl hmade (.visit hrecords (List.forall_mem_nil _) (.undecodable hfault))
  have hbroken : store.MeetsIn broken tree .extend
      (.source (.described "range extend failed")) := by
    have hroot : tree.view.Rooted store.root ["p"] := ⟨by decide, by decide⟩
    have hcomplete : ∀ kind ∈ [Kind.inode, .dentry], store.Complete broken kind := by
      intro kind hkind
      simp only [List.mem_cons, List.not_mem_nil, or_false] at hkind
      rcases hkind with rfl | rfl
      · exact ⟨⟨0, rfl, rfl⟩, ⟨none, rfl, nofun⟩, rfl, nofun⟩
      · exact ⟨⟨0, rfl, rfl⟩, ⟨none, rfl, nofun⟩, rfl, nofun⟩
    have hkinds : Kind.all = [.inode, .dentry] ++ .extend :: [.multipart] := rfl
    exact meetsIn_of_first hroot (by decide) (Holds.self tree ["p"]) (by decide) hkinds hcomplete
      (.inr ⟨⟨_, rfl⟩, .own nofun rfl⟩)
  have hnamed (source : Source) := errors_named (σ := MemoryPartition) store source
  refine ⟨?_, ?_, ?_⟩
  · obtain ⟨reported, after, heval, hreports⟩ := (hnamed garbage).1 tree _ _ _ hgarbage
    obtain rfl := hreports.within rfl
    exact ⟨after, heval⟩
  · obtain ⟨reported, after, heval, hreports⟩ := (hnamed broken).2.1 tree ⟨3, 5⟩ _ _ hbroken
    obtain rfl := hreports.within rfl
    exact ⟨after, heval⟩
  · have hfails : (Task.eval tree store.verify).1.isOk = false := by decide +kernel
    rcases heval : Task.eval tree store.verify with ⟨error | signs, after⟩
    · obtain ⟨-, -, -, -, -, -, -, hverify, -⟩ := hnamed broken
      exact ⟨error, after, rfl, hverify.hasContext heval⟩
    · rw [heval] at hfails
      cases hfails

end Store

end PartitionSnapshot
