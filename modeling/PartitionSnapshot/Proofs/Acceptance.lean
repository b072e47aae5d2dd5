import PartitionSnapshot.Proofs.Restoring

/-!
# Which files are loaded

Loading the entity files of a generation goes through or fails, and which of the two is decided file
by file: the file has to be absent, or to be read to its end with records that are all taken in. A
record is taken in when it decodes, and an inode when it also belongs to the partition. None of this
depends on the state of the machine, as long as the machine refuses no entity.

## Main statements

* `Store.Yields`: a file that is read to its end, and the checksum that this comes to.
* `Store.yields_iff_covers`: the same said of the bytes of the file.
* `Store.loadFiles_eq_ok`: when the files of a generation are loaded.
* `Store.restored_eq_ok`: when a partition is restored.
-/

namespace PartitionSnapshot

/-! ## Records that are taken in -/

theorem Handled.each_eq_ok_iff {τ : Type} {handle : Bytes → τ → Handled τ} {accepts : Bytes → Prop}
    (h : ∀ record state, (handle record state).result = .ok () ↔ accepts record)
    {records : List Bytes} {state : τ} :
    (each handle state records).result = .ok () ↔ ∀ record ∈ records, accepts record := by
  -- along the records, whatever state the ones before have led to
  induction records generalizing state with
  | nil => exact ⟨fun _ _ hmem => (List.not_mem_nil hmem).elim, fun _ => rfl⟩
  | cons record records ih =>
    rw [List.forall_mem_cons]
    constructor
    · intro hall
      have hfirst := each_cons_eq_ok hall
      rw [(each_cons_of_ok records hfirst).1] at hall
      exact ⟨(h record state).1 hfirst, ih.1 hall⟩
    · rintro ⟨hrecord, hrecords⟩
      rw [(each_cons_of_ok records ((h record state).2 hrecord)).1]
      exact ih.2 hrecords

/-- When a load takes in a record of a kind: it decodes, and an inode belongs to the partition. -/
structure Config.Takes (config : Config) (kind : Kind) (record : Bytes) : Prop where
  decodes : kind.check record = .ok ()
  owned : kind = .inode → ∀ inode, Entity.ofRecord Inode record = .ok inode →
    config.owns inode.id = true

/-- Of records of other kinds than inodes nothing else is asked. -/
theorem Config.takes_iff {config : Config} {kind : Kind} {record : Bytes} (h : kind ≠ .inode) :
    config.Takes kind record ↔ kind.check record = .ok () :=
  ⟨fun htakes => htakes.decodes, fun hdecodes => ⟨hdecodes, fun hkind => absurd hkind h⟩⟩

theorem Config.takes_iff_entity {config : Config} {kind : Kind} {record : Bytes}
    (h : kind ≠ .inode) {ε : Type} [Entity ε]
    (hcheck : kind.check record = (Entity.ofRecord ε record).bind fun _ => .ok ()) :
    config.Takes kind record ↔ ∃ entity, Entity.ofRecord ε record = .ok entity := by
  rw [Config.takes_iff h, hcheck]
  cases Entity.ofRecord ε record with
  | error fault => exact ⟨fun herror => by simp [Except.bind] at herror, fun ⟨_, h⟩ => nomatch h⟩
  | ok entity => exact ⟨fun _ => ⟨entity, rfl⟩, fun _ => rfl⟩

section

variable {σ : Type} [StateMachine σ] {record : Bytes}

theorem handleInode_eq_ok {config : Config} {context : Context} {state : UInt64 × σ} :
    (Store.handleInode config context record state).result = .ok () ↔
      config.Takes .inode record := by
  rw [Store.handleInode_result]
  constructor
  · rintro ⟨inode, hinode, howned⟩
    have hdecodes : Kind.inode.check record = .ok () := by
      simp only [Kind.check, hinode]
      rfl
    refine ⟨hdecodes, fun _ other hother => ?_⟩
    cases hinode.symm.trans hother
    exact howned
  · intro htakes
    obtain ⟨inode, hinode⟩ := Store.ofRecord_of_check htakes.decodes
    exact ⟨inode, hinode, htakes.owned rfl inode hinode⟩

theorem handleMultipart_eq_ok {store : Store} {context : Context} {state : σ} :
    (store.handleMultipart context record state).result = .ok () ↔
      store.config.Takes .multipart record :=
  Store.handleMultipart_result.trans (Config.takes_iff_entity (by decide) rfl).symm

variable [StateMachine.Accepting σ]

theorem handleDentry_eq_ok {config : Config} {context : Context} {state : σ} :
    (Store.handleDentry context record state).result = .ok () ↔ config.Takes .dentry record :=
  Store.handleDentry_result.trans (Config.takes_iff_entity (by decide) rfl).symm

theorem handleExtend_eq_ok {store : Store} {context : Context} {state : σ} :
    (store.handleExtend context record state).result = .ok () ↔
      store.config.Takes .extend record :=
  Store.handleExtend_result.trans (Config.takes_iff_entity (by decide) rfl).symm

end

/-! ## Paths that are refused -/

namespace FileTree

variable {path : Path} {failure : Failure}

theorem read_of_locate_error {tree : FileTree} (h : tree.locate path = .error failure) :
    tree.read path = .error failure := by
  rw [read, find, h]
  rfl

theorem read_of_checkPath {tree : FileTree} (h : checkPath path = .error failure) :
    tree.read path = .error failure :=
  read_of_locate_error (locate_of_refused h)

theorem classify_of_checkPath (h : checkPath path = .error failure) :
    failure.classify ≠ .notFound ∧ failure ≠ .system .isDirectory := by
  unfold checkPath at h
  split at h
  · cases h
    exact ⟨by decide, by decide⟩
  · split at h
    · cases h
      exact ⟨by decide, by decide⟩
    · cases h

end FileTree

/-! ## Files that are read to their end -/

namespace Store

open FileTree (Holds)

variable {store : Store} {kind : Kind} {accepts : Bytes → Prop} {answer : Except Failure Bytes}
variable {checksum : UInt32}

/-- What is found in the file of a kind, from the answer to its reading: contents, or that there is
no file. -/
def Finds (store : Store) (kind : Kind) (answer : Except Failure Bytes)
    (found : Option Contents) : Prop :=
  ∀ context path, store.contentsOf context path kind answer = .ok found

theorem Finds.unique {found found' : Option Contents} (h : store.Finds kind answer found)
    (h' : store.Finds kind answer found') : found = found' :=
  Except.ok.inj ((h (store.context "") default).symm.trans (h' (store.context "") default))

/-- The context of a reading is named in its errors and is of no other influence. -/
theorem finds_of_contentsOf {context : Context} {path : Path} {found : Option Contents}
    (h : store.contentsOf context path kind answer = .ok found) :
    store.Finds kind answer found := by
  intro context' path'
  cases answer with
  | ok content => exact h
  | error failure =>
    simp only [contentsOf] at h ⊢
    split at h
    · next hnotFound => rwa [if_pos hnotFound]
    · next hnotFound =>
      rw [if_neg hnotFound]
      split at h
      · next hdirectory =>
        rw [if_pos hdirectory]
        -- a directory is found by buffered reading alone
        split at h
        · cases h
        · exact h
      · cases h

/-- The file of a kind is read to its end, every record in it is accepted, and the checksum is what
the reading comes to. A missing file has the checksum zero. -/
inductive Yields (store : Store) (kind : Kind) (accepts : Bytes → Prop)
    (answer : Except Failure Bytes) : UInt32 → Prop
  | absent : store.Finds kind answer none → Yields store kind accepts answer 0
  | present {records : List Bytes} {checksum : UInt32} :
      store.Finds kind answer (some ⟨records, .ok checksum⟩) →
      (∀ record ∈ records, accepts record) → Yields store kind accepts answer checksum

namespace Yields

/-- The records of a file that are not asked for anything else. -/
theorem congr {accepts' : Bytes → Prop} (h : store.Yields kind accepts answer checksum)
    (himplies : ∀ record, accepts record → accepts' record) :
    store.Yields kind accepts' answer checksum := by
  cases h with
  | absent hfound => exact .absent hfound
  | present hfound haccepts =>
    exact .present hfound fun record hrecord => himplies record (haccepts record hrecord)

/-- The records that are found in a file have been accepted. -/
theorem accepted (h : store.Yields kind accepts answer checksum) {contents : Contents}
    (hcontents : store.Finds kind answer (some contents)) :
    ∀ record ∈ contents.records, accepts record := by
  cases h with
  | absent hfound => cases hfound.unique hcontents
  | present hfound haccepts =>
    cases hfound.unique hcontents
    exact haccepts

/-- More may be asked of the records that are found. -/
theorem and {accepts' : Bytes → Prop} (h : store.Yields kind accepts answer checksum)
    (haccepts' : ∀ contents, store.Finds kind answer (some contents) →
      ∀ record ∈ contents.records, accepts' record) :
    store.Yields kind (fun record => accepts record ∧ accepts' record) answer checksum := by
  cases h with
  | absent hfound => exact .absent hfound
  | present hfound haccepts =>
    exact .present hfound fun record hrecord =>
      ⟨haccepts record hrecord, haccepts' _ hfound record hrecord⟩

/-- The system accepts the path of a file that is read to its end, or found missing. -/
theorem checkPath {tree : FileTree} {path : Path}
    (h : store.Yields kind accepts (tree.read path) checksum) :
    FileTree.checkPath path = .ok () := by
  cases hcheck : FileTree.checkPath path with
  | ok done => rfl
  | error failure =>
    -- reading the file would have failed, and not as when it is missing
    obtain ⟨hnotFound, hdirectory⟩ := FileTree.classify_of_checkPath hcheck
    have hfails (found : Option Contents) : ¬ store.Finds kind (tree.read path) found := by
      intro hfound
      have hcontents := hfound (store.context "") path
      simp only [FileTree.read_of_checkPath hcheck, contentsOf, if_neg hnotFound,
        if_neg hdirectory] at hcontents
      cases hcontents
    cases h with
    | absent hfound => exact absurd hfound (hfails _)
    | present hfound _ => exact absurd hfound (hfails _)

end Yields

/-- A file that is there yields the checksum of the bytes that belong to its records. In the file of
a kind with a count other bytes may follow these. -/
theorem yields_iff_covers (hbuffer : 1 ≤ store.options.readBuffer) {content : Bytes} :
    store.Yields kind accepts (.ok content) checksum ↔
      ∃ front behind records, content = front ++ behind ∧ kind.Covers front records ∧
        (∀ record ∈ records, accepts record) ∧ checksum = crc32 front ∧
        (kind.framing = .fixed → behind = []) := by
  obtain ⟨hfaithful, hrest⟩ := faithful_source hbuffer kind content
  constructor
  · intro h
    cases h with
    | absent hfound => cases hfound (store.context "") default
    | @present records _ hfound haccepts =>
      have hread : Contents.ofKind kind (store.source kind content) = ⟨records, .ok checksum⟩ :=
        Option.some.inj (Except.ok.inj (hfound (store.context "") default))
      obtain ⟨front, behind, hcontent, hcovers, hchecksum, hbehind⟩ :=
        (Contents.ofKind_eq_ok hfaithful).1 hread
      rw [hrest] at hcontent
      exact ⟨front, behind, records, hcontent, hcovers, haccepts, hchecksum, hbehind⟩
  · rintro ⟨front, behind, records, hcontent, hcovers, haccepts, hchecksum, hbehind⟩
    rw [← hrest] at hcontent
    have hread := (Contents.ofKind_eq_ok hfaithful).2
      ⟨front, behind, hcontent, hcovers, hchecksum, hbehind⟩
    exact .present (fun _ _ => congrArg (fun contents => Except.ok (some contents)) hread) haccepts

/-- A replay goes through just when the file yields a checksum, and then that is its checksum. -/
theorem replayed_eq_ok {τ : Type} {handle : Bytes → τ → Handled τ}
    (h : ∀ record state, (handle record state).result = .ok () ↔ accepts record)
    (context context' : Context) (path : Path) (state : τ) :
    (∃ outcome after, replayed context handle state
        (store.contentsOf context' path kind answer) = (.ok outcome, after) ∧
      outcome.checksum = checksum) ↔ store.Yields kind accepts answer checksum := by
  constructor
  · rintro ⟨outcome, after, hreplay, rfl⟩
    rcases replayed_inv hreplay with ⟨hfound, rfl, -⟩ | ⟨records, checksum, hfound, heach, -, rfl⟩
    · exact .absent (finds_of_contentsOf hfound)
    · exact .present (finds_of_contentsOf hfound) ((Handled.each_eq_ok_iff h).1 heach)
  · intro hyields
    cases hyields with
    | absent hfound =>
      rw [hfound]
      exact ⟨_, _, rfl, rfl⟩
    | @present records _ hfound haccepts =>
      rw [hfound]
      have heach : (Handled.each handle state records).result = .ok () :=
        (Handled.each_eq_ok_iff h).2 haccepts
      refine ⟨⟨true, records.length, checksum⟩, (Handled.each handle state records).state, ?_, rfl⟩
      simp only [replayed, Contents.replay, heach]
      rfl

/-! ## Loading the files -/

section

variable {σ : Type} {tree : FileTree} {directory : Path}

/-- The task loads the file of a kind: it goes through just when the file yields a checksum with
records that are all taken in, and that is the checksum of what it comes to. It changes nothing. -/
structure Loads (store : Store) (tree : FileTree) (directory : Path) (kind : Kind) {β : Type}
    (checksumOf : β → UInt32) (task : Replaying σ β) : Prop where
  yields : ∀ {state state' : σ} {outcome : β} {after : FileTree},
    Replaying.eval tree state task = ((.ok outcome, state'), after) →
    after = tree ∧ store.Yields kind (store.config.Takes kind)
      (tree.read (Layout.entityFile directory kind)) (checksumOf outcome)
  loads : ∀ {checksum : UInt32}, store.Yields kind (store.config.Takes kind)
      (tree.read (Layout.entityFile directory kind)) checksum →
    ∀ state : σ, ∃ outcome state', Replaying.eval tree state task = ((.ok outcome, state'), tree) ∧
      checksumOf outcome = checksum

theorem loads_loadKind {context : Context} {handle : Bytes → σ → Handled σ}
    (h : ∀ record state, (handle record state).result = .ok () ↔ store.config.Takes kind record) :
    store.Loads tree directory kind LoadOutcome.checksum
      (store.loadKind context directory kind handle) where
  yields hload := by
    rw [loadKind_eval] at hload
    obtain ⟨hreplay, rfl⟩ := Prod.ext_iff.1 hload
    exact ⟨rfl, (replayed_eq_ok h _ _ _ _).1 ⟨_, _, hreplay, rfl⟩⟩
  loads hyields state := by
    obtain ⟨outcome, after, hreplay, hchecksum⟩ := (replayed_eq_ok h context context
      (Layout.entityFile directory kind) state).2 hyields
    exact ⟨outcome, after, by rw [loadKind_eval, hreplay], hchecksum⟩

theorem Loads.noted {task : Replaying σ LoadOutcome} {level : Level} {text : LoadOutcome → String}
    (h : store.Loads tree directory kind LoadOutcome.checksum task) :
    store.Loads tree directory kind LoadOutcome.checksum (do
      let outcome ← task
      if outcome.present then Replaying.log level (text outcome)
      return outcome) where
  yields hload := h.yields ((eval_loaded _ _ _ _ _).symm.trans hload)
  loads hyields state := by
    obtain ⟨outcome, state', hload, hchecksum⟩ := h.loads hyields state
    exact ⟨outcome, state', (eval_loaded _ _ _ _ _).trans hload, hchecksum⟩

variable [StateMachine σ]

theorem loads_loadInodes (cursor : UInt64) :
    store.Loads tree directory .inode (fun load => load.outcome.checksum)
      (store.loadInodes directory cursor : Replaying σ InodeLoad) := by
  let context := store.context "loadInode"
  have hreplayed (checksum : UInt32) (state : σ) :=
    @replayed_eq_ok store .inode (store.config.Takes .inode)
      (tree.read (Layout.entityFile directory .inode)) checksum _
      (handleInode store.config context) (fun _ _ => handleInode_eq_ok) context context
      (Layout.entityFile directory .inode) (cursor, state)
  constructor
  · intro state state' load after hload
    rw [loadInodes_eval] at hload
    rcases hreplay : replayed context (handleInode store.config context) (cursor, state)
      (store.contentsOf context (Layout.entityFile directory .inode) .inode
        (tree.read (Layout.entityFile directory .inode))) with ⟨error | outcome, cursor', final⟩
    · rw [hreplay] at hload
      cases hload
    · -- the cursor is added to the outcome of the replay
      rw [hreplay] at hload
      cases hload
      exact ⟨rfl, (hreplayed _ state).1 ⟨outcome, _, hreplay, rfl⟩⟩
  · intro checksum hyields state
    obtain ⟨outcome, ⟨cursor', final⟩, hreplay, hchecksum⟩ := (hreplayed checksum state).2 hyields
    exact ⟨⟨outcome, cursor'⟩, final, by rw [loadInodes_eval, hreplay]; rfl, hchecksum⟩

theorem loads_loadMultiparts :
    store.Loads tree directory .multipart LoadOutcome.checksum
      (store.loadMultiparts directory : Replaying σ LoadOutcome) :=
  (loads_loadKind fun _ _ => handleMultipart_eq_ok).noted

variable [StateMachine.Accepting σ]

theorem loads_loadDentries :
    store.Loads tree directory .dentry LoadOutcome.checksum
      (store.loadDentries directory : Replaying σ LoadOutcome) :=
  (loads_loadKind fun _ _ => handleDentry_eq_ok).noted

theorem loads_loadExtends :
    store.Loads tree directory .extend LoadOutcome.checksum
      (store.loadExtends directory : Replaying σ LoadOutcome) :=
  (loads_loadKind fun _ _ => handleExtend_eq_ok).noted

/-- A load of files that goes through has found them in order. -/
theorem FilesLoaded.yields {state : σ} {stats : LoadStats} {cursor : UInt64}
    (h : store.FilesLoaded tree directory state stats cursor) (kind : Kind) :
    store.Yields kind (store.config.Takes kind) (tree.read (Layout.entityFile directory kind))
      (stats.signs.get kind) := by
  cases kind with
  | inode =>
    obtain ⟨_, _, hload, hchecksum, -⟩ := h.inode
    exact hchecksum ▸ ((loads_loadInodes store.config.first).yields hload).2
  | dentry =>
    obtain ⟨_, _, _, hload, hchecksum⟩ := h.dentry
    exact hchecksum ▸ (loads_loadDentries.yields hload).2
  | extend =>
    obtain ⟨_, _, _, hload, hchecksum⟩ := h.extend
    exact hchecksum ▸ (loads_loadExtends.yields hload).2
  | multipart =>
    obtain ⟨_, _, _, hload, hchecksum⟩ := h.multipart
    exact hchecksum ▸ (loads_loadMultiparts.yields hload).2

/-- **When the files of a generation are loaded**: every file yields its checksum with records that
are all taken in, and the comparison of the checksums goes through. -/
theorem loadFiles_eq_ok {signs : Signs} {verified : Bool} (state : σ) :
    (∃ loaded, (Replaying.eval tree state (store.loadFiles directory)).1.1 = .ok loaded ∧
        loaded.1.signs = signs ∧ loaded.1.verified = verified) ↔
      (∀ kind, store.Yields kind (store.config.Takes kind)
        (tree.read (Layout.entityFile directory kind)) (signs.get kind)) ∧
      (Task.eval tree (store.verifyFiles directory signs)).1 = .ok verified := by
  constructor
  · rintro ⟨loaded, hloaded, rfl, rfl⟩
    exact ⟨(filesLoaded hloaded).yields, (filesLoaded hloaded).verified⟩
  · rintro ⟨hyields, hverify⟩
    obtain ⟨inode, state₁, h₁, hinode⟩ :=
      (loads_loadInodes store.config.first).loads (hyields .inode) state
    obtain ⟨dentry, state₂, h₂, hdentry⟩ := loads_loadDentries.loads (hyields .dentry) state₁
    obtain ⟨extend, state₃, h₃, hextend⟩ := loads_loadExtends.loads (hyields .extend) state₂
    obtain ⟨multipart, state₄, h₄, hmultipart⟩ :=
      loads_loadMultiparts.loads (hyields .multipart) state₃
    have hsigns : (⟨inode.outcome.checksum, dentry.checksum, extend.checksum,
        multipart.checksum⟩ : Signs) = signs := by
      rw [hinode, hdentry, hextend, hmultipart]
      rfl
    unfold loadFiles
    rw [Replaying.eval_bind_ok _ h₁, Replaying.eval_bind_ok _ h₂, Replaying.eval_bind_ok _ h₃,
      Replaying.eval_bind_ok _ h₄, hsigns, Replaying.eval_bind, Replaying.eval_ofTask, hverify]
    exact ⟨_, rfl, rfl, rfl⟩

end

/-- **When a partition is restored**: every file of the generation that is current once the
generations are settled yields its checksum with records that are all taken in, the comparison of
the checksums goes through, and the apply file is missing or holds a position. -/
theorem restored_eq_ok {σ : Type} [StateMachine σ] [StateMachine.Accepting σ] {view : View}
    {place : List String} {g : Generations} {tree : FileTree}
    (hroot : view.Rooted store.root place) (hreadable : Layout.Readable store.root)
    (hpersisted : store.Persisted view place) (h : Holds view place g tree)
    (hcurrent : g.current.NoFile) (state : σ) {signs : Signs} {verified : Bool} :
    (∃ partition, (store.restored state tree).1 = .ok partition ∧
        partition.stats.signs = signs ∧ partition.stats.verified = verified) ↔
      (∀ kind, store.Yields kind (store.config.Takes kind)
        (g.recovered.current.readFile kind.name) (signs.get kind)) ∧
      (if store.options.verifyChecksums then
          judgeSigns (store.context "loadSnapshot") (store.current.join Layout.signs) signs
            (g.recovered.current.readFile Layout.signs)
        else .ok false) = .ok verified ∧
      ApplyPosition.Legible (g.recovered.current.readFile Layout.apply) := by
  obtain ⟨mid, hmid, hrestored, -⟩ := restored_eq hroot hreadable hpersisted h hcurrent state
  have hread {file : String} (hfile : file ∈ Layout.files) :
      mid.read (store.current.join file) = g.recovered.current.readFile file :=
    readFile_of_holds hroot hreadable hmid hfile
  have hentity (kind : Kind) : mid.read (Layout.entityFile store.current kind) =
      g.recovered.current.readFile kind.name := hread (Layout.mem_files kind)
  rw [hrestored, assemble_eq_ok, loadFiles_eq_ok, verifyFiles_eval, hread (by decide), and_assoc]
  simp only [hentity]

/-! ## What a load that goes through has met -/

section

variable {σ : Type} [StateMachine σ] {state : σ} {tree : FileTree} {partition : LoadedPartition}

theorem filesLoaded_of_loadCurrent
    (h : (Replaying.eval tree state store.loadCurrent).1.1 = .ok partition) :
    ∃ stats cursor, store.FilesLoaded tree store.current state stats cursor := by
  rcases hload : Replaying.eval tree state store.loadCurrent with ⟨⟨result, state'⟩, after⟩
  rw [hload] at h
  cases h
  unfold loadCurrent at hload
  obtain ⟨_, _, _, hfiles, -⟩ := Replaying.eval_bind_eq_ok hload
  exact ⟨_, _, filesLoaded (congrArg (fun outcome => outcome.1.1) hfiles)⟩

/-- A load that comes to its end has found the inode file in order or missing. -/
theorem inodes_of_loadCurrent
    (h : (Replaying.eval tree state store.loadCurrent).1.1 = .ok partition) :
    ∃ checksum, store.Yields .inode (store.config.Takes .inode)
      (tree.read (Layout.entityFile store.current .inode)) checksum := by
  obtain ⟨_, _, hfiles⟩ := filesLoaded_of_loadCurrent h
  obtain ⟨_, _, hinodes, -⟩ := hfiles.inode
  exact ⟨_, ((loads_loadInodes store.config.first).yields hinodes).2⟩

/-- It has read all files of the current generation, so the system accepts their paths. -/
theorem readable_of_loadCurrent
    (h : (Replaying.eval tree state store.loadCurrent).1.1 = .ok partition) :
    Layout.Readable store.root := by
  -- the last of the files has the longest path
  obtain ⟨_, _, hfiles⟩ := filesLoaded_of_loadCurrent h
  obtain ⟨_, _, _, hmultiparts, -⟩ := hfiles.multipart
  exact (loads_loadMultiparts.yields hmultiparts).2.checkPath

variable {place : List String} (hroot : tree.view.Rooted store.root place)
variable (hpersisted : store.Persisted tree.view place)
variable (h : (store.restored state tree).1 = .ok partition)
include hroot hpersisted h

/-- A load that goes through has settled the generations and loaded the current one. -/
theorem loadCurrent_of_restored :
    ∃ mid, Task.eval tree store.recoverGeneration = (.ok (), mid) ∧
      (Replaying.eval mid state store.loadCurrent).1.1 = .ok partition := by
  unfold restored load at h
  cases hcheck : FileTree.checkPath (store.root.join Layout.metadata) with
  | error failure =>
    -- then the identity is not read either
    have hmetadata : Task.eval tree (loadMetadata store.root) =
        (.error (.storage ⟨"loadMetadata", 0⟩ (.reading (store.root.join Layout.metadata)) failure),
          tree) := by
      unfold loadMetadata
      dsimp only
      rw [Task.eval_bind_ok _ (Task.eval_lift tree _), Procedure.eval_read,
        FileTree.read_of_checkPath hcheck]
      dsimp only
      rw [if_neg (FileTree.classify_of_checkPath hcheck).1]
      rfl
    rw [Procedure.eval_bind_of_eq _ hmetadata] at h
    cases h
  | ok done =>
    have hmetadata : (loadMetadata store.root).run.eval tree = (.ok store.config, tree) :=
      loadMetadata_eval hroot hcheck hpersisted (Holds.self tree place)
    have hreplace := replaceConfig_self hpersisted
    rw [Procedure.eval_bind_of_eq _ hmetadata] at h
    simp only [hreplace] at h
    rw [Procedure.eval_bind, Procedure.eval_pure] at h
    rcases hload : Replaying.eval tree state store.loadGeneration with ⟨⟨result, state'⟩, after⟩
    have hresult : result = .ok partition := by
      rw [← h]
      exact (congrArg (fun outcome => outcome.1.1) hload).symm
    rw [hresult] at hload
    obtain ⟨_, state₁, mid, hrecover, hcurrent⟩ := Replaying.eval_bind_eq_ok hload
    rw [Replaying.eval_ofTask] at hrecover
    rcases hrecovered : Task.eval tree store.recoverGeneration with ⟨result', mid'⟩
    rw [hrecovered] at hrecover
    cases hrecover
    refine ⟨mid', rfl, ?_⟩
    rw [hcurrent]

theorem readable_of_restored : Layout.Readable store.root := by
  obtain ⟨mid, -, hcurrent⟩ := loadCurrent_of_restored hroot hpersisted h
  exact readable_of_loadCurrent hcurrent

/-- Where there is a file in the place of the current generation, nothing is loaded. -/
theorem noFile_of_restored : (tree.view.generations place).current.NoFile := by
  have hreadable := readable_of_restored hroot hpersisted h
  have hholds := Holds.self tree place
  obtain ⟨mid, hrecover, hcurrent⟩ := loadCurrent_of_restored hroot hpersisted h
  by_cases hnoFile : (tree.view.generations place).current.NoFile
  · exact hnoFile
  obtain ⟨content, hfile⟩ := View.file_of_not_noFile hnoFile
  -- recovery does not touch the file, and the files are looked for in what is no directory
  have hmid := recoverGeneration_of_file hroot hreadable hholds hfile
  rw [hrecover] at hmid
  cases hmid
  obtain ⟨checksum, hyields⟩ := inodes_of_loadCurrent hcurrent
  have hread : mid.read (Layout.entityFile store.current .inode) =
      FileTree.refuse .notDirectory := by
    rw [Layout.entityFile, readFile_of_holds hroot hreadable hholds (Layout.mem_files .inode)]
    simp only [View.readFile, hfile]
  rw [hread] at hyields
  cases hyields with
  | absent hfound => cases hfound (store.context "") default
  | present hfound _ => cases hfound (store.context "") default

end

end Store

end PartitionSnapshot
