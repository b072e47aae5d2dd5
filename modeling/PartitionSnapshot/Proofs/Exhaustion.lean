import PartitionSnapshot.Proofs.Acceptance

/-!
# Where files without a count end

The files of inodes and dentries say nowhere how many records they hold: the records go on until the
source has no more bytes. A faithful source finds its end where the file ends, so a load that goes
through has handed over all there is. A buffered source whose buffer takes in nothing finds its end
at once, and then a load hands over nothing and goes through as if the file were empty.

## Main statements

* `Handled.replays_each`: what a replay that goes through has handed over.
* `Store.contentsOf_starved`: a file that is read through a buffer that takes in nothing.
* `Store.load_stream_accounts`: what a load of inodes or dentries that goes through accounts for.
-/

namespace PartitionSnapshot

/-! ## Buffers that take in nothing -/

/-- The first refill of a buffer that takes in nothing brings nothing, and that is taken for the
end. -/
theorem Contents.ofStream_starved (length : Option Nat) (content : Bytes) :
    ofStream (.ofBuffered 0 length content) = none (.ok 0) := by
  have hnext : (FrameReader.create .fixed (.ofBuffered 0 length content)).next =
      (.ok .none, .create .fixed (.ofBuffered 0 length content)) := rfl
  have hchecksum : Checksum.empty.value = 0 := by decide
  exact (untilEnd_of_end hnext).trans (congrArg (fun sign => none (.ok sign)) hchecksum)

/-! ## Records handed over -/

/-- The records stand for entities, and each of them in its turn takes the state on. -/
inductive Replays {ε τ : Type} [Entity ε] (Takes : ε → τ → τ → Prop) : τ → List Bytes → τ → Prop
  | nil (state : τ) : Replays Takes state [] state
  | cons {record : Bytes} {records : List Bytes} {entity : ε} {before middle after : τ} :
      Entity.ofRecord ε record = .ok entity → Takes entity before middle →
      Replays Takes middle records after → Replays Takes before (record :: records) after

/-- A replay that goes through has handed over all records, one after the other. -/
theorem Handled.replays_each {ε τ : Type} [Entity ε] {Takes : ε → τ → τ → Prop}
    {handle : Bytes → τ → Handled τ}
    (h : ∀ record state, (handle record state).result = .ok () → ∃ entity,
      Entity.ofRecord ε record = .ok entity ∧ Takes entity state (handle record state).state)
    {records : List Bytes} {state : τ} (heach : (each handle state records).result = .ok ()) :
    Replays Takes state records (each handle state records).state := by
  induction records generalizing state with
  | nil => exact .nil state
  | cons record records ih =>
    have hfirst := each_cons_eq_ok heach
    obtain ⟨entity, hentity, htakes⟩ := h record state hfirst
    obtain ⟨hresult, hstate⟩ := each_cons_of_ok records hfirst
    rw [hresult] at heach
    rw [hstate]
    exact .cons hentity htakes (ih heach)

namespace StateMachine

variable {σ : Type} [StateMachine σ]

/-- An inode that belongs to the partition is taken in, and moves the cursor up to its number. -/
def TakesInode (config : Config) (inode : Inode) (before after : UInt64 × σ) : Prop :=
  config.owns inode.id = true ∧
    after = (max before.1 inode.id, checkFree inode (createInode inode before.2))

/-- A directory entry is offered in replay and not refused. -/
def TakesDentry (dentry : Dentry) (before after : σ) : Prop :=
  createDentry dentry true before = (.ok, after)

end StateMachine

namespace Store

variable {σ : Type} [StateMachine σ] {context : Context}

theorem takesInode_of_handleInode {config : Config} (record : Bytes) (state : UInt64 × σ)
    (h : (handleInode config context record state).result = .ok ()) :
    ∃ inode, Entity.ofRecord Inode record = .ok inode ∧ StateMachine.TakesInode config inode state
      (handleInode config context record state).state := by
  unfold handleInode at h ⊢
  cases hrecord : Entity.ofRecord Inode record with
  | error fault =>
    rw [hrecord] at h
    cases h
  | ok inode =>
    rw [hrecord] at h
    cases howned : config.owns inode.id with
    | false =>
      simp only [howned, Bool.false_eq_true, if_false] at h
      cases h
    | true => exact ⟨inode, rfl, howned, by simp only [howned, if_true]; rfl⟩

theorem takesDentry_of_handleDentry (record : Bytes) (state : σ)
    (h : (handleDentry context record state).result = .ok ()) :
    ∃ dentry, Entity.ofRecord Dentry record = .ok dentry ∧
      StateMachine.TakesDentry dentry state (handleDentry context record state).state := by
  unfold handleDentry at h ⊢
  cases hrecord : Entity.ofRecord Dentry record with
  | error fault =>
    rw [hrecord] at h
    cases h
  | ok dentry =>
    rw [hrecord] at h
    dsimp only at h ⊢
    -- any other answer than consent is a refusal
    rcases hcreate : StateMachine.createDentry dentry true state with ⟨status, state'⟩
    rw [hcreate] at h
    cases status with
    | ok => exact ⟨dentry, rfl, hcreate⟩
    | alreadyExists => cases h
    | notExist => cases h
    | argumentMismatch => cases h
    | internalError => cases h

/-! ## Files that are read -/

variable {store : Store} {kind : Kind} {content : Bytes}

/-- Through a buffer that takes in nothing a file without a count looks empty, whatever its
content. -/
theorem contentsOf_starved (h : store.options.Starves kind) (hframing : kind.framing = .fixed)
    (context : Context) (path : Path) (content : Bytes) :
    store.contentsOf context path kind (.ok content) = .ok (some ⟨[], .ok 0⟩) := by
  obtain ⟨hstrategy, hbuffer⟩ := h
  have hsource : store.source kind content = .ofBuffered 0 (some content.length) content := by
    simp only [source, hstrategy, hbuffer]
    rfl
  have hend := Contents.ofStream_starved (some content.length) content
  rw [contentsOf, hsource]
  cases kind with
  | inode => exact congrArg (fun contents => Except.ok (some contents)) hend
  | dentry => exact congrArg (fun contents => Except.ok (some contents)) hend
  | extend => cases hframing
  | multipart => cases hframing

/-- Through any other source a file without a count is read to its end: all of it are the frames of
the records that are found. -/
theorem frames_of_contentsOf (h : ¬ store.options.Starves kind) (hframing : kind.framing = .fixed)
    {context : Context} {path : Path} {records : List Bytes} {checksum : UInt32}
    (hcontents : store.contentsOf context path kind (.ok content) =
      .ok (some ⟨records, .ok checksum⟩)) :
    content = Framing.fixed.frames records ∧ (∀ record ∈ records, record.length < UInt32.size) ∧
      checksum = crc32 content := by
  obtain ⟨hfaithful, hrest⟩ := faithful_source_of_not_starves h content
  have hread : Contents.ofKind kind (store.source kind content) = ⟨records, .ok checksum⟩ :=
    Option.some.inj (Except.ok.inj hcontents)
  obtain ⟨front, behind, hsplit, hcovers, hchecksum, hbehind⟩ :=
    (Contents.ofKind_eq_ok hfaithful).1 hread
  rw [hrest, hbehind hframing, List.append_nil] at hsplit
  subst hsplit
  simp only [Kind.Covers, hframing] at hcovers
  obtain ⟨hframes, hlengths⟩ := Framing.frames_of_covers hcovers
  exact ⟨hframes, hlengths, hchecksum⟩

/-- A replay of a file without a count that goes through accounts for all its bytes. -/
theorem replayed_accounts {ε τ : Type} [Entity ε] {Takes : ε → τ → τ → Prop}
    {handle : Bytes → τ → Handled τ}
    (hhandle : ∀ record state, (handle record state).result = .ok () → ∃ entity,
      Entity.ofRecord ε record = .ok entity ∧ Takes entity state (handle record state).state)
    (h : ¬ store.options.Starves kind) (hframing : kind.framing = .fixed) {path : Path}
    {state after : τ} {outcome : LoadOutcome}
    (hreplay : replayed context handle state (store.contentsOf context path kind (.ok content)) =
      (.ok outcome, after)) :
    ∃ records, content = Framing.fixed.frames records ∧
      (∀ record ∈ records, record.length < UInt32.size) ∧
      outcome = ⟨true, records.length, crc32 content⟩ ∧ Replays Takes state records after := by
  rcases replayed_inv hreplay with ⟨hnone, -, -⟩ | ⟨records, checksum, hfound, heach, rfl, rfl⟩
  · cases hnone
  · obtain ⟨hframes, hlengths, rfl⟩ := frames_of_contentsOf h hframing hfound
    exact ⟨records, hframes, hlengths, rfl, Handled.replays_each hhandle heach⟩

/-- **What a load of inodes or dentries accounts for.** When it goes through, the content of the file
is the records that were handed over, each behind four bytes with its length, most significant
first; they are counted, and the state machine has taken in one after the other. The exception is a
file that is read through a buffer that takes in nothing: then the load goes through, nothing was
handed over, and nothing is counted, whatever the content. -/
theorem load_stream_accounts (store : Store) (tree : FileTree) (directory : Path) (state : σ)
    (content : Bytes) :
    (tree.read (Layout.entityFile directory .inode) = .ok content → ∀ cursor,
      (store.options.Starves .inode →
        Replaying.eval tree state (store.loadInodes directory cursor) =
          ((.ok ⟨⟨true, 0, 0⟩, cursor⟩, state), tree)) ∧
      (¬ store.options.Starves .inode → ∀ load after tree',
        Replaying.eval tree state (store.loadInodes directory cursor) = ((.ok load, after), tree') →
        ∃ records, content = Framing.fixed.frames records ∧
          (∀ record ∈ records, record.length < UInt32.size) ∧
          load.outcome = ⟨true, records.length, crc32 content⟩ ∧
          Replays (StateMachine.TakesInode store.config) (cursor, state) records
            (load.cursor, after))) ∧
    (tree.read (Layout.entityFile directory .dentry) = .ok content →
      (store.options.Starves .dentry →
        Replaying.eval tree state (store.loadDentries directory) =
          ((.ok ⟨true, 0, 0⟩, state), tree)) ∧
      (¬ store.options.Starves .dentry → ∀ outcome after tree',
        Replaying.eval tree state (store.loadDentries directory) = ((.ok outcome, after), tree') →
        ∃ records, content = Framing.fixed.frames records ∧
          (∀ record ∈ records, record.length < UInt32.size) ∧
          outcome = ⟨true, records.length, crc32 content⟩ ∧
          Replays StateMachine.TakesDentry state records after)) := by
  refine ⟨fun hread cursor => ?_, fun hread => ?_⟩
  · rw [loadInodes_eval, hread]
    refine ⟨fun hstarves => ?_, fun hstarves load after tree' heval => ?_⟩
    · rw [contentsOf_starved hstarves rfl]
      rfl
    · rcases hreplay : replayed (store.context "loadInode")
          (handleInode store.config (store.context "loadInode")) (cursor, state)
          (store.contentsOf (store.context "loadInode") (Layout.entityFile directory .inode) .inode
            (.ok content)) with ⟨error | outcome, cursor', state'⟩
      · rw [hreplay] at heval
        cases heval
      · rw [hreplay] at heval
        cases heval
        exact replayed_accounts takesInode_of_handleInode hstarves rfl hreplay
  · have heval : Replaying.eval tree state (store.loadDentries directory) =
        (replayed (store.context "loadDentry") (handleDentry (store.context "loadDentry")) state
          (store.contentsOf (store.context "loadDentry") (Layout.entityFile directory .dentry)
            .dentry (.ok content)), tree) := by
      rw [← hread]
      exact (eval_loaded tree state _ .info _).trans
        (loadKind_eval store tree _ directory .dentry _ _)
    rw [heval]
    refine ⟨fun hstarves => ?_, fun hstarves outcome after tree' hload => ?_⟩
    · rw [contentsOf_starved hstarves rfl]
      rfl
    · obtain ⟨hreplay, -⟩ := Prod.mk.inj hload
      exact replayed_accounts takesDentry_of_handleDentry hstarves rfl hreplay

/-- A file with one inode, through a buffer that takes in nothing and through one that does not. -/
theorem load_stream_accounts_inode :
    let store := sample "p"
    let starved : Store := ⟨store.config, { readBuffer := 0 }⟩
    let content := Framing.fixed.frames [Inode.toRecord { id := 5 }]
    let tree := identified [(Layout.current, .directory [("inode", .file content)])]
    tree.read (Layout.entityFile store.current .inode) = .ok content ∧
    starved.options.Starves .inode ∧ ¬ store.options.Starves .inode ∧
    Replaying.eval tree MemoryPartition.empty (starved.loadInodes store.current 1) =
      ((.ok ⟨⟨true, 0, 0⟩, 1⟩, MemoryPartition.empty), tree) ∧
    ∃ load after, Replaying.eval tree MemoryPartition.empty (store.loadInodes store.current 1) =
        ((.ok load, after), tree) ∧ load.outcome.records = 1 ∧
      ∃ records, content = Framing.fixed.frames records ∧
        Replays (StateMachine.TakesInode store.config) (1, MemoryPartition.empty) records
          (load.cursor, after) := by
  intro store starved content tree
  have hread : tree.read (Layout.entityFile store.current .inode) = .ok content :=
    eq_ok_of_toOption (by decide +kernel)
  have hstarves : starved.options.Starves .inode := ⟨rfl, rfl⟩
  have hfed : ¬ store.options.Starves .inode := fun h => absurd h.2 (by decide)
  -- the record is found in the file, and stands for the inode
  have hshort : ∀ record ∈ [Inode.toRecord { id := 5 }],
      record.length < UInt32.size ∧ record.length < UInt64.size := by decide
  have hcontents (context : Context) (path : Path) :
      store.contentsOf context path .inode (.ok content) =
        .ok (some ⟨[Inode.toRecord { id := 5 }], .ok (crc32 content)⟩) :=
    congrArg (fun contents => Except.ok (some contents))
      (@Contents.ofKind_file .inode _ _ (faithful_source (by decide) .inode content).1 rfl
        (by decide) hshort)
  have hinode : Entity.ofRecord Inode (Inode.toRecord { id := 5 }) = .ok { id := 5 } :=
    Inode.ofRecord_toRecord (by decide)
  have hload : Replaying.eval tree MemoryPartition.empty (store.loadInodes store.current 1) =
      ((.ok ⟨⟨true, 1, crc32 content⟩, 5⟩, MemoryPartition.empty.createInode { id := 5 }),
        tree) := by
    rw [loadInodes_eval, hread, hcontents]
    simp only [replayed, Contents.replay, Handled.each, handleInode, hinode]
    rfl
  obtain ⟨records, hframes, -, -, hreplays⟩ := ((load_stream_accounts store tree store.current
    MemoryPartition.empty content).1 hread 1).2 hfed _ _ _ hload
  exact ⟨hread, hstarves, hfed, ((load_stream_accounts starved tree store.current
    MemoryPartition.empty content).1 hread 1).1 hstarves, _, _, hload, rfl, records, hframes,
    hreplays⟩

end Store

end PartitionSnapshot
