import PartitionSnapshot.Proofs.Evaluation
import PartitionSnapshot.Proofs.Strategies
import PartitionSnapshot.Store.Generation

/-!
# What replaying a file comes to

The records of a file are handed to a state machine one by one, and each of them is taken in or ends
the replay. What a replay comes to is a fold over the entities of the records.

The cursor that loading inodes ends with is a fold as well, over the records alone: neither the way
in which the file is read nor the machine has a part in it.

## Main statements

* `Handled.Accepts.each`: a replay in which every record is taken in.
* `loadKind_eval`, `loadInodes_eval`: what loading a kind comes to, from what reading its file
  gives.
* `loadInodes_cursor`: loads of the same file end with the same cursor.
-/

namespace PartitionSnapshot

/-- The entities that records stand for. Records that stand for none are left out. -/
def Entity.ofRecords (ε : Type) [Entity ε] (records : List Bytes) : List ε :=
  records.filterMap fun record => (Entity.ofRecord ε record).toOption

/-- Takes in the entities that records stand for, one after the other. -/
def Entity.takeAll {ε τ : Type} [Entity ε] (take : ε → τ → τ) (records : List Bytes)
    (state : τ) : τ :=
  (ofRecords ε records).foldl (fun state entity => take entity state) state

namespace Entity

variable {ε : Type} [Entity ε]

theorem ofRecords_cons {record : Bytes} {entity : ε} (h : ofRecord ε record = .ok entity)
    (records : List Bytes) : ofRecords ε (record :: records) = entity :: ofRecords ε records := by
  simp only [ofRecords, List.filterMap_cons, h, Except.toOption]

/-- Entities are found again from records that stand for them. -/
theorem ofRecords_map {toRecord : ε → Bytes} {entities : List ε}
    (h : ∀ entity ∈ entities, ofRecord ε (toRecord entity) = .ok entity) :
    ofRecords ε (entities.map toRecord) = entities := by
  induction entities with
  | nil => rfl
  | cons entity entities ih =>
    rw [List.map_cons, ofRecords_cons (h entity List.mem_cons_self),
      ih fun other hother => h other (List.mem_cons_of_mem _ hother)]

end Entity

/-! ## Records handed over one by one -/

namespace Handled

variable {τ : Type} {handle : Bytes → τ → Handled τ} {record : Bytes} {records : List Bytes}
variable {state : τ}

theorem each_cons_of_ok (records : List Bytes) (h : (handle record state).result = .ok ()) :
    (each handle state (record :: records)).result =
        (each handle (handle record state).state records).result ∧
      (each handle state (record :: records)).state =
        (each handle (handle record state).state records).state := by
  simp only [each, h]
  exact ⟨trivial, trivial⟩

/-- Every one of the records stands for an entity, and that is taken in. -/
def Accepts {ε : Type} [Entity ε] (handle : Bytes → τ → Handled τ) (take : ε → τ → τ)
    (records : List Bytes) : Prop :=
  ∀ record ∈ records, ∃ entity, Entity.ofRecord ε record = .ok entity ∧
    ∀ state, (handle record state).result = .ok () ∧
      (handle record state).state = take entity state

/-- When every record is taken in, so are all of them. -/
theorem Accepts.each {ε : Type} [Entity ε] {take : ε → τ → τ} (h : Accepts handle take records)
    (state : τ) :
    (each handle state records).result = .ok () ∧
      (each handle state records).state = Entity.takeAll take records state := by
  -- the state changes from record to record
  induction records generalizing state with
  | nil => exact ⟨rfl, rfl⟩
  | cons record records ih =>
    obtain ⟨entity, hentity, hhandle⟩ := h record List.mem_cons_self
    obtain ⟨hresult, hstate⟩ := hhandle state
    obtain ⟨hrest, hfold⟩ := ih
      (fun other hother => h other (List.mem_cons_of_mem _ hother)) (handle record state).state
    obtain ⟨hfirst, hlast⟩ := each_cons_of_ok records hresult
    refine ⟨hfirst.trans hrest, hlast.trans ?_⟩
    rw [hfold, hstate, Entity.takeAll, Entity.takeAll, Entity.ofRecords_cons hentity,
      List.foldl_cons]

/-- A replay that goes through has gone through its first record. -/
theorem each_cons_eq_ok (h : (each handle state (record :: records)).result = .ok ()) :
    (handle record state).result = .ok () := by
  simp only [each] at h
  -- an error at the first record would be the result
  split at h
  · next error hfirst =>
    rw [hfirst] at h
    cases h
  · next hfirst => exact hfirst

end Handled

/-- The greatest of a cursor and the numbers of the inodes among some records. -/
def cursorOf (cursor : UInt64) (records : List Bytes) : UInt64 :=
  (Entity.ofRecords Inode records).foldl (fun cursor inode => max cursor inode.id) cursor

/-- Taking in inodes moves the cursor up to each of them. -/
theorem takeAll_inode {σ : Type} (take : Inode → σ → σ) (records : List Bytes) (cursor : UInt64)
    (state : σ) :
    Entity.takeAll (fun inode state => (max state.1 inode.id, take inode state.2)) records
        (cursor, state) =
      (cursorOf cursor records, Entity.takeAll take records state) := by
  unfold Entity.takeAll cursorOf
  -- the two parts of the state do not depend on each other
  induction Entity.ofRecords Inode records generalizing cursor state with
  | nil => rfl
  | cons inode inodes ih => exact ih _ _

/-- The file of a kind is read through a buffer that takes in nothing. -/
def Options.Starves (options : Options) (kind : Kind) : Prop :=
  options.readStrategy kind = .buffered ∧ options.readBuffer = 0

namespace Store

variable {σ : Type} [StateMachine σ]

/-- When all inodes were taken in, the cursor was moved up to each of them. -/
theorem cursor_each_handleInode {config : Config} {context : Context} {records : List Bytes}
    {cursor : UInt64} {state : σ}
    (h : (Handled.each (handleInode config context) (cursor, state) records).result = .ok ()) :
    (Handled.each (handleInode config context) (cursor, state) records).state.1 =
      cursorOf cursor records := by
  induction records generalizing cursor state with
  | nil => rfl
  | cons record records ih =>
    have hfirst := Handled.each_cons_eq_ok h
    obtain ⟨hresult, hstate⟩ := Handled.each_cons_of_ok records hfirst
    rw [hstate]
    rw [hresult] at h
    -- a record goes through when it decodes and belongs to the partition
    unfold handleInode at hfirst
    split at hfirst
    · cases hfirst
    · next inode hinode =>
      split at hfirst
      · next howns =>
        have haccepted : (handleInode config context record (cursor, state)).state =
            (max cursor inode.id, StateMachine.checkFree inode
              (StateMachine.createInode inode state)) := by
          simp only [handleInode, hinode, howns, if_true]
          rfl
        rw [haccepted] at h ⊢
        rw [ih h, cursorOf, cursorOf, Entity.ofRecords_cons hinode, List.foldl_cons]
      · cases hfirst

/-! ## Loading a kind -/

theorem mapError_id {ε α : Type} (result : Except ε α) : result.mapError id = result := by
  cases result <;> rfl

theorem contents?_eval (store : Store) (tree : FileTree) (context : Context) (directory : Path)
    (kind : Kind) :
    Task.eval tree (store.contents? context directory kind) =
      (store.contentsOf context (Layout.entityFile directory kind) kind
        (tree.read (Layout.entityFile directory kind)), tree) := by
  unfold contents?
  dsimp only
  rw [Task.eval_bind_ok _ (Task.eval_lift tree _), Procedure.eval_read, Task.eval_ofExcept,
    mapError_id]

/-- What replaying a file comes to, from the contents that were found in it. -/
def replayed {τ : Type} (context : Context) (handle : Bytes → τ → Handled τ) (state : τ) :
    Except Error (Option Contents) → Except Error LoadOutcome × τ
  | .error error => (.error error, state)
  | .ok none => (.ok .absent, state)
  | .ok (some contents) =>
    ((contents.replay context handle state).1, (contents.replay context handle state).2.1)

/-- A replay that goes through has found no file, or has taken in all records and found the
checksum. -/
theorem replayed_inv {τ : Type} {context : Context} {handle : Bytes → τ → Handled τ}
    {state after : τ} {found : Except Error (Option Contents)} {outcome : LoadOutcome}
    (h : replayed context handle state found = (.ok outcome, after)) :
    (found = .ok none ∧ outcome = .absent ∧ after = state) ∨
    ∃ records checksum, found = .ok (some ⟨records, .ok checksum⟩) ∧
      (Handled.each handle state records).result = .ok () ∧
      after = (Handled.each handle state records).state ∧
      outcome = ⟨true, records.length, checksum⟩ := by
  rcases found with error | _ | contents
  · cases h
  · cases h
    exact .inl ⟨rfl, rfl, rfl⟩
  · obtain ⟨records, ending⟩ := contents
    simp only [replayed, Contents.replay] at h
    -- first the records are taken in, and then the end of the file decides
    cases heach : (Handled.each handle state records).result with
    | error error =>
      rw [heach] at h
      cases h
    | ok _ =>
      rw [heach] at h
      cases ending with
      | error failure => cases h
      | ok checksum =>
        cases h
        exact .inr ⟨records, checksum, rfl, heach, rfl, rfl⟩

/-- A file whose records are all taken in is replayed. -/
theorem replayed_of_accepts {ε τ : Type} [Entity ε] {context : Context}
    {handle : Bytes → τ → Handled τ} {take : ε → τ → τ} {records : List Bytes}
    (h : Handled.Accepts handle take records) (state : τ) (checksum : UInt32) :
    replayed context handle state (.ok (some ⟨records, .ok checksum⟩)) =
      (.ok ⟨true, records.length, checksum⟩, Entity.takeAll take records state) := by
  obtain ⟨hresult, hstate⟩ := h.each state
  -- the ending of the contents is read only after all records
  simp only [replayed, Contents.replay, hresult, hstate]
  rfl

theorem loadKind_eval {τ : Type} (store : Store) (tree : FileTree) (context : Context)
    (directory : Path) (kind : Kind) (handle : Bytes → τ → Handled τ) (state : τ) :
    Replaying.eval tree state (store.loadKind context directory kind handle) =
      (replayed context handle state
        (store.contentsOf context (Layout.entityFile directory kind) kind
          (tree.read (Layout.entityFile directory kind))), tree) := by
  unfold loadKind
  rw [Replaying.eval_bind, Replaying.eval_ofTask, contents?_eval]
  rcases store.contentsOf context (Layout.entityFile directory kind) kind
    (tree.read (Layout.entityFile directory kind)) with error | contents
  · rfl
  · -- an absent file, or one to replay
    cases contents with
    | none => rfl
    | some contents => exact Replaying.eval_ofContents tree state contents context handle

theorem eval_withCursor {α τ : Type} (tree : FileTree) (cursor : UInt64) (state : τ)
    (task : Replaying (UInt64 × τ) α) :
    Replaying.eval tree state (withCursor cursor task) =
      (((Replaying.eval tree (cursor, state) task).1.1.map fun value =>
          (value, (Replaying.eval tree (cursor, state) task).1.2.1),
        (Replaying.eval tree (cursor, state) task).1.2.2),
        (Replaying.eval tree (cursor, state) task).2) :=
  Procedure.eval_bind tree (task.runFrom (cursor, state)) _

theorem eval_noteIf {α τ : Type} (tree : FileTree) (state : τ) (present : Bool) (level : Level)
    (text : String) (rest : Replaying τ α) :
    Replaying.eval tree state (do
      if present then Replaying.log level text
      rest) = Replaying.eval tree state rest := by
  cases present <;> rfl

theorem eval_loaded {τ : Type} (tree : FileTree) (state : τ) (task : Replaying τ LoadOutcome)
    (level : Level) (text : LoadOutcome → String) :
    Replaying.eval tree state (do
      let outcome ← task
      if outcome.present then Replaying.log level (text outcome)
      return outcome) = Replaying.eval tree state task := by
  rw [Replaying.eval_bind]
  rcases Replaying.eval tree state task with ⟨⟨error | outcome, state'⟩, after⟩
  · rfl
  · exact eval_noteIf after state' outcome.present level (text outcome) (pure outcome)

/-- What loading the inodes comes to, from the contents of their file. -/
theorem loadInodes_eval (store : Store) (tree : FileTree) (directory : Path) (cursor : UInt64)
    (state : σ) :
    let replay := replayed (store.context "loadInode")
      (handleInode store.config (store.context "loadInode")) (cursor, state)
      (store.contentsOf (store.context "loadInode") (Layout.entityFile directory .inode) .inode
        (tree.read (Layout.entityFile directory .inode)))
    Replaying.eval tree state (store.loadInodes directory cursor) =
      ((replay.1.map fun outcome => ⟨outcome, replay.2.1⟩, replay.2.2), tree) := by
  intro replay
  unfold loadInodes
  dsimp only
  rw [Replaying.eval_bind, eval_withCursor, loadKind_eval]
  rcases hreplay : replay with ⟨error | outcome, cursor', state'⟩
  · rw [show replayed _ _ _ _ = replay from rfl, hreplay]
    rfl
  · rw [show replayed _ _ _ _ = replay from rfl, hreplay]
    exact eval_noteIf tree state' outcome.present _ _ (pure (⟨outcome, cursor'⟩ : InodeLoad))

/-- When inodes were loaded, the cursor was moved up to each of those in the file. -/
theorem cursor_of_loadInodes {store : Store} {tree : FileTree} {directory : Path}
    {cursor : UInt64} {state : σ} {load : InodeLoad}
    (h : (Replaying.eval tree state (store.loadInodes directory cursor)).1.1 = .ok load) :
    ∃ found, store.contentsOf (store.context "loadInode") (Layout.entityFile directory .inode)
        .inode (tree.read (Layout.entityFile directory .inode)) = .ok found ∧
      ((found = none ∧ load.cursor = cursor) ∨ ∃ contents, found = some contents ∧
        load.cursor = cursorOf cursor contents.records) := by
  rw [loadInodes_eval] at h
  rcases hreplay : replayed (store.context "loadInode")
      (handleInode store.config (store.context "loadInode")) (cursor, state)
      (store.contentsOf (store.context "loadInode") (Layout.entityFile directory .inode) .inode
        (tree.read (Layout.entityFile directory .inode))) with ⟨error | outcome, cursor', state'⟩
  · rw [hreplay] at h
    cases h
  · rw [hreplay] at h
    cases h
    rcases replayed_inv hreplay with ⟨hfound, -, hstate⟩ | ⟨records, checksum, hfound, heach,
      hstate, -⟩
    · cases hstate
      exact ⟨_, hfound, .inl ⟨rfl, rfl⟩⟩
    · refine ⟨_, hfound, .inr ⟨_, rfl, ?_⟩⟩
      exact (congrArg Prod.fst hstate).trans (cursor_each_handleInode heach)

/-- A store reads a file faithfully, unless it does so through a buffer that takes in nothing. -/
theorem faithful_source_of_not_starves {store : Store} {kind : Kind}
    (h : ¬ store.options.Starves kind) (content : Bytes) :
    (store.source kind content).Faithful ∧ (store.source kind content).rest = content := by
  unfold source
  cases hstrategy : store.options.readStrategy kind with
  | mapped => exact ⟨ByteSource.faithful_ofBytes content, ByteSource.rest_ofBytes content⟩
  | buffered =>
    have hbuffer : 1 ≤ store.options.readBuffer.toNat := by
      refine Nat.one_le_iff_ne_zero.2 fun hzero => h ⟨hstrategy, ?_⟩
      exact UInt64.toNat_inj.1 hzero
    exact ⟨ByteSource.faithful_ofBuffered hbuffer content, ByteSource.rest_ofBuffered _ _ _⟩

/-- With room in its buffer a store reads files faithfully. -/
theorem faithful_source {store : Store} (h : 1 ≤ store.options.readBuffer) (kind : Kind)
    (content : Bytes) :
    (store.source kind content).Faithful ∧ (store.source kind content).rest = content :=
  faithful_source_of_not_starves (fun hstarves => by
    rw [hstarves.2] at h
    exact absurd h (by decide)) content

/-- Either kind of source begins at the front of the file. -/
theorem position_source (store : Store) (kind : Kind) (content : Bytes) :
    (store.source kind content).position = 0 := by
  unfold source
  cases store.options.readStrategy kind <;> rfl

/-- Stores with room in their buffers open sources over the same file that are alike. -/
theorem alike_source {store store' : Store} (hbuffer : 1 ≤ store.options.readBuffer)
    (hbuffer' : 1 ≤ store'.options.readBuffer) (kind : Kind) (content : Bytes) :
    (store.source kind content).Alike (store'.source kind content) := by
  obtain ⟨hfaithful, hrest⟩ := faithful_source hbuffer kind content
  obtain ⟨hfaithful', hrest'⟩ := faithful_source hbuffer' kind content
  exact ⟨hfaithful, hfaithful', hrest.trans hrest'.symm,
    (position_source store kind content).trans (position_source store' kind content).symm⟩

/-- Stores with different options find contents that are alike in the same file. -/
theorem alike_contentsOf {store store' : Store} (hbuffer : 1 ≤ store.options.readBuffer)
    (hbuffer' : 1 ≤ store'.options.readBuffer) {context : Context} {path : Path} {kind : Kind}
    {answer : Except Failure Bytes} {contents contents' : Option Contents}
    (h : store.contentsOf context path kind answer = .ok contents)
    (h' : store'.contentsOf context path kind answer = .ok contents') :
    (contents = none ∧ contents' = none) ∨ ∃ found found', contents = some found ∧
      contents' = some found' ∧ found.Alike found' := by
  cases answer with
  | ok content =>
    cases h
    cases h'
    exact .inr ⟨_, _, rfl, rfl, Contents.alike_ofKind (alike_source hbuffer hbuffer' kind content)
      kind⟩
  | error failure =>
    simp only [contentsOf] at h h'
    split at h
    · next hnotFound =>
      rw [if_pos hnotFound] at h'
      cases h
      cases h'
      exact .inl ⟨rfl, rfl⟩
    · next hnotFound =>
      rw [if_neg hnotFound] at h'
      split at h
      · next hdirectory =>
        rw [if_pos hdirectory] at h'
        -- a directory is found by buffered reading alone, and then in one way
        split at h
        · cases h
        · split at h'
          · cases h'
          · cases h
            cases h'
            exact .inr ⟨_, _, rfl, rfl, rfl, fun _ => rfl⟩
      · cases h

/-- Loads of the same file end with the same cursor, whatever the options and the machine. -/
theorem loadInodes_cursor {store store' : Store} (hconfig : store'.config = store.config)
    (hbuffer : 1 ≤ store.options.readBuffer) (hbuffer' : 1 ≤ store'.options.readBuffer)
    {σ' : Type} [StateMachine σ'] {tree tree' : FileTree} {directory : Path}
    (hread : tree'.read (Layout.entityFile directory .inode) =
      tree.read (Layout.entityFile directory .inode))
    {cursor : UInt64} {state : σ} {state' : σ'} {load load' : InodeLoad}
    (h : (Replaying.eval tree state (store.loadInodes directory cursor)).1.1 = .ok load)
    (h' : (Replaying.eval tree' state' (store'.loadInodes directory cursor)).1.1 = .ok load') :
    load'.cursor = load.cursor := by
  obtain ⟨found, hfound, hcursor⟩ := cursor_of_loadInodes h
  obtain ⟨found', hfound', hcursor'⟩ := cursor_of_loadInodes h'
  rw [hread, context, hconfig] at hfound'
  -- both find no file, or contents with the same records
  rcases alike_contentsOf hbuffer hbuffer' hfound hfound' with
    ⟨rfl, rfl⟩ | ⟨contents, contents', rfl, rfl, halike⟩
  · rcases hcursor with ⟨-, hcursor⟩ | ⟨_, hsome, -⟩
    · rcases hcursor' with ⟨-, hcursor'⟩ | ⟨_, hsome', -⟩
      · rw [hcursor, hcursor']
      · cases hsome'
    · cases hsome
  · rcases hcursor with ⟨hnone, -⟩ | ⟨_, hsome, hcursor⟩
    · cases hnone
    · rcases hcursor' with ⟨hnone, -⟩ | ⟨_, hsome', hcursor'⟩
      · cases hnone
      · cases hsome
        cases hsome'
        rw [hcursor, hcursor', halike.1]

end Store

end PartitionSnapshot
