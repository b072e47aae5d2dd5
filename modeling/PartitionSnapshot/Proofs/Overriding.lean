import PartitionSnapshot.Proofs.Acceptance
import PartitionSnapshot.Proofs.Partitions

/-!
# Replaying the same files again

Loading entity files overrides what is under the keys that occur in them, and the last record of a
key counts; under all other keys nothing changes. What is loaded is decided by the files alone: when
a load goes through from one state of a machine that refuses no entity, it goes through from every
state, comes to the same and takes in the same entities. So loading the same files again finds under
each key the entity that it puts there, and changes nothing.

The list of inodes to be freed is left out: each replay notes the inodes marked deleted once more.

## Main statements

* `Store.loadEntities_repeats`: a load that goes through comes to the same from every state.
* `MemoryPartition.takeRecords_eq`: what a replay makes of a partition.
* `Store.loadEntities_overrides`: replays override, and are idempotent.
-/

namespace PartitionSnapshot

/-! ## Records of a file -/

/-- Of what there is for each of the kinds, what is there for one of them. -/
def Kind.select {α : Type} (inode dentry extend multipart : α) : Kind → α
  | .inode => inode
  | .dentry => dentry
  | .extend => extend
  | .multipart => multipart

/-- The records of the file of a kind: there is no file, or its content is the bytes that belong to
the records. In a file with a count other bytes may follow these. -/
inductive Kind.Found (kind : Kind) : Except Failure Bytes → List Bytes → Prop
  | absent {failure : Failure} : failure.classify = .notFound → Found kind (.error failure) []
  | present {front behind : Bytes} {records : List Bytes} :
      kind.Covers front records → (kind.framing = .fixed → behind = []) →
      Found kind (.ok (front ++ behind)) records

/-- What cannot be read has no good ending. -/
theorem Contents.ending_unreadable (kind : Kind) (failure : Failure) :
    ∃ stop, (ofKind kind (.unreadable failure)).ending = .error stop := by
  have hstream : ∃ stop, (ofStream (.unreadable failure)).ending = .error stop := by
    have hnext : (FrameReader.create .fixed (.unreadable failure)).next =
        (.error failure, .create .fixed (.unreadable failure)) := rfl
    exact ⟨_, congrArg Contents.ending (untilEnd_of_error hnext)⟩
  have hcounted : ∃ stop, (ofCounted (.unreadable failure)).ending = .error stop := ⟨_, rfl⟩
  cases kind with
  | inode => exact hstream
  | dentry => exact hstream
  | extend => exact hcounted
  | multipart => exact hcounted

namespace Store

variable {store : Store} {kind : Kind} {context : Context} {path : Path}
variable {answer : Except Failure Bytes}

theorem found_of_none (h : store.contentsOf context path kind answer = .ok none) :
    kind.Found answer [] := by
  cases answer with
  | ok content => cases h
  | error failure =>
    simp only [contentsOf] at h
    split at h
    · next hnotFound => exact .absent hnotFound
    · split at h
      · split at h <;> cases h
      · cases h

theorem found_of_some (hbuffer : 1 ≤ store.options.readBuffer) {records : List Bytes}
    {checksum : UInt32}
    (h : store.contentsOf context path kind answer = .ok (some ⟨records, .ok checksum⟩)) :
    kind.Found answer records := by
  cases answer with
  | ok content =>
    obtain ⟨hfaithful, hrest⟩ := faithful_source hbuffer kind content
    have hread : Contents.ofKind kind (store.source kind content) = ⟨records, .ok checksum⟩ :=
      Option.some.inj (Except.ok.inj h)
    obtain ⟨front, behind, hcontent, hcovers, -, hbehind⟩ :=
      (Contents.ofKind_eq_ok hfaithful).1 hread
    rw [hrest] at hcontent
    rw [hcontent]
    exact .present hcovers hbehind
  | error failure =>
    simp only [contentsOf] at h
    split at h
    · cases h
    · split at h
      · split at h
        · cases h
        · -- a directory that is opened for reading does not end well
          obtain ⟨stop, hstop⟩ := Contents.ending_unreadable kind failure
          rw [Option.some.inj (Except.ok.inj h)] at hstop
          cases hstop
      · cases h

end Store

/-! ## Replays that go through from every state -/

namespace Handled

variable {ε τ : Type} [Entity ε] {handle : Bytes → τ → Handled τ} {take : ε → τ → τ}

/-- Whether a record is taken in does not depend on the state, and what is taken in is its
entity. -/
def Uniform (handle : Bytes → τ → Handled τ) (take : ε → τ → τ) : Prop :=
  ∀ record state, (handle record state).result = .ok () →
    ∃ entity, Entity.ofRecord ε record = .ok entity ∧
      ∀ state', (handle record state').result = .ok () ∧
        (handle record state').state = take entity state'

/-- Records that are taken in from one state are taken in from all. -/
theorem Uniform.accepts (h : Uniform handle take) {records : List Bytes} {state : τ}
    (heach : (each handle state records).result = .ok ()) : Accepts handle take records := by
  -- along the records, whatever state the ones before have led to
  induction records generalizing state with
  | nil => exact fun _ hrecord => nomatch hrecord
  | cons record records ih =>
    have hfirst := each_cons_eq_ok heach
    rw [(each_cons_of_ok records hfirst).1] at heach
    intro other hother
    rcases List.mem_cons.1 hother with rfl | hother
    · exact h other state hfirst
    · exact ih heach other hother

end Handled

/-- From every state the task comes to the same outcome and makes the same change. -/
def Replaying.Repeats {σ β : Type} (tree : FileTree) (task : Replaying σ β) (outcome : β)
    (change : σ → σ) : Prop :=
  ∀ state, Replaying.eval tree state task = ((.ok outcome, change state), tree)

/-- Takes in the entities of the records of all kinds, one kind after the other. -/
def StateMachine.takeRecords {σ : Type} [StateMachine σ] (records : Kind → List Bytes)
    (state : σ) : σ :=
  let state := Entity.takeAll takeInode (records .inode) state
  let state := Entity.takeAll takeDentry (records .dentry) state
  let state := Entity.takeAll takeExtend (records .extend) state
  Entity.takeAll createMultipart (records .multipart) state

namespace Store

variable {store : Store} {tree after : FileTree} {directory : Path}

/-- A replay that goes through does so from every state, with the same outcome. -/
theorem replayed_repeats {ε τ : Type} [Entity ε] {handle : Bytes → τ → Handled τ}
    {take : ε → τ → τ} (hhandle : Handled.Uniform handle take)
    (hbuffer : 1 ≤ store.options.readBuffer) {kind : Kind} {context : Context} {path : Path}
    {answer : Except Failure Bytes} {state final : τ} {outcome : LoadOutcome}
    (h : replayed context handle state (store.contentsOf context path kind answer) =
      (.ok outcome, final)) :
    ∃ records, kind.Found answer records ∧
      (∀ record ∈ records, ∃ entity, Entity.ofRecord ε record = .ok entity) ∧
      ∀ state', replayed context handle state' (store.contentsOf context path kind answer) =
        (.ok outcome, Entity.takeAll take records state') := by
  rcases replayed_inv h with ⟨hnone, rfl, -⟩ | ⟨records, checksum, hsome, heach, -, rfl⟩
  · refine ⟨[], found_of_none hnone, by simp, fun state' => ?_⟩
    rw [hnone]
    rfl
  · have haccepts := hhandle.accepts heach
    refine ⟨records, found_of_some hbuffer hsome, fun record hrecord => ?_, fun state' => ?_⟩
    · obtain ⟨entity, hentity, -⟩ := haccepts record hrecord
      exact ⟨entity, hentity⟩
    · rw [hsome]
      exact replayed_of_accepts haccepts state' checksum

section

variable {σ : Type} [StateMachine σ]

theorem uniform_handleInode (config : Config) (context : Context) :
    Handled.Uniform (handleInode config context : Bytes → UInt64 × σ → Handled (UInt64 × σ))
      fun inode state => (max state.1 inode.id, StateMachine.takeInode inode state.2) := by
  -- whether the inode belongs to the partition is seen from its number
  intro record state h
  obtain ⟨inode, hinode, howned⟩ := handleInode_result.1 h
  exact ⟨inode, hinode, fun state' =>
    ⟨handleInode_result.2 ⟨inode, hinode, howned⟩, handleInode_state hinode howned state'⟩⟩

theorem uniform_handleMultipart (store : Store) (context : Context) :
    Handled.Uniform (store.handleMultipart context : Bytes → σ → Handled σ)
      StateMachine.createMultipart := by
  intro record state h
  obtain ⟨multipart, hmultipart⟩ := handleMultipart_result.1 h
  exact ⟨multipart, hmultipart, fun state' =>
    ⟨handleMultipart_result.2 ⟨multipart, hmultipart⟩, handleMultipart_state hmultipart state'⟩⟩

variable [StateMachine.Accepting σ]

theorem uniform_handleDentry (context : Context) :
    Handled.Uniform (handleDentry context : Bytes → σ → Handled σ) StateMachine.takeDentry := by
  intro record state h
  obtain ⟨dentry, hdentry⟩ := handleDentry_result.1 h
  exact ⟨dentry, hdentry, handleDentry_of_ofRecord hdentry⟩

theorem uniform_handleExtend (store : Store) (context : Context) :
    Handled.Uniform (store.handleExtend context : Bytes → σ → Handled σ)
      StateMachine.takeExtend := by
  intro record state h
  obtain ⟨extend, hextend⟩ := handleExtend_result.1 h
  exact ⟨extend, hextend, handleExtend_of_ofRecord hextend⟩

end

/-! ## Loading the four files -/

theorem check_of_ofRecord {ε : Type} [Entity ε] {kind : Kind} {record : Bytes} {entity : ε}
    (hcheck : kind.check record = (Entity.ofRecord ε record).map fun _ => ())
    (h : Entity.ofRecord ε record = .ok entity) : kind.check record = .ok () := by
  rw [hcheck, h]
  rfl

/-- The task loads the file of a kind: when it goes through from one state, the file has records
that decode, and the task goes through from all states and takes in the entities of these
records. -/
def Rereads {ε σ β : Type} [Entity ε] (tree : FileTree) (directory : Path) (kind : Kind)
    (take : ε → σ → σ) (task : Replaying σ β) : Prop :=
  ∀ {state final : σ} {outcome : β} {after : FileTree},
    Replaying.eval tree state task = ((.ok outcome, final), after) →
    after = tree ∧ ∃ records, kind.Found (tree.read (Layout.entityFile directory kind)) records ∧
      (∀ record ∈ records, kind.check record = .ok ()) ∧
      task.Repeats tree outcome (Entity.takeAll take records)

/-- A file of another kind than inodes. -/
theorem rereads_loadKind (hbuffer : 1 ≤ store.options.readBuffer) {ε σ : Type} [Entity ε]
    {kind : Kind} {context : Context} {handle : Bytes → σ → Handled σ} {take : ε → σ → σ}
    (hhandle : Handled.Uniform handle take)
    (hcheck : ∀ record, kind.check record = (Entity.ofRecord ε record).map fun _ => ())
    {level : Level} {text : LoadOutcome → String} :
    Rereads tree directory kind take (do
      let outcome ← store.loadKind context directory kind handle
      if outcome.present then Replaying.log level (text outcome)
      return outcome) := by
  intro state final outcome after h
  rw [eval_loaded, loadKind_eval] at h
  obtain ⟨hreplay, rfl⟩ := Prod.mk.inj h
  obtain ⟨records, hfound, hdecodes, hrepeats⟩ := replayed_repeats hhandle hbuffer hreplay
  refine ⟨rfl, records, hfound, fun record hrecord => ?_, fun state' => ?_⟩
  · obtain ⟨entity, hentity⟩ := hdecodes record hrecord
    exact check_of_ofRecord (hcheck record) hentity
  · rw [eval_loaded, loadKind_eval, hrepeats]

/-- The file of inodes; the cursor is moved by its records alone. -/
theorem rereads_loadInodes (hbuffer : 1 ≤ store.options.readBuffer) {σ : Type} [StateMachine σ]
    (cursor : UInt64) :
    Rereads tree directory .inode StateMachine.takeInode
      (store.loadInodes directory cursor : Replaying σ InodeLoad) := by
  intro state final load after h
  rw [loadInodes_eval] at h
  rcases hreplay : replayed (store.context "loadInode")
      (handleInode store.config (store.context "loadInode")) (cursor, state)
      (store.contentsOf (store.context "loadInode") (Layout.entityFile directory .inode) .inode
        (tree.read (Layout.entityFile directory .inode))) with ⟨error | outcome, cursor', state'⟩
  · rw [hreplay] at h
    cases h
  · rw [hreplay] at h
    cases h
    obtain ⟨records, hfound, hdecodes, hrepeats⟩ :=
      replayed_repeats (uniform_handleInode store.config _) hbuffer hreplay
    obtain rfl : cursorOf cursor records = cursor' := by
      have hsame := hrepeats (cursor, state)
      rw [hreplay, takeAll_inode] at hsame
      exact (congrArg (fun replay => replay.2.1) hsame).symm
    refine ⟨rfl, records, hfound, fun record hrecord => ?_, fun other => ?_⟩
    · obtain ⟨inode, hinode⟩ := hdecodes record hrecord
      exact check_of_ofRecord rfl hinode
    · rw [loadInodes_eval, hrepeats, takeAll_inode]
      rfl

section

variable {σ : Type} [StateMachine σ]

/-- Loads the four entity files in a directory, one after the other, inodes beside a cursor. -/
def loadEntities (store : Store) (directory : Path) (cursor : UInt64) :
    Replaying σ (InodeLoad × LoadOutcome × LoadOutcome × LoadOutcome) := do
  let inode ← store.loadInodes directory cursor
  let dentry ← store.loadDentries directory
  let extend ← store.loadExtends directory
  let multipart ← store.loadMultiparts directory
  return (inode, dentry, extend, multipart)

variable [StateMachine.Accepting σ]

/-- **A load that goes through comes to the same from every state**, and takes in the entities of
the same records. -/
theorem loadEntities_repeats (hbuffer : 1 ≤ store.options.readBuffer) {cursor : UInt64}
    {state final : σ}
    {outcomes : InodeLoad × LoadOutcome × LoadOutcome × LoadOutcome}
    (h : Replaying.eval tree state (store.loadEntities directory cursor) =
      ((.ok outcomes, final), after)) :
    after = tree ∧ ∃ records : Kind → List Bytes,
      (∀ kind : Kind, kind.Found (tree.read (Layout.entityFile directory kind)) (records kind)) ∧
      (∀ kind, ∀ record ∈ records kind, kind.check record = .ok ()) ∧
      (store.loadEntities directory cursor).Repeats tree outcomes
        (StateMachine.takeRecords records : σ → σ) := by
  have hdentries : Rereads tree directory .dentry StateMachine.takeDentry
      (store.loadDentries directory : Replaying σ LoadOutcome) :=
    rereads_loadKind hbuffer (uniform_handleDentry _) fun _ => rfl
  have hextends : Rereads tree directory .extend StateMachine.takeExtend
      (store.loadExtends directory : Replaying σ LoadOutcome) :=
    rereads_loadKind hbuffer (uniform_handleExtend store _) fun _ => rfl
  have hmultiparts : Rereads tree directory .multipart StateMachine.createMultipart
      (store.loadMultiparts directory : Replaying σ LoadOutcome) :=
    rereads_loadKind hbuffer (uniform_handleMultipart store _) fun _ => rfl
  unfold loadEntities at h
  -- one file after the other, each of which leaves the tree as it is
  obtain ⟨inode, state₁, tree₁, h₁, hload₁⟩ := Replaying.eval_bind_eq_ok h
  obtain ⟨hsame₁, inodes, hinode, hinodes, hrepeats₁⟩ := rereads_loadInodes hbuffer cursor h₁
  rw [hsame₁] at hload₁
  obtain ⟨dentry, state₂, tree₂, h₂, hload₂⟩ := Replaying.eval_bind_eq_ok hload₁
  obtain ⟨hsame₂, dentries, hdentry, hdentries, hrepeats₂⟩ := hdentries h₂
  rw [hsame₂] at hload₂
  obtain ⟨extend, state₃, tree₃, h₃, hload₃⟩ := Replaying.eval_bind_eq_ok hload₂
  obtain ⟨hsame₃, xattrs, hextend, hxattrs, hrepeats₃⟩ := hextends h₃
  rw [hsame₃] at hload₃
  obtain ⟨multipart, state₄, tree₄, h₄, hload₄⟩ := Replaying.eval_bind_eq_ok hload₃
  obtain ⟨hsame₄, multiparts, hmultipart, hmultiparts, hrepeats₄⟩ := hmultiparts h₄
  rw [hsame₄] at hload₄
  cases hload₄
  refine ⟨rfl, Kind.select inodes dentries xattrs multiparts, fun kind => ?_, fun kind => ?_, ?_⟩
  · cases kind with
    | inode => exact hinode
    | dentry => exact hdentry
    | extend => exact hextend
    | multipart => exact hmultipart
  · cases kind with
    | inode => exact hinodes
    | dentry => exact hdentries
    | extend => exact hxattrs
    | multipart => exact hmultiparts
  · intro other
    unfold loadEntities
    rw [Replaying.eval_bind_ok _ (hrepeats₁ other), Replaying.eval_bind_ok _ (hrepeats₂ _),
      Replaying.eval_bind_ok _ (hrepeats₃ _), Replaying.eval_bind_ok _ (hrepeats₄ _)]
    rfl

end

end Store

/-! ## Replays into a partition in memory -/

namespace MemoryPartition

open OrderedMap (putAll last?)

/-- What a replay makes of a partition: in each of the maps the entities are put under their keys,
one after the other. -/
theorem takeRecords_eq (records : Kind → List Bytes) (partition : MemoryPartition) :
    ∃ freed, StateMachine.takeRecords records partition =
      { inodes := putAll Inode.id (Entity.ofRecords Inode (records .inode)) partition.inodes
        dentries := putAll Dentry.key (Entity.ofRecords Dentry (records .dentry))
          partition.dentries
        xattrs := putAll Extend.inode (Entity.ofRecords Extend (records .extend)) partition.xattrs
        multiparts := putAll Multipart.id (Entity.ofRecords Multipart (records .multipart))
          partition.multiparts
        freed } := by
  simp only [StateMachine.takeRecords, Entity.takeAll, foldl_takeInode, foldl_takeDentry,
    foldl_takeExtend, foldl_createMultipart]
  exact ⟨_, rfl⟩

end MemoryPartition

namespace Store

open OrderedMap (last?)

/-- **Replays override, and are idempotent.** When the entity files in a directory are loaded into a
partition in memory, whatever it holds, they have records that decode. In each of the four maps, the
last record of a key is found under it, and under a key that does not occur in the file what was
there before. Loading the files again with the same cursor comes to the same outcomes and leaves the
four maps as they are. -/
theorem loadEntities_overrides (store : Store) (hbuffer : 1 ≤ store.options.readBuffer)
    {tree after : FileTree} {directory : Path} {cursor : UInt64}
    {partition final : MemoryPartition}
    {outcomes : InodeLoad × LoadOutcome × LoadOutcome × LoadOutcome}
    (h : Replaying.eval tree partition (store.loadEntities directory cursor) =
      ((.ok outcomes, final), after)) :
    (∃ records : Kind → List Bytes,
      (∀ kind : Kind, kind.Found (tree.read (Layout.entityFile directory kind)) (records kind)) ∧
      (∀ kind, ∀ record ∈ records kind, kind.check record = .ok ()) ∧
      (∀ number, final.inodes.get? number =
        (last? Inode.id (Entity.ofRecords Inode (records .inode)) number).or
          (partition.inodes.get? number)) ∧
      (∀ key, final.dentries.get? key =
        (last? Dentry.key (Entity.ofRecords Dentry (records .dentry)) key).or
          (partition.dentries.get? key)) ∧
      (∀ number, final.xattrs.get? number =
        (last? Extend.inode (Entity.ofRecords Extend (records .extend)) number).or
          (partition.xattrs.get? number)) ∧
      (∀ id, final.multiparts.get? id =
        (last? Multipart.id (Entity.ofRecords Multipart (records .multipart)) id).or
          (partition.multiparts.get? id))) ∧
    ∃ again, Replaying.eval after final (store.loadEntities directory cursor) =
        ((.ok outcomes, again), after) ∧
      again.inodes = final.inodes ∧ again.dentries = final.dentries ∧
      again.xattrs = final.xattrs ∧ again.multiparts = final.multiparts := by
  obtain ⟨rfl, records, hfound, hdecodes, hrepeats⟩ := loadEntities_repeats hbuffer h
  obtain ⟨freed, hfinal⟩ := MemoryPartition.takeRecords_eq records partition
  obtain ⟨freed', hagain⟩ := MemoryPartition.takeRecords_eq records final
  -- the load is the replay of the records, and so is the second one
  have hload := hrepeats partition
  rw [h] at hload
  obtain rfl : final = StateMachine.takeRecords records partition :=
    congrArg (fun result => result.1.2) hload
  refine ⟨⟨records, hfound, hdecodes, ?_, ?_, ?_, ?_⟩, _, hrepeats _, ?_, ?_, ?_, ?_⟩
  · intro number
    rw [hfinal, OrderedMap.get?_putAll]
  · intro key
    rw [hfinal, OrderedMap.get?_putAll]
  · intro number
    rw [hfinal, OrderedMap.get?_putAll]
  · intro id
    rw [hfinal, OrderedMap.get?_putAll]
  · rw [hagain]
    simp only [hfinal, OrderedMap.putAll_putAll]
  · rw [hagain]
    simp only [hfinal, OrderedMap.putAll_putAll]
  · rw [hagain]
    simp only [hfinal, OrderedMap.putAll_putAll]
  · rw [hagain]
    simp only [hfinal, OrderedMap.putAll_putAll]

/-- A file with two entries of one key, replayed twice into a partition that has a third. -/
theorem loadEntities_overrides_dentry :
    let store := sample "p"
    let entry (inode : InodeId) : Dentry := { parent := 1, name := "a", inode, fileType := 0 }
    let content := Framing.fixed.frames [(entry 6).toRecord, (entry 7).toRecord]
    let tree : FileTree := .directory [("p", .directory [("dentry", .file content)])]
    let partition := (StateMachine.createDentry (entry 5) true MemoryPartition.empty).2
    ∃ outcomes final,
      Replaying.eval tree partition (store.loadEntities store.root 1) =
        ((.ok outcomes, final), tree) ∧
      final.dentries.get? (entry 5).key = some (entry 7) ∧
      ∃ again, Replaying.eval tree final (store.loadEntities store.root 1) =
          ((.ok outcomes, again), tree) ∧ again.dentries = final.dentries := by
  intro store entry content tree partition
  have hok : (Replaying.eval tree partition (store.loadEntities store.root 1)).1.1.isOk = true := by
    decide +kernel
  have hget : (Replaying.eval tree partition (store.loadEntities store.root
      1)).1.2.dentries.get? (entry 5).key = some (entry 7) := by decide +kernel
  rcases hload : Replaying.eval tree partition (store.loadEntities store.root 1) with
    ⟨⟨error | outcomes, final⟩, after⟩
  · rw [hload] at hok
    cases hok
  · rw [hload] at hget
    obtain rfl := (loadEntities_repeats (by decide : 1 ≤ store.options.readBuffer) hload).1
    obtain ⟨-, again, hagain, -, hdentries, -⟩ :=
      loadEntities_overrides store (by decide) hload
    exact ⟨outcomes, final, rfl, hget, again, hagain, hdentries⟩

end Store

end PartitionSnapshot
