import PartitionSnapshot.Proofs.Findings
import PartitionSnapshot.Proofs.Loading
import PartitionSnapshot.Proofs.Replaying
import PartitionSnapshot.Proofs.Storing

/-!
# What loads restore

A load writes the apply position back, and a load that fails leaves a machine that has taken in a
part. Neither has an influence on later loads: whatever the options of the one and of the other,
after a load every load comes to what it would have come to before.

From the generation of a source that can be stored, and whose records decode, a load restores just
the source: the machine has taken in every entity in order, and the position, the counts and the
signs are those of the source.

## Main statements

* `Store.restored_afterLoad`: loads do not change what loads come to.
* `Store.restored_generation`: what is restored from the generation of a source.
-/

namespace PartitionSnapshot

open FileTree (Holds)

namespace Store

variable {σ : Type} [StateMachine σ] {store : Store} {view : View} {place : List String}
variable {g : Generations} {tree : FileTree}

/-! ## Loads after loads -/

/-- Loading the files of a generation ends with the cursor with which the inodes end. -/
theorem loadInodes_of_loadFiles {directory : Path} {state : σ} {stats : LoadStats}
    {cursor : UInt64}
    (h : (Replaying.eval tree state (store.loadFiles directory)).1.1 = .ok (stats, cursor)) :
    ∃ load, (Replaying.eval tree state
        (store.loadInodes directory store.config.first)).1.1 = .ok load ∧
      load.cursor = cursor := by
  -- the other kinds and the checksums do not touch the cursor
  obtain ⟨load, _, hload, -, hcursor⟩ := (filesLoaded h).inode
  exact ⟨load, by rw [hload], hcursor⟩

variable (hroot : view.Rooted store.root place) (hreadable : Layout.Readable store.root)
include hroot hreadable

theorem loadFiles_cursor {store' : Store} (hconfig : store'.config = store.config)
    (hbuffer : 1 ≤ store.options.readBuffer) (hbuffer' : 1 ≤ store'.options.readBuffer)
    {σ' : Type} [StateMachine σ'] {g' : Generations} {tree' : FileTree}
    (h : Holds view place g tree) (h' : Holds view place g' tree')
    (hsame : g'.current.readFile Kind.inode.name = g.current.readFile Kind.inode.name)
    {state : σ} {state' : σ'} {stats stats' : LoadStats} {cursor cursor' : UInt64}
    (hfiles : (Replaying.eval tree state (store.loadFiles store.current)).1.1 =
      .ok (stats, cursor))
    (hfiles' : (Replaying.eval tree' state' (store'.loadFiles store'.current)).1.1 =
      .ok (stats', cursor')) :
    cursor' = cursor := by
  have hcurrent : store'.current = store.current := by rw [current, root, hconfig]; rfl
  obtain ⟨load, hload, rfl⟩ := loadInodes_of_loadFiles hfiles
  obtain ⟨load', hload', rfl⟩ := loadInodes_of_loadFiles hfiles'
  rw [hcurrent, hconfig] at hload'
  have hfile := Layout.mem_files .inode
  have hread : tree'.read (Layout.entityFile store.current .inode) =
      tree.read (Layout.entityFile store.current .inode) := by
    rw [Layout.entityFile, readFile_of_holds hroot hreadable h hfile,
      readFile_of_holds hroot hreadable h' hfile, hsame]
  -- the two loads may differ in their options and machines, not in the file
  exact loadInodes_cursor hconfig hbuffer hbuffer' hread hload hload'

/-- A load leaves the generation that was current once the generations were settled, but for the
apply position, and no load comes to anything else than before. -/
theorem restored_afterLoad (hpersisted : store.Persisted view place)
    (hbuffer : 1 ≤ store.options.readBuffer) (h : Holds view place g tree)
    (hcurrent : g.current.NoFile) (state : σ) :
    ∃ part, part.NoFile ∧
      Holds view place ⟨part, g.recovered.staging, g.recovered.backup⟩
        (store.afterLoad state tree) ∧
      ∀ {σ' : Type} [StateMachine σ'] (store' : Store) (state' : σ'),
        store'.config = store.config → 1 ≤ store'.options.readBuffer →
        store'.restored state' (store.afterLoad state tree) = store'.restored state' tree := by
  obtain ⟨mid, hmid, -, hafter⟩ :=
    restored_eq hroot hreadable hpersisted h hcurrent state
  have hfree := Generations.noFile_recovered hcurrent
  -- what holds of the root of one store holds of the root of every other for the partition
  have hother (store' : Store) (hconfig : store'.config = store.config) :
      view.Rooted store'.root place ∧ Layout.Readable store'.root ∧
        store'.Persisted view place := by
    unfold Persisted root
    rw [hconfig]
    exact ⟨hroot, hreadable, hpersisted⟩
  -- what the files come to decides whether the position is written back
  rcases hfiles : (Replaying.eval mid state (store.loadFiles store.current)).1
    with ⟨error | ⟨stats, cursor⟩, machine⟩
  · rw [hfiles] at hafter
    dsimp only [settled] at hafter
    refine ⟨_, hfree, hafter, fun store' state' hconfig _ => ?_⟩
    obtain ⟨hroot', hreadable', hpersisted'⟩ := hother store' hconfig
    exact restored_congr hroot' hreadable' hpersisted' h hafter hcurrent hfree
      (congrArg Generations.current (Generations.recovered_recovered g)) state'
  · rw [hfiles] at hafter
    dsimp only [settled] at hafter
    have hfree' : (store.rewritten g.recovered.current cursor).NoFile :=
      noFile_rewritten hfree cursor
    refine ⟨_, hfree', hafter, fun store' state' hconfig hbuffer' => ?_⟩
    obtain ⟨hroot', hreadable', hpersisted'⟩ := hother store' hconfig
    obtain ⟨mid', hmid', hbefore, -⟩ :=
      restored_eq hroot' hreadable' hpersisted' h hcurrent state'
    obtain ⟨mid'', hmid'', hnow, -⟩ :=
      restored_eq hroot' hreadable' hpersisted' hafter hfree' state'
    have hsettled : (⟨store.rewritten g.recovered.current cursor, g.recovered.staging,
        g.recovered.backup⟩ : Generations).recovered = _ :=
      Generations.recovered_of_current g.recovered_backup
    rw [hsettled] at hmid'' hnow
    have hsame := loadFiles_congr hroot' hreadable' hmid' hmid''
      (fun file hfile => readFile_rewritten hfile) state'
    rw [hbefore, hnow, hsame]
    rcases hfiles' : (Replaying.eval mid' state' (store'.loadFiles store'.current)).1
      with ⟨error | ⟨stats', cursor'⟩, machine'⟩
    · rfl
    · -- both loads end with the same cursor, and with it the position is settled
      have hcursor := loadFiles_cursor hroot hreadable hconfig hbuffer hbuffer' hmid hmid' rfl
        (congrArg Prod.fst hfiles) (congrArg Prod.fst hfiles')
      have hposition := positionOf_rewritten store g.recovered.current cursor
      simp only [assemble, hcursor, positionOf_config hconfig, hposition]

end Store

/-! ## What a source is restored as -/

/-- A state machine that takes in every entity of a snapshot. -/
class StateMachine.Accepting (σ : Type) [StateMachine σ] : Prop where
  createDentry : ∀ (dentry : Dentry) (state : σ),
    (StateMachine.createDentry dentry true state).1 = .ok
  setAttributes : ∀ (extend : Extend) (state : σ),
    (StateMachine.setAttributes extend state).1 = .ok ()

instance : StateMachine.Accepting MemoryPartition := ⟨fun _ _ => rfl, fun _ _ => rfl⟩

namespace StateMachine

variable {σ : Type} [StateMachine σ]

/-- Takes in an inode, and notes it when it is marked deleted. -/
def takeInode (inode : Inode) (state : σ) : σ := checkFree inode (createInode inode state)

/-- Takes in a directory entry in replay. -/
def takeDentry (dentry : Dentry) (state : σ) : σ := (createDentry dentry true state).2

/-- Takes in the extended attributes of an inode. -/
def takeExtend (extend : Extend) (state : σ) : σ := (setAttributes extend state).2

end StateMachine

namespace Source

/-- When a source can be loaded once it is stored: its records decode, those of inodes to inodes
that the partition owns. The length of a record has 64 bits. -/
structure Loadable (source : Source) (config : Config) : Prop where
  decodes : ∀ kind, ∀ record ∈ source.records kind, kind.check record = .ok ()
  owned : ∀ inode ∈ Entity.ofRecords Inode (source.records .inode), config.owns inode.id = true
  addressable : ∀ kind, ∀ record ∈ source.records kind, record.length < UInt64.size

variable {σ : Type} [StateMachine σ]

/-- The state of a machine that has taken in all entities of a source, kind by kind and in order. -/
def replay (source : Source) (state : σ) : σ :=
  let state := Entity.takeAll StateMachine.takeInode (source.records .inode) state
  let state := Entity.takeAll StateMachine.takeDentry (source.records .dentry) state
  let state := Entity.takeAll StateMachine.takeExtend (source.records .extend) state
  Entity.takeAll StateMachine.createMultipart (source.records .multipart) state

/-- The partition that a source, stored at a position, is restored as. -/
def partition (source : Source) (store : Store) (position : ApplyPosition) : LoadedPartition where
  config := store.config
  position := ⟨position.index,
    max position.cursor (cursorOf store.config.first (source.records .inode))⟩
  stats := {
    inodes := (source.records .inode).length
    dentries := (source.records .dentry).length
    extendCount := (source.records .extend).length
    multiparts := (source.records .multipart).length
    signs := source.signs
    verified := store.options.verifyChecksums }

theorem readFile_generation (source : Source) (position : ApplyPosition) (kind : Kind) :
    (source.generation position).readFile kind.name = .ok (source.content kind) := by
  rw [generation, View.readFile_ofFiles]
  cases kind <;> rfl

theorem readFile_generation_apply (source : Source) (position : ApplyPosition) :
    (source.generation position).readFile Layout.apply =
      .ok (Bytes.ofString position.text) := by
  rw [generation, View.readFile_ofFiles]
  rfl

theorem readFile_generation_signs (source : Source) (position : ApplyPosition) :
    (source.generation position).readFile Layout.signs =
      .ok (Bytes.ofString source.signs.text) := by
  rw [generation, View.readFile_ofFiles]
  rfl

end Source

namespace Store

variable {store : Store} {source : Source}

/-- In the file of a kind the records of the source are found. -/
theorem contentsOf_file {store' : Store} (hbuffer : 1 ≤ store.options.readBuffer)
    (hstorable : source.Storable store')
    (haddressable : ∀ kind, ∀ record ∈ source.records kind, record.length < UInt64.size)
    (context : Context) (path : Path) (kind : Kind) :
    store.contentsOf context path kind (.ok (source.content kind)) =
      .ok (some ⟨source.records kind, .ok (crc32 (source.content kind))⟩) := by
  obtain ⟨hfaithful, hrest⟩ := faithful_source hbuffer kind (source.content kind)
  obtain ⟨count, -, hcount⟩ := hstorable.counted kind
  -- a source has counted the records with 64 bits
  have hlength : (source.records kind).length < UInt64.size := by
    rw [← hcount]
    exact count.toNat_lt
  have hrecords := Contents.ofKind_file hfaithful hrest hlength fun record hrecord =>
    ⟨((storable_iff.1 hstorable kind).fits record hrecord).2,
      haddressable kind record hrecord⟩
  exact congrArg (fun contents => Except.ok (some contents)) hrecords

theorem ofRecord_of_check {ε α : Type} [Entity ε] {record : Bytes} {next : ε → α} {value : α}
    (h : (Entity.ofRecord ε record).map next = .ok value) :
    ∃ entity, Entity.ofRecord ε record = .ok entity := by
  cases hrecord : Entity.ofRecord ε record with
  | error fault =>
    rw [hrecord] at h
    cases h
  | ok entity => exact ⟨entity, rfl⟩

/-! ## Each kind is taken in -/

section

variable {σ : Type} [StateMachine σ] {record : Bytes} {context : Context}

/-- An inode is taken in if its record decodes and the partition owns it. -/
theorem handleInode_result {config : Config} {state : UInt64 × σ} :
    (handleInode config context record state).result = .ok () ↔
      ∃ inode, Entity.ofRecord Inode record = .ok inode ∧ config.owns inode.id = true := by
  unfold handleInode
  cases Entity.ofRecord Inode record with
  | error fault => exact ⟨nofun, fun ⟨_, hinode, _⟩ => nomatch hinode⟩
  | ok inode =>
    by_cases howned : config.owns inode.id = true
    · simp only [howned, if_true]
      exact ⟨fun _ => ⟨inode, rfl, howned⟩, fun _ => rfl⟩
    · simp only [howned]
      refine ⟨nofun, fun ⟨other, hother, howns⟩ => ?_⟩
      cases hother
      exact absurd howns howned

theorem handleInode_state {config : Config} {inode : Inode}
    (hinode : Entity.ofRecord Inode record = .ok inode) (howned : config.owns inode.id = true)
    (state : UInt64 × σ) : (handleInode config context record state).state =
      (max state.1 inode.id, StateMachine.takeInode inode state.2) := by
  simp only [handleInode, hinode, howned, if_true]
  rfl

theorem handleMultipart_result {state : σ} :
    (store.handleMultipart context record state).result = .ok () ↔
      ∃ multipart, Entity.ofRecord Multipart record = .ok multipart := by
  unfold handleMultipart
  cases Entity.ofRecord Multipart record with
  | error fault => exact ⟨nofun, fun ⟨_, hmultipart⟩ => nomatch hmultipart⟩
  | ok multipart => exact ⟨fun _ => ⟨multipart, rfl⟩, fun _ => rfl⟩

theorem handleMultipart_state {multipart : Multipart}
    (hmultipart : Entity.ofRecord Multipart record = .ok multipart) (state : σ) :
    (store.handleMultipart context record state).state =
      StateMachine.createMultipart multipart state := by
  simp only [handleMultipart, hmultipart]
  rfl

section

variable [StateMachine.Accepting σ]

/-- In replay the machine refuses no entry. -/
theorem handleDentry_of_ofRecord {dentry : Dentry}
    (hdentry : Entity.ofRecord Dentry record = .ok dentry) (state : σ) :
    (handleDentry context record state).result = .ok () ∧
      (handleDentry context record state).state = StateMachine.takeDentry dentry state := by
  have haccepted := StateMachine.Accepting.createDentry dentry state
  rcases hcreate : StateMachine.createDentry dentry true state with ⟨status, state'⟩
  rw [hcreate] at haccepted
  cases haccepted
  simp only [handleDentry, hdentry, hcreate, StateMachine.takeDentry]
  exact ⟨rfl, rfl⟩

theorem handleDentry_result {state : σ} :
    (handleDentry context record state).result = .ok () ↔
      ∃ dentry, Entity.ofRecord Dentry record = .ok dentry := by
  refine ⟨fun h => ?_, fun ⟨_, hdentry⟩ => (handleDentry_of_ofRecord hdentry state).1⟩
  unfold handleDentry at h
  cases hrecord : Entity.ofRecord Dentry record with
  | error fault =>
    rw [hrecord] at h
    cases h
  | ok dentry => exact ⟨dentry, rfl⟩

theorem handleExtend_of_ofRecord {extend : Extend}
    (hextend : Entity.ofRecord Extend record = .ok extend) (state : σ) :
    (store.handleExtend context record state).result = .ok () ∧
      (store.handleExtend context record state).state = StateMachine.takeExtend extend state := by
  have haccepted := StateMachine.Accepting.setAttributes extend state
  rcases hset : StateMachine.setAttributes extend state with ⟨result, state'⟩
  rw [hset] at haccepted
  cases haccepted
  simp only [handleExtend, hextend, hset, StateMachine.takeExtend]
  exact ⟨rfl, rfl⟩

theorem handleExtend_result {state : σ} :
    (store.handleExtend context record state).result = .ok () ↔
      ∃ extend, Entity.ofRecord Extend record = .ok extend := by
  refine ⟨fun h => ?_, fun ⟨_, hextend⟩ => (handleExtend_of_ofRecord hextend state).1⟩
  unfold handleExtend at h
  cases hrecord : Entity.ofRecord Extend record with
  | error fault =>
    rw [hrecord] at h
    cases h
  | ok extend => exact ⟨extend, rfl⟩

end

variable (hloadable : source.Loadable store.config)
include hloadable

theorem accepts_handleInode (context : Context) :
    Handled.Accepts (handleInode store.config context : Bytes → UInt64 × σ → Handled (UInt64 × σ))
      (fun inode state => (max state.1 inode.id, StateMachine.takeInode inode state.2))
      (source.records .inode) := by
  intro record hrecord
  obtain ⟨inode, hinode⟩ := ofRecord_of_check (hloadable.decodes .inode record hrecord)
  have howned : store.config.owns inode.id = true := by
    apply hloadable.owned
    exact List.mem_filterMap.2 ⟨record, hrecord, by rw [hinode]; rfl⟩
  -- it decodes and is owned, which are the two ways to refuse it
  exact ⟨inode, hinode, fun state =>
    ⟨handleInode_result.2 ⟨inode, hinode, howned⟩, handleInode_state hinode howned state⟩⟩

theorem accepts_handleMultipart (context : Context) :
    Handled.Accepts (store.handleMultipart context : Bytes → σ → Handled σ)
      StateMachine.createMultipart (source.records .multipart) := by
  intro record hrecord
  obtain ⟨multipart, hmultipart⟩ :=
    ofRecord_of_check (hloadable.decodes .multipart record hrecord)
  exact ⟨multipart, hmultipart, fun state =>
    ⟨handleMultipart_result.2 ⟨multipart, hmultipart⟩, handleMultipart_state hmultipart state⟩⟩

variable [StateMachine.Accepting σ]

theorem accepts_handleDentry (context : Context) :
    Handled.Accepts (handleDentry context : Bytes → σ → Handled σ) StateMachine.takeDentry
      (source.records .dentry) := by
  intro record hrecord
  obtain ⟨dentry, hdentry⟩ := ofRecord_of_check (hloadable.decodes .dentry record hrecord)
  exact ⟨dentry, hdentry, handleDentry_of_ofRecord hdentry⟩

theorem accepts_handleExtend (context : Context) :
    Handled.Accepts (store.handleExtend context : Bytes → σ → Handled σ) StateMachine.takeExtend
      (source.records .extend) := by
  intro record hrecord
  obtain ⟨extend, hextend⟩ := ofRecord_of_check (hloadable.decodes .extend record hrecord)
  exact ⟨extend, hextend, handleExtend_of_ofRecord hextend⟩

end

/-- The signs that were recorded are those of the files. -/
theorem verifyFiles_source {tree : FileTree} {directory : Path}
    (hsigns : tree.read (directory.join Layout.signs) = .ok (Bytes.ofString source.signs.text)) :
    Task.eval tree (store.verifyFiles directory source.signs) =
      (.ok store.options.verifyChecksums, tree) := by
  have hrecorded : Signs.Recorded (.ok (Bytes.ofString source.signs.text)) source.signs :=
    ⟨_, _, rfl, Bytes.toString?_ofString _, Signs.parse?_text _⟩
  rw [verifyFiles_eval, hsigns, judgeSigns_eq_true.2 hrecorded]
  cases store.options.verifyChecksums <;> rfl

section

variable {σ : Type} [StateMachine σ] {tree : FileTree} {directory : Path}
variable (hbuffer : 1 ≤ store.options.readBuffer) {store' : Store}
variable (hstorable : source.Storable store') (hloadable : source.Loadable store.config)
include hbuffer hstorable hloadable

/-- A kind that was stored is loaded. -/
theorem loadKind_source {ε τ : Type} [Entity ε] {kind : Kind}
    {handle : Bytes → τ → Handled τ} {take : ε → τ → τ}
    (haccepts : Handled.Accepts handle take (source.records kind))
    (hread : tree.read (Layout.entityFile directory kind) = .ok (source.content kind))
    (context : Context) (state : τ) :
    Replaying.eval tree state (store.loadKind context directory kind handle) =
      ((.ok ⟨true, (source.records kind).length, crc32 (source.content kind)⟩,
        Entity.takeAll take (source.records kind) state), tree) := by
  rw [loadKind_eval, hread, contentsOf_file hbuffer hstorable hloadable.addressable,
    replayed_of_accepts haccepts]

variable (hread : ∀ kind, tree.read (Layout.entityFile directory kind) =
  .ok (source.content kind))
include hread

theorem loadInodes_source (state : σ) :
    Replaying.eval tree state (store.loadInodes directory store.config.first) =
      ((.ok ⟨⟨true, (source.records .inode).length, source.signs.inode⟩,
          cursorOf store.config.first (source.records .inode)⟩,
        Entity.takeAll StateMachine.takeInode (source.records .inode) state), tree) := by
  -- the cursor starts at the first number of the partition
  rw [loadInodes_eval, hread, contentsOf_file hbuffer hstorable hloadable.addressable,
    replayed_of_accepts (accepts_handleInode hloadable _), takeAll_inode]
  rfl

theorem loadMultiparts_source (state : σ) :
    Replaying.eval tree state (store.loadMultiparts directory) =
      ((.ok ⟨true, (source.records .multipart).length, source.signs.multipart⟩,
        Entity.takeAll StateMachine.createMultipart (source.records .multipart) state), tree) :=
  (eval_loaded tree state _ _ _).trans (loadKind_source hbuffer hstorable hloadable
    (accepts_handleMultipart hloadable _) (hread .multipart) _ state)

variable [StateMachine.Accepting σ]

theorem loadDentries_source (state : σ) :
    Replaying.eval tree state (store.loadDentries directory) =
      ((.ok ⟨true, (source.records .dentry).length, source.signs.dentry⟩,
        Entity.takeAll StateMachine.takeDentry (source.records .dentry) state), tree) :=
  (eval_loaded tree state _ _ _).trans (loadKind_source hbuffer hstorable hloadable
    (accepts_handleDentry hloadable _) (hread .dentry) _ state)

theorem loadExtends_source (state : σ) :
    Replaying.eval tree state (store.loadExtends directory) =
      ((.ok ⟨true, (source.records .extend).length, source.signs.extend⟩,
        Entity.takeAll StateMachine.takeExtend (source.records .extend) state), tree) :=
  (eval_loaded tree state _ _ _).trans (loadKind_source hbuffer hstorable hloadable
    (accepts_handleExtend hloadable _) (hread .extend) _ state)

/-- The files of a source that was stored are loaded. -/
theorem loadFiles_source
    (hsigns : tree.read (directory.join Layout.signs) = .ok (Bytes.ofString source.signs.text))
    (position : ApplyPosition) (state : σ) :
    Replaying.eval tree state (store.loadFiles directory) =
      ((.ok ((source.partition store position).stats,
          cursorOf store.config.first (source.records .inode)), source.replay state), tree) := by
  -- kind by kind, and then the checksums
  unfold loadFiles
  rw [Replaying.eval_bind_ok _ (loadInodes_source hbuffer hstorable hloadable hread state),
    Replaying.eval_bind_ok _ (loadDentries_source hbuffer hstorable hloadable hread _),
    Replaying.eval_bind_ok _ (loadExtends_source hbuffer hstorable hloadable hread _),
    Replaying.eval_bind_ok _ (loadMultiparts_source hbuffer hstorable hloadable hread _)]
  have hverify : Task.eval tree (store.verifyFiles directory source.signs) =
      (.ok store.options.verifyChecksums, tree) := verifyFiles_source hsigns
  have hverified := Replaying.eval_ofTask tree (source.replay state)
    (store.verifyFiles directory source.signs)
  rw [hverify] at hverified
  exact (Replaying.eval_bind_ok _ hverified).trans rfl

end

/-- What is restored from the generation of a source that was stored is the source. -/
theorem restored_generation {σ : Type} [StateMachine σ] [StateMachine.Accepting σ] {view : View}
    {place : List String} {g : Generations} {tree : FileTree}
    (hroot : view.Rooted store.root place) (hreadable : Layout.Readable store.root)
    (hpersisted : store.Persisted view place) (hbuffer : 1 ≤ store.options.readBuffer)
    {store' : Store} (hstorable : source.Storable store')
    (hloadable : source.Loadable store.config) (h : Holds view place g tree)
    (hcurrent : g.current.NoFile) {position : ApplyPosition}
    (hgeneration : g.recovered.current = source.generation position) (state : σ) :
    store.restored state tree = (.ok (source.partition store position), source.replay state) := by
  obtain ⟨mid, hmid, hrestored, -⟩ :=
    restored_eq hroot hreadable hpersisted h hcurrent state
  -- the files of the current generation are those of the source
  have hread (kind : Kind) : mid.read (Layout.entityFile store.current kind) =
      .ok (source.content kind) := by
    rw [Layout.entityFile, readFile_of_holds hroot hreadable hmid (Layout.mem_files kind),
      hgeneration, Source.readFile_generation]
  have hsigns : mid.read (store.current.join Layout.signs) =
      .ok (Bytes.ofString source.signs.text) := by
    rw [readFile_of_holds hroot hreadable hmid (by decide), hgeneration,
      Source.readFile_generation_signs]
  rw [hrestored, loadFiles_source hbuffer hstorable hloadable hread hsigns position state,
    hgeneration, Source.readFile_generation_apply]
  simp only [assemble, positionOf, decodeApply_text]
  rfl

/-! ## Where there is no generation -/

/-- The partition that is restored where there is no generation. -/
def emptyPartition (store : Store) : LoadedPartition where
  config := store.config
  position := ⟨0, store.config.first⟩
  stats := ⟨0, 0, 0, 0, {}, false⟩

section

variable {σ : Type} [StateMachine σ] {tree : FileTree} {directory : Path}
variable (hread : ∀ file ∈ Layout.files,
  tree.read (directory.join file) = FileTree.refuse .noEntry)
include hread

theorem loadKind_nothing {τ : Type} (kind : Kind) (context : Context)
    (handle : Bytes → τ → Handled τ) (state : τ) :
    Replaying.eval tree state (store.loadKind context directory kind handle) =
      ((.ok .absent, state), tree) := by
  rw [loadKind_eval, Layout.entityFile, hread _ (Layout.mem_files kind)]
  rfl

theorem loadFiles_nothing (state : σ) :
    Replaying.eval tree state (store.loadFiles directory) =
      ((.ok (store.emptyPartition.stats, store.config.first), state), tree) := by
  have hinodes : Replaying.eval tree state (store.loadInodes directory store.config.first) =
      ((.ok ⟨.absent, store.config.first⟩, state), tree) := by
    rw [loadInodes_eval, Layout.entityFile, hread _ (Layout.mem_files .inode)]
    rfl
  have hdentries : Replaying.eval tree state (store.loadDentries directory) =
      ((.ok .absent, state), tree) :=
    (eval_loaded tree state _ _ _).trans (loadKind_nothing hread .dentry _ _ state)
  have hextends : Replaying.eval tree state (store.loadExtends directory) =
      ((.ok .absent, state), tree) :=
    (eval_loaded tree state _ _ _).trans (loadKind_nothing hread .extend _ _ state)
  have hmultiparts : Replaying.eval tree state (store.loadMultiparts directory) =
      ((.ok .absent, state), tree) :=
    (eval_loaded tree state _ _ _).trans (loadKind_nothing hread .multipart _ _ state)
  -- without a signs file nothing is verified
  have hverify : Task.eval tree (store.verifyFiles directory {}) = (.ok false, tree) := by
    rw [verifyFiles_eval, hread _ (by decide)]
    cases store.options.verifyChecksums <;> rfl
  unfold loadFiles
  rw [Replaying.eval_bind_ok _ hinodes, Replaying.eval_bind_ok _ hdentries,
    Replaying.eval_bind_ok _ hextends, Replaying.eval_bind_ok _ hmultiparts]
  have hverified := Replaying.eval_ofTask tree state (store.verifyFiles directory {})
  rw [hverify] at hverified
  exact (Replaying.eval_bind_ok _ hverified).trans rfl

end

/-- Where there is no generation the empty partition is restored. -/
theorem restored_nothing {σ : Type} [StateMachine σ] {view : View} {place : List String}
    {g : Generations} {tree : FileTree} (hroot : view.Rooted store.root place)
    (hreadable : Layout.Readable store.root) (hpersisted : store.Persisted view place)
    (h : Holds view place g tree) (hcurrent : g.current.NoFile)
    (habsent : g.recovered.current [] = none) (state : σ) :
    store.restored state tree = (.ok store.emptyPartition, state) := by
  obtain ⟨mid, hmid, hrestored, -⟩ := restored_eq hroot hreadable hpersisted h hcurrent state
  have hnothing := hmid.current_eq_nothing habsent
  have hread : ∀ file ∈ Layout.files,
      mid.read (store.current.join file) = FileTree.refuse .noEntry := by
    intro file hfile
    rw [readFile_of_holds hroot hreadable hmid hfile, hnothing, View.readFile_nothing]
  rw [hrestored, loadFiles_nothing hread state, hnothing, View.readFile_nothing]
  rfl

/-! ## Samples -/

theorem eq_ok_of_isOk {ε α β : Type} {outcome : Except ε α × β} (h : outcome.1.isOk = true) :
    ∃ value, outcome = (.ok value, outcome.2) := by
  obtain ⟨error | value, rest⟩ := outcome
  · cases h
  · exact ⟨value, rfl⟩

/-- The directory of the generation without records at a position. -/
def recordless (position : ApplyPosition) : FileTree :=
  .directory (Layout.files.filterMap fun name =>
    (Records.empty.source.files position name).map fun content => (name, .file content))

/-- The tree in which sample stores have their identity at `p`, beside other entries. -/
def identified (others : List (String × FileTree)) : FileTree :=
  .directory [("p", .directory ((Layout.metadata, .file (sample "p").config.encode) :: others))]

/-- The identity of a sample store is read back under whatever root. -/
theorem decode_sample (root : String) :
    Config.decode (sample root).root (sample "p").config.encode = .ok (sample root).config := rfl

theorem persisted_identified {root : String} (hroot : root.isEmpty = false)
    (others : List (String × FileTree)) :
    (sample root).Persisted (identified others).view ["p"] := by
  refine ⟨(sample "p").config.encode, rfl, ?_⟩
  have hcheck : (sample root).config.check = .ok () := by simp [Config.check, sample, hroot]
  have hcontent : (sample "p").config.encode.isEmpty = false := by decide +kernel
  unfold decodeMetadata
  simp only [hcontent, decode_sample, hcheck]
  rfl

/-- A source without records can be loaded. -/
theorem loadable_empty (config : Config) : Records.empty.source.Loadable config where
  decodes kind _ h := by cases kind <;> exact nomatch h
  owned _ h := nomatch h
  addressable kind _ h := by cases kind <;> exact nomatch h

end Store

end PartitionSnapshot
