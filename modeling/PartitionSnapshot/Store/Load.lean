import PartitionSnapshot.ApplyPosition
import PartitionSnapshot.Entity.Record
import PartitionSnapshot.Machine.Basic
import PartitionSnapshot.Store.Basic

/-!
# Loading entity files

Loading an entity file hands its records to a state machine, one after the other and in file order,
until a record cannot be read, does not decode, lies outside the partition or is refused. What the
state machine has taken in by then, it keeps.
-/

namespace PartitionSnapshot

/-! ## Handing records over -/

/-- What handing records to a state machine came to. -/
structure Handled (σ : Type) where
  result : Except Error Unit
  state : σ
  notes : List Note

namespace Handled

/-- A record that was taken in. -/
def accepted (state : σ) (notes : List Note) : Handled σ := ⟨.ok (), state, notes⟩

/-- A record that could not be handed over, or was refused. -/
def failed (error : Error) (state : σ) (notes : List Note) : Handled σ :=
  ⟨.error error, state, notes⟩

/-- Hands records over one by one, up to the first that fails. -/
def each (handle : Bytes → σ → Handled σ) (state : σ) : List Bytes → Handled σ
  | [] => accepted state []
  | record :: rest =>
    let first := handle record state
    match first.result with
    | .error _ => first
    | .ok () =>
      let others := each handle first.state rest
      { others with notes := first.notes ++ others.notes }

end Handled

/-- What loading an entity file came to. -/
structure LoadOutcome where
  /-- Whether there was a file. -/
  present : Bool
  /-- The number of records taken in. -/
  records : Nat
  /-- The checksum of the file. -/
  checksum : UInt32
  deriving DecidableEq, Repr

/-- What loading comes to when there is no file. -/
def LoadOutcome.absent : LoadOutcome := ⟨false, 0, 0⟩

/-- Hands the records of a file to a state machine, and says what that came to. -/
def Contents.replay (contents : Contents) (context : Context) (handle : Bytes → σ → Handled σ)
    (state : σ) : Except Error LoadOutcome × σ × List Note :=
  let handled := Handled.each handle state contents.records
  let result : Except Error LoadOutcome := do
    handled.result
    match contents.ending with
    | .ok checksum => return ⟨true, contents.records.length, checksum⟩
    | .error (activity, failure) => throw (context.reading activity failure)
  (result, handled.state, handled.notes)

/-! ## Tasks over a state machine -/

/-- A task that drives a state machine. What the machine took in stays when the task fails. -/
abbrev Replaying (σ : Type) := ExceptT Error (StateT σ Procedure)

namespace Replaying

/-- A task that leaves the state machine alone. -/
def ofTask (task : Task α) : Replaying σ α :=
  ExceptT.mk fun state => do return (← task.run, state)

/-- Runs a task from a state of the machine. -/
def runFrom (task : Replaying σ α) (state : σ) : Procedure (Except Error α × σ) :=
  StateT.run (ExceptT.run task) state

/-- Adds notes to the log. -/
def logAll : List Note → Procedure Unit
  | [] => .done ()
  | note :: rest => .note note (logAll rest)

/-- Hands the records of a file to the state machine. -/
def ofContents (contents : Contents) (context : Context) (handle : Bytes → σ → Handled σ) :
    Replaying σ LoadOutcome :=
  ExceptT.mk fun state => do
    let (result, state, notes) := contents.replay context handle state
    logAll notes
    return (result, state)

/-- Adds a note to the log. -/
def log (level : Level) (text : String) : Replaying σ Unit := ofTask (Procedure.log level text)

end Replaying

namespace Store

variable {σ : Type} [StateMachine σ]

/-- Loads the file of a kind in a directory; one that is absent loads nothing. -/
def loadKind (store : Store) (context : Context) (directory : Path) (kind : Kind)
    (handle : Bytes → σ → Handled σ) : Replaying σ LoadOutcome := do
  match ← Replaying.ofTask (store.contents? context directory kind) with
  | none => return .absent
  | some contents => Replaying.ofContents contents context handle

/-! ## Inodes -/

/-- What loading the inode file came to. -/
structure InodeLoad where
  outcome : LoadOutcome
  /-- The greatest of the cursor at the start and the numbers of the inodes. -/
  cursor : UInt64
  deriving DecidableEq, Repr

/-- Hands over an inode, whose number has to lie in the range of the partition, and moves the cursor
up to it. -/
def handleInode (config : Config) (context : Context) (record : Bytes) (state : UInt64 × σ) :
    Handled (UInt64 × σ) :=
  match Entity.ofRecord Inode record with
  | .error fault => .failed (.corrupt context (.undecodable .inode fault)) state []
  | .ok inode =>
    if config.owns inode.id then
      .accepted (max state.1 inode.id,
        StateMachine.checkFree inode (StateMachine.createInode inode state.2)) []
    else .failed (.corrupt context (.outsideRange inode.id config.first config.last)) state []

/-- Runs a task over a state machine beside a cursor, and gives the cursor it ends with. -/
def withCursor (cursor : UInt64) (task : Replaying (UInt64 × σ) α) : Replaying σ (α × UInt64) :=
  ExceptT.mk fun state => do
    let (result, cursor, state) ← task.runFrom (cursor, state)
    return (result.map fun value => (value, cursor), state)

/-- Loads the inode file. -/
def loadInodes (store : Store) (directory : Path) (cursor : UInt64) : Replaying σ InodeLoad := do
  let context := store.context "loadInode"
  let (outcome, cursor) ← withCursor cursor
    (store.loadKind context directory .inode (handleInode store.config context))
  if outcome.present then
    Replaying.log .info
      s!"loadInode: load complete: {store.label} numInodes({outcome.records}) cursor({cursor})"
  return ⟨outcome, cursor⟩

/-! ## Directory entries -/

/-- Hands over a directory entry in replay. -/
def handleDentry (context : Context) (record : Bytes) (state : σ) : Handled σ :=
  match Entity.ofRecord Dentry record with
  | .error fault => .failed (.corrupt context (.undecodable .dentry fault)) state []
  | .ok dentry =>
    match StateMachine.createDentry dentry true state with
    | (.ok, state) => .accepted state []
    | (status, state) => .failed (.rejected context (.dentry dentry status)) state []

/-- Loads the dentry file. -/
def loadDentries (store : Store) (directory : Path) : Replaying σ LoadOutcome := do
  let context := store.context "loadDentry"
  let outcome ← store.loadKind context directory .dentry (handleDentry context)
  if outcome.present then
    Replaying.log .info
      s!"loadDentry: load complete: {store.label} numDentries({outcome.records})"
  return outcome

/-! ## Extended attributes -/

/-- Hands over the extended attributes of an inode. -/
def handleExtend (store : Store) (context : Context) (record : Bytes) (state : σ) : Handled σ :=
  match Entity.ofRecord Extend record with
  | .error fault => .failed (.corrupt context (.undecodable .extend fault)) state []
  | .ok extend =>
    let notes := [⟨.debug,
      s!"loadExtend: new extend from bytes: {store.label} inode({extend.inode})"⟩]
    match StateMachine.setAttributes extend state with
    | (.ok (), state) => .accepted state notes
    | (.error error, state) =>
      .failed (.rejected context (.attributes extend.inode error.message)) state notes

/-- Loads the extend file. -/
def loadExtends (store : Store) (directory : Path) : Replaying σ LoadOutcome := do
  let context := store.context "loadExtend"
  let outcome ← store.loadKind context directory .extend (store.handleExtend context)
  if outcome.present then
    let path := Layout.entityFile directory .extend
    Replaying.log .info
      s!"loadExtend: load complete: {store.label} numExtends({outcome.records}) filename({path})"
  return outcome

/-! ## Multipart sessions -/

/-- Hands over a multipart session. -/
def handleMultipart (store : Store) (context : Context) (record : Bytes) (state : σ) :
    Handled σ :=
  match Entity.ofRecord Multipart record with
  | .error fault => .failed (.corrupt context (.undecodable .multipart fault)) state []
  | .ok multipart =>
    let partition := store.config.partition
    .accepted (StateMachine.createMultipart multipart state) [⟨.debug,
      "loadMultipart: create multipart from bytes: " ++
        s!"partitionID({partition}) multipartID({multipart.id})"⟩]

/-- Loads the multipart file. -/
def loadMultiparts (store : Store) (directory : Path) : Replaying σ LoadOutcome := do
  let context := store.context "loadMultipart"
  let outcome ← store.loadKind context directory .multipart (store.handleMultipart context)
  if outcome.present then
    let path := Layout.entityFile directory .multipart
    let partition := store.config.partition
    Replaying.log .info
      (s!"loadMultipart: load complete: partitionID({partition}) " ++
        s!"numMultiparts({outcome.records}) filename({path})")
  return outcome

/-! ## The apply position -/

/-- Writes the apply position, in place of the one that is there. -/
def storeApply (store : Store) (directory : Path) (position : ApplyPosition) : Task Unit := do
  let context := store.context "storeApplyID"
  writeSmallFile context (directory.join Layout.apply) (Bytes.ofString position.text)
  Procedure.log .info
    (s!"storeApplyID: store complete: {store.label} applyID({position.index}) " ++
      s!"cursor({position.cursor})")

/-- The index and the cursor, if any, that the content of an apply file holds. -/
def decodeApply (context : Context) (content : Bytes) :
    Except Error (UInt64 × Option UInt64) := do
  if content.isEmpty then throw (.corrupt context .emptyApply)
  match Utf8.decode content with
  | .error fault => throw (.corrupt context (.applyNotText fault))
  | .ok text =>
    match ApplyPosition.parse? text with
    | none => throw (.corrupt context (.unreadableApply text))
    | some parsed => return parsed

/-- Loads the apply position and reconciles it with a cursor, which never moves back. The result is
written back; without a file there is nothing to write, and the index is zero. -/
def loadApply (store : Store) (directory : Path) (cursor : UInt64) : Task ApplyPosition := do
  let context := store.context "loadApplyID"
  let path := directory.join Layout.apply
  match ← (Procedure.read path : Procedure _) with
  | .error failure =>
    if failure.classify = .notFound then return ⟨0, cursor⟩
    else throw (.storage context (.reading path) failure)
  | .ok content =>
    let (index, stored) ← Task.ofExcept (decodeApply context content) id
    let position := ApplyPosition.reconcile index stored cursor
    store.storeApply directory position
    Procedure.log .info
      (s!"loadApplyID: load complete: {store.label} applyID({position.index}) " ++
        s!"cursor({position.cursor}) filename({path})")
    return position

end Store

end PartitionSnapshot
