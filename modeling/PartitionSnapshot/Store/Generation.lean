import PartitionSnapshot.Store.Load
import PartitionSnapshot.Store.Metadata
import PartitionSnapshot.Store.Save

/-!
# Generations

A new generation is written beside the current one and swapped in by renaming: the current one is
set aside as a backup, the new one takes its place, and the backup is removed. When a swap is
interrupted between the two renamings, the next load puts the backup back.
-/

namespace PartitionSnapshot

/-! ## Results -/

/-- What loading a generation came to. -/
structure LoadStats where
  inodes : Nat
  dentries : Nat
  extendCount : Nat
  multiparts : Nat
  /-- The checksums of the files as they were read. -/
  signs : Signs
  /-- Whether the checksums were compared with recorded ones. -/
  verified : Bool
  deriving DecidableEq, Repr

/-- A partition restored from disk. -/
structure LoadedPartition where
  config : Config
  position : ApplyPosition
  stats : LoadStats
  deriving DecidableEq, Repr

namespace Store

/-! ## Checking -/

/-- Compares checksums with recorded ones, kind by kind. -/
def compareSigns (context : Context) (recorded actual : Signs) : Except Error Unit :=
  Kind.all.forM fun kind =>
    if recorded.get kind = actual.get kind then .ok ()
    else .error (.checksumMismatch context kind.name (recorded.get kind) (actual.get kind))

/-- The checksums that the content of a sign file records. -/
def decodeSigns (context : Context) (path : Path) (content : Bytes) : Except Error Signs :=
  match Bytes.toString? content with
  | none => .error (context.reading (.reading path) .notText)
  | some text =>
    match Signs.parse? text with
    | some signs => .ok signs
    | none => .error (.corrupt context (.unreadableSigns path text))

/-- Compares checksums with those that reading a sign file comes to; without such a file the answer
is no. -/
def judgeSigns (context : Context) (path : Path) (signs : Signs) :
    Except Failure Bytes → Except Error Bool
  | .error failure =>
    if failure.classify = .notFound then .ok false
    else .error (context.reading (.reading path) failure)
  | .ok content => do
    compareSigns context (← decodeSigns context path content) signs
    return true

/-- Compares checksums with those in the sign file of a directory, if there is one. -/
def checkSigns (context : Context) (directory : Path) (signs : Signs) : Task Bool := do
  let path := directory.join Layout.signs
  let answer ← (Procedure.read path : Procedure _)
  Task.ofExcept (judgeSigns context path signs answer) id

/-- The checksum of a file of a kind whose records all decode. -/
def checkContents (context : Context) (kind : Kind) (contents : Contents) :
    Except Error UInt32 := do
  contents.records.forM fun record =>
    (kind.check record).mapError fun fault => .corrupt context (.undecodable kind fault)
  match contents.ending with
  | .ok checksum => return checksum
  | .error (activity, failure) => throw (context.reading activity failure)

/-- Decodes every record of the file of a kind, and gives its checksum. -/
def scan (store : Store) (context : Context) (directory : Path) (kind : Kind) :
    Task UInt32 := do
  match ← store.contents? context directory kind with
  | none => return LoadOutcome.absent.checksum
  | some contents => Task.ofExcept (checkContents context kind contents) id

/-- Recomputes the checksums of the current generation and compares them with the recorded ones.
Every record is decoded, and none is replayed. -/
def verify (store : Store) : Task Signs := do
  let context := store.context "verifySnapshot"
  let directory := store.current
  unless ← (Procedure.hasDirectory directory : Procedure Bool) do
    throw (.notFound context directory)
  let inode ← store.scan context directory .inode
  let dentry ← store.scan context directory .dentry
  let extend ← store.scan context directory .extend
  let multipart ← store.scan context directory .multipart
  let signs : Signs := { inode, dentry, extend, multipart }
  unless ← checkSigns context directory signs do
    throw (.notFound context (directory.join Layout.signs))
  Procedure.log .info
    (s!"verifySnapshot: verify complete: partitionID({store.config.partition}) " ++
      s!"sign({signs.text})")
  return signs

/-! ## Storing -/

/-- Refuses an entity file that would not load back as the source described it. -/
def checkComplete (context : Context) (kind : Kind) (outcome : StoreOutcome) :
    Except Error Unit :=
  if outcome.truncated then
    .error (context.wrap (.source (.stopped kind outcome.records outcome.expected)))
  else if !outcome.complete then
    .error (.corrupt context (.miscounted kind (outcome.count.getD outcome.records)
      outcome.records outcome.expected))
  else .ok ()

/-- Stores one kind of a generation, and records its checksum. -/
def writeKind (store : Store) (context : Context) (directory : Path) (source : Source)
    (signs : Signs) (kind : Kind) : Task Signs := do
  let outcome ← store.storeKind kind directory source
  Task.ofExcept (checkComplete context kind outcome) id
  return signs.set kind outcome.checksum

/-- Notes that a directory could not be forced to stable storage. -/
def syncDirectory (store : Store) (directory : Path) : Procedure Unit := do
  match ← Procedure.sync directory with
  | .ok () => return
  | .error failure =>
    Procedure.log .warn
      (s!"storeSnapshot: sync {directory} failed: partitionID({store.config.partition}) " ++
        s!"err({failure.message})")

/-- Writes the files of a generation into a directory. -/
def writeGeneration (store : Store) (context : Context) (directory : Path) (source : Source)
    (position : ApplyPosition) : Task Signs := do
  let signs ← Kind.all.foldlM (store.writeKind context directory source) {}
  store.storeApply directory position
  writeSmallFile context (directory.join Layout.signs) (Bytes.ofString signs.text)
  store.syncDirectory directory
  return signs

/-- Removes a directory if it is there. -/
def removeIfPresent (path : Path) : Procedure (Except Failure Unit) := do
  match ← Procedure.removeTree path with
  | .ok () => return .ok ()
  | .error failure => return if failure.classify = .notFound then .ok () else .error failure

/-- Notes that a directory of the store could not be removed or put back. -/
def noteFailure (store : Store) (operation verb : String) (path : Path) (failure : Failure) :
    Procedure Unit :=
  Procedure.log .warn
    (s!"{operation}: {verb} {path} failed: partitionID({store.config.partition}) " ++
      s!"err({failure.message})")

/-- Removes a directory, or notes that it could not be removed. -/
def discard (store : Store) (operation : String) (path : Path) : Procedure Unit := do
  match ← Procedure.removeTree path with
  | .ok () => return
  | .error failure => store.noteFailure operation "remove" path failure

/-- Sets the current generation aside as the backup, if there is one, and says whether there was. -/
def setCurrentAside (store : Store) (context : Context) : Task Bool := do
  let hadCurrent ← (Procedure.hasDirectory store.current : Procedure Bool)
  if hadCurrent then
    Task.ofProcedure (.rename store.current store.backup)
      (.storage context (.renaming store.current store.backup))
  return hadCurrent

/-- Puts the backup back in the place of the current generation. -/
def restoreBackup (store : Store) : Procedure Unit := do
  match ← Procedure.rename store.backup store.current with
  | .ok () => return
  | .error failure => store.noteFailure "storeSnapshot" "restore" store.backup failure

/-- Makes the generation in the staging directory the current one. When that is refused, the one
that was set aside is put back. -/
def moveStagingIn (store : Store) (context : Context) (hadCurrent : Bool) : Task Unit := do
  match ← (Procedure.rename store.staging store.current : Procedure _) with
  | .ok () => return
  | .error failure =>
    if hadCurrent then store.restoreBackup
    throw (.storage context (.renaming store.staging store.current) failure)

/-- Removes the backup once it is not needed any more. -/
def removeBackup (store : Store) : Procedure Unit := do
  match ← removeIfPresent store.backup with
  | .ok () => return
  | .error failure => store.noteFailure "storeSnapshot" "remove" store.backup failure

/-- Puts the generation in the staging directory in place of the current one. -/
def swapGeneration (store : Store) (context : Context) : Task Unit := do
  Task.ofProcedure (removeIfPresent store.backup)
    (.storage context (.removingStale store.backup))
  let hadCurrent ← store.setCurrentAside context
  store.moveStagingIn context hadCurrent
  store.syncDirectory store.root
  store.removeBackup

/-- Stores a source as the new generation. When anything fails before the swap, the staging
directory is removed and the current generation stays. -/
def storeSnapshot (store : Store) (source : Source) (position : ApplyPosition) : Task Signs := do
  let context := store.context "storeSnapshot"
  let staging := store.staging
  Task.ofProcedure (removeIfPresent staging) (.storage context (.removingStale staging))
  Task.ofProcedure (.makeDirectories staging) (.storage context (.creating staging))
  match ← (store.writeGeneration context staging source position).attempt with
  | .error error =>
    store.discard "storeSnapshot" staging
    throw error
  | .ok signs =>
    store.swapGeneration context
    Procedure.log .info
      (s!"storeSnapshot: store complete: {store.label} applyID({position.index}) " ++
        s!"cursor({position.cursor}) sign({signs.text})")
    return signs

/-! ## Loading -/

/-- Completes a swap that was interrupted between its two renamings. -/
def recoverGeneration (store : Store) : Task Unit := do
  let context := store.context "recoverSnapshot"
  let current := store.current
  let backup := store.backup
  if ← (Procedure.hasDirectory backup : Procedure Bool) then
    if ← (Procedure.hasDirectory current : Procedure Bool) then
      store.discard "recoverSnapshot" backup
    else
      Task.ofProcedure (.rename backup current) (.storage context (.renaming backup current))
      Procedure.log .warn s!"recoverSnapshot: restored previous generation: {store.label}"

variable {σ : Type} [StateMachine σ]

/-- Compares the checksums of the files that were read with the recorded ones, if the options ask
for it. -/
def verifyFiles (store : Store) (directory : Path) (signs : Signs) : Task Bool :=
  if store.options.verifyChecksums then
    checkSigns (store.context "loadSnapshot") directory signs
  else return false

/-- Loads the entity files of a generation, and gives the cursor beside what that came to. -/
def loadFiles (store : Store) (directory : Path) : Replaying σ (LoadStats × UInt64) := do
  let inode ← store.loadInodes directory store.config.first
  let dentry ← store.loadDentries directory
  let extend ← store.loadExtends directory
  let multipart ← store.loadMultiparts directory
  let signs : Signs := {
    inode := inode.outcome.checksum
    dentry := dentry.checksum
    extend := extend.checksum
    multipart := multipart.checksum }
  let verified ← Replaying.ofTask (store.verifyFiles directory signs)
  return ({
    inodes := inode.outcome.records
    dentries := dentry.records
    extendCount := extend.records
    multiparts := multipart.records
    signs
    verified }, inode.cursor)

/-- Loads the current generation into a state machine. The checksums are compared before the apply
position is written back, so a generation that does not have the recorded ones is left as it is. -/
def loadCurrent (store : Store) : Replaying σ LoadedPartition := do
  let directory := store.current
  let (stats, cursor) ← store.loadFiles directory
  let position ← Replaying.ofTask (store.loadApply directory cursor)
  Replaying.log .info
    (s!"loadSnapshot: load complete: {store.label} applyID({position.index}) " ++
      s!"cursor({position.cursor}) verified({stats.verified})")
  return { config := store.config, position, stats }

/-- Loads the generation that is current once an interrupted swap is settled. -/
def loadGeneration (store : Store) : Replaying σ LoadedPartition := do
  Replaying.ofTask store.recoverGeneration
  store.loadCurrent

/-- Restores the partition under the root directory into a state machine. The identity is read anew
first, and the store has it from then on, whether or not the rest succeeds. -/
def load (store : Store) (state : σ) : Procedure (Except Error LoadedPartition × Store × σ) := do
  match ← (loadMetadata store.root).run with
  | .error error => return (.error error, store, state)
  | .ok config =>
    match store.replaceConfig config with
    | .error error => return (.error error, store, state)
    | .ok store =>
      let (result, state) ← store.loadGeneration.runFrom state
      return (result, store, state)

end Store

end PartitionSnapshot
