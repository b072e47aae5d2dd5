import PartitionSnapshot.Store.Basic

/-!
# Partition metadata

The identity of a partition is replaced as a whole: the new one is written beside the old one and
renamed over it, so a reader finds either and never a part of one.
-/

namespace PartitionSnapshot.Store

/-- The configuration that the content of a metadata file holds. -/
def decodeMetadata (root : Path) (content : Bytes) : Except Error Config := do
  let path := root.join Layout.metadata
  let context : Context := ⟨"loadMetadata", 0⟩
  if content.isEmpty then throw (.corrupt context (.emptyMetadata path))
  match Config.decode root content with
  | .error fault => throw (.corrupt context (.unreadableMetadata path fault))
  | .ok config =>
    match config.check with
    | .error fault =>
      throw (.corrupt { context with partition := config.partition } (.invalidMetadata fault))
    | .ok () => return config

/-- Reads the identity of the partition under a root directory. -/
def loadMetadata (root : Path) : Task Config := do
  let path := root.join Layout.metadata
  let context : Context := ⟨"loadMetadata", 0⟩
  match ← (Procedure.read path : Procedure _) with
  | .error failure =>
    if failure.classify = .notFound then throw (.notFound context path)
    else throw (.storage context (.reading path) failure)
  | .ok content =>
    let config ← Task.ofExcept (decodeMetadata root content) id
    Procedure.log .info
      (s!"loadMetadata: load complete: partitionID({config.partition}) " ++
        s!"volume({config.volume}) range({config.first},{config.last}) cursor({config.first})")
    return config

/-- The store of the partition under a root directory. -/
def «open» (root : Path) (options : Options) : Task Store := do
  let config ← loadMetadata root
  Task.ofExcept (Store.new config options) id

/-- Writes the identity into the staging file and renames it into place. -/
def replaceMetadata (store : Store) (context : Context) (staging target : Path) : Task Unit := do
  Task.ofProcedure (.create staging) (.storage context (.writing staging))
  Task.ofProcedure (.append staging store.config.encode) (.storage context (.writing staging))
  Task.ofProcedure (.sync staging) (.storage context (.syncing staging))
  Task.ofProcedure (.rename staging target) (.storage context (.renaming staging target))

/-- Removes the staging file, if it is still there; a failure is noted and nothing more. -/
def removeStaging (store : Store) (staging : Path) : Procedure Unit := do
  match ← Procedure.removeFile staging with
  | .ok () => return
  | .error failure =>
    if failure.classify ≠ .notFound then
      Procedure.log .warn
        (s!"persistMetadata: remove {staging} failed: " ++
          s!"partitionID({store.config.partition}) err({failure.message})")

/-- Replaces the persisted identity of the partition by that of the store. -/
def persistMetadata (store : Store) : Task Unit := do
  let context := store.context "persistMetadata"
  let config := store.config
  let root := store.root
  Task.ofExcept config.check fun fault => context.wrap (.invalidConfig fault)
  Task.ofProcedure (.makeDirectories root) (.storage context (.creating root))
  let staging := root.join Layout.metadataStaging
  let result ← (store.replaceMetadata context staging (root.join Layout.metadata)).attempt
  store.removeStaging staging
  Task.ofExcept result id
  match ← (Procedure.sync root : Procedure _) with
  | .ok () => pure ()
  | .error failure =>
    Procedure.log .warn
      (s!"persistMetadata: sync dir {root} failed: partitionID({config.partition}) " ++
        s!"err({failure.message})")
  Procedure.log .info
    (s!"persistMetadata: persist complete: {store.label} range({config.first},{config.last})")

end PartitionSnapshot.Store
