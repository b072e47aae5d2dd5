import PartitionSnapshot.Proofs.Evaluation
import PartitionSnapshot.Store.Generation

/-!
# Errors that name their operation

An error tells little unless it says in which operation it arose. Those of a configuration, of a
source, of encoding and of decoding arise without one, and whoever meets them inside an operation
has to name it. Each operation of a store does: whatever the files hold, however the file system
answers, and whatever state machine is driven, no error leaves it without a name.

## Main statements

* `Context.reports_wrap`: what naming the operation does to an error.
* `Task.Named`, `Replaying.Named`: all errors of a task name an operation.
* `Store.named_storeKind`, `Store.named_storeSnapshot`: those of storing do.
* `Store.named_load`, `Store.named_verify`: those of loading and of verifying do.
-/

namespace PartitionSnapshot

variable {α β σ : Type}

/-! ## Naming an operation -/

namespace Context

/-- What an operation makes of an error that it meets. The class stays; an error that names an
operation stays as it is, and another one is put inside the operation, once. -/
structure Reports (context : Context) (error reported : Error) : Prop where
  classify : reported.classify = error.classify
  same : error.hasContext = true → reported = error
  within : error.hasContext = false → reported = .within context error

theorem reports_wrap (context : Context) (error : Error) :
    context.Reports error (context.wrap error) := by
  unfold wrap
  cases h : error.hasContext with
  | true => exact ⟨rfl, fun _ => rfl, fun hnot => absurd (h.symm.trans hnot) (by decide)⟩
  | false => exact ⟨rfl, fun hnot => absurd (h.symm.trans hnot) (by decide), fun _ => rfl⟩

@[simp] theorem hasContext_wrap (context : Context) (error : Error) :
    (context.wrap error).hasContext = true := by
  unfold wrap
  split
  · assumption
  · rfl

/-- An operation is named once. -/
theorem wrap_wrap (context : Context) (error : Error) :
    context.wrap (context.wrap error) = context.wrap error :=
  if_pos (context.hasContext_wrap error)

@[simp] theorem hasContext_reading (context : Context) (activity : Activity) (failure : Failure) :
    (context.reading activity failure).hasContext = true := by
  unfold reading
  split <;> rfl

end Context

/-! ## Results -/

/-- The result is no error, or one that names an operation. -/
def NamedResult : Except Error α → Prop
  | .ok _ => True
  | .error error => error.hasContext = true

theorem namedResult_ok (value : α) : NamedResult (.ok value) := trivial

theorem namedResult_error {error : Error} (h : error.hasContext = true) :
    NamedResult (.error error : Except Error α) :=
  h

theorem NamedResult.bind {result : Except Error α} {next : α → Except Error β}
    (h : NamedResult result) (hnext : ∀ value, NamedResult (next value)) :
    NamedResult (result >>= next) := by
  cases result with
  | ok value => exact hnext value
  | error error => exact h

theorem namedResult_mapError {ε : Type} (result : Except ε α) {toError : ε → Error}
    (h : ∀ fault, (toError fault).hasContext = true) : NamedResult (result.mapError toError) := by
  cases result with
  | ok value => exact namedResult_ok value
  | error fault => exact namedResult_error (h fault)

/-- A check of each item of a list gives out the errors of the single checks. -/
theorem namedResult_forM {ι : Type} {check : ι → Except Error Unit}
    (h : ∀ item, NamedResult (check item)) (items : List ι) : NamedResult (items.forM check) := by
  induction items with
  | nil => exact namedResult_ok ()
  | cons item items ih => exact (h item).bind fun _ => ih

/-! ## Procedures -/

namespace Procedure

/-- However its requests are answered, the procedure ends in a value of the kind given. -/
def Ends (good : α → Prop) : Procedure α → Prop
  | .done value => good value
  | .note _ rest => rest.Ends good
  | .step _ next => ∀ answer, (next answer).Ends good

variable {good : α → Prop} {procedure : Procedure α}

theorem ends_of_forall (procedure : Procedure α) (h : ∀ value, good value) :
    procedure.Ends good := by
  induction procedure with
  | done value => exact h value
  | note entry rest ih => exact ih
  | step request next ih => exact fun answer => ih answer

theorem Ends.bind {later : β → Prop} {next : α → Procedure β} (h : procedure.Ends good)
    (hnext : ∀ value, good value → (next value).Ends later) : (procedure >>= next).Ends later := by
  -- along the first part
  induction procedure with
  | done value => exact hnext value h
  | note entry rest ih => exact ih h
  | step request rest ih => exact fun answer => ih answer (h answer)

theorem Ends.eval (h : procedure.Ends good) (tree : FileTree) : good (procedure.eval tree).1 := by
  induction procedure generalizing tree with
  | done value => exact h
  | note entry rest ih => exact ih h tree
  | step request next ih => exact ih _ (h _) _

end Procedure

/-! ## Tasks -/

namespace Task

/-- However the file system answers, an error in which the task ends names an operation. -/
structure Named (task : Task α) : Prop where
  ends : Procedure.Ends NamedResult task.run

theorem named_pure (value : α) : Task.Named (pure value) := ⟨namedResult_ok value⟩

theorem named_throw {error : Error} (h : error.hasContext = true) :
    Task.Named (throw error : Task α) :=
  ⟨h⟩

/-- What would come after an error does not matter. -/
theorem named_throw_bind {error : Error} (h : error.hasContext = true) (next : α → Task β) :
    Task.Named ((throw error : Task α) >>= next) :=
  ⟨h⟩

theorem named_lift (procedure : Procedure α) : Task.Named (liftM procedure : Task α) :=
  ⟨(procedure.ends_of_forall fun _ => trivial : procedure.Ends fun _ => True).bind
    fun value _ => namedResult_ok value⟩

theorem named_ofProcedure (procedure : Procedure (Except Failure α)) {toError : Failure → Error}
    (h : ∀ failure, (toError failure).hasContext = true) :
    Task.Named (Task.ofProcedure procedure toError) :=
  ⟨(procedure.ends_of_forall fun _ => trivial : procedure.Ends fun _ => True).bind
    fun result _ => by
      cases result with
      | ok value => exact namedResult_ok value
      | error failure => exact namedResult_error (h failure)⟩

theorem named_ofExcept {ε : Type} (result : Except ε α) {toError : ε → Error}
    (h : ∀ fault, (toError fault).hasContext = true) :
    Task.Named (Task.ofExcept result toError) :=
  ⟨namedResult_mapError result h⟩

theorem named_ofResult {result : Except Error α} (h : NamedResult result) :
    Task.Named (Task.ofExcept result id) := by
  cases result with
  | ok value => exact ⟨namedResult_ok value⟩
  | error error => exact ⟨h⟩

theorem Named.bind {task : Task α} {next : α → Task β} (h : Task.Named task)
    (hnext : ∀ value, Task.Named (next value)) : Task.Named (task >>= next) :=
  ⟨h.ends.bind fun result hresult => by
    cases result with
    | ok value => exact (hnext value).ends
    | error error => exact hresult⟩

/-- What goes on with the result of an attempt may rely on its error having a name. -/
theorem Named.bind_attempt {task : Task α} {next : Except Error α → Task β} (h : Task.Named task)
    (hnext : ∀ result, NamedResult result → Task.Named (next result)) :
    Task.Named (task.attempt >>= next) := by
  have hattempt : Procedure.Ends (fun result : Except Error (Except Error α) =>
      ∃ inner, result = .ok inner ∧ NamedResult inner) task.attempt.run :=
    h.ends.bind fun inner hinner => ⟨inner, rfl, hinner⟩
  refine ⟨hattempt.bind fun result hresult => ?_⟩
  obtain ⟨inner, rfl, hinner⟩ := hresult
  exact (hnext inner hinner).ends

theorem named_foldlM {ι : Type} {step : α → ι → Task α}
    (h : ∀ value item, Task.Named (step value item)) (items : List ι) (value : α) :
    Task.Named (items.foldlM step value) := by
  induction items generalizing value with
  | nil => exact named_pure value
  | cons item items ih => exact (h value item).bind fun value => ih value

/-- On a file tree, too, an error in which the task ends names an operation. -/
theorem Named.hasContext {task : Task α} (h : Task.Named task) {tree after : FileTree}
    {error : Error} (heval : Task.eval tree task = (.error error, after)) :
    error.hasContext = true := by
  have hnamed : NamedResult (Task.eval tree task).1 := h.ends.eval tree
  rw [heval] at hnamed
  exact hnamed

/-- A note at the end adds no error. -/
theorem Named.noted {task : Task α} (h : Task.Named task) (level : Level) (text : α → String) :
    Task.Named (do
      let value ← task
      Procedure.log level (text value)
      return value) :=
  h.bind fun _ => (named_lift _).bind fun _ => named_pure _

end Task

/-! ## Tasks over a state machine -/

namespace Replaying

/-- However the file system answers, and whatever the state, an error in which the task ends names
an operation. -/
structure Named (task : Replaying σ α) : Prop where
  ends : ∀ state, (task.runFrom state).Ends fun result => NamedResult result.1

theorem named_pure (value : α) : Replaying.Named (pure value : Replaying σ α) :=
  ⟨fun _ => namedResult_ok value⟩

theorem Named.bind {task : Replaying σ α} {next : α → Replaying σ β} (h : Replaying.Named task)
    (hnext : ∀ value, Replaying.Named (next value)) : Replaying.Named (task >>= next) :=
  ⟨fun state => (h.ends state).bind fun result hresult => by
    obtain ⟨error | value, state⟩ := result
    · exact hresult
    · exact (hnext value).ends state⟩

theorem named_ofTask {task : Task α} (h : Task.Named task) :
    Replaying.Named (Replaying.ofTask task : Replaying σ α) :=
  ⟨fun _ => h.ends.bind fun _ hresult => hresult⟩

theorem named_log (level : Level) (text : String) :
    Replaying.Named (Replaying.log level text : Replaying σ Unit) :=
  named_ofTask (Task.named_lift _)

/-- A note at the end, if there is a file, adds no error. -/
theorem Named.noted {task : Replaying σ LoadOutcome} (h : Replaying.Named task)
    (text : LoadOutcome → String) :
    Replaying.Named (do
      let outcome ← task
      if outcome.present then
        Replaying.log .info (text outcome)
      return outcome) := by
  refine h.bind fun outcome => ?_
  split
  · exact (named_log _ _).bind fun _ => named_pure _
  · exact named_pure _

/-- Handing over records one after the other gives out the errors of the single records. -/
theorem namedResult_each {handle : Bytes → σ → Handled σ}
    (h : ∀ record state, NamedResult (handle record state).result) (state : σ)
    (records : List Bytes) : NamedResult (Handled.each handle state records).result := by
  induction records generalizing state with
  | nil => exact namedResult_ok ()
  | cons record records ih =>
    have hfirst := h record state
    unfold Handled.each
    dsimp only
    split
    · exact hfirst
    · exact ih _

theorem named_ofContents (contents : Contents) (context : Context) {handle : Bytes → σ → Handled σ}
    (h : ∀ record state, NamedResult (handle record state).result) :
    Replaying.Named (Replaying.ofContents contents context handle) := by
  refine ⟨fun state => Procedure.Ends.bind (Procedure.ends_of_forall _ fun _ => trivial :
    (logAll (contents.replay context handle state).2.2).Ends fun _ => True) fun _ _ => ?_⟩
  -- a record that is not taken in, or data that end where they must not
  refine (namedResult_each h state contents.records).bind fun _ => ?_
  cases contents.ending with
  | ok checksum => exact namedResult_ok _
  | error reason => exact namedResult_error (Context.hasContext_reading context _ _)

theorem named_withCursor {cursor : UInt64} {task : Replaying (UInt64 × σ) α}
    (h : Replaying.Named task) : Replaying.Named (Store.withCursor cursor task) :=
  ⟨fun state => (h.ends (cursor, state)).bind fun result hresult => by
    obtain ⟨error | value, state⟩ := result
    · exact hresult
    · exact namedResult_ok (value, state.1)⟩

end Replaying

namespace Store

/-! ## Opening -/

theorem named_new (config : Config) (options : Options) :
    NamedResult (Store.new config options) := by
  unfold Store.new
  split
  · exact namedResult_ok _
  · exact namedResult_error (Context.hasContext_wrap _ _)

theorem named_replaceConfig (store : Store) (config : Config) :
    NamedResult (store.replaceConfig config) := by
  unfold replaceConfig
  split
  · exact namedResult_ok _
  · exact namedResult_error (Context.hasContext_wrap _ _)

theorem named_decodeMetadata (root : Path) (content : Bytes) :
    NamedResult (decodeMetadata root content) := by
  unfold decodeMetadata
  dsimp only
  split
  · exact namedResult_error rfl
  · -- a document that is none, a configuration that is refused, or one that is not
    cases Config.decode root content with
    | error fault => exact namedResult_error rfl
    | ok config =>
      dsimp only
      split
      · exact namedResult_error rfl
      · exact namedResult_ok _

theorem named_loadMetadata (root : Path) : Task.Named (loadMetadata root) := by
  unfold loadMetadata
  refine (Task.named_lift _).bind fun answer => ?_
  cases answer with
  | error failure =>
    dsimp only
    split
    · exact Task.named_throw rfl
    · exact Task.named_throw rfl
  | ok content =>
    refine (Task.named_ofResult (named_decodeMetadata root content)).bind fun config => ?_
    exact (Task.named_lift _).bind fun _ => Task.named_pure _

theorem named_open (root : Path) (options : Options) : Task.Named (Store.open root options) :=
  (named_loadMetadata root).bind fun config =>
    Task.named_ofResult (named_new config options)

theorem named_persistMetadata (store : Store) : Task.Named store.persistMetadata := by
  unfold persistMetadata
  refine (Task.named_ofExcept _ fun _ => Context.hasContext_wrap _ _).bind fun _ => ?_
  refine (Task.named_ofProcedure _ fun _ => rfl).bind fun _ => ?_
  have hreplace : Task.Named (store.replaceMetadata (store.context "persistMetadata")
      (store.root.join Layout.metadataStaging) (store.root.join Layout.metadata)) :=
    (Task.named_ofProcedure _ fun _ => rfl).bind fun _ =>
      (Task.named_ofProcedure _ fun _ => rfl).bind fun _ =>
        (Task.named_ofProcedure _ fun _ => rfl).bind fun _ =>
          Task.named_ofProcedure _ fun _ => rfl
  refine hreplace.bind_attempt fun result hresult => ?_
  refine (Task.named_lift _).bind fun _ => (Task.named_ofResult hresult).bind fun _ => ?_
  refine (Task.named_lift _).bind fun answer => ?_
  -- a directory that is not forced to storage is only noted
  cases answer with
  | ok _ => exact (Task.named_pure _).bind fun _ => Task.named_lift _
  | error failure => exact (Task.named_lift _).bind fun _ => Task.named_lift _

/-! ## Storing -/

theorem named_writeSmallFile (context : Context) (path : Path) (data : Bytes) :
    Task.Named (writeSmallFile context path data) :=
  (Task.named_ofProcedure _ fun _ => rfl).bind fun _ =>
    (Task.named_ofProcedure _ fun _ => rfl).bind fun _ => Task.named_ofProcedure _ fun _ => rfl

theorem named_storeApply (store : Store) (directory : Path) (position : ApplyPosition) :
    Task.Named (store.storeApply directory position) :=
  (named_writeSmallFile _ _ _).bind fun _ => Task.named_lift _

/-- Whatever is met while the records are written, the operation is named in the end. -/
theorem named_saveKind (store : Store) (context : Context) (directory : Path) (kind : Kind)
    (framing : Framing) (source : Source) (count : Option UInt64) (write : RecordWriter) :
    Task.Named (store.saveKind context directory kind framing source count write) := by
  refine (Task.named_ofExcept _ fun _ => Context.hasContext_wrap _ _).bind fun expected => ?_
  refine (Task.named_ofProcedure _ fun _ => rfl).bind fun _ => ?_
  refine (Task.named_ofExcept _ fun _ => rfl).bind fun writer => ?_
  refine (Task.named_ofProcedure _ fun _ => rfl).bind fun _ => ?_
  split
  · exact (Task.named_lift _).bind fun _ => Task.named_throw (Context.hasContext_wrap _ _)
  · exact (Task.named_ofProcedure _ fun _ => rfl).bind fun _ => Task.named_pure _

theorem named_storeKind (store : Store) (kind : Kind) (directory : Path) (source : Source) :
    Task.Named (store.storeKind kind directory source) := by
  have hcount (count : Except Error UInt64) (context : Context) :
      Task.Named (Task.ofExcept count context.wrap) :=
    Task.named_ofExcept _ fun _ => Context.hasContext_wrap _ _
  have hsave (context : Context) (framing : Framing) (count : Option UInt64)
      (write : RecordWriter) (text : StoreOutcome → String) : Task.Named (do
        let outcome ← store.saveKind context directory kind framing source count write
        Procedure.log .info (text outcome)
        return outcome) :=
    (named_saveKind store context directory kind framing source count write).noted _ text
  -- the kinds differ in the count at the head of the file
  cases kind with
  | inode => exact hsave _ _ _ _ _
  | dentry => exact hsave _ _ _ _ _
  | extend => exact (hcount _ _).bind fun _ => hsave _ _ _ _ _
  | multipart => exact (hcount _ _).bind fun _ => hsave _ _ _ _ _

theorem named_checkComplete (context : Context) (kind : Kind) (outcome : StoreOutcome) :
    NamedResult (checkComplete context kind outcome) := by
  unfold checkComplete
  split
  · exact namedResult_error (Context.hasContext_wrap _ _)
  · split
    · exact namedResult_error rfl
    · exact namedResult_ok _

theorem named_writeGeneration (store : Store) (context : Context) (directory : Path)
    (source : Source) (position : ApplyPosition) :
    Task.Named (store.writeGeneration context directory source position) := by
  have hkind (signs : Signs) (kind : Kind) :
      Task.Named (store.writeKind context directory source signs kind) :=
    (named_storeKind store kind directory source).bind fun outcome =>
      (Task.named_ofResult (named_checkComplete context kind outcome)).bind fun _ =>
        Task.named_pure _
  refine (Task.named_foldlM hkind Kind.all {}).bind fun signs => ?_
  refine (named_storeApply store directory position).bind fun _ => ?_
  refine (named_writeSmallFile _ _ _).bind fun _ => ?_
  exact (Task.named_lift _).bind fun _ => Task.named_pure _

theorem named_swapGeneration (store : Store) (context : Context) :
    Task.Named (store.swapGeneration context) := by
  have haside : Task.Named (store.setCurrentAside context) := by
    refine (Task.named_lift _).bind fun hadCurrent => ?_
    dsimp only
    split
    · exact (Task.named_ofProcedure _ fun _ => rfl).bind fun _ => Task.named_pure _
    · exact Task.named_pure _
  have hmove (hadCurrent : Bool) : Task.Named (store.moveStagingIn context hadCurrent) := by
    refine (Task.named_lift _).bind fun answer => ?_
    cases answer with
    | ok _ => exact Task.named_pure _
    | error failure =>
      -- whether or not the backup is put back, the error is that of the swap
      dsimp only
      split
      · exact (Task.named_lift _).bind fun _ => Task.named_throw rfl
      · exact Task.named_throw rfl
  refine (Task.named_ofProcedure _ fun _ => rfl).bind fun _ => ?_
  refine haside.bind fun hadCurrent => (hmove hadCurrent).bind fun _ => ?_
  exact (Task.named_lift _).bind fun _ => Task.named_lift _

theorem named_storeSnapshot (store : Store) (source : Source) (position : ApplyPosition) :
    Task.Named (store.storeSnapshot source position) := by
  refine (Task.named_ofProcedure _ fun _ => rfl).bind fun _ => ?_
  refine (Task.named_ofProcedure _ fun _ => rfl).bind fun _ => ?_
  refine (named_writeGeneration ..).bind_attempt fun result hresult => ?_
  cases result with
  | error error => exact (Task.named_lift _).bind fun _ => Task.named_throw hresult
  | ok signs =>
    exact (named_swapGeneration _ _).bind fun _ =>
      (Task.named_lift _).bind fun _ => Task.named_pure _

/-! ## Reading and verifying -/

theorem named_contentsOf (store : Store) (context : Context) (path : Path) (kind : Kind)
    (answer : Except Failure Bytes) : NamedResult (store.contentsOf context path kind answer) := by
  cases answer with
  | ok content => exact namedResult_ok _
  | error failure =>
    simp only [contentsOf]
    -- no file, a directory that cannot be mapped, one that can be opened, any other failure
    by_cases hnotFound : failure.classify = .notFound
    · rw [if_pos hnotFound]
      exact namedResult_ok _
    rw [if_neg hnotFound]
    by_cases hdirectory : failure = .system .isDirectory
    · rw [if_pos hdirectory]
      cases store.options.readStrategy kind with
      | mapped => exact namedResult_error rfl
      | buffered => exact namedResult_ok _
    · rw [if_neg hdirectory]
      exact namedResult_error rfl

theorem named_contents? (store : Store) (context : Context) (directory : Path) (kind : Kind) :
    Task.Named (store.contents? context directory kind) :=
  (Task.named_lift _).bind fun _ => Task.named_ofResult (named_contentsOf ..)

theorem named_judgeSigns (context : Context) (path : Path) (signs : Signs)
    (answer : Except Failure Bytes) : NamedResult (judgeSigns context path signs answer) := by
  cases answer with
  | error failure =>
    simp only [judgeSigns]
    split
    · exact namedResult_ok _
    · exact namedResult_error (Context.hasContext_reading _ _ _)
  | ok content =>
    have hdecode : NamedResult (decodeSigns context path content) := by
      unfold decodeSigns
      split
      · exact namedResult_error (Context.hasContext_reading _ _ _)
      · split
        · exact namedResult_ok _
        · exact namedResult_error rfl
    have hcompare (recorded : Signs) : NamedResult (compareSigns context recorded signs) := by
      refine namedResult_forM (fun kind => ?_) _
      split
      · exact namedResult_ok ()
      · exact namedResult_error rfl
    exact hdecode.bind fun recorded => (hcompare recorded).bind fun _ => namedResult_ok _

theorem named_checkSigns (context : Context) (directory : Path) (signs : Signs) :
    Task.Named (checkSigns context directory signs) :=
  (Task.named_lift _).bind fun _ => Task.named_ofResult (named_judgeSigns ..)

theorem named_scan (store : Store) (context : Context) (directory : Path) (kind : Kind) :
    Task.Named (store.scan context directory kind) := by
  refine (named_contents? ..).bind fun contents => ?_
  cases contents with
  | none => exact Task.named_pure _
  | some contents =>
    have hrecords : NamedResult (contents.records.forM fun record =>
        (kind.check record).mapError fun fault => .corrupt context (.undecodable kind fault)) :=
      namedResult_forM (fun record => namedResult_mapError _ fun _ => rfl) _
    refine Task.named_ofResult (hrecords.bind fun _ => ?_)
    cases contents.ending with
    | ok checksum => exact namedResult_ok _
    | error reason => exact namedResult_error (Context.hasContext_reading _ _ _)

theorem named_verify (store : Store) : Task.Named store.verify := by
  have hscan := named_scan store (store.context "verifySnapshot") store.current
  refine (Task.named_lift _).bind fun present => ?_
  dsimp only
  split
  · refine (hscan _).bind fun _ => (hscan _).bind fun _ => (hscan _).bind fun _ =>
      (hscan _).bind fun _ => (named_checkSigns ..).bind fun recorded => ?_
    split
    · exact (Task.named_lift _).bind fun _ => Task.named_pure _
    · exact Task.named_throw_bind rfl _
  · exact Task.named_throw_bind rfl _

/-! ## Loading -/

theorem named_decodeApply (context : Context) (content : Bytes) :
    NamedResult (decodeApply context content) := by
  unfold decodeApply
  dsimp only
  split
  · exact namedResult_error rfl
  · cases Utf8.decode content with
    | error fault => exact namedResult_error rfl
    | ok text =>
      dsimp only
      cases ApplyPosition.parse? text with
      | none => exact namedResult_error rfl
      | some parsed => exact namedResult_ok parsed

theorem named_loadApply (store : Store) (directory : Path) (cursor : UInt64) :
    Task.Named (store.loadApply directory cursor) := by
  refine (Task.named_lift _).bind fun answer => ?_
  cases answer with
  | error failure =>
    dsimp only
    split
    · exact Task.named_pure _
    · exact Task.named_throw rfl
  | ok content =>
    refine (Task.named_ofResult (named_decodeApply _ content)).bind fun parsed => ?_
    exact (named_storeApply ..).bind fun _ => (Task.named_lift _).bind fun _ => Task.named_pure _

theorem named_recoverGeneration (store : Store) : Task.Named store.recoverGeneration := by
  refine (Task.named_lift _).bind fun backed => ?_
  cases backed with
  | false => exact Task.named_pure _
  | true =>
    refine (Task.named_lift _).bind fun present => ?_
    cases present with
    | true => exact Task.named_lift _
    | false => exact (Task.named_ofProcedure _ fun _ => rfl).bind fun _ => Task.named_lift _

theorem named_loadKind (store : Store) (context : Context) (directory : Path) (kind : Kind)
    {handle : Bytes → σ → Handled σ}
    (h : ∀ record state, NamedResult (handle record state).result) :
    Replaying.Named (store.loadKind context directory kind handle) := by
  refine (Replaying.named_ofTask (named_contents? ..)).bind fun contents => ?_
  cases contents with
  | none => exact Replaying.named_pure _
  | some contents => exact Replaying.named_ofContents contents context h

section

variable [StateMachine σ]

theorem named_loadInodes (store : Store) (directory : Path) (cursor : UInt64) :
    Replaying.Named (store.loadInodes directory cursor : Replaying σ InodeLoad) := by
  have hhandle (record : Bytes) (state : UInt64 × σ) :
      NamedResult (handleInode store.config (store.context "loadInode") record state).result := by
    unfold handleInode
    split
    · exact namedResult_error rfl
    · split
      · exact namedResult_ok ()
      · exact namedResult_error rfl
  refine (Replaying.named_withCursor (named_loadKind store _ _ _ hhandle)).bind fun result => ?_
  dsimp only
  split
  · exact (Replaying.named_log _ _).bind fun _ => Replaying.named_pure _
  · exact (Replaying.named_pure _).bind fun _ => Replaying.named_pure _

theorem named_loadDentries (store : Store) (directory : Path) :
    Replaying.Named (store.loadDentries directory : Replaying σ LoadOutcome) := by
  have hhandle (record : Bytes) (state : σ) :
      NamedResult (handleDentry (store.context "loadDentry") record state).result := by
    unfold handleDentry
    split
    · exact namedResult_error rfl
    · split
      · exact namedResult_ok ()
      · exact namedResult_error rfl
  exact (named_loadKind store _ directory .dentry hhandle).noted _

theorem named_loadExtends (store : Store) (directory : Path) :
    Replaying.Named (store.loadExtends directory : Replaying σ LoadOutcome) := by
  have hhandle (record : Bytes) (state : σ) :
      NamedResult (store.handleExtend (store.context "loadExtend") record state).result := by
    unfold handleExtend
    split
    · exact namedResult_error rfl
    · -- an error of the state machine is a refusal, whatever it is
      dsimp only
      split
      · exact namedResult_ok ()
      · exact namedResult_error rfl
  exact (named_loadKind store _ directory .extend hhandle).noted _

theorem named_loadMultiparts (store : Store) (directory : Path) :
    Replaying.Named (store.loadMultiparts directory : Replaying σ LoadOutcome) := by
  have hhandle (record : Bytes) (state : σ) :
      NamedResult (store.handleMultipart (store.context "loadMultipart") record state).result := by
    unfold handleMultipart
    split
    · exact namedResult_error rfl
    · exact namedResult_ok ()
  exact (named_loadKind store _ directory .multipart hhandle).noted _

theorem named_loadGeneration (store : Store) :
    Replaying.Named (store.loadGeneration : Replaying σ LoadedPartition) := by
  have hfiles (directory : Path) :
      Replaying.Named (store.loadFiles directory : Replaying σ (LoadStats × UInt64)) := by
    refine (named_loadInodes ..).bind fun _ => (named_loadDentries ..).bind fun _ => ?_
    refine (named_loadExtends ..).bind fun _ => (named_loadMultiparts ..).bind fun _ => ?_
    have hverify (signs : Signs) : Task.Named (store.verifyFiles directory signs) := by
      unfold verifyFiles
      split
      · exact named_checkSigns ..
      · exact Task.named_pure _
    exact (Replaying.named_ofTask (hverify _)).bind fun _ => Replaying.named_pure _
  refine (Replaying.named_ofTask (named_recoverGeneration store)).bind fun _ => ?_
  refine (hfiles _).bind fun loaded => ?_
  refine (Replaying.named_ofTask (named_loadApply ..)).bind fun _ => ?_
  exact (Replaying.named_log _ _).bind fun _ => Replaying.named_pure _

/-- Loading names the operation in all its errors: those of the identity, of an identity that is not
valid, and of the generation. -/
theorem named_load (store : Store) (state : σ) :
    (store.load state).Ends fun result => NamedResult result.1 := by
  unfold load
  refine (named_loadMetadata store.root).ends.bind fun result hresult => ?_
  cases result with
  | error error => exact hresult
  | ok config =>
    dsimp only
    cases hreplace : store.replaceConfig config with
    | error error =>
      have hnamed := named_replaceConfig store config
      rw [hreplace] at hnamed
      exact hnamed
    | ok store => exact ((named_loadGeneration store).ends state).bind fun _ h => h

end

end Store

end PartitionSnapshot
