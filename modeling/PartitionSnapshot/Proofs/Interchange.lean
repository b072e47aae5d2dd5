import PartitionSnapshot.Proofs.Verifying

/-!
# Read strategies are interchangeable

How an entity file is read, mapped or through a buffer of whatever size, decides nothing that a
caller sees. Loading a file and verifying a generation come to the same under any options whose
buffers take in a byte: the same outcome, cursor and checksums, or the same error, and the state
machine goes through the same states. As this holds for every state machine, it holds for one that
keeps a journal, so the calls are the same as well.

A directory in the place of an entity file is an exception, because it can be opened for buffered
reading and cannot be mapped.

## Main statements

* `Store.congr_contentsOf`: what is made of a file does not depend on the options.
* `Store.strategies_interchangeable`: neither do loading and verification.
-/

namespace PartitionSnapshot

/-! ## Files in their places -/

namespace FileTree

/-- No directory stands in the place of an entity file, which is absent or a file. -/
def HoldsFiles (tree : FileTree) (directory : Path) : Prop :=
  ∀ kind, tree.hasDirectory (Layout.entityFile directory kind) = false

theorem HoldsFiles.read {tree : FileTree} {directory : Path} (h : tree.HoldsFiles directory)
    (kind : Kind) :
    tree.read (Layout.entityFile directory kind) ≠ .error (.system .isDirectory) :=
  fun hread => Bool.false_ne_true ((h kind).symm.trans (hasDirectory_of_read hread))

end FileTree

/-! ## Using contents that are alike -/

namespace Contents

variable {contents contents' : Contents}

/-- An operation that reads contents that are alike reads the same ones, or is stopped behind the
same records and comes to the same error. -/
theorem Alike.eq_or_stopped (h : contents.Alike contents') (context : Context) :
    contents = contents' ∨ ∃ records stop stop', contents = ⟨records, .error stop⟩ ∧
      contents' = ⟨records, .error stop'⟩ ∧
      context.reading stop.1 stop.2 = context.reading stop'.1 stop'.2 := by
  obtain ⟨records, ending⟩ := contents
  obtain ⟨records', ending'⟩ := contents'
  obtain ⟨rfl, hresult⟩ := h
  have hresult := hresult context
  cases ending with
  | ok checksum =>
    cases ending' with
    | ok checksum' =>
      cases hresult
      exact .inl rfl
    | error stop' => cases hresult
  | error stop =>
    cases ending' with
    | ok checksum' => cases hresult
    | error stop' => exact .inr ⟨_, stop, stop', rfl, rfl, Except.error.inj hresult⟩

/-- Replaying tells no difference between contents that are alike. -/
theorem Alike.replay {τ : Type} (h : contents.Alike contents') (context : Context)
    (handle : Bytes → τ → Handled τ) (state : τ) :
    contents.replay context handle state = contents'.replay context handle state := by
  rcases h.eq_or_stopped context with rfl | ⟨records, stop, stop', rfl, rfl, herror⟩
  · rfl
  · simp only [Contents.replay, herror]

/-- Neither does checking them. -/
theorem Alike.checkContents (h : contents.Alike contents') (context : Context) (kind : Kind) :
    Store.checkContents context kind contents = Store.checkContents context kind contents' := by
  rcases h.eq_or_stopped context with rfl | ⟨records, stop, stop', rfl, rfl, herror⟩
  · rfl
  · simp only [Store.checkContents, herror]

end Contents

namespace Store

variable {store store' : Store} {tree : FileTree} {directory : Path} {context : Context}
variable {kind : Kind}

/-! ## Stores that differ in their options -/

/-- Whatever is made of the contents of a file, and tells no difference between alike ones, comes to
the same under any options. -/
theorem congr_contentsOf {β : Type} (hbuffer : 1 ≤ store.options.readBuffer)
    (hbuffer' : 1 ≤ store'.options.readBuffer) {path : Path} {answer : Except Failure Bytes}
    (hanswer : answer ≠ .error (.system .isDirectory))
    (use : Except Error (Option Contents) → β)
    (huse : ∀ contents contents' : Contents, contents.Alike contents' →
      use (.ok (some contents)) = use (.ok (some contents'))) :
    use (store.contentsOf context path kind answer) =
      use (store'.contentsOf context path kind answer) := by
  cases answer with
  | ok content =>
    exact huse _ _ (Contents.alike_ofKind (alike_source hbuffer hbuffer' kind content) kind)
  | error failure =>
    -- without a file there is nothing to read, and the options have no part in that
    have hfailure : failure ≠ .system .isDirectory := fun h => hanswer (h ▸ rfl)
    simp only [contentsOf, if_neg hfailure]

theorem replayed_congr {τ : Type} (hbuffer : 1 ≤ store.options.readBuffer)
    (hbuffer' : 1 ≤ store'.options.readBuffer) (hfiles : tree.HoldsFiles directory)
    (context : Context) (kind : Kind) (handle : Bytes → τ → Handled τ) (state : τ) :
    replayed context handle state (store.contentsOf context (Layout.entityFile directory kind) kind
        (tree.read (Layout.entityFile directory kind))) =
      replayed context handle state
        (store'.contentsOf context (Layout.entityFile directory kind) kind
          (tree.read (Layout.entityFile directory kind))) :=
  congr_contentsOf hbuffer hbuffer' (hfiles.read kind) (replayed context handle state)
    fun contents contents' halike => by simp only [replayed, halike.replay]

theorem loadKind_congr {τ : Type} (hbuffer : 1 ≤ store.options.readBuffer)
    (hbuffer' : 1 ≤ store'.options.readBuffer) (hfiles : tree.HoldsFiles directory)
    (context : Context) (kind : Kind) (handle : Bytes → τ → Handled τ) (state : τ) :
    Replaying.eval tree state (store.loadKind context directory kind handle) =
      Replaying.eval tree state (store'.loadKind context directory kind handle) := by
  rw [loadKind_eval, loadKind_eval, replayed_congr hbuffer hbuffer' hfiles]

/-- What scanning a file comes to, from the contents that were found in it. -/
def scanned (context : Context) (kind : Kind) : Except Error (Option Contents) → Except Error UInt32
  | .error error => .error error
  | .ok none => .ok LoadOutcome.absent.checksum
  | .ok (some contents) => checkContents context kind contents

theorem scan_eval (store : Store) (tree : FileTree) (context : Context) (directory : Path)
    (kind : Kind) :
    Task.eval tree (store.scan context directory kind) =
      (scanned context kind (store.contentsOf context (Layout.entityFile directory kind) kind
        (tree.read (Layout.entityFile directory kind))), tree) := by
  unfold scan
  rw [Task.eval_bind, contents?_eval]
  rcases store.contentsOf context (Layout.entityFile directory kind) kind
    (tree.read (Layout.entityFile directory kind)) with error | contents
  · rfl
  · cases contents with
    | none => rfl
    | some contents => exact congrArg (·, tree) (mapError_id _)

theorem scan_congr (hbuffer : 1 ≤ store.options.readBuffer)
    (hbuffer' : 1 ≤ store'.options.readBuffer) (hfiles : tree.HoldsFiles directory)
    (context : Context) (kind : Kind) :
    Task.eval tree (store.scan context directory kind) =
      Task.eval tree (store'.scan context directory kind) := by
  rw [scan_eval, scan_eval]
  exact congrArg (·, tree) (congr_contentsOf hbuffer hbuffer' (hfiles.read kind)
    (scanned context kind) fun _ _ halike => halike.checkContents context kind)

/-- What follows a scan comes to the same under any options when it does so for every checksum. -/
theorem scan_bind_congr {α : Type} (hbuffer : 1 ≤ store.options.readBuffer)
    (hbuffer' : 1 ≤ store'.options.readBuffer) (hfiles : tree.HoldsFiles directory)
    {next next' : UInt32 → Task α}
    (hnext : ∀ checksum, Task.eval tree (next checksum) = Task.eval tree (next' checksum)) :
    Task.eval tree (store.scan context directory kind >>= next) =
      Task.eval tree (store'.scan context directory kind >>= next') := by
  rw [Task.eval_bind, Task.eval_bind, scan_congr hbuffer hbuffer' hfiles, scan_eval]
  rcases scanned context kind (store'.contentsOf context (Layout.entityFile directory kind) kind
    (tree.read (Layout.entityFile directory kind))) with error | checksum
  · rfl
  · exact hnext checksum

theorem verify_congr (hconfig : store'.config = store.config)
    (hbuffer : 1 ≤ store.options.readBuffer) (hbuffer' : 1 ≤ store'.options.readBuffer)
    (hfiles : tree.HoldsFiles store.current) :
    Task.eval tree store.verify = Task.eval tree store'.verify := by
  have hcurrent : store'.current = store.current := by simp only [current, root, hconfig]
  have hcontext : store'.context "verifySnapshot" = store.context "verifySnapshot" := by
    simp only [Store.context, hconfig]
  unfold verify
  dsimp only
  rw [Task.eval_bind_ok _ (Task.eval_lift tree _), Task.eval_bind_ok _ (Task.eval_lift tree _),
    Procedure.eval_hasDirectory, Procedure.eval_hasDirectory, hcurrent, hcontext, hconfig]
  cases hdirectory : tree.hasDirectory store.current with
  | false =>
    simp only [Bool.false_eq_true, if_false]
    rw [Task.eval_bind_error _ (Task.eval_throw tree _),
      Task.eval_bind_error _ (Task.eval_throw tree _)]
  | true =>
    simp only [if_true]
    -- the four files, and then the signs, which no option has a part in
    exact scan_bind_congr hbuffer hbuffer' hfiles fun inode =>
      scan_bind_congr hbuffer hbuffer' hfiles fun dentry =>
        scan_bind_congr hbuffer hbuffer' hfiles fun extend =>
          scan_bind_congr hbuffer hbuffer' hfiles fun multipart => rfl

section

variable {σ : Type} [StateMachine σ]

/-- **Read strategies are interchangeable**: under any two options whose buffers take in a byte,
loading an entity file takes every state machine through the same states to the same outcome or the
same error, and verification comes to the same as well. -/
theorem strategies_interchangeable (store store' : Store) (hconfig : store'.config = store.config)
    (hbuffer : 1 ≤ store.options.readBuffer) (hbuffer' : 1 ≤ store'.options.readBuffer)
    (tree : FileTree) (state : σ) :
    (∀ directory, tree.HoldsFiles directory →
      (∀ cursor, Replaying.eval tree state (store.loadInodes directory cursor) =
        Replaying.eval tree state (store'.loadInodes directory cursor)) ∧
      Replaying.eval tree state (store.loadDentries directory) =
        Replaying.eval tree state (store'.loadDentries directory) ∧
      Replaying.eval tree state (store.loadExtends directory) =
        Replaying.eval tree state (store'.loadExtends directory) ∧
      Replaying.eval tree state (store.loadMultiparts directory) =
        Replaying.eval tree state (store'.loadMultiparts directory)) ∧
    (tree.HoldsFiles store.current →
      Task.eval tree store.verify = Task.eval tree store'.verify) := by
  refine ⟨fun directory hfiles => ?_, verify_congr hconfig hbuffer hbuffer'⟩
  obtain ⟨config, options⟩ := store
  obtain ⟨config', options'⟩ := store'
  cases hconfig
  refine ⟨fun cursor => ?_, ?_, ?_, ?_⟩
  · -- the cursor goes beside the state of the machine
    rw [loadInodes_eval, loadInodes_eval]
    exact congrArg (fun replay : Except Error LoadOutcome × UInt64 × σ =>
        ((replay.1.map fun outcome => (⟨outcome, replay.2.1⟩ : InodeLoad), replay.2.2), tree))
      (replayed_congr hbuffer hbuffer' hfiles _ _ _ _)
  · exact (eval_loaded tree state _ .info _).trans
      ((loadKind_congr hbuffer hbuffer' hfiles _ _ _ _).trans
        (eval_loaded tree state _ .info _).symm)
  · exact (eval_loaded tree state _ .info _).trans
      ((loadKind_congr hbuffer hbuffer' hfiles _ _ _ _).trans
        (eval_loaded tree state _ .info _).symm)
  · exact (eval_loaded tree state _ .info _).trans
      ((loadKind_congr hbuffer hbuffer' hfiles _ _ _ _).trans
        (eval_loaded tree state _ .info _).symm)

end

/-- A count that is cut off after its first byte is found so in memory as well as a byte at a
time. -/
theorem strategies_interchangeable_cut :
    let mapped : Store := ⟨(sample "p").config, { inodeRead := .mapped, dentryRead := .mapped }⟩
    let bytewise : Store :=
      ⟨(sample "p").config, { readBuffer := 1, extendRead := .buffered, multipartRead := .buffered }⟩
    let tree := identified [(Layout.current, .directory [("extend", .file [0x80])])]
    bytewise.config = mapped.config ∧ tree.HoldsFiles mapped.current ∧
      Replaying.eval tree MemoryPartition.empty (mapped.loadExtends mapped.current) =
        Replaying.eval tree MemoryPartition.empty (bytewise.loadExtends mapped.current) ∧
      Task.eval tree mapped.verify = Task.eval tree bytewise.verify := by
  intro mapped bytewise tree
  have hfiles : tree.HoldsFiles mapped.current := by
    intro kind
    cases kind <;> decide +kernel
  obtain ⟨hloads, hverify⟩ := strategies_interchangeable mapped bytewise rfl (by decide)
    (by decide) tree MemoryPartition.empty
  exact ⟨rfl, hfiles, (hloads mapped.current hfiles).2.2.1, hverify hfiles⟩

end Store

end PartitionSnapshot
