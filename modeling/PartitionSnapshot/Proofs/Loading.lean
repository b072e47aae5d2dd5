import PartitionSnapshot.Proofs.Decimals
import PartitionSnapshot.Proofs.Files
import PartitionSnapshot.Proofs.Replaying

/-!
# What a load comes to

A load reads the identity of the partition, settles an interrupted swap, reads the files of the
current generation and writes the apply position back. What it comes to is decided by the generation
that is current after the settling; of this it changes the apply position alone, and in such a way
that the next load finds the same.

## Main statements

* `loadFiles_eval`: the entity files are read, and nothing is changed.
* `filesLoaded`: what a load of files that goes through has done.
* `loadApply_eval`: what becomes of the apply position.
* `load_eval`: what a load comes to, and what it leaves.
* `restored_congr`: loads of the same generation come to the same.
-/

namespace PartitionSnapshot

open FileTree (Holds)

/-! ## The apply position -/

namespace ApplyPosition

theorem max_max_self (a b : UInt64) : max (max a b) b = max a b := by
  simp only [Max.max]
  grind

/-- A position that was reconciled with a cursor is settled. -/
theorem reconcile_reconcile (index : UInt64) (stored : Option UInt64) (cursor : UInt64) :
    reconcile index (some (reconcile index stored cursor).cursor) cursor =
      reconcile index stored cursor := by
  cases stored with
  | none =>
    have hmax : max cursor cursor = cursor := by
      simp only [Max.max]
      grind
    simp only [reconcile, hmax]
  | some stored => simp only [reconcile, max_max_self]

/-- The apply file, by the answer to its reading, is missing or holds a position. -/
inductive Legible : Except Failure Bytes → Prop
  | absent {failure : Failure} : failure.classify = .notFound → Legible (.error failure)
  | present {content : Bytes} {text : String} {parsed : UInt64 × Option UInt64} :
      content ≠ [] → Utf8.decode content = .ok text → parse? text = some parsed →
      Legible (.ok content)

/-- The content of an apply file says an index, and a cursor if it has one. -/
def Says (content : Bytes) (parsed : UInt64 × Option UInt64) : Prop :=
  ∃ text, Utf8.decode content = .ok text ∧ parse? text = some parsed

/-- What the text of a position says. -/
theorem says_text (position : ApplyPosition) :
    Says (Bytes.ofString position.text) (position.index, some position.cursor) :=
  ⟨position.text, Utf8.decode_ofString _, parse?_text position⟩

/-- Nothing is said by an empty file. -/
theorem Says.ne_nil {content : Bytes} {parsed : UInt64 × Option UInt64}
    (h : Says content parsed) : content ≠ [] := by
  rintro rfl
  have hdecode : Utf8.decode [] = .ok "" := Utf8.decode_ofString ""
  have hparse : parse? "" = none := by decide +kernel
  obtain ⟨text, htext, hparsed⟩ := h
  cases hdecode.symm.trans htext
  cases hparse.symm.trans hparsed

end ApplyPosition

/-! ## Recorded checksums -/

theorem forM_eq_ok {ε α : Type} {check : α → Except ε Unit} {values : List α} :
    values.forM check = .ok () ↔ ∀ value ∈ values, check value = .ok () := by
  induction values with
  | nil => exact ⟨fun _ _ hmem => (List.not_mem_nil hmem).elim, fun _ => rfl⟩
  | cons value values ih =>
    have hcons : (value :: values).forM check = (check value).bind fun _ => values.forM check := rfl
    rw [hcons, List.forall_mem_cons, ← ih]
    cases check value with
    | error error => exact ⟨nofun, fun h => nomatch h.1⟩
    | ok done => exact ⟨fun h => ⟨rfl, h⟩, fun h => h.2⟩

/-- A file of signs, by the answer to its reading, that records the given signs. -/
def Signs.Recorded (answer : Except Failure Bytes) (signs : Signs) : Prop :=
  ∃ content text, answer = .ok content ∧ Bytes.toString? content = some text ∧
    Signs.parse? text = some signs

namespace Store

/-! ## The apply file -/

theorem decodeApply_eq_ok {context : Context} {content : Bytes} {parsed : UInt64 × Option UInt64} :
    decodeApply context content = .ok parsed ↔ ApplyPosition.Says content parsed := by
  unfold decodeApply
  by_cases hempty : content = []
  · rw [hempty]
    exact ⟨nofun, fun h => absurd rfl h.ne_nil⟩
  · unfold ApplyPosition.Says
    simp only [List.isEmpty_eq_false_iff.2 hempty]
    cases Utf8.decode content with
    | error fault => exact ⟨nofun, nofun⟩
    | ok text =>
      simp only [Except.ok.injEq, exists_eq_left']
      cases ApplyPosition.parse? text with
      | none => exact ⟨nofun, nofun⟩
      | some found =>
        rw [Option.some.injEq]
        exact ⟨Except.ok.inj, congrArg Except.ok⟩

/-- The text of a position is read back from the apply file. -/
theorem decodeApply_text (context : Context) (position : ApplyPosition) :
    decodeApply context (Bytes.ofString position.text) =
      .ok (position.index, some position.cursor) :=
  decodeApply_eq_ok.2 position.says_text

/-- The apply position that reading the apply file stands for. -/
def positionOf (store : Store) (answer : Except Failure Bytes) (cursor : UInt64) :
    Except Error ApplyPosition :=
  match answer with
  | .error failure =>
    if failure.classify = .notFound then .ok ⟨0, cursor⟩
    else .error (.storage (store.context "loadApplyID")
      (.reading (store.current.join Layout.apply)) failure)
  | .ok content =>
    (decodeApply (store.context "loadApplyID") content).map fun parsed =>
      .reconcile parsed.1 parsed.2 cursor

theorem positionOf_config {store store' : Store} (h : store'.config = store.config)
    (answer : Except Failure Bytes) (cursor : UInt64) :
    store'.positionOf answer cursor = store.positionOf answer cursor := by
  unfold positionOf current root context
  rw [h]

theorem decodeApply_isOk {context : Context} {content : Bytes} :
    (∃ parsed, decodeApply context content = .ok parsed) ↔ ApplyPosition.Legible (.ok content) := by
  simp only [decodeApply_eq_ok]
  constructor
  · rintro ⟨parsed, hsays⟩
    obtain ⟨text, htext, hparse⟩ := id hsays
    exact .present hsays.ne_nil htext hparse
  · intro hlegible
    cases hlegible with
    | present _ htext hparse => exact ⟨_, _, htext, hparse⟩

/-- There is an apply position just when the apply file is missing or holds one. -/
theorem positionOf_isOk {store : Store} {answer : Except Failure Bytes} {cursor : UInt64} :
    (∃ position, store.positionOf answer cursor = .ok position) ↔ ApplyPosition.Legible answer := by
  cases answer with
  | error failure =>
    simp only [positionOf]
    by_cases hnotFound : failure.classify = .notFound
    · rw [if_pos hnotFound]
      exact ⟨fun _ => .absent hnotFound, fun _ => ⟨_, rfl⟩⟩
    · rw [if_neg hnotFound]
      exact ⟨nofun, fun hpositioned => by cases hpositioned; contradiction⟩
  | ok content =>
    rw [← @decodeApply_isOk (store.context "loadApplyID")]
    simp only [positionOf]
    cases decodeApply (store.context "loadApplyID") content with
    | error error => exact ⟨nofun, nofun⟩
    | ok parsed => exact ⟨fun _ => ⟨parsed, rfl⟩, fun _ => ⟨_, rfl⟩⟩

/-- A generation with the apply position written back, if there was one. -/
def rewritten (store : Store) (part : View) (cursor : UInt64) : View :=
  -- written back when it was read, and not when it was missing
  match part.readFile Layout.apply, store.positionOf (part.readFile Layout.apply) cursor with
  | .ok _, .ok position => part.graft [Layout.apply] (View.ofFile (Bytes.ofString position.text))
  | _, _ => part

variable {store : Store} {view : View} {place : List String} {g : Generations} {tree : FileTree}

/-- The position that was written back is the one that is found next time. -/
theorem positionOf_rewritten (store : Store) (part : View) (cursor : UInt64) :
    store.positionOf ((store.rewritten part cursor).readFile Layout.apply) cursor =
      store.positionOf (part.readFile Layout.apply) cursor := by
  unfold rewritten
  cases hread : part.readFile Layout.apply with
  | error failure =>
    dsimp only
    rw [hread]
  | ok content =>
    simp only [positionOf]
    cases hdecode : decodeApply (store.context "loadApplyID") content with
    | error error =>
      -- what cannot be decoded is left as it is
      dsimp only [Except.map]
      rw [hread]
      simp only [hdecode]
    | ok parsed =>
      dsimp only [Except.map]
      -- the text written back is read, and reconciled with the same cursor
      rw [View.readFile_graft_self (View.readFile_eq_ok hread).1]
      dsimp only
      rw [decodeApply_text]
      exact congrArg Except.ok (ApplyPosition.reconcile_reconcile _ _ _)

/-- Writing the position back changes no other file. -/
theorem readFile_rewritten {part : View} {cursor : UInt64} {file : String}
    (h : file ≠ Layout.apply) :
    (store.rewritten part cursor).readFile file = part.readFile file := by
  unfold rewritten
  split
  · exact View.readFile_graft h
  · rfl

theorem noFile_rewritten {part : View} (h : part.NoFile) (cursor : UInt64) :
    (store.rewritten part cursor).NoFile := by
  unfold rewritten
  split
  · exact View.noFile_graft_file h
  · exact h

theorem readFile_of_holds (hroot : view.Rooted store.root place)
    (hreadable : Layout.Readable store.root) (h : Holds view place g tree) {file : String}
    (hfile : file ∈ Layout.files) :
    tree.read (store.current.join file) = g.current.readFile file := by
  rw [← h.below_current]
  exact FileTree.read_file (h.rooted hroot) (by decide) hfile (hreadable.file_of_mem hfile)

/-- What becomes of an apply file is decided by what is read from it. -/
theorem loadApply_in (store : Store) (tree : FileTree) (directory : Path) (cursor : UInt64) :
    Task.eval tree (store.loadApply directory cursor) =
      match tree.read (directory.join Layout.apply) with
      | .error failure =>
        (if failure.classify = .notFound then .ok ⟨0, cursor⟩
          else .error (.storage (store.context "loadApplyID")
            (.reading (directory.join Layout.apply)) failure), tree)
      | .ok content =>
        match decodeApply (store.context "loadApplyID") content with
        | .error error => (.error error, tree)
        | .ok (index, stored) =>
          let position := ApplyPosition.reconcile index stored cursor
          match Task.eval tree (store.storeApply directory position) with
          | (.ok (), after) => (.ok position, after)
          | (.error error, after) => (.error error, after) := by
  unfold loadApply
  dsimp only
  rw [Task.eval_bind_ok _ (Task.eval_lift tree _), Procedure.eval_read]
  cases tree.read (directory.join Layout.apply) with
  | error failure =>
    dsimp only
    split <;> rfl
  | ok content =>
    dsimp only
    rw [Task.eval_bind, Task.eval_ofExcept, mapError_id]
    cases decodeApply (store.context "loadApplyID") content with
    | error error => rfl
    | ok parsed =>
      dsimp only
      rw [Task.eval_bind]
      rcases Task.eval tree (store.storeApply directory _) with ⟨_ | _, after⟩ <;> rfl

/-- The path of the apply file of the current generation. -/
def applyPath (root : Path) : Path := (root.join Layout.current).join Layout.apply

theorem loadApply_eq (store : Store) (tree : FileTree) (cursor : UInt64) :
    Task.eval tree (store.loadApply store.current cursor) =
      match tree.read (applyPath store.root) with
      | .error failure =>
        (if failure.classify = .notFound then .ok ⟨0, cursor⟩
          else .error (.storage (store.context "loadApplyID") (.reading (applyPath store.root))
            failure), tree)
      | .ok content =>
        match decodeApply (store.context "loadApplyID") content with
        | .error error => (.error error, tree)
        | .ok (index, stored) =>
          let position := ApplyPosition.reconcile index stored cursor
          match Task.eval tree (store.storeApply store.current position) with
          | (.ok (), after) => (.ok position, after)
          | (.error error, after) => (.error error, after) :=
  loadApply_in store tree store.current cursor

/-- The apply position is read, reconciled with the cursor, and written back. -/
theorem loadApply_eval (hroot : view.Rooted store.root place)
    (hreadable : Layout.Readable store.root) (h : Holds view place g tree) (cursor : UInt64) :
    ∃ after, Task.eval tree (store.loadApply store.current cursor) =
        (store.positionOf (g.current.readFile Layout.apply) cursor, after) ∧
      Holds view place { g with current := store.rewritten g.current cursor } after := by
  have hread : tree.read (applyPath store.root) = g.current.readFile Layout.apply :=
    readFile_of_holds hroot hreadable h (by decide)
  rw [loadApply_eq, hread]
  unfold rewritten
  cases hcontent : g.current.readFile Layout.apply with
  | error failure =>
    -- a missing file counts as no position, and is not made
    exact ⟨tree, rfl, h⟩
  | ok content =>
    simp only [positionOf]
    cases hdecode : decodeApply (store.context "loadApplyID") content with
    | error error => exact ⟨tree, rfl, h⟩
    | ok parsed =>
      -- the position is written into the file that it was read from
      let position := ApplyPosition.reconcile parsed.1 parsed.2 cursor
      obtain ⟨hfolder, hfile⟩ := View.readFile_eq_ok hcontent
      have hfree : tree.view (place ++ [Layout.current] ++ [Layout.apply]) ≠ some .directory := by
        rw [h.at_current_file, hfile]
        exact nofun
      have hmem : Layout.apply ∈ Layout.files := by decide
      obtain ⟨after, hwrite, hview⟩ := writeSmallFile_eval (h.rooted hroot)
        (by decide : Layout.current ∈ Layout.folders) hmem (hreadable.file_of_mem hmem)
        (h.at_current.trans hfolder) hfree (store.context "storeApplyID")
        (Bytes.ofString position.text)
      have hstore : Task.eval tree (store.storeApply store.current position) =
          (.ok (), after) := storeApply_eval hwrite
      refine ⟨after, ?_, h.graft_current_file hview⟩
      dsimp only
      rw [hstore]
      rfl

/-! ## Comparing checksums -/

theorem compareSigns_eq_ok {context : Context} {recorded signs : Signs} :
    compareSigns context recorded signs = .ok () ↔ recorded = signs := by
  unfold compareSigns
  rw [forM_eq_ok]
  constructor
  · intro hall
    refine Signs.ext_get fun kind => ?_
    have hkind := hall kind kind.mem_all
    split at hkind
    · assumption
    · cases hkind
  · rintro rfl kind -
    exact if_pos rfl

theorem decodeSigns_eq_ok {context : Context} {path : Path} {content : Bytes} {signs : Signs} :
    decodeSigns context path content = .ok signs ↔
      ∃ text, Bytes.toString? content = some text ∧ Signs.parse? text = some signs := by
  unfold decodeSigns
  cases Bytes.toString? content with
  | none => exact ⟨nofun, fun ⟨_, htext, _⟩ => nomatch htext⟩
  | some text =>
    simp only [Option.some.injEq, exists_eq_left']
    cases Signs.parse? text with
    | none => exact ⟨nofun, nofun⟩
    | some recorded => simp only [Except.ok.injEq, Option.some.injEq]

/-- The comparison says yes just when the signs are recorded. -/
theorem judgeSigns_eq_true {context : Context} {path : Path} {signs : Signs}
    {answer : Except Failure Bytes} :
    judgeSigns context path signs answer = .ok true ↔ Signs.Recorded answer signs := by
  cases answer with
  | error failure =>
    refine ⟨fun h => ?_, fun ⟨_, _, h, _⟩ => nomatch h⟩
    simp only [judgeSigns] at h
    split at h <;> cases h
  | ok content =>
    have hjudge : judgeSigns context path signs (.ok content) =
        (decodeSigns context path content).bind fun recorded =>
          (compareSigns context recorded signs).bind fun _ => .ok true := rfl
    have hrecorded : Signs.Recorded (.ok content) signs ↔
        decodeSigns context path content = .ok signs := by
      rw [decodeSigns_eq_ok]
      exact ⟨fun ⟨_, text, hcontent, htext⟩ => ⟨text, Except.ok.inj hcontent ▸ htext⟩,
        fun ⟨text, htext⟩ => ⟨content, text, rfl, htext⟩⟩
    rw [hjudge, hrecorded]
    cases decodeSigns context path content with
    | error error => exact ⟨nofun, nofun⟩
    | ok recorded =>
      -- what is recorded is compared kind by kind
      have hcompare := @compareSigns_eq_ok context recorded signs
      rw [Except.ok.injEq, ← hcompare]
      simp only [Except.bind]
      cases compareSigns context recorded signs with
      | error error => exact ⟨nofun, nofun⟩
      | ok done => exact ⟨fun _ => rfl, fun _ => rfl⟩

theorem checkSigns_eval (tree : FileTree) (context : Context) (directory : Path) (signs : Signs) :
    Task.eval tree (checkSigns context directory signs) =
      (judgeSigns context (directory.join Layout.signs) signs
        (tree.read (directory.join Layout.signs)), tree) := by
  unfold checkSigns
  dsimp only
  rw [Task.eval_bind_ok _ (Task.eval_lift tree _), Procedure.eval_read, Task.eval_ofExcept,
    mapError_id]

/-- The checksums are compared with the recorded ones when the options ask for it. -/
theorem verifyFiles_eval (store : Store) (tree : FileTree) (directory : Path) (signs : Signs) :
    Task.eval tree (store.verifyFiles directory signs) =
      (if store.options.verifyChecksums then
        judgeSigns (store.context "loadSnapshot") (directory.join Layout.signs) signs
          (tree.read (directory.join Layout.signs))
      else .ok false, tree) := by
  unfold verifyFiles
  split
  · exact checkSigns_eval tree _ directory signs
  · rfl

/-! ## The entity files -/

/-- A request to read an entity file or the signs in a directory. -/
def ReadsFile (directory : Path) (request : Request) : Prop :=
  ∃ path, (∃ file ∈ Layout.files, file ≠ Layout.apply ∧ path = directory.join file) ∧
    request = .read path

theorem readsFile_kind (directory : Path) (kind : Kind) :
    ReadsFile directory (.read (Layout.entityFile directory kind)) :=
  ⟨_, ⟨kind.name, Layout.mem_files kind, by cases kind <;> decide, rfl⟩, rfl⟩

variable {σ : Type} [StateMachine σ]

theorem reads_loadKind (store : Store) (context : Context) (directory : Path) (kind : Kind)
    {τ : Type} (handle : Bytes → τ → Handled τ) :
    Replaying.Only (ReadsFile directory) (store.loadKind context directory kind handle) := by
  have hcontents : Task.Only (ReadsFile directory) (store.contents? context directory kind) :=
    (Task.only_lift (Procedure.only_request (readsFile_kind directory kind))).bind fun _ =>
      Task.only_ofExcept _ _
  -- replaying the contents makes no requests
  refine (Replaying.only_ofTask hcontents).bind fun contents => ?_
  cases contents with
  | none => exact Replaying.only_pure _
  | some contents => exact Replaying.only_ofContents _ _ _

theorem only_noteIf {τ α : Type} {allowed : Request → Prop} (present : Bool) (level : Level)
    (text : String) {rest : Replaying τ α} (h : Replaying.Only allowed rest) :
    Replaying.Only allowed (do
      if present then Replaying.log level text
      rest) := by
  cases present with
  | false => exact h
  | true => exact (Replaying.only_log level text).bind fun _ => h

/-- A note on a file that was loaded reads nothing. -/
theorem reads_noted {τ : Type} {directory : Path} {task : Replaying τ LoadOutcome} {level : Level}
    {text : LoadOutcome → String} (h : Replaying.Only (ReadsFile directory) task) :
    Replaying.Only (ReadsFile directory) (do
      let outcome ← task
      if outcome.present then Replaying.log level (text outcome)
      return outcome) :=
  h.bind fun _ => only_noteIf _ _ _ (Replaying.only_pure _)

theorem reads_loadInodes (store : Store) (directory : Path) (cursor : UInt64) :
    Replaying.Only (ReadsFile directory)
      (store.loadInodes directory cursor : Replaying σ InodeLoad) :=
  (Replaying.only_withCursor (reads_loadKind store _ directory .inode _)).bind fun _ =>
    only_noteIf _ _ _ (Replaying.only_pure _)

theorem reads_loadDentries (store : Store) (directory : Path) :
    Replaying.Only (ReadsFile directory)
      (store.loadDentries directory : Replaying σ LoadOutcome) :=
  reads_noted (reads_loadKind store _ directory .dentry _)

theorem reads_loadExtends (store : Store) (directory : Path) :
    Replaying.Only (ReadsFile directory)
      (store.loadExtends directory : Replaying σ LoadOutcome) :=
  reads_noted (reads_loadKind store _ directory .extend _)

theorem reads_loadMultiparts (store : Store) (directory : Path) :
    Replaying.Only (ReadsFile directory)
      (store.loadMultiparts directory : Replaying σ LoadOutcome) :=
  reads_noted (reads_loadKind store _ directory .multipart _)

theorem reads_verifyFiles (store : Store) (directory : Path) (signs : Signs) :
    Task.Only (ReadsFile directory) (store.verifyFiles directory signs) := by
  unfold verifyFiles
  split
  · exact (Task.only_lift (Procedure.only_request
      ⟨_, ⟨Layout.signs, by decide, by decide, rfl⟩, rfl⟩)).bind fun _ => Task.only_ofExcept _ _
  · exact Task.only_pure _

/-- Loading the entity files reads them and does nothing else. -/
theorem reads_loadFiles (store : Store) (directory : Path) :
    Replaying.Only (ReadsFile directory)
      (store.loadFiles directory : Replaying σ (LoadStats × UInt64)) :=
  (reads_loadInodes store directory _).bind fun _ =>
    (reads_loadDentries store directory).bind fun _ =>
      (reads_loadExtends store directory).bind fun _ =>
        (reads_loadMultiparts store directory).bind fun _ =>
          (Replaying.only_ofTask (reads_verifyFiles store directory _)).bind fun _ =>
            Replaying.only_pure _

/-- The entity files are read, and nothing is changed. -/
theorem loadFiles_eval (store : Store) (tree : FileTree) (directory : Path) (state : σ) :
    (Replaying.eval tree state (store.loadFiles directory)).2 = tree :=
  (Procedure.eval_of_reads (reads_loadFiles store directory state) tree).1

/-- What follows a task that only reads starts from the tree that the task started from. -/
theorem eval_bind_of_reads {τ α β : Type} {directory : Path} {after : FileTree}
    {task : Replaying τ α} {next : α → Replaying τ β} {state state' : τ} {value : β}
    (hreads : Replaying.Only (ReadsFile directory) task)
    (h : Replaying.eval tree state (task >>= next) = ((.ok value, state'), after)) :
    ∃ first middle, Replaying.eval tree state task = ((.ok first, middle), tree) ∧
      Replaying.eval tree middle (next first) = ((.ok value, state'), after) := by
  obtain ⟨first, middle, mid, hfirst, hnext⟩ := Replaying.eval_bind_eq_ok h
  have hmid : mid = tree :=
    (congrArg Prod.snd hfirst).symm.trans (Procedure.eval_of_reads (hreads state) tree).1
  rw [hmid] at hfirst hnext
  exact ⟨first, middle, hfirst, hnext⟩

/-- The files of a directory have been loaded: the inodes from the given state of the machine, each
other kind from some state, and the checksums that these came to have been compared. The tree is the
same all along. -/
structure FilesLoaded (store : Store) (tree : FileTree) (directory : Path) (state : σ)
    (stats : LoadStats) (cursor : UInt64) : Prop where
  inode : ∃ load middle, Replaying.eval tree state
      (store.loadInodes directory store.config.first) = ((.ok load, middle), tree) ∧
    load.outcome.checksum = stats.signs.get .inode ∧ load.cursor = cursor
  dentry : ∃ outcome, ∃ before middle : σ, Replaying.eval tree before
      (store.loadDentries directory) = ((.ok outcome, middle), tree) ∧
    outcome.checksum = stats.signs.get .dentry
  extend : ∃ outcome, ∃ before middle : σ, Replaying.eval tree before
      (store.loadExtends directory) = ((.ok outcome, middle), tree) ∧
    outcome.checksum = stats.signs.get .extend
  multipart : ∃ outcome, ∃ before middle : σ, Replaying.eval tree before
      (store.loadMultiparts directory) = ((.ok outcome, middle), tree) ∧
    outcome.checksum = stats.signs.get .multipart
  verified : (Task.eval tree (store.verifyFiles directory stats.signs)).1 = .ok stats.verified

/-- A load of files that goes through can be taken apart by the kinds of files. -/
theorem filesLoaded {directory : Path} {state : σ} {stats : LoadStats} {cursor : UInt64}
    (h : (Replaying.eval tree state (store.loadFiles directory)).1.1 = .ok (stats, cursor)) :
    store.FilesLoaded tree directory state stats cursor := by
  rcases hload : Replaying.eval tree state (store.loadFiles directory)
    with ⟨⟨result, state'⟩, after⟩
  rw [hload] at h
  cases h
  unfold loadFiles at hload
  -- one file after the other, and then the checksums
  obtain ⟨inode, state₁, hinode, hload⟩ :=
    eval_bind_of_reads (reads_loadInodes store directory _) hload
  obtain ⟨dentry, state₂, hdentry, hload⟩ :=
    eval_bind_of_reads (reads_loadDentries store directory) hload
  obtain ⟨extend, state₃, hextend, hload⟩ :=
    eval_bind_of_reads (reads_loadExtends store directory) hload
  obtain ⟨multipart, state₄, hmultipart, hload⟩ :=
    eval_bind_of_reads (reads_loadMultiparts store directory) hload
  obtain ⟨verified, _, _, hverify, hload⟩ := Replaying.eval_bind_eq_ok hload
  rw [Replaying.eval_ofTask] at hverify
  cases hload
  exact {
    inode := ⟨inode, state₁, hinode, rfl, rfl⟩
    dentry := ⟨dentry, state₁, state₂, hdentry, rfl⟩
    extend := ⟨extend, state₂, state₃, hextend, rfl⟩
    multipart := ⟨multipart, state₃, state₄, hmultipart, rfl⟩
    verified := congrArg (fun result => result.1.1) hverify }

/-- What the entity files come to depends on the current generation alone, and in it not on the
apply position. -/
theorem loadFiles_congr {g' : Generations} {tree' : FileTree}
    (hroot : view.Rooted store.root place) (hreadable : Layout.Readable store.root)
    (h : Holds view place g tree) (h' : Holds view place g' tree')
    (hsame : ∀ file, file ≠ Layout.apply → g'.current.readFile file = g.current.readFile file)
    (state : σ) :
    (Replaying.eval tree' state (store.loadFiles store.current)).1 =
      (Replaying.eval tree state (store.loadFiles store.current)).1 := by
  -- a procedure that only reads comes to the same where its reads are answered alike
  refine (Procedure.eval_of_reads (reads_loadFiles store store.current state) tree).2 tree' ?_
  rintro path ⟨file, hfile, happly, rfl⟩
  rw [readFile_of_holds hroot hreadable h hfile, readFile_of_holds hroot hreadable h' hfile,
    hsame file happly]

/-! ## Loads -/

/-- What the entity files and the apply file come to together. -/
def assemble (store : Store) (answer : Except Failure Bytes) :
    Except Error (LoadStats × UInt64) × σ → Except Error LoadedPartition × σ
  | (.error error, state) => (.error error, state)
  | (.ok (stats, cursor), state) =>
    ((store.positionOf answer cursor).map fun position => ⟨store.config, position, stats⟩, state)

/-- A partition is put together just when the entity files and the apply file come to something. -/
theorem assemble_eq_ok {τ : Type} {answer : Except Failure Bytes} {signs : Signs}
    {verified : Bool} {outcome : Except Error (LoadStats × UInt64) × τ} :
    (∃ partition, (store.assemble answer outcome).1 = .ok partition ∧
        partition.stats.signs = signs ∧ partition.stats.verified = verified) ↔
      (∃ loaded, outcome.1 = .ok loaded ∧ loaded.1.signs = signs ∧
        loaded.1.verified = verified) ∧ ApplyPosition.Legible answer := by
  obtain ⟨error | ⟨stats, cursor⟩, state⟩ := outcome
  · exact ⟨nofun, nofun⟩
  · rw [← @positionOf_isOk store answer cursor]
    dsimp only [assemble]
    constructor
    · rintro ⟨partition, hpartition, rfl, rfl⟩
      cases hposition : store.positionOf answer cursor with
      | error error =>
        rw [hposition] at hpartition
        cases hpartition
      | ok position =>
        rw [hposition] at hpartition
        cases hpartition
        exact ⟨⟨_, rfl, rfl, rfl⟩, ⟨position, rfl⟩⟩
    · rintro ⟨⟨loaded, hloaded, hsigns, hverified⟩, position, hposition⟩
      cases hloaded
      rw [hposition]
      exact ⟨_, rfl, hsigns, hverified⟩

/-- The generation that a load leaves. -/
def settled (store : Store) (part : View) :
    Except Error (LoadStats × UInt64) × σ → View
  | (.error _, _) => part
  | (.ok (_, cursor), _) => store.rewritten part cursor

theorem loadCurrent_eval (hroot : view.Rooted store.root place)
    (hreadable : Layout.Readable store.root) (h : Holds view place g tree) (state : σ) :
    ∃ after, Replaying.eval tree state store.loadCurrent =
        (store.assemble (g.current.readFile Layout.apply)
          (Replaying.eval tree state (store.loadFiles store.current)).1, after) ∧
      Holds view place { g with current := (store.settled g.current
        (Replaying.eval tree state (store.loadFiles store.current)).1) } after := by
  have hstays := loadFiles_eval store tree store.current state
  unfold loadCurrent
  dsimp only
  -- without the entity files the apply file is not looked at
  rcases hfiles : Replaying.eval tree state (store.loadFiles store.current)
    with ⟨⟨error | ⟨stats, cursor⟩, state'⟩, tree'⟩
  · rw [hfiles] at hstays
    dsimp only at hstays
    rw [hstays] at hfiles
    refine ⟨tree, ?_, h⟩
    rw [Replaying.eval_bind_error _ hfiles]
    rfl
  · rw [hfiles] at hstays
    dsimp only at hstays
    rw [hstays] at hfiles
    obtain ⟨after, happly, hafter⟩ := loadApply_eval hroot hreadable h cursor
    refine ⟨after, ?_, hafter⟩
    rw [Replaying.eval_bind_ok _ hfiles, Replaying.eval_bind, Replaying.eval_ofTask, happly]
    dsimp only [assemble]
    cases store.positionOf (g.current.readFile Layout.apply) cursor <;> rfl

/-- The identity of the partition that is kept below the root is that of the store. -/
def Persisted (store : Store) (view : View) (place : List String) : Prop :=
  ∃ content, view (place ++ [Layout.metadata]) = some (.file content) ∧
    decodeMetadata store.root content = .ok store.config

theorem not_inGenerations_metadata (place : List String) :
    ¬ View.InGenerations place (place ++ [Layout.metadata]) := by
  -- the metadata file has another name than the generations
  rintro ⟨name, hname, hunder⟩
  rw [List.prefix_append_right_inj, List.cons_prefix_cons] at hunder
  obtain ⟨rfl, -⟩ := hunder
  exact absurd hname (by decide)

theorem check_of_decodeMetadata {root : Path} {content : Bytes} {config : Config}
    (h : decodeMetadata root content = .ok config) : config.check = .ok () := by
  unfold decodeMetadata at h
  dsimp only at h
  -- the configuration is checked last
  split at h
  · cases h
  · split at h
    · cases h
    · split at h
      · cases h
      · next hcheck =>
        cases h
        exact hcheck

/-- The identity that is kept is the one the store has, so it is replaced by itself. -/
theorem replaceConfig_self (hpersisted : store.Persisted view place) :
    store.replaceConfig store.config = .ok store := by
  obtain ⟨content, -, hdecode⟩ := hpersisted
  rw [replaceConfig, check_of_decodeMetadata hdecode]

/-- The identity is read. -/
theorem loadMetadata_eval (hroot : view.Rooted store.root place)
    (hcheck : FileTree.checkPath (store.root.join Layout.metadata) = .ok ())
    (hpersisted : store.Persisted view place) (h : Holds view place g tree) :
    Task.eval tree (loadMetadata store.root) = (.ok store.config, tree) := by
  obtain ⟨content, hcontent, hdecode⟩ := hpersisted
  have hname : Path.IsName Layout.metadata := by decide
  have hlocate := (h.rooted hroot).locate_join hname
  rw [hcheck] at hlocate
  -- the file lies outside the generations, where nothing has changed
  have hread : tree.read (store.root.join Layout.metadata) = .ok content := by
    rw [FileTree.read_entry hlocate (Path.endsInSlash_join store.root hname), h,
      View.agreeOutside_withGenerations view place g _ (not_inGenerations_metadata place), hcontent]
  unfold loadMetadata
  dsimp only
  rw [Task.eval_bind_ok _ (Task.eval_lift tree _), Procedure.eval_read, hread]
  dsimp only
  rw [hdecode]
  rfl

theorem checkPath_metadata (hreadable : Layout.Readable store.root) :
    FileTree.checkPath (store.root.join Layout.metadata) = .ok () :=
  hreadable.room.join (by decide) (by decide)

/-- What a load comes to, and what it leaves: the generations are settled, and the one that is
current then is loaded. -/
theorem load_eval (hroot : view.Rooted store.root place) (hreadable : Layout.Readable store.root)
    (hpersisted : store.Persisted view place) (h : Holds view place g tree)
    (hcurrent : g.current.NoFile) (state : σ) :
    ∃ mid, Holds view place g.recovered mid ∧
      (store.load state).eval tree =
        (((Replaying.eval mid state store.loadCurrent).1.1, store,
          (Replaying.eval mid state store.loadCurrent).1.2),
          (Replaying.eval mid state store.loadCurrent).2) := by
  obtain ⟨mid, hrecover, hmid⟩ := recoverGeneration_eval hroot hreadable h hcurrent
  refine ⟨mid, hmid, ?_⟩
  have hmetadata : (loadMetadata store.root).run.eval tree = (.ok store.config, tree) :=
    loadMetadata_eval hroot (checkPath_metadata hreadable) hpersisted h
  have hreplace := replaceConfig_self hpersisted
  have hgeneration : (store.loadGeneration.runFrom state).eval tree =
      Replaying.eval mid state store.loadCurrent := by
    have hbind := Replaying.eval_bind tree state (Replaying.ofTask store.recoverGeneration)
      fun _ => (store.loadCurrent : Replaying σ LoadedPartition)
    rw [Replaying.eval_ofTask, hrecover] at hbind
    exact hbind
  unfold load
  rw [Procedure.eval_bind_of_eq _ hmetadata]
  simp only [hreplace]
  rw [Procedure.eval_bind, hgeneration, Procedure.eval_pure]

/-- What a load comes to: its result, and the state of the machine. -/
def restored (store : Store) (state : σ) (tree : FileTree) : Except Error LoadedPartition × σ :=
  (((store.load state).eval tree).1.1, ((store.load state).eval tree).1.2.2)

/-- The tree that a load leaves. -/
def afterLoad (store : Store) (state : σ) (tree : FileTree) : FileTree :=
  ((store.load state).eval tree).2

section

variable (hroot : view.Rooted store.root place) (hreadable : Layout.Readable store.root)
variable (hpersisted : store.Persisted view place)
include hroot hreadable hpersisted

/-- The store is opened with the identity that is kept below the root. -/
theorem open_eval (h : Holds view place g tree) :
    Task.eval tree (Store.open store.root store.options) = (.ok store, tree) := by
  have hnew : Store.new store.config store.options = .ok store := by
    obtain ⟨content, -, hdecode⟩ := hpersisted
    rw [new, check_of_decodeMetadata hdecode]
  unfold Store.open
  rw [Task.eval_bind_ok _ (loadMetadata_eval hroot (checkPath_metadata hreadable) hpersisted h),
    hnew]
  rfl

/-- A load leaves the store as it is. -/
theorem load_eq (h : Holds view place g tree) (hcurrent : g.current.NoFile) (state : σ) :
    (store.load state).eval tree =
      (((store.restored state tree).1, store, (store.restored state tree).2),
        store.afterLoad state tree) := by
  obtain ⟨mid, -, hload⟩ := load_eval hroot hreadable hpersisted h hcurrent state
  rw [restored, afterLoad, hload]

/-- What a load restores and what it leaves are decided by the files of the generation that is
current once the generations are settled. -/
theorem restored_eq (h : Holds view place g tree) (hcurrent : g.current.NoFile) (state : σ) :
    ∃ mid, Holds view place g.recovered mid ∧
      store.restored state tree = store.assemble (g.recovered.current.readFile Layout.apply)
        (Replaying.eval mid state (store.loadFiles store.current)).1 ∧
      Holds view place ⟨store.settled g.recovered.current
        (Replaying.eval mid state (store.loadFiles store.current)).1, g.recovered.staging,
        g.recovered.backup⟩ (store.afterLoad state tree) := by
  obtain ⟨mid, hmid, hload⟩ := load_eval hroot hreadable hpersisted h hcurrent state
  obtain ⟨after, heval, hafter⟩ := loadCurrent_eval hroot hreadable hmid state
  refine ⟨mid, hmid, ?_, ?_⟩
  · rw [restored, hload, heval]
  · rwa [afterLoad, hload, heval]

/-- Loads of the same generation come to the same. -/
theorem restored_congr {g' : Generations} {tree' : FileTree} (h : Holds view place g tree)
    (h' : Holds view place g' tree') (hcurrent : g.current.NoFile) (hcurrent' : g'.current.NoFile)
    (hsame : g'.recovered.current = g.recovered.current) (state : σ) :
    store.restored state tree' = store.restored state tree := by
  obtain ⟨mid, hmid, hrestored, -⟩ :=
    restored_eq hroot hreadable hpersisted h hcurrent state
  obtain ⟨mid', hmid', hrestored', -⟩ :=
    restored_eq hroot hreadable hpersisted h' hcurrent' state
  have hfiles := loadFiles_congr hroot hreadable hmid hmid' (fun file _ => by rw [hsame]) state
  rw [hrestored, hrestored', hsame, hfiles]

end

end Store

end PartitionSnapshot
