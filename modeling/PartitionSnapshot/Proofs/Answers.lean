import PartitionSnapshot.Proofs.Loading

/-!
# Machines that answer alike

The store drives a state machine and sees its answers, not its states. So two machines that answer
alike, from states that they have been brought into by the same operations, come through a load in
step: with the same result, the same tree, and again in states from which they answer alike.

## Main statements

* `StateMachine.Alike`: a relation of states under which machines answer alike.
* `Store.parallel_loadFiles`: the files of a generation are loaded alike.
-/

namespace PartitionSnapshot

/-- States of two machines that are related answer alike, and stay related. -/
structure StateMachine.Alike {σ τ : Type} [StateMachine σ] [StateMachine τ]
    (related : σ → τ → Prop) : Prop where
  createInode : ∀ (inode : Inode) {state : σ} {state' : τ}, related state state' →
    related (StateMachine.createInode inode state) (StateMachine.createInode inode state')
  checkFree : ∀ (inode : Inode) {state : σ} {state' : τ}, related state state' →
    related (StateMachine.checkFree inode state) (StateMachine.checkFree inode state')
  createDentry : ∀ (dentry : Dentry) {state : σ} {state' : τ}, related state state' →
    (StateMachine.createDentry dentry true state').1 =
        (StateMachine.createDentry dentry true state).1 ∧
      related (StateMachine.createDentry dentry true state).2
        (StateMachine.createDentry dentry true state').2
  setAttributes : ∀ (extend : Extend) {state : σ} {state' : τ}, related state state' →
    (StateMachine.setAttributes extend state').1 = (StateMachine.setAttributes extend state).1 ∧
      related (StateMachine.setAttributes extend state).2
        (StateMachine.setAttributes extend state').2
  createMultipart : ∀ (multipart : Multipart) {state : σ} {state' : τ}, related state state' →
    related (StateMachine.createMultipart multipart state)
      (StateMachine.createMultipart multipart state')

/-- A machine answers like itself. -/
theorem StateMachine.alike_eq (σ : Type) [StateMachine σ] :
    StateMachine.Alike (fun state state' : σ => state = state') where
  createInode _ _ _ h := h ▸ rfl
  checkFree _ _ _ h := h ▸ rfl
  createDentry _ _ _ h := h ▸ ⟨rfl, rfl⟩
  setAttributes _ _ _ h := h ▸ ⟨rfl, rfl⟩
  createMultipart _ _ _ h := h ▸ rfl

/-! ## Records -/

namespace Handled

variable {σ τ : Type}

/-- Two ways of handing over records that come to the same. -/
def Parallel (related : σ → τ → Prop) (handle : Bytes → σ → Handled σ)
    (handle' : Bytes → τ → Handled τ) : Prop :=
  ∀ record {state : σ} {state' : τ}, related state state' →
    (handle' record state').result = (handle record state).result ∧
      related (handle record state).state (handle' record state').state

variable {related : σ → τ → Prop} {handle : Bytes → σ → Handled σ}
variable {handle' : Bytes → τ → Handled τ}

theorem Parallel.each (h : Parallel related handle handle') (records : List Bytes) {state : σ}
    {state' : τ} (hstate : related state state') :
    (each handle' state' records).result = (each handle state records).result ∧
      related (each handle state records).state (each handle' state' records).state := by
  -- record by record, up to the first that fails on both sides
  induction records generalizing state state' with
  | nil => exact ⟨rfl, hstate⟩
  | cons record records ih =>
    obtain ⟨hresult, hnext⟩ := h record hstate
    cases hfirst : (handle record state).result with
    | error error =>
      rw [hfirst] at hresult
      simp only [Handled.each, hfirst, hresult]
      exact ⟨trivial, hnext⟩
    | ok _ =>
      rw [hfirst] at hresult
      obtain ⟨hleft, hleftState⟩ := each_cons_of_ok records hfirst
      obtain ⟨hright, hrightState⟩ := each_cons_of_ok records hresult
      rw [hleft, hleftState, hright, hrightState]
      exact ih hnext

end Handled

theorem Store.replayed_parallel {σ τ : Type} {related : σ → τ → Prop}
    {handle : Bytes → σ → Handled σ} {handle' : Bytes → τ → Handled τ}
    (h : Handled.Parallel related handle handle') (context : Context) {state : σ} {state' : τ}
    (hstate : related state state') (found : Except Error (Option Contents)) :
    (replayed context handle' state' found).1 = (replayed context handle state found).1 ∧
      related (replayed context handle state found).2
        (replayed context handle' state' found).2 := by
  rcases found with error | _ | contents
  · exact ⟨rfl, hstate⟩
  · exact ⟨rfl, hstate⟩
  · obtain ⟨hresult, hafter⟩ := h.each contents.records hstate
    simp only [replayed, Contents.replay, hresult]
    exact ⟨trivial, hafter⟩

/-! ## Tasks -/

namespace Replaying

variable {σ τ α β : Type} {related : σ → τ → Prop}

/-- Two tasks that come to the same, and leave the same. -/
def Parallel (related : σ → τ → Prop) (task : Replaying σ α) (task' : Replaying τ α) : Prop :=
  ∀ tree {state : σ} {state' : τ}, related state state' →
    ∃ result after state₁ state₁', Replaying.eval tree state task = ((result, state₁), after) ∧
      Replaying.eval tree state' task' = ((result, state₁'), after) ∧ related state₁ state₁'

namespace Parallel

theorem pure (value : α) :
    Parallel related (Pure.pure value : Replaying σ α) (Pure.pure value : Replaying τ α) :=
  fun tree _ _ hstate => ⟨.ok value, tree, _, _, rfl, rfl, hstate⟩

theorem ofTask (task : Task α) :
    Parallel related (Replaying.ofTask task : Replaying σ α)
      (Replaying.ofTask task : Replaying τ α) :=
  fun tree _ _ hstate =>
    ⟨_, _, _, _, eval_ofTask tree _ task, eval_ofTask tree _ task, hstate⟩

theorem bind {task : Replaying σ α} {task' : Replaying τ α} {next : α → Replaying σ β}
    {next' : α → Replaying τ β} (h : Parallel related task task')
    (hnext : ∀ value, Parallel related (next value) (next' value)) :
    Parallel related (task >>= next) (task' >>= next') := by
  intro tree state state' hstate
  obtain ⟨result, mid, state₁, state₁', heval, heval', hmid⟩ := h tree hstate
  rw [eval_bind, eval_bind, heval, heval']
  cases result with
  | error error => exact ⟨.error error, mid, state₁, state₁', rfl, rfl, hmid⟩
  | ok value => exact hnext value mid hmid

theorem noted {task : Replaying σ LoadOutcome} {task' : Replaying τ LoadOutcome} {level : Level}
    {text : LoadOutcome → String} (h : Parallel related task task') :
    Parallel related
      (do
        let outcome ← task
        if outcome.present then Replaying.log level (text outcome)
        return outcome)
      (do
        let outcome ← task'
        if outcome.present then Replaying.log level (text outcome)
        return outcome) := by
  intro tree state state' hstate
  rw [Store.eval_loaded, Store.eval_loaded]
  exact h tree hstate

end Parallel

end Replaying

/-! ## Loading -/

namespace Store

variable {σ τ : Type} [StateMachine σ] [StateMachine τ] {related : σ → τ → Prop}
variable (store : Store) (context : Context) (directory : Path)

omit [StateMachine σ] [StateMachine τ] in
theorem parallel_loadKind (kind : Kind) {handle : Bytes → σ → Handled σ}
    {handle' : Bytes → τ → Handled τ} (h : Handled.Parallel related handle handle') :
    Replaying.Parallel related (store.loadKind context directory kind handle)
      (store.loadKind context directory kind handle') := by
  intro tree state state' hstate
  obtain ⟨hresult, hafter⟩ := replayed_parallel h context hstate
    (store.contentsOf context (Layout.entityFile directory kind) kind
      (tree.read (Layout.entityFile directory kind)))
  rw [loadKind_eval, loadKind_eval]
  exact ⟨_, tree, _, _, rfl, Prod.ext (Prod.ext hresult rfl) rfl, hafter⟩

variable (h : StateMachine.Alike related)
include h

/-- Beside the same cursor inodes are taken in alike. -/
theorem parallel_handleInode (config : Config) :
    Handled.Parallel (fun state state' => state'.1 = state.1 ∧ related state.2 state'.2)
      (handleInode config context : Bytes → UInt64 × σ → Handled (UInt64 × σ))
      (handleInode config context : Bytes → UInt64 × τ → Handled (UInt64 × τ)) := by
  rintro record ⟨cursor, state⟩ ⟨_, state'⟩ ⟨rfl, hstate⟩
  unfold handleInode
  cases Entity.ofRecord Inode record with
  | error fault => exact ⟨rfl, rfl, hstate⟩
  | ok inode =>
    dsimp only
    split
    · exact ⟨rfl, rfl, h.checkFree inode (h.createInode inode hstate)⟩
    · exact ⟨rfl, rfl, hstate⟩

theorem parallel_handleDentry :
    Handled.Parallel related (handleDentry context : Bytes → σ → Handled σ)
      (handleDentry context : Bytes → τ → Handled τ) := by
  intro record state state' hstate
  unfold handleDentry
  cases Entity.ofRecord Dentry record with
  | error fault => exact ⟨rfl, hstate⟩
  | ok dentry =>
    obtain ⟨hstatus, hafter⟩ := h.createDentry dentry hstate
    rcases hcreate : StateMachine.createDentry dentry true state with ⟨status, state₁⟩
    rcases hcreate' : StateMachine.createDentry dentry true state' with ⟨status', state₁'⟩
    rw [hcreate, hcreate'] at hstatus hafter
    cases hstatus
    simp only [hcreate, hcreate']
    cases status <;> exact ⟨rfl, hafter⟩

theorem parallel_handleExtend :
    Handled.Parallel related (store.handleExtend context : Bytes → σ → Handled σ)
      (store.handleExtend context : Bytes → τ → Handled τ) := by
  intro record state state' hstate
  unfold handleExtend
  cases Entity.ofRecord Extend record with
  | error fault => exact ⟨rfl, hstate⟩
  | ok extend =>
    obtain ⟨hresult, hafter⟩ := h.setAttributes extend hstate
    rcases hset : StateMachine.setAttributes extend state with ⟨result, state₁⟩
    rcases hset' : StateMachine.setAttributes extend state' with ⟨result', state₁'⟩
    rw [hset, hset'] at hresult hafter
    cases hresult
    simp only [hset, hset']
    cases result <;> exact ⟨rfl, hafter⟩

theorem parallel_handleMultipart :
    Handled.Parallel related (store.handleMultipart context : Bytes → σ → Handled σ)
      (store.handleMultipart context : Bytes → τ → Handled τ) := by
  intro record state state' hstate
  unfold handleMultipart
  cases Entity.ofRecord Multipart record with
  | error fault => exact ⟨rfl, hstate⟩
  | ok multipart => exact ⟨rfl, h.createMultipart multipart hstate⟩

theorem parallel_loadInodes (cursor : UInt64) :
    Replaying.Parallel related (store.loadInodes directory cursor : Replaying σ InodeLoad)
      (store.loadInodes directory cursor : Replaying τ InodeLoad) := by
  intro tree state state' hstate
  obtain ⟨hresult, hcursor, hafter⟩ := replayed_parallel
    (parallel_handleInode (store.context "loadInode") h store.config) (store.context "loadInode")
    (⟨rfl, hstate⟩ : (cursor, state').1 = (cursor, state).1 ∧ related state state')
    (store.contentsOf (store.context "loadInode") (Layout.entityFile directory .inode) .inode
      (tree.read (Layout.entityFile directory .inode)))
  rw [loadInodes_eval, loadInodes_eval, hresult, hcursor]
  exact ⟨_, tree, _, _, rfl, rfl, hafter⟩

/-- The files of a generation are loaded alike. -/
theorem parallel_loadFiles :
    Replaying.Parallel related (store.loadFiles directory : Replaying σ (LoadStats × UInt64))
      (store.loadFiles directory : Replaying τ (LoadStats × UInt64)) := by
  have hdentries : Replaying.Parallel related
      (store.loadDentries directory : Replaying σ LoadOutcome)
      (store.loadDentries directory : Replaying τ LoadOutcome) :=
    (store.parallel_loadKind _ directory .dentry (parallel_handleDentry _ h)).noted
  have hextends : Replaying.Parallel related
      (store.loadExtends directory : Replaying σ LoadOutcome)
      (store.loadExtends directory : Replaying τ LoadOutcome) :=
    (store.parallel_loadKind _ directory .extend (store.parallel_handleExtend _ h)).noted
  have hmultiparts : Replaying.Parallel related
      (store.loadMultiparts directory : Replaying σ LoadOutcome)
      (store.loadMultiparts directory : Replaying τ LoadOutcome) :=
    (store.parallel_loadKind _ directory .multipart (store.parallel_handleMultipart _ h)).noted
  exact (store.parallel_loadInodes directory h _).bind fun _ => hdentries.bind fun _ =>
    hextends.bind fun _ => hmultiparts.bind fun _ => (Replaying.Parallel.ofTask _).bind fun _ =>
      .pure _

end Store

end PartitionSnapshot
