import PartitionSnapshot.Machine.Basic

/-!
# Watched state machines

Two state machines around another one: `Journaled` keeps every call that reaches it, and `Refusing`
answers for the machine inside once a number of calls have been let through.
-/

namespace PartitionSnapshot

/-! ## Journals -/

/-- A call to a state machine. -/
inductive Call where
  | inode (id : InodeId)
  | free (id : InodeId)
  | dentry (parent : InodeId) (name : String) (replay : Bool)
  | extend (inode : InodeId)
  | multipart (id : String)
  deriving DecidableEq, Repr

/-- A state machine whose calls are kept. -/
structure Journaled (σ : Type) where
  machine : σ
  /-- The calls so far, the last one first. -/
  calls : List Call

namespace Journaled

variable {σ : Type}

/-- The calls so far, in order. -/
def journal (state : Journaled σ) : List Call := state.calls.reverse

instance [StateMachine σ] : StateMachine (Journaled σ) where
  createInode inode state :=
    ⟨StateMachine.createInode inode state.machine, .inode inode.id :: state.calls⟩
  checkFree inode state :=
    ⟨StateMachine.checkFree inode state.machine, .free inode.id :: state.calls⟩
  createDentry dentry replay state :=
    let (status, machine) := StateMachine.createDentry dentry replay state.machine
    (status, ⟨machine, .dentry dentry.parent dentry.name replay :: state.calls⟩)
  setAttributes extend state :=
    let (result, machine) := StateMachine.setAttributes extend state.machine
    (result, ⟨machine, .extend extend.inode :: state.calls⟩)
  createMultipart multipart state :=
    ⟨StateMachine.createMultipart multipart state.machine, .multipart multipart.id :: state.calls⟩

end Journaled

/-! ## Refusals -/

/-- An answer that is given instead of the machine's once `after` calls were let through. -/
structure Veto (α : Type) where
  after : Nat
  answer : α
  deriving Repr

/-- A state machine that stops taking in directory entries or attributes. -/
structure Refusing (σ : Type) where
  machine : σ
  dentries : Option (Veto Status)
  attributes : Option (Veto Error)
  /-- How many directory entries were let through so far. -/
  dentryCalls : Nat
  /-- How many attributes were let through so far. -/
  attributeCalls : Nat

namespace Refusing

variable {σ : Type}

/-- The answer of a veto to the call that follows `calls` others. -/
def vetoed? (veto : Option (Veto α)) (calls : Nat) : Option α :=
  (veto.filter (·.after ≤ calls)).map (·.answer)

instance [StateMachine σ] : StateMachine (Refusing σ) where
  createInode inode state :=
    { state with machine := StateMachine.createInode inode state.machine }
  checkFree inode state :=
    { state with machine := StateMachine.checkFree inode state.machine }
  createDentry dentry replay state :=
    match vetoed? state.dentries state.dentryCalls with
    | some status => (status, state)
    | none =>
      let (status, machine) := StateMachine.createDentry dentry replay state.machine
      (status, { state with machine, dentryCalls := state.dentryCalls + 1 })
  setAttributes extend state :=
    match vetoed? state.attributes state.attributeCalls with
    | some error => (.error error, state)
    | none =>
      let (result, machine) := StateMachine.setAttributes extend state.machine
      (result, { state with machine, attributeCalls := state.attributeCalls + 1 })
  createMultipart multipart state :=
    { state with machine := StateMachine.createMultipart multipart state.machine }

end Refusing

end PartitionSnapshot
