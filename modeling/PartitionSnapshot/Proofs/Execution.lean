import PartitionSnapshot.Proofs.Evaluation
import PartitionSnapshot.Proofs.View

/-!
# Executions with crashes

A crash cuts a procedure short: between two requests, or inside one that takes more than a single
step of the file system. An *execution* of a procedure is a run of it up to its end or up to a
crash, together with the requests that the file system granted on the way.

## Main statements

* `Execution.eval_eq`, `exists_finished`: executions that finish are runs.
* `Execution.of_bind`, `Execution.of_task_bind`: an execution of two parts is one of the first, or
  goes on with one of the second.
* `Execution.invariant`: what every granted, refused and torn request keeps, every execution keeps.
-/

namespace PartitionSnapshot

/-! ## Torn requests -/

namespace FileTree

/-- What may be left of a tree while it is being removed: some entries are gone. -/
def Remains (tree left : FileTree) : Prop :=
  ∀ place, left.view place = none ∨ left.view place = tree.view place

/-- What a crash inside a request may leave. All other requests are atomic. -/
inductive Torn (tree : FileTree) : Request → FileTree → Prop
  /-- Some first part of the data was written. -/
  | append {path : Path} {data front : Bytes} {after : FileTree} :
      front <+: data → tree.append path front = .ok after → Torn tree (.append path data) after
  /-- The directories on the way to one of those that are missing were made. -/
  | makeDirectories {path : Path} {steps : List Path.Step} :
      steps <+: path.steps →
      Torn tree (.makeDirectories path) (tree.makeDirectoriesAlong steps).2
  /-- Some entries of the directory were removed. -/
  | removeTree {path : Path} {place : List String} {name : String}
      {children : List (String × FileTree)} {left : FileTree} :
      tree.locate path = .ok (.entry place name) →
      tree.at? (place ++ [name]) = some (.directory children) →
      Remains (.directory children) left →
      Torn tree (.removeTree path) (tree.putAt place name left)

end FileTree

/-- Whether the answer to a request says that it was done. -/
def Request.granted : (request : Request) → request.Answer → Bool
  | .hasDirectory _, (answer : Bool) => answer
  | .read _, (answer : Except Failure Bytes) => answer.isOk
  | .create _, (answer : Except Failure Unit) => answer.isOk
  | .append _ _, (answer : Except Failure Unit) => answer.isOk
  | .sync _, (answer : Except Failure Unit) => answer.isOk
  | .makeDirectories _, (answer : Except Failure Unit) => answer.isOk
  | .removeTree _, (answer : Except Failure Unit) => answer.isOk
  | .removeFile _, (answer : Except Failure Unit) => answer.isOk
  | .rename _ _, (answer : Except Failure Unit) => answer.isOk

/-! ## Executions -/

variable {α β : Type}

/-- How an execution ends. -/
inductive Ending (α : Type) where
  | finished (value : α)
  /-- By a crash, inside the given request or between two. -/
  | crashed (inside : Option Request)

/-- The request, if any, inside which a crash came, unless there was none. -/
def Ending.crash : Ending α → Option (Option Request)
  | .finished _ => none
  | .crashed inside => some inside

theorem Ending.eq_of_crash {ending : Ending α} {inside : Option Request}
    (h : ending.crash = some inside) : ending = .crashed inside := by
  cases ending with
  | finished value => cases h
  | crashed inside' =>
    cases h
    rfl

/-- `Execution procedure tree granted after ending`: the procedure, started on `tree`, leaves
`after` when it ends as `ending` says, and the file system granted the requests `granted` by
then. -/
inductive Execution : Procedure α → FileTree → List Request → FileTree → Ending α → Prop
  | done (value : α) (tree : FileTree) : Execution (.done value) tree [] tree (.finished value)
  | crash (procedure : Procedure α) (tree : FileTree) :
      Execution procedure tree [] tree (.crashed none)
  | torn {tree after : FileTree} {request : Request} (next : request.Answer → Procedure α) :
      tree.Torn request after →
      Execution (.step request next) tree [] after (.crashed (some request))
  | note {tree after : FileTree} {entry : Note} {rest : Procedure α} {granted : List Request}
      {ending : Ending α} :
      Execution rest tree granted after ending →
      Execution (.note entry rest) tree granted after ending
  | step {tree after : FileTree} {request : Request} {next : request.Answer → Procedure α}
      {granted : List Request} {ending : Ending α} :
      Execution (next (tree.perform request).1) (tree.perform request).2 granted after ending →
      Execution (.step request next) tree
        (if request.granted (tree.perform request).1 then request :: granted else granted)
        after ending

namespace Execution

/-! ## Executions and runs -/

/-- An execution that finishes is the run of the procedure. -/
theorem eval_eq {procedure : Procedure α} {tree after : FileTree} {granted : List Request}
    {ending : Ending α} (h : Execution procedure tree granted after ending) {value : α}
    (hending : ending = .finished value) : procedure.eval tree = (value, after) := by
  -- along the execution, which cannot come to a crash before the end
  induction h with
  | done value' tree =>
    cases hending
    rfl
  | crash => cases hending
  | torn => cases hending
  | note _ ih => exact ih hending
  | step _ ih => exact ih hending

/-- Every procedure has the execution that is its run. -/
theorem exists_finished (procedure : Procedure α) (tree : FileTree) : ∃ granted,
    Execution procedure tree granted (procedure.eval tree).2
      (.finished (procedure.eval tree).1) := by
  -- along the procedure, taking each request as the file system answers it
  induction procedure generalizing tree with
  | done value => exact ⟨[], .done value tree⟩
  | note entry rest ih =>
    obtain ⟨granted, h⟩ := ih tree
    exact ⟨granted, .note h⟩
  | step request next ih =>
    obtain ⟨granted, h⟩ := ih (tree.perform request).1 (tree.perform request).2
    exact ⟨_, .step h⟩

/-- A crash may come right after the end. -/
theorem crash_at_end {procedure : Procedure α} {tree after : FileTree} {granted : List Request}
    {ending : Ending α} (h : Execution procedure tree granted after ending) {value : α}
    (hending : ending = .finished value) :
    Execution procedure tree granted after (.crashed none) := by
  -- along the execution; only the last step is exchanged
  induction h with
  | done value' tree => exact .crash _ _
  | crash => cases hending
  | torn => cases hending
  | note _ ih => exact .note (ih hending)
  | step _ ih => exact .step (ih hending)

/-! ## Crashes between requests -/

end Execution

/-- The requests granted among the first `n` of a procedure, and the tree that is left then. -/
def Procedure.cut (tree : FileTree) : Procedure α → (n : Nat) → List Request × FileTree
  | .done _, _ => ([], tree)
  | .note _ rest, n => rest.cut tree n
  | .step _ _, 0 => ([], tree)
  | .step request next, n + 1 =>
    let (answer, after) := tree.perform request
    let (granted, left) := (next answer).cut after n
    (if request.granted answer then request :: granted else granted, left)

namespace Execution

/-- A crash may come after any number of requests. -/
theorem crash_after (procedure : Procedure α) (tree : FileTree) (n : Nat) :
    Execution procedure tree (procedure.cut tree n).1 (procedure.cut tree n).2
      (.crashed none) := by
  -- along the procedure, counting down with every request
  induction procedure generalizing tree n with
  | done value => exact .crash _ _
  | note entry rest ih => exact .note (ih tree n)
  | step request next ih =>
    cases n with
    | zero => exact .crash _ _
    | succ n => exact .step (ih _ _ n)

/-! ## Executions of two parts -/

/-- An execution of two parts crashes in the first, or goes through it and on with the second. -/
theorem of_bind {procedure : Procedure α} {next : α → Procedure β} {tree after : FileTree}
    {granted : List Request} {ending : Ending β}
    (h : Execution (procedure >>= next) tree granted after ending) :
    (∃ inside, ending = .crashed inside ∧
      Execution procedure tree granted after (.crashed inside)) ∨
    ∃ value mid front back, Execution procedure tree front mid (.finished value) ∧
      Execution (next value) mid back after ending ∧ granted = front ++ back := by
  -- along the first part: an execution of it alone is cut off where it ends
  induction procedure generalizing tree granted with
  -- the first part is at its end, and all that is left is the second
  | done value => exact .inr ⟨value, tree, [], granted, .done value tree, h, rfl⟩
  | note entry rest ih =>
    cases h with
    | crash => exact .inl ⟨none, rfl, .crash _ _⟩
    | note h =>
      rcases ih h with ⟨inside, rfl, hcrash⟩ | ⟨value, mid, front, back, hfirst, hnext, rfl⟩
      · exact .inl ⟨inside, rfl, .note hcrash⟩
      · exact .inr ⟨value, mid, front, back, .note hfirst, hnext, rfl⟩
  | step request rest ih =>
    cases h with
    -- a crash before the request, and one inside it, are crashes of the first part
    | crash => exact .inl ⟨none, rfl, .crash _ _⟩
    | torn _ htorn => exact .inl ⟨_, rfl, .torn rest htorn⟩
    | step h =>
      rcases ih _ h with ⟨inside, rfl, hcrash⟩ | ⟨value, mid, front, back, hfirst, hnext, rfl⟩
      · exact .inl ⟨inside, rfl, .step hcrash⟩
      · refine .inr ⟨value, mid, _, back, .step hfirst, hnext, ?_⟩
        split <;> rfl

/-- An execution of a task in two parts crashes in the first, fails with it, or goes through it and
on with the second. -/
theorem of_task_bind {task : Task α} {next : α → Task β} {tree after : FileTree}
    {granted : List Request} {ending : Ending (Except Error β)}
    (h : Execution (task >>= next).run tree granted after ending) :
    (∃ inside, ending = .crashed inside ∧
      Execution task.run tree granted after (.crashed inside)) ∨
    (∃ error, ending = .finished (.error error) ∧
      Execution task.run tree granted after (.finished (.error error))) ∨
    ∃ value mid front back, Execution task.run tree front mid (.finished (.ok value)) ∧
      Execution (next value).run mid back after ending ∧ granted = front ++ back := by
  -- a task goes on by the continuation of its result
  have h : Execution (task.run >>= ExceptT.bindCont next) tree granted after ending := h
  rcases h.of_bind with ⟨inside, rfl, hcrash⟩ | ⟨result, mid, front, back, hfirst, hnext, rfl⟩
  · exact .inl ⟨inside, rfl, hcrash⟩
  · cases result with
    | ok value => exact .inr (.inr ⟨value, mid, front, back, hfirst, hnext, rfl⟩)
    | error error =>
      -- the second part of a failed task does nothing, and a crash can only come after its end
      have hnext : Execution (.done (.error error) : Procedure (Except Error β)) mid back after
        ending := hnext
      cases hnext with
      | done => exact .inr (.inl ⟨error, rfl, by simpa using hfirst⟩)
      | crash => exact .inl ⟨none, rfl, by simpa using hfirst.crash_at_end rfl⟩

/-- An execution of a procedure whose value is only passed on is one of the procedure. -/
theorem of_bind_done {procedure : Procedure α} {next : α → Procedure β} {pass : α → β}
    (hnext : ∀ value, next value = .done (pass value)) {tree after : FileTree}
    {granted : List Request} {ending : Ending β}
    (h : Execution (procedure >>= next) tree granted after ending) :
    (∃ inside, ending = .crashed inside ∧
      Execution procedure tree granted after (.crashed inside)) ∨
    ∃ value, ending = .finished (pass value) ∧
      Execution procedure tree granted after (.finished value) := by
  rcases h.of_bind with hcrash | ⟨value, mid, front, back, hfirst, hlast, rfl⟩
  · exact .inl hcrash
  · rw [hnext] at hlast
    cases hlast with
    | done => exact .inr ⟨value, rfl, by simpa using hfirst⟩
    | crash => exact .inl ⟨none, rfl, by simpa using hfirst.crash_at_end rfl⟩

/-- So it crashes where the procedure does. -/
theorem exists_of_bind_done {procedure : Procedure α} {next : α → Procedure β}
    (hnext : ∀ value, ∃ result, next value = .done result) {tree after : FileTree}
    {granted : List Request} {ending : Ending β}
    (h : Execution (procedure >>= next) tree granted after ending) :
    ∃ ending' : Ending α, ending'.crash = ending.crash ∧
      Execution procedure tree granted after ending' := by
  -- what is passed on is a function of the value
  have hpass (value : α) : next value = .done (Classical.choose (hnext value)) :=
    Classical.choose_spec (hnext value)
  rcases of_bind_done hpass h with ⟨inside, rfl, hcrash⟩ | ⟨value, rfl, hfinished⟩
  · exact ⟨_, rfl, hcrash⟩
  · exact ⟨_, rfl, hfinished⟩

theorem of_lift {procedure : Procedure α} {tree after : FileTree} {granted : List Request}
    {ending : Ending (Except Error α)}
    (h : Execution (liftM procedure : Task α).run tree granted after ending) :
    (∃ inside, ending = .crashed inside ∧
      Execution procedure tree granted after (.crashed inside)) ∨
    ∃ value, ending = .finished (.ok value) ∧
      Execution procedure tree granted after (.finished value) :=
  of_bind_done (fun _ => rfl) h

/-- An execution comes to its first request, and crashes before it or inside it, or goes on with the
answer. -/
theorem of_step {request : Request} {next : request.Answer → Procedure α}
    {tree after : FileTree} {granted : List Request} {ending : Ending α}
    (h : Execution (.step request next) tree granted after ending) :
    (ending = .crashed none ∧ granted = [] ∧ after = tree) ∨
    (ending = .crashed (some request) ∧ granted = [] ∧ tree.Torn request after) ∨
    ∃ rest, Execution (next (tree.perform request).1) (tree.perform request).2 rest after ending ∧
      granted = if request.granted (tree.perform request).1 then request :: rest else rest := by
  cases h with
  | crash => exact .inl ⟨rfl, rfl, rfl⟩
  | torn _ htorn => exact .inr (.inl ⟨rfl, rfl, htorn⟩)
  | step h => exact .inr (.inr ⟨_, h, rfl⟩)

/-- The executions of a single request. -/
theorem of_request {request : Request} {tree after : FileTree} {granted : List Request}
    {ending : Ending request.Answer}
    (h : Execution (Procedure.request request) tree granted after ending) :
    (ending = .crashed none ∧ granted = [] ∧ after = tree) ∨
    (ending = .crashed (some request) ∧ granted = [] ∧ tree.Torn request after) ∨
    (after = (tree.perform request).2 ∧
      granted = (if request.granted (tree.perform request).1 then [request] else []) ∧
      (ending = .crashed none ∨ ending = .finished (tree.perform request).1)) := by
  rcases h.of_step with hbefore | hinside | ⟨rest, h, hgranted⟩
  · exact .inl hbefore
  · exact .inr (.inl hinside)
  · cases h with
    | done => exact .inr (.inr ⟨rfl, hgranted, .inr rfl⟩)
    | crash => exact .inr (.inr ⟨rfl, hgranted, .inl rfl⟩)

end Execution

/-! ## Invariants -/

namespace Procedure

/-- A procedure that only makes requests of a kind. -/
def Only (allowed : Request → Prop) : Procedure α → Prop
  | .done _ => True
  | .note _ rest => rest.Only allowed
  | .step request next => allowed request ∧ ∀ answer, (next answer).Only allowed

variable {allowed : Request → Prop}

theorem only_log (level : Level) (text : String) :
    (Procedure.log level text).Only allowed := trivial

theorem only_request {request : Request} (h : allowed request) :
    (Procedure.request request).Only allowed := ⟨h, fun _ => trivial⟩

theorem Only.bind {procedure : Procedure α} {next : α → Procedure β}
    (h : procedure.Only allowed) (hnext : ∀ value, (next value).Only allowed) :
    (procedure >>= next).Only allowed := by
  -- along the first part
  induction procedure with
  | done value => exact hnext value
  | note entry rest ih => exact ih h
  | step request rest ih => exact ⟨h.1, fun answer => ih answer (h.2 answer)⟩

theorem Only.mono {allowed' : Request → Prop} {procedure : Procedure α}
    (h : procedure.Only allowed) (himplies : ∀ request, allowed request → allowed' request) :
    procedure.Only allowed' := by
  -- along the procedure, request by request
  induction procedure with
  | done value => trivial
  | note entry rest ih => exact ih h
  | step request next ih => exact ⟨himplies _ h.1, fun answer => ih answer (h.2 answer)⟩

end Procedure

namespace Task

/-- A task that only makes requests of a kind. -/
def Only (allowed : Request → Prop) (task : Task α) : Prop := Procedure.Only allowed task.run

variable {allowed : Request → Prop}

theorem only_pure (value : α) : Task.Only allowed (pure value) := trivial

theorem only_throw (error : Error) : Task.Only allowed (throw error : Task α) := trivial

theorem only_ofExcept {ε : Type} (result : Except ε α) (toError : ε → Error) :
    Task.Only allowed (Task.ofExcept result toError) := trivial

theorem only_lift {procedure : Procedure α} (h : procedure.Only allowed) :
    Task.Only allowed (liftM procedure : Task α) :=
  Procedure.Only.bind h fun _ => trivial

theorem only_ofProcedure {procedure : Procedure (Except Failure α)}
    (h : procedure.Only allowed) (toError : Failure → Error) :
    Task.Only allowed (Task.ofProcedure procedure toError) :=
  Procedure.Only.bind h fun result => by cases result <;> trivial

theorem Only.attempt {task : Task α} (h : Task.Only allowed task) :
    Task.Only allowed task.attempt :=
  Procedure.Only.bind h fun _ => trivial

theorem Only.bind {task : Task α} {next : α → Task β} (h : Task.Only allowed task)
    (hnext : ∀ value, Task.Only allowed (next value)) : Task.Only allowed (task >>= next) :=
  Procedure.Only.bind h fun result => by
    cases result with
    | ok value => exact hnext value
    | error error => trivial

end Task

/-- What every request of a kind keeps, whether granted, refused or torn, all executions keep that
make only such requests. -/
theorem Execution.invariant {allowed : Request → Prop} (keeps : FileTree → Prop)
    (hperform : ∀ request, allowed request → ∀ tree, keeps tree →
      keeps (tree.perform request).2)
    (htorn : ∀ request, allowed request → ∀ tree after, keeps tree → tree.Torn request after →
      keeps after)
    {procedure : Procedure α} {tree after : FileTree} {granted : List Request} {ending : Ending α}
    (h : Execution procedure tree granted after ending) (honly : procedure.Only allowed)
    (hkeeps : keeps tree) :
    keeps after ∧ (∀ request ∈ granted, allowed request) ∧
      ∀ request, ending = .crashed (some request) → allowed request := by
  -- along the execution, with the requests that are left allowed as well
  induction h with
  | done => exact ⟨hkeeps, by simp, by simp⟩
  | crash => exact ⟨hkeeps, by simp, by simp⟩
  | torn next htear =>
    -- the crash came inside a request, and that is an allowed one
    refine ⟨htorn _ honly.1 _ _ hkeeps htear, by simp, ?_⟩
    rintro request hrequest
    cases hrequest
    exact honly.1
  | note _ ih => exact ih honly hkeeps
  | step _ ih =>
    obtain ⟨hafter, hgranted, hending⟩ := ih (honly.2 _) (hperform _ honly.1 _ hkeeps)
    refine ⟨hafter, ?_, hending⟩
    intro request hrequest
    split at hrequest
    · -- a granted request is this one or one of those after it
      rcases List.mem_cons.1 hrequest with rfl | hrequest
      · exact honly.1
      · exact hgranted request hrequest
    · exact hgranted request hrequest

/-- Only requests that a procedure makes are granted in its executions. -/
theorem Execution.allowed_of_mem {allowed : Request → Prop} {procedure : Procedure α}
    {tree after : FileTree} {granted : List Request} {ending : Ending α}
    (h : Execution procedure tree granted after ending) (honly : procedure.Only allowed) :
    ∀ request ∈ granted, allowed request :=
  (h.invariant (fun _ => True) (fun _ _ _ _ => trivial) (fun _ _ _ _ _ _ => trivial) honly
    trivial).2.1

/-- A request that only looks at the tree. -/
inductive Request.Looks : Request → Prop
  | hasDirectory (path : Path) : Looks (.hasDirectory path)
  | read (path : Path) : Looks (.read path)
  | sync (path : Path) : Looks (.sync path)

/-- A procedure that only looks at the tree changes nothing. -/
theorem Execution.of_looks {procedure : Procedure α} {tree after : FileTree}
    {granted : List Request} {ending : Ending α}
    (h : Execution procedure tree granted after ending) (honly : procedure.Only Request.Looks) :
    after = tree := by
  refine (h.invariant (· = tree) ?_ ?_ honly rfl).1
  · rintro request hlooks tree' rfl
    cases hlooks <;> rfl
  · rintro request hlooks tree' after' - htorn
    cases hlooks <;> cases htorn

/-- A procedure that makes no requests changes nothing. -/
theorem Execution.of_silent {procedure : Procedure α} {tree after : FileTree}
    {granted : List Request} {ending : Ending α}
    (h : Execution procedure tree granted after ending)
    (honly : procedure.Only fun _ => False) :
    after = tree ∧ granted = [] ∧ ∀ request, ending ≠ .crashed (some request) := by
  obtain ⟨hafter, hgranted, hending⟩ := h.invariant (· = tree) (fun _ hfalse => hfalse.elim)
    (fun _ hfalse => hfalse.elim) honly rfl
  exact ⟨hafter, List.eq_nil_iff_forall_not_mem.2 hgranted, hending⟩

/-- An execution of a task that is followed by notes alone is one of the task. -/
theorem Execution.of_task_bind_silent {task : Task α} {next : α → Task β}
    (hsilent : ∀ value, Task.Only (fun _ => False) (next value)) {tree after : FileTree}
    {granted : List Request} {ending : Ending (Except Error β)}
    (h : Execution (task >>= next).run tree granted after ending) :
    ∃ ending', Execution task.run tree granted after ending' := by
  rcases h.of_task_bind with ⟨inside, -, hcrash⟩ | ⟨error, -, hfail⟩ |
    ⟨value, mid, front, back, hfirst, hnext, rfl⟩
  · exact ⟨_, hcrash⟩
  · exact ⟨_, hfail⟩
  · obtain ⟨rfl, rfl, -⟩ := hnext.of_silent (hsilent value)
    exact ⟨_, by simpa using hfirst⟩

/-- A task that only looks at the tree is gone through, or the execution ends in it. -/
theorem Execution.of_looking_bind {task : Task α} {next : α → Task β}
    (hlooks : Task.Only Request.Looks task) {tree after : FileTree} {granted : List Request}
    {ending : Ending (Except Error β)}
    (h : Execution (task >>= next).run tree granted after ending) :
    (after = tree ∧ ∀ request ∈ granted, request.Looks) ∨
    ∃ value front back, Task.eval tree task = (.ok value, tree) ∧
      Execution (next value).run tree back after ending ∧ (∀ request ∈ front, request.Looks) ∧
      granted = front ++ back := by
  rcases h.of_task_bind with ⟨inside, -, hcrash⟩ | ⟨error, -, hfail⟩ |
    ⟨value, mid, front, back, hfirst, hnext, rfl⟩
  · exact .inl ⟨hcrash.of_looks hlooks, hcrash.allowed_of_mem hlooks⟩
  · exact .inl ⟨hfail.of_looks hlooks, hfail.allowed_of_mem hlooks⟩
  · have hsame : mid = tree := hfirst.of_looks hlooks
    rw [hsame] at hfirst hnext
    exact .inr ⟨value, front, back, hfirst.eval_eq rfl, hnext, hfirst.allowed_of_mem hlooks, rfl⟩

/-! ## Procedures that only read -/

namespace Replaying

variable {σ : Type} {allowed : Request → Prop}

/-- A task over a state machine that only makes requests of a kind. -/
def Only (allowed : Request → Prop) (task : Replaying σ α) : Prop :=
  ∀ state, (task.runFrom state).Only allowed

theorem only_pure (value : α) : Replaying.Only allowed (pure value : Replaying σ α) :=
  fun _ => trivial

theorem Only.bind {task : Replaying σ α} {next : α → Replaying σ β}
    (h : Replaying.Only allowed task) (hnext : ∀ value, Replaying.Only allowed (next value)) :
    Replaying.Only allowed (task >>= next) := fun state =>
  Procedure.Only.bind (h state) fun result => by
    obtain ⟨error | value, state⟩ := result
    · trivial
    · exact hnext value state

theorem only_ofTask {task : Task α} (h : Task.Only allowed task) :
    Replaying.Only allowed (Replaying.ofTask task : Replaying σ α) :=
  fun _ => Procedure.Only.bind h fun _ => trivial

theorem only_log (level : Level) (text : String) :
    Replaying.Only allowed (Replaying.log level text : Replaying σ Unit) :=
  fun _ => trivial

theorem only_ofContents (contents : Contents) (context : Context)
    (handle : Bytes → σ → Handled σ) :
    Replaying.Only allowed (ofContents contents context handle) := by
  intro state
  -- the replay itself makes no requests, it only leaves notes
  have hlog (notes : List Note) : (logAll notes).Only allowed := by
    induction notes with
    | nil => trivial
    | cons note rest ih => exact ih
  exact Procedure.Only.bind (hlog _) fun _ => trivial

theorem only_withCursor {cursor : UInt64} {task : Replaying (UInt64 × σ) α}
    (h : Replaying.Only allowed task) : Replaying.Only allowed (Store.withCursor cursor task) :=
  fun state => Procedure.Only.bind (h (cursor, state)) fun _ => trivial

end Replaying

/-- An execution of a task over a state machine in two parts crashes in the first, fails with it, or
goes through it and on with the second. -/
theorem Execution.of_replaying_bind {σ : Type} {task : Replaying σ α} {next : α → Replaying σ β}
    {state : σ} {tree after : FileTree} {granted : List Request}
    {ending : Ending (Except Error β × σ)}
    (h : Execution ((task >>= next).runFrom state) tree granted after ending) :
    (∃ ending' : Ending (Except Error α × σ),
      Execution (task.runFrom state) tree granted after ending') ∨
    ∃ value middle mid front back,
      Execution (task.runFrom state) tree front mid (.finished (.ok value, middle)) ∧
      Execution ((next value).runFrom middle) mid back after ending ∧ granted = front ++ back := by
  -- the task goes on by the continuation of its result, from the state that it has left
  have h : Execution (task.runFrom state >>= fun result =>
    (ExceptT.bindCont next result.1).run result.2) tree granted after ending := h
  rcases h.of_bind with ⟨inside, rfl, hcrash⟩ |
    ⟨⟨error | value, middle⟩, mid, front, back, hfirst, hnext, rfl⟩
  · exact .inl ⟨_, hcrash⟩
  · -- a task that has failed makes no more requests
    obtain ⟨rfl, rfl, -⟩ := hnext.of_silent trivial
    exact .inl ⟨_, by simpa using hfirst⟩
  · exact .inr ⟨value, middle, mid, front, back, hfirst, hnext, rfl⟩

/-- A procedure that only reads files leaves the tree as it is, and comes to the same in any tree in
which the files can be read alike. -/
theorem Procedure.eval_of_reads {paths : Path → Prop} {procedure : Procedure α}
    (honly : procedure.Only fun request => ∃ path, paths path ∧ request = .read path)
    (tree : FileTree) :
    (procedure.eval tree).2 = tree ∧
      ∀ tree', (∀ path, paths path → tree'.read path = tree.read path) →
        (procedure.eval tree').1 = (procedure.eval tree).1 := by
  -- along the procedure; each answer is the same in both trees, and with it the rest
  induction procedure with
  | done value => exact ⟨rfl, fun _ _ => rfl⟩
  | note entry rest ih => exact ih honly
  | step request next ih =>
    obtain ⟨⟨path, hpath, rfl⟩, honly⟩ := honly
    obtain ⟨hstays, hsame⟩ := ih (tree.read path) (honly _)
    refine ⟨hstays, fun tree' hreads => ?_⟩
    have hnext : (next (tree'.read path)).eval tree' = (next (tree.read path)).eval tree' := by
      rw [hreads path hpath]
    rw [eval_step, eval_step]
    exact (congrArg Prod.fst hnext).trans (hsame tree' hreads)

end PartitionSnapshot
