import PartitionSnapshot.Store.Load

/-!
# What procedures come to

Running a procedure on a file tree gives a value, a tree and notes. The notes change nothing, so
what a procedure comes to is a pair: `eval` gives it, for procedures, for tasks and for tasks over a
state machine. One law for each way of building them takes a long procedure apart, request by
request, in the order of its steps.
-/

namespace PartitionSnapshot

variable {α β σ : Type}

/-! ## Procedures -/

namespace Procedure

/-- The value in which a procedure ends, and the tree that it leaves. -/
def eval (tree : FileTree) (procedure : Procedure α) : α × FileTree :=
  ((procedure.run tree).value, (procedure.run tree).tree)

@[simp] theorem eval_done (tree : FileTree) (value : α) :
    (Procedure.done value).eval tree = (value, tree) := rfl

@[simp] theorem eval_pure (tree : FileTree) (value : α) :
    (pure value : Procedure α).eval tree = (value, tree) := rfl

@[simp] theorem eval_note (tree : FileTree) (entry : Note) (rest : Procedure α) :
    (Procedure.note entry rest).eval tree = rest.eval tree := rfl

@[simp] theorem eval_step (tree : FileTree) (request : Request)
    (next : request.Answer → Procedure α) :
    (Procedure.step request next).eval tree =
      (next (tree.perform request).1).eval (tree.perform request).2 := rfl

@[simp] theorem eval_request (tree : FileTree) (request : Request) :
    (Procedure.request request).eval tree = tree.perform request := rfl

@[simp] theorem eval_log (tree : FileTree) (level : Level) (text : String) :
    (Procedure.log level text).eval tree = ((), tree) := rfl

theorem eval_hasDirectory (tree : FileTree) (path : Path) :
    (hasDirectory path).eval tree = (tree.hasDirectory path, tree) := rfl

theorem eval_read (tree : FileTree) (path : Path) :
    (read path).eval tree = (tree.read path, tree) := rfl

theorem eval_create (tree : FileTree) (path : Path) :
    (create path).eval tree = tree.settle (tree.create path) := rfl

theorem eval_append (tree : FileTree) (path : Path) (data : Bytes) :
    (append path data).eval tree = tree.settle (tree.append path data) := rfl

theorem eval_sync (tree : FileTree) (path : Path) :
    (sync path).eval tree = ((tree.find path).map fun _ => (), tree) := rfl

theorem eval_makeDirectories (tree : FileTree) (path : Path) :
    (makeDirectories path).eval tree = tree.makeDirectories path := rfl

theorem eval_removeTree (tree : FileTree) (path : Path) :
    (removeTree path).eval tree = tree.settle (tree.removeTree path) := rfl

theorem eval_removeFile (tree : FileTree) (path : Path) :
    (removeFile path).eval tree = tree.settle (tree.removeFile path) := rfl

theorem eval_rename (tree : FileTree) (source target : Path) :
    (rename source target).eval tree = tree.settle (tree.rename source target) := rfl

@[simp] theorem eval_bind (tree : FileTree) (procedure : Procedure α)
    (next : α → Procedure β) :
    (procedure >>= next).eval tree =
      (next (procedure.eval tree).1).eval (procedure.eval tree).2 := by
  -- along the requests and notes of the first part
  induction procedure generalizing tree with
  | done value => rfl
  | note entry rest ih => exact ih tree
  | step request rest ih => exact ih _ _

/-- A procedure goes on where its first part ends. -/
theorem eval_bind_of_eq {tree after : FileTree} {procedure : Procedure α} {value : α}
    (next : α → Procedure β) (h : procedure.eval tree = (value, after)) :
    (procedure >>= next).eval tree = (next value).eval after := by
  rw [eval_bind, h]

theorem eval_map (tree : FileTree) (procedure : Procedure α) (change : α → β) :
    (change <$> procedure).eval tree =
      (change (procedure.eval tree).1, (procedure.eval tree).2) :=
  eval_bind tree procedure fun value => pure (change value)

end Procedure

/-! ## Tasks -/

namespace Task

/-- The value or error in which a task ends, and the tree that it leaves. -/
def eval (tree : FileTree) (task : Task α) : Except Error α × FileTree :=
  Procedure.eval tree task.run

@[simp] theorem eval_pure (tree : FileTree) (value : α) :
    Task.eval tree (pure value) = (.ok value, tree) := rfl

@[simp] theorem eval_throw (tree : FileTree) (error : Error) :
    Task.eval tree (throw error : Task α) = (.error error, tree) := rfl

@[simp] theorem eval_lift (tree : FileTree) (procedure : Procedure α) :
    Task.eval tree (liftM procedure) =
      (.ok (procedure.eval tree).1, (procedure.eval tree).2) :=
  Procedure.eval_map tree procedure Except.ok

theorem eval_bind (tree : FileTree) (task : Task α) (next : α → Task β) :
    Task.eval tree (task >>= next) =
      match Task.eval tree task with
      | (.ok value, after) => Task.eval after (next value)
      | (.error error, after) => (.error error, after) := by
  have h := Procedure.eval_bind tree task.run (ExceptT.bindCont next)
  refine h.trans ?_
  unfold Task.eval
  rcases task.run.eval tree with ⟨value | error, after⟩ <;> rfl

theorem eval_bind_ok {tree after : FileTree} {task : Task α} {value : α} (next : α → Task β)
    (h : Task.eval tree task = (.ok value, after)) :
    Task.eval tree (task >>= next) = Task.eval after (next value) := by
  rw [eval_bind, h]

theorem eval_bind_error {tree after : FileTree} {task : Task α} {error : Error}
    (next : α → Task β) (h : Task.eval tree task = (.error error, after)) :
    Task.eval tree (task >>= next) = (.error error, after) := by
  rw [eval_bind, h]

/-- A task that ends in a value has gone through its first part. -/
theorem eval_bind_eq_ok {tree after : FileTree} {task : Task α} {next : α → Task β} {value : β}
    (h : Task.eval tree (task >>= next) = (.ok value, after)) :
    ∃ first mid, Task.eval tree task = (.ok first, mid) ∧
      Task.eval mid (next first) = (.ok value, after) := by
  rw [eval_bind] at h
  rcases hfirst : Task.eval tree task with ⟨error | first, mid⟩
  · rw [hfirst] at h
    cases h
  · rw [hfirst] at h
    exact ⟨first, mid, rfl, h⟩

theorem eval_ofProcedure (tree : FileTree) (procedure : Procedure (Except Failure α))
    (toError : Failure → Error) :
    Task.eval tree (Task.ofProcedure procedure toError) =
      match procedure.eval tree with
      | (.ok value, after) => (.ok value, after)
      | (.error failure, after) => (.error (toError failure), after) := by
  refine (Procedure.eval_bind tree procedure _).trans ?_
  rcases procedure.eval tree with ⟨failure | value, after⟩ <;> rfl

theorem eval_ofProcedure_ok {tree after : FileTree} {procedure : Procedure (Except Failure α)}
    {value : α} (toError : Failure → Error) (h : procedure.eval tree = (.ok value, after)) :
    Task.eval tree (Task.ofProcedure procedure toError) = (.ok value, after) := by
  rw [eval_ofProcedure, h]

@[simp] theorem eval_ofExcept (tree : FileTree) {ε : Type} (result : Except ε α)
    (toError : ε → Error) :
    Task.eval tree (Task.ofExcept result toError) = (result.mapError toError, tree) := rfl

theorem eval_attempt (tree : FileTree) (task : Task α) :
    Task.eval tree task.attempt = (.ok (Task.eval tree task).1, (Task.eval tree task).2) :=
  -- the second part only wraps the result
  Procedure.eval_bind tree task.run _

end Task

/-! ## Tasks over a state machine -/

namespace Replaying

/-- The value or error in which a task over a state machine ends, the state that it leaves, and the
tree. -/
def eval (tree : FileTree) (state : σ) (task : Replaying σ α) : (Except Error α × σ) × FileTree :=
  Procedure.eval tree (task.runFrom state)

@[simp] theorem eval_pure (tree : FileTree) (state : σ) (value : α) :
    Replaying.eval tree state (pure value) = ((.ok value, state), tree) := rfl

theorem eval_bind (tree : FileTree) (state : σ) (task : Replaying σ α)
    (next : α → Replaying σ β) :
    Replaying.eval tree state (task >>= next) =
      match Replaying.eval tree state task with
      | ((.ok value, state), after) => Replaying.eval after state (next value)
      | ((.error error, state), after) => ((.error error, state), after) := by
  have h := Procedure.eval_bind tree (task.runFrom state)
    fun result => (ExceptT.bindCont next result.1).run result.2
  refine h.trans ?_
  unfold Replaying.eval
  rcases (task.runFrom state).eval tree with ⟨⟨value | error, state'⟩, after⟩ <;> rfl

theorem eval_bind_ok {tree after : FileTree} {state state' : σ} {task : Replaying σ α} {value : α}
    (next : α → Replaying σ β)
    (h : Replaying.eval tree state task = ((.ok value, state'), after)) :
    Replaying.eval tree state (task >>= next) = Replaying.eval after state' (next value) := by
  rw [eval_bind, h]

theorem eval_bind_error {tree after : FileTree} {state state' : σ} {task : Replaying σ α}
    {error : Error} (next : α → Replaying σ β)
    (h : Replaying.eval tree state task = ((.error error, state'), after)) :
    Replaying.eval tree state (task >>= next) = ((.error error, state'), after) := by
  rw [eval_bind, h]

theorem eval_bind_eq_ok {tree after : FileTree} {state state' : σ} {task : Replaying σ α}
    {next : α → Replaying σ β} {value : β}
    (h : Replaying.eval tree state (task >>= next) = ((.ok value, state'), after)) :
    ∃ first middle mid, Replaying.eval tree state task = ((.ok first, middle), mid) ∧
      Replaying.eval mid middle (next first) = ((.ok value, state'), after) := by
  rw [eval_bind] at h
  rcases hfirst : Replaying.eval tree state task with ⟨⟨error | first, middle⟩, mid⟩
  · rw [hfirst] at h
    cases h
  · rw [hfirst] at h
    exact ⟨first, middle, mid, rfl, h⟩

/-- A task that leaves the state machine alone. -/
theorem eval_ofTask (tree : FileTree) (state : σ) (task : Task α) :
    Replaying.eval tree state (Replaying.ofTask task) =
      (((Task.eval tree task).1, state), (Task.eval tree task).2) :=
  Procedure.eval_bind tree task.run _

@[simp] theorem eval_log (tree : FileTree) (state : σ) (level : Level) (text : String) :
    Replaying.eval tree state (Replaying.log level text) = ((.ok (), state), tree) := rfl

@[simp] theorem eval_logAll (tree : FileTree) (notes : List Note) :
    (logAll notes).eval tree = ((), tree) := by
  -- notes leave the tree alone, one after the other
  induction notes with
  | nil => rfl
  | cons note rest ih => exact ih

theorem eval_ofContents (tree : FileTree) (state : σ) (contents : Contents) (context : Context)
    (handle : Bytes → σ → Handled σ) :
    Replaying.eval tree state (ofContents contents context handle) =
      (((contents.replay context handle state).1, (contents.replay context handle state).2.1),
        tree) := by
  refine (Procedure.eval_bind tree (logAll (contents.replay context handle state).2.2) _).trans ?_
  -- only the notes of the replay are a procedure, and they change nothing
  rw [eval_logAll]
  rfl

end Replaying

end PartitionSnapshot
