import PartitionSnapshot.FileTree.Operations

/-!
# Procedures

What the store does is a procedure: a tree of requests to the file system, each followed by what is
done with its answer, with notes for the log in between. A procedure can be run on a file tree,
carried out on a real file system, or cut short at any request.
-/

namespace PartitionSnapshot

/-! ## Notes -/

/-- How much a note matters. -/
inductive Level where
  | debug
  | info
  | warn
  | error
  deriving DecidableEq, Repr

/-- The name of a level. -/
def Level.name : Level → String
  | .debug => "DEBUG"
  | .info => "INFO"
  | .warn => "WARN"
  | .error => "ERROR"

/-- A note for the log. -/
structure Note where
  level : Level
  text : String
  deriving DecidableEq, Repr

/-- The line of a note. -/
def Note.line (note : Note) : String := s!"{note.level.name} {note.text}"

/-! ## Requests -/

/-- A request to a file system. -/
inductive Request where
  /-- Whether a path leads to a directory. -/
  | hasDirectory (path : Path)
  /-- The content of a file. -/
  | read (path : Path)
  /-- Make an empty file, or empty the one that is there. -/
  | create (path : Path)
  /-- Write data at the end of a file. -/
  | append (path : Path) (data : Bytes)
  /-- Force a file or directory to stable storage. -/
  | sync (path : Path)
  | makeDirectories (path : Path)
  /-- Remove a directory and everything in it. -/
  | removeTree (path : Path)
  | removeFile (path : Path)
  | rename (source target : Path)
  deriving DecidableEq, Repr

/-- What a request is answered with. -/
def Request.Answer : Request → Type
  | .hasDirectory _ => Bool
  | .read _ => Except Failure Bytes
  | _ => Except Failure Unit

namespace FileTree

/-- Takes the changed tree when an operation succeeds. -/
def settle (tree : FileTree) : Except Failure FileTree → Except Failure Unit × FileTree
  | .ok after => (.ok (), after)
  | .error failure => (.error failure, tree)

/-- Answers a request. -/
def perform (tree : FileTree) : (request : Request) → request.Answer × FileTree
  | .hasDirectory path => (tree.hasDirectory path, tree)
  | .read path => (tree.read path, tree)
  | .create path => tree.settle (tree.create path)
  | .append path data => tree.settle (tree.append path data)
  | .sync path => ((tree.find path).map fun _ => (), tree)
  | .makeDirectories path => tree.makeDirectories path
  | .removeTree path => tree.settle (tree.removeTree path)
  | .removeFile path => tree.settle (tree.removeFile path)
  | .rename source target => tree.settle (tree.rename source target)

end FileTree

/-! ## Procedures -/

/-- A tree of requests and notes that ends in a value. -/
inductive Procedure (α : Type) where
  | done (value : α)
  | note (entry : Note) (rest : Procedure α)
  | step (request : Request) (next : request.Answer → Procedure α)

namespace Procedure

/-- Goes on with the value in which a procedure ends. -/
def andThen (next : α → Procedure β) : Procedure α → Procedure β
  | .done value => next value
  | .note entry rest => .note entry (rest.andThen next)
  | .step request rest => .step request fun answer => (rest answer).andThen next

instance : Monad Procedure where
  pure := .done
  bind procedure next := procedure.andThen next

/-- The procedure with only some of its notes. -/
def keepNotes (keep : Note → Bool) : Procedure α → Procedure α
  | .done value => .done value
  | .note entry rest =>
    if keep entry then .note entry (rest.keepNotes keep) else rest.keepNotes keep
  | .step request rest => .step request fun answer => (rest answer).keepNotes keep

/-- The procedure of one request. -/
def request (request : Request) : Procedure request.Answer := .step request .done

/-- What running a procedure comes to. -/
structure Outcome (α : Type) where
  value : α
  tree : FileTree
  /-- The notes, in order. -/
  notes : List Note

/-- Runs a procedure on a file tree. -/
def run (tree : FileTree) : Procedure α → Outcome α
  | .done value => ⟨value, tree, []⟩
  | .note entry rest =>
    let outcome := rest.run tree
    { outcome with notes := entry :: outcome.notes }
  | .step request next =>
    let (answer, after) := tree.perform request
    (next answer).run after

/-! ## The single requests -/

/-- Whether a path leads to a directory. -/
def hasDirectory (path : Path) : Procedure Bool := request (.hasDirectory path)

/-- The content of a file. -/
def read (path : Path) : Procedure (Except Failure Bytes) := request (.read path)

/-- Makes an empty file, or empties the one that is there. -/
def create (path : Path) : Procedure (Except Failure Unit) := request (.create path)

/-- Writes data at the end of a file. -/
def append (path : Path) (data : Bytes) : Procedure (Except Failure Unit) :=
  request (.append path data)

/-- Forces a file or directory to stable storage. -/
def sync (path : Path) : Procedure (Except Failure Unit) := request (.sync path)

/-- Makes a directory and those above it that are missing. -/
def makeDirectories (path : Path) : Procedure (Except Failure Unit) :=
  request (.makeDirectories path)

/-- Removes a directory and everything in it. -/
def removeTree (path : Path) : Procedure (Except Failure Unit) := request (.removeTree path)

/-- Removes a file. -/
def removeFile (path : Path) : Procedure (Except Failure Unit) := request (.removeFile path)

/-- Renames a file or directory. -/
def rename (source target : Path) : Procedure (Except Failure Unit) :=
  request (.rename source target)

/-- A note for the log. -/
def log (level : Level) (text : String) : Procedure Unit := .note ⟨level, text⟩ (.done ())

end Procedure

end PartitionSnapshot
