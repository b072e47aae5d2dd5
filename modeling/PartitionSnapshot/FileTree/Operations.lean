import PartitionSnapshot.Failure
import PartitionSnapshot.FileTree.Basic
import PartitionSnapshot.FileTree.Path

/-!
# Operations on file trees

What a file system does for a path: finding where the path leads, and the changes by which entries
are made, removed, filled and renamed. An operation that fails changes nothing, and says why in the
terms of the system.

A path is followed step by step through directories that are there; only its last step may name an
entry that is not.
-/

namespace PartitionSnapshot.FileTree

/-! ## Finding -/

/-- Where a path leads. -/
inductive Spot where
  /-- The path ends in `.` or `..`, at a directory that is there. -/
  | folder (place : List String)
  /-- The path ends in a name, inside a directory that is there. -/
  | entry (place : List String) (name : String)
  deriving DecidableEq, Repr

/-- A refusal by the system. -/
def refuse (error : SystemError) : Except Failure α := .error (.system error)

/-- The greatest length of a name, in bytes of UTF-8. -/
def maxName : Nat := 255

/-- The greatest length of a path as a whole, in bytes of UTF-8. -/
def maxPath : Nat := 4095

/-- Refuses a path that cannot be handed to the system. -/
def checkPath (path : Path) : Except Failure Unit :=
  if path.text.toList.contains '\x00' then .error .nullInPath
  else if maxPath < path.text.utf8ByteSize then refuse .nameTooLong
  else .ok ()

/-- Follows steps from the directory at a place. -/
def follow (tree : FileTree) : (place : List String) → List Path.Step → Except Failure Spot
  | place, [] => .ok (.folder place)
  | place, .stay :: rest => follow tree place rest
  | place, .up :: rest => follow tree place.dropLast rest
  | place, [.down name] =>
    if maxName < name.utf8ByteSize then refuse .nameTooLong else .ok (.entry place name)
  | place, .down name :: rest =>
    if maxName < name.utf8ByteSize then refuse .nameTooLong
    else
      match tree.at? (place ++ [name]) with
      | none => refuse .noEntry
      | some (.file _) => refuse .notDirectory
      | some (.directory _) => follow tree (place ++ [name]) rest

/-- Where a path leads from the root of the tree. -/
def locate (tree : FileTree) (path : Path) : Except Failure Spot := do
  checkPath path
  if path.text.isEmpty then refuse .noEntry
  else tree.follow [] path.steps

/-- What is at a spot. -/
def atSpot? (tree : FileTree) : Spot → Option FileTree
  | .folder place => tree.at? place
  | .entry place name => tree.at? (place ++ [name])

/-- What a path leads to. A path that ends in a slash has to lead to a directory. -/
def find (tree : FileTree) (path : Path) : Except Failure FileTree := do
  match tree.atSpot? (← tree.locate path) with
  | none => refuse .noEntry
  | some (.file content) =>
    if path.endsInSlash then refuse .notDirectory else return .file content
  | some (.directory children) => return .directory children

/-- Whether a path leads to a directory. -/
def hasDirectory (tree : FileTree) (path : Path) : Bool :=
  match tree.find path with
  | .ok (.directory _) => true
  | _ => false

/-- The content of the file that a path leads to. -/
def read (tree : FileTree) (path : Path) : Except Failure Bytes := do
  match ← tree.find path with
  | .file content => return content
  | .directory _ => refuse .isDirectory

/-! ## Files -/

/-- Puts a file where a path leads, in place of one that is there. -/
def write (tree : FileTree) (path : Path) (content : Bytes) : Except Failure FileTree := do
  match ← tree.locate path with
  | .folder _ => refuse .isDirectory
  | .entry place name =>
    if path.endsInSlash then refuse .isDirectory
    else
      match tree.at? (place ++ [name]) with
      | some (.directory _) => refuse .isDirectory
      | _ => return tree.putAt place name (.file content)

/-- Makes an empty file, or empties the one that is there. -/
def create (tree : FileTree) (path : Path) : Except Failure FileTree :=
  tree.write path []

/-- Appends to a file. -/
def append (tree : FileTree) (path : Path) (data : Bytes) : Except Failure FileTree := do
  tree.write path ((← tree.read path) ++ data)

/-- Changes the content of a file. -/
def edit (tree : FileTree) (path : Path) (change : Bytes → Bytes) : Except Failure FileTree := do
  tree.write path (change (← tree.read path))

/-- Removes a file. -/
def removeFile (tree : FileTree) (path : Path) : Except Failure FileTree := do
  match ← tree.locate path with
  | .folder _ => refuse .isDirectory
  | .entry place name =>
    match tree.at? (place ++ [name]) with
    | none => refuse .noEntry
    | some (.directory _) => refuse .isDirectory
    | some (.file _) =>
      if path.endsInSlash then refuse .notDirectory else return tree.dropAt place name

/-! ## Directories -/

/-- Makes one directory. -/
def makeDirectory (tree : FileTree) (steps : List Path.Step) : Except Failure FileTree := do
  match ← tree.follow [] steps with
  | .folder _ => refuse .fileExists
  | .entry place name =>
    match tree.at? (place ++ [name]) with
    | some _ => refuse .fileExists
    | none => return tree.putAt place name (.directory [])

/-- Whether steps lead to a directory. -/
def stepsToDirectory (tree : FileTree) (steps : List Path.Step) : Bool :=
  match tree.follow [] steps with
  | .ok spot => (tree.atSpot? spot).any isDirectory
  | .error _ => false

/-- The steps that lead to the parent: without the last one that is not `.`, and without every `.`
around it, since a `.` at the end can be made only where its directory is there already. -/
def parentSteps (steps : List Path.Step) : List Path.Step :=
  ((steps.reverse.dropWhile (· == .stay)).tail.dropWhile (· == .stay)).reverse

theorem length_parentSteps {steps : List Path.Step} (h : steps ≠ []) :
    (parentSteps steps).length < steps.length := by
  have hdrop : (steps.reverse.dropWhile (· == .stay)).length ≤ steps.reverse.length :=
    (List.dropWhile_sublist _).length_le
  have hagain := ((steps.reverse.dropWhile (· == .stay)).tail.dropWhile_sublist
    (· == Path.Step.stay)).length_le
  have hpos : 0 < steps.length := List.length_pos_iff.2 h
  simp only [parentSteps, List.length_reverse, List.length_tail] at hdrop hagain ⊢
  omega

/-- Makes a directory where the steps lead unless one is there, and gives the reason when it cannot;
what was made on the way stays. -/
def makeOrKeep (tree : FileTree) (steps : List Path.Step) : Except Failure Unit × FileTree :=
  match tree.makeDirectory steps with
  | .ok after => (.ok (), after)
  | .error failure =>
    if tree.stepsToDirectory steps then (.ok (), tree) else (.error failure, tree)

/-- Makes a directory and those above it that are missing. -/
def makeDirectoriesAlong (tree : FileTree) (steps : List Path.Step) :
    Except Failure Unit × FileTree :=
  if _h : steps = [] then (.ok (), tree)
  else
    match tree.makeDirectory steps with
    | .ok after => (.ok (), after)
    | .error failure =>
      if failure = .system .noEntry then
        match makeDirectoriesAlong tree (parentSteps steps) with
        | (.error failure, after) => (.error failure, after)
        | (.ok (), after) => after.makeOrKeep steps
      else if tree.stepsToDirectory steps then (.ok (), tree)
      else (.error failure, tree)
termination_by steps.length
decreasing_by exact length_parentSteps _h

/-- Makes the directory that a path names, and those above it that are missing. What was made before
a failure stays. -/
def makeDirectories (tree : FileTree) (path : Path) : Except Failure Unit × FileTree :=
  match checkPath path with
  | .error failure => (.error failure, tree)
  | .ok () => tree.makeDirectoriesAlong path.steps

/-- Removes a directory and everything in it. -/
def removeTree (tree : FileTree) (path : Path) : Except Failure FileTree := do
  match ← tree.locate path with
  | .folder _ => refuse .invalidArgument
  | .entry place name =>
    match tree.at? (place ++ [name]) with
    | none => refuse .noEntry
    | some (.file _) => refuse .notDirectory
    | some (.directory _) => return tree.dropAt place name

/-! ## Renaming -/

/-- Whether an entry may take the place of another. -/
def checkReplacing : FileTree → Option FileTree → Except Failure Unit
  | _, none => .ok ()
  | .directory _, some (.file _) => refuse .notDirectory
  | .directory _, some (.directory []) => .ok ()
  | .directory _, some (.directory (_ :: _)) => refuse .notEmpty
  | .file _, some (.file _) => .ok ()
  | .file _, some (.directory _) => refuse .isDirectory

/-- Renames an entry. It may take the place of a file, if it is one, or of an empty directory, if
it is a directory. -/
def rename (tree : FileTree) (source target : Path) : Except Failure FileTree := do
  match ← tree.locate source, ← tree.locate target with
  | .entry place name, .entry place' name' =>
    match tree.at? (place ++ [name]) with
    | none => refuse .noEntry
    | some moved =>
      if !moved.isDirectory && (source.endsInSlash || target.endsInSlash) then
        refuse .notDirectory
      else if place ++ [name] = place' ++ [name'] then return tree
      else if (place ++ [name]).isPrefixOf (place' ++ [name']) then refuse .invalidArgument
      else if (place' ++ [name']).isPrefixOf (place ++ [name]) then refuse .notEmpty
      else
        checkReplacing moved (tree.at? (place' ++ [name']))
        return (tree.dropAt place name).putAt place' name' moved
  | _, _ => refuse .busy

/-! ## Listing -/

/-- One line of a listing: a path, and the length of the file there unless it is a directory. -/
structure Listed where
  path : Path
  size : Option Nat
  deriving DecidableEq, Repr

mutual

/-- What a tree holds below a path: every entry by name, and behind a directory what it holds. -/
def listBelow (path : Path) : FileTree → List Listed
  | .file _ => []
  | .directory children =>
    ((listChildren path children).mergeSort fun a b => a.1 ≤ b.1).flatMap (·.2)

/-- The listings of children beside their names. -/
def listChildren (path : Path) : List (String × FileTree) → List (String × List Listed)
  | [] => []
  | (name, child) :: rest =>
    let size :=
      match child with
      | .file content => some content.length
      | .directory _ => none
    (name, ⟨path.join name, size⟩ :: listBelow (path.join name) child) :: listChildren path rest

end

end PartitionSnapshot.FileTree
