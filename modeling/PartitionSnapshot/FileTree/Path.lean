/-!
# Paths

A path is kept as the text it was given as, because that text is what messages repeat. Its meaning
is the sequence of steps it takes from the working directory.
-/

namespace PartitionSnapshot

/-- A path to a file or directory. -/
structure Path where
  text : String
  deriving DecidableEq, Repr, Inhabited

namespace Path

instance : ToString Path := ⟨Path.text⟩

/-- The path of `name` inside the directory `base`. -/
def join (base : Path) (name : String) : Path :=
  if base.text.isEmpty then ⟨name⟩
  else if base.text.toList.getLast? = some '/' then ⟨base.text ++ name⟩
  else ⟨base.text ++ "/" ++ name⟩

/-! ## Steps -/

/-- One component of a path. -/
inductive Step where
  /-- The component `.`. -/
  | stay
  /-- The component `..`. -/
  | up
  | down (name : String)
  deriving DecidableEq, Repr

/-- The step that a component takes. -/
def Step.ofComponent (component : List Char) : Step :=
  match component with
  | ['.'] => .stay
  | ['.', '.'] => .up
  | name => .down (String.ofList name)

/-- The non-empty components between slashes; `component` holds the current one in reverse. -/
def componentsFrom (component : List Char) : List Char → List (List Char)
  | [] => if component.isEmpty then [] else [component.reverse]
  | c :: rest =>
    if c = '/' then
      if component.isEmpty then componentsFrom [] rest
      else component.reverse :: componentsFrom [] rest
    else componentsFrom (c :: component) rest

/-- The steps of a path. Repeated slashes count as one. -/
def steps (path : Path) : List Step :=
  (componentsFrom [] path.text.toList).map Step.ofComponent

/-- Whether a path ends in a slash, by which it can only name a directory. -/
def endsInSlash (path : Path) : Bool :=
  path.text.toList.getLast? = some '/'

end Path

end PartitionSnapshot
