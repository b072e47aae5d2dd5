import PartitionSnapshot.Bytes

/-!
# File trees

A file tree is a file with its content, or a directory with named children. The children of a
directory are a list that is only ever looked at through names: the first child of a name counts,
putting a child replaces the one of its name, and dropping a name leaves none. What order the
children have, and what stands behind the first child of a name, cannot be seen.

A place in a tree is the list of names that leads to it.
-/

namespace PartitionSnapshot

/-- A file, or a directory with named children. -/
inductive FileTree where
  | file (content : Bytes)
  | directory (children : List (String × FileTree))
  deriving Inhabited

namespace FileTree

/-- The tree of an empty directory. -/
def empty : FileTree := .directory []

/-- Whether the tree is a directory. -/
def isDirectory : FileTree → Bool
  | .file _ => false
  | .directory _ => true

/-! ## Children -/

/-- The children with `child` as the one of its name. -/
def put (name : String) (child : FileTree) : List (String × FileTree) → List (String × FileTree)
  | [] => [(name, child)]
  | (n, c) :: rest => if n = name then (name, child) :: rest else (n, c) :: put name child rest

/-- The children without those of a name. -/
def drop (name : String) (children : List (String × FileTree)) : List (String × FileTree) :=
  children.filter (·.1 != name)

theorem lookup_cons (name other : String) (child : FileTree)
    (children : List (String × FileTree)) :
    ((name, child) :: children).lookup other =
      if other = name then some child else children.lookup other := by
  by_cases h : other = name
  · simp [h]
  · simp [List.lookup_cons, beq_eq_false_iff_ne.2 h, h]

@[simp] theorem lookup_put (name other : String) (child : FileTree)
    (children : List (String × FileTree)) :
    (put name child children).lookup other =
      if other = name then some child else children.lookup other := by
  induction children with
  | nil => exact lookup_cons name other child []
  | cons head rest ih =>
    obtain ⟨n, c⟩ := head
    simp only [put]
    split
    · next h => simp only [lookup_cons, h]; split <;> rfl
    · next h =>
      simp only [lookup_cons, ih]
      split
      · next hother => rw [if_neg (hother ▸ h)]
      · rfl

@[simp] theorem lookup_drop (name other : String) (children : List (String × FileTree)) :
    (drop name children).lookup other =
      if other = name then none else children.lookup other := by
  induction children with
  | nil => simp [drop]
  | cons head rest ih =>
    obtain ⟨n, c⟩ := head
    simp only [drop, List.filter_cons] at ih ⊢
    split
    · next h =>
      simp only [lookup_cons, ih]
      split
      · next hother => rw [if_neg (hother ▸ bne_iff_ne.1 h)]
      · rfl
    · next h =>
      have h : n = name := by simpa using h
      simp only [lookup_cons, ih, h]
      split <;> rfl

/-! ## Places -/

/-- The tree at a place. -/
def at? : FileTree → List String → Option FileTree
  | tree, [] => some tree
  | .file _, _ :: _ => none
  | .directory children, name :: place => do (← children.lookup name).at? place
termination_by structural _ place => place

/-- Changes the children of the directory at a place. -/
def alter (change : List (String × FileTree) → List (String × FileTree)) :
    List String → FileTree → FileTree
  | _, .file content => .file content
  | [], .directory children => .directory (change children)
  | name :: place, .directory children =>
    match children.lookup name with
    | some child => .directory (put name (alter change place child) children)
    | none => .directory children
termination_by structural place _ => place

/-- The tree with the given tree as child of the directory at a place. -/
def putAt (tree : FileTree) (place : List String) (name : String) (child : FileTree) : FileTree :=
  tree.alter (put name child) place

/-- The tree without a child of the directory at a place. -/
def dropAt (tree : FileTree) (place : List String) (name : String) : FileTree :=
  tree.alter (drop name) place

end FileTree

end PartitionSnapshot
