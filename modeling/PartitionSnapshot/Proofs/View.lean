import PartitionSnapshot.FileTree.Operations

/-!
# Views of file trees

A file tree is a list of children with names, and the same tree has many lists. Its *view* forgets
the lists: it says of every place whether there is nothing, a directory, or a file and with which
content. Whatever the operations on trees answer is decided by the view, and what they change is
one part of it: a part is *grafted* at a place, over whatever was there.

## Main statements

* `view_putAt`, `view_dropAt`: the two ways of changing a tree are grafts.
* `graft_self`, `graft_inside`, `below_graft_self`, `below_graft_of_apart`: the algebra of grafts, by
  which chains of changes are compared.
-/

namespace PartitionSnapshot

/-- What stands at a place: a file with its content, or a directory. -/
inductive Node where
  | file (content : Bytes)
  | directory
  deriving DecidableEq, Repr

/-- What can be seen of a file tree: what stands at every place, if anything. -/
abbrev View := List String → Option Node

namespace View

/-! ## Parts -/

/-- The view of nothing at all. -/
def nothing : View := fun _ => none

/-- The view of a single file. -/
def ofFile (content : Bytes) : View
  | [] => some (.file content)
  | _ :: _ => none

/-- The view of a directory that holds just the given files. -/
def ofFiles (files : String → Option Bytes) : View
  | [] => some .directory
  | [name] => (files name).map .file
  | _ :: _ :: _ => none

/-- What stands at a place and below it. -/
def below (view : View) (place : List String) : View := fun rest => view (place ++ rest)

/-- The view with a part at a place, instead of all that was at it and below it. -/
def graft (view : View) (place : List String) (part : View) : View := fun other =>
  if place <+: other then part (other.drop place.length) else view other

/-- The view with nothing left at a place. -/
def prune (view : View) (place : List String) : View := view.graft place nothing

/-- Neither of two places lies at or below the other. -/
def Apart (place other : List String) : Prop := ¬ place <+: other ∧ ¬ other <+: place

/-- Two entries of one directory, and whatever is below them, lie apart. -/
theorem apart_of_ne {place : List String} {a b : String} (rest rest' : List String) (h : a ≠ b) :
    Apart (place ++ a :: rest) (place ++ b :: rest') := by
  constructor
  · intro hunder
    rw [List.prefix_append_right_inj, List.cons_prefix_cons] at hunder
    exact h hunder.1
  · intro hunder
    rw [List.prefix_append_right_inj, List.cons_prefix_cons] at hunder
    exact h hunder.1.symm

/-! ## The algebra of grafts -/

@[simp] theorem graft_append (view : View) (place rest : List String) (part : View) :
    view.graft place part (place ++ rest) = part rest := by
  simp [graft]

@[simp] theorem graft_at (view : View) (place : List String) (part : View) :
    view.graft place part place = part [] := by
  simp [graft]

theorem graft_elsewhere {view : View} {place other : List String} {part : View}
    (h : ¬ place <+: other) : view.graft place part other = view other :=
  if_neg h

@[simp] theorem below_nil (view : View) : view.below [] = view := rfl

@[simp] theorem below_apply (view : View) (place rest : List String) :
    view.below place rest = view (place ++ rest) := rfl

/-- Where a part was grafted, it is found again. -/
@[simp] theorem below_graft_self (view : View) (place : List String) (part : View) :
    (view.graft place part).below place = part := by
  funext rest
  simp

/-- Below a place that lies apart, a graft changes nothing. -/
theorem below_graft_of_apart {view : View} {place other : List String} {part : View}
    (h : Apart place other) : (view.graft place part).below other = view.below other := by
  funext rest
  apply graft_elsewhere
  intro hunder
  -- of two prefixes of one place, one is a prefix of the other
  rcases List.prefix_or_prefix_of_prefix hunder (List.prefix_append other rest) with h' | h'
  · exact h.1 h'
  · exact h.2 h'

/-- Grafting what is there changes nothing. -/
@[simp] theorem graft_below (view : View) (place : List String) :
    view.graft place (view.below place) = view := by
  funext other
  -- below the place the part is what was taken from there
  by_cases h : place <+: other
  · obtain ⟨rest, rfl⟩ := h
    simp
  · exact graft_elsewhere h

/-- Of two grafts at one place the later counts. -/
@[simp] theorem graft_self (view : View) (place : List String) (part other : View) :
    (view.graft place part).graft place other = view.graft place other := by
  funext rest
  -- below the place the later part is found on both sides, and elsewhere the view itself
  by_cases h : place <+: rest
  · obtain ⟨rest, rfl⟩ := h
    simp
  · rw [graft_elsewhere h, graft_elsewhere h, graft_elsewhere h]

/-- A graft inside a grafted part is a graft of the changed part. -/
theorem graft_inside (view : View) (place rest : List String) (part part' : View) :
    (view.graft place part).graft (place ++ rest) part' =
      view.graft place (part.graft rest part') := by
  funext other
  -- three kinds of places: inside the inner graft, only inside the outer one, and elsewhere
  by_cases hplace : place <+: other
  · obtain ⟨tail, rfl⟩ := hplace
    rw [graft_append]
    by_cases hrest : rest <+: tail
    · obtain ⟨tail, rfl⟩ := hrest
      rw [← List.append_assoc, graft_append, graft_append]
    · rw [graft_elsewhere hrest, graft_elsewhere, graft_append]
      rwa [List.prefix_append_right_inj]
  · rw [graft_elsewhere hplace, graft_elsewhere, graft_elsewhere hplace]
    exact fun h => hplace ((List.prefix_append place rest).trans h)

/-- A file put into a directory of files. -/
theorem ofFiles_graft (files : String → Option Bytes) (name : String) (content : Bytes) :
    (ofFiles files).graft [name] (ofFile content) =
      ofFiles fun other => if other = name then some content else files other := by
  funext place
  -- only places of one name can be those of files
  match place with
  | [] => rfl
  | [other] =>
    by_cases h : other = name
    · subst h
      simp [graft, ofFiles, ofFile]
    · have hunder : ¬ [name] <+: [other] := by simp [Ne.symm h]
      rw [graft_elsewhere hunder]
      simp [ofFiles, h]
  | other :: next :: rest =>
    by_cases h : other = name
    · subst h
      simp [graft, ofFiles, ofFile]
    · have hunder : ¬ [name] <+: other :: next :: rest := by simp [Ne.symm h]
      rw [graft_elsewhere hunder]
      rfl

end View

/-! ## The view of a tree -/

namespace FileTree

/-- What a tree is, seen from outside. -/
def node : FileTree → Node
  | .file content => .file content
  | .directory _ => .directory

/-- The view of a tree. -/
def view (tree : FileTree) : View := fun place => (tree.at? place).map node

@[simp] theorem view_nil (tree : FileTree) : tree.view [] = some tree.node := by
  simp [view, at?]

@[simp] theorem view_file (content : Bytes) : (file content).view = View.ofFile content := by
  funext place
  cases place <;> simp [view, at?, node, View.ofFile]

@[simp] theorem view_empty : (directory []).view = View.ofFiles fun _ => none := by
  funext place
  match place with
  | [] => simp [node, View.ofFiles]
  | [_] => simp [view, at?, View.ofFiles]
  | _ :: _ :: _ => simp [view, at?, View.ofFiles]

theorem view_cons (children : List (String × FileTree)) (name : String) (rest : List String) :
    (directory children).view (name :: rest) =
      (children.lookup name).bind fun child => child.view rest := by
  simp only [view, at?]
  cases children.lookup name <;> simp

theorem at?_append (tree : FileTree) (place rest : List String) :
    tree.at? (place ++ rest) = (tree.at? place).bind fun child => child.at? rest := by
  -- along the first place; a file or a missing name on the way ends both sides
  induction place generalizing tree with
  | nil => simp [at?]
  | cons name place ih =>
    cases tree with
    | file content => simp [at?]
    | directory children =>
      simp only [List.cons_append, at?]
      cases children.lookup name with
      | none => simp
      | some child => simp [ih]

/-- What is below a place is the view of the tree there. -/
theorem below_of_at? {tree child : FileTree} {place : List String}
    (h : tree.at? place = some child) : tree.view.below place = child.view := by
  funext rest
  simp only [View.below_apply, view, at?_append, h, Option.bind_some]

theorem view_of_at? {tree child : FileTree} {place : List String}
    (h : tree.at? place = some child) : tree.view place = some child.node := by
  simp [view, h]

theorem at?_of_view_directory {tree : FileTree} {place : List String}
    (h : tree.view place = some .directory) :
    ∃ children, tree.at? place = some (.directory children) := by
  simp only [view, Option.map_eq_some_iff] at h
  obtain ⟨child, hchild, hnode⟩ := h
  cases child with
  | file content => cases hnode
  | directory children => exact ⟨children, hchild⟩

theorem at?_of_view_file {tree : FileTree} {place : List String} {content : Bytes}
    (h : tree.view place = some (.file content)) : tree.at? place = some (.file content) := by
  simp only [view, Option.map_eq_some_iff] at h
  obtain ⟨child, hchild, hnode⟩ := h
  cases child with
  | file content' =>
    cases hnode
    exact hchild
  | directory children => cases hnode

theorem at?_of_view_none {tree : FileTree} {place : List String} (h : tree.view place = none) :
    tree.at? place = none := by
  simpa [view] using h

/-! ## Changes are grafts -/

/-- The view of what may or may not be there. -/
def viewOf : Option FileTree → View
  | none => View.nothing
  | some tree => tree.view

theorem viewOf_apply (child : Option FileTree) (rest : List String) :
    viewOf child rest = child.bind fun tree => tree.view rest := by
  cases child <;> rfl

/-- A change that settles what one name stands for, and nothing else, is a graft. -/
theorem view_alter {change : List (String × FileTree) → List (String × FileTree)}
    {name : String} {child : Option FileTree}
    (hchange : ∀ children other,
      (change children).lookup other = if other = name then child else children.lookup other)
    {tree : FileTree} {place : List String} (h : tree.view place = some .directory) :
    (tree.alter change place).view = tree.view.graft (place ++ [name]) (viewOf child) := by
  -- along the place the children of one name change, by the hypothesis of the induction
  induction place generalizing tree with
  | nil =>
    cases tree with
    | file content => simp [node] at h
    | directory children =>
      -- the place is this directory, and one of its names changes
      funext other
      cases other with
      | nil => simp [alter, node, View.graft]
      | cons other rest =>
        simp only [alter, view_cons, hchange, List.nil_append]
        by_cases hname : other = name
        · subst hname
          simp [View.graft, viewOf_apply]
        · have hunder : ¬ [name] <+: other :: rest := by simp [Ne.symm hname]
          rw [if_neg hname, View.graft_elsewhere hunder, view_cons]
  | cons head place ih =>
    cases tree with
    | file content => simp [view, at?] at h
    | directory children =>
      rw [view_cons] at h
      cases hlookup : children.lookup head with
      | none => simp [hlookup] at h
      | some inner =>
        rw [hlookup, Option.bind_some] at h
        -- the place is inside the child `head`, and the other children stay
        have hinner := ih h
        funext other
        cases other with
        | nil => simp [alter, hlookup, node, View.graft]
        | cons other rest =>
          simp only [alter, hlookup, view_cons, lookup_put, List.cons_append]
          by_cases hhead : other = head
          · subst hhead
            simp only [if_true, Option.bind_some, hinner, View.graft, List.cons_prefix_cons,
              true_and, List.length_cons, List.drop_succ_cons, view_cons, hlookup]
          · have hunder : ¬ head :: (place ++ [name]) <+: other :: rest := by
              simp [Ne.symm hhead]
            rw [if_neg hhead, View.graft_elsewhere hunder, view_cons]

/-- Putting a tree at a place grafts its view there. -/
theorem view_putAt {tree : FileTree} {place : List String} (name : String) (child : FileTree)
    (h : tree.view place = some .directory) :
    (tree.putAt place name child).view = tree.view.graft (place ++ [name]) child.view :=
  view_alter (fun children other => lookup_put name other child children) h

/-- Dropping what is at a place prunes the view there. -/
theorem view_dropAt {tree : FileTree} {place : List String} (name : String)
    (h : tree.view place = some .directory) :
    (tree.dropAt place name).view = tree.view.prune (place ++ [name]) :=
  view_alter (fun children other => lookup_drop name other children) h

end FileTree

end PartitionSnapshot
