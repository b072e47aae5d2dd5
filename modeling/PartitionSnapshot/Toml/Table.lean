import PartitionSnapshot.Toml.Basic

/-!
# Growing tables

A document grows one table, its root, by three kinds of statements: a key with a value, the header
of a table and the header of an element of an array of tables. Each goes down a path of names to
the table that it changes. Names that are not there yet are made on the way, and an array of tables
is entered at its last element.
-/

namespace PartitionSnapshot.Toml.Table

/-- The table with another value for a name that it has. -/
def replace (members : Table) (name : String) (value : Toml) : Table :=
  members.map fun member => if member.1 = name then (name, value) else member

/-- Changes the table at the end of a path. `style` is the style of the table the path begins in,
and `way` the style of the tables made on the way. Complete tables are not entered, and on the way
of a dotted key neither are those with a header. -/
def within? (way : TableStyle) (change : TableStyle → Table → Option Table) :
    List String → TableStyle → Table → Option Table
  | [], style, members => change style members
  | name :: path, _, members =>
    match members.lookup name with
    | none => do
      let inner ← within? way change path way []
      return members ++ [(name, .table way inner)]
    | some (.table style inner) =>
      if style = .inline ∨ (way = .dotted ∧ style = .header) then none
      else do
        let inner ← within? way change path style inner
        return replace members name (.table style inner)
    | some (.tables elements) => do
      let last ← elements.getLast?
      let last ← within? way change path .header last
      return replace members name (.tables (elements.dropLast ++ [last]))
    | some _ => none

/-- Adds a member to a table, unless its name is taken. -/
def add? (name : String) (value : Toml) (members : Table) : Option Table :=
  if (members.lookup name).isSome then none else some (members ++ [(name, value)])

/-- Adds the value of a key. A key with dots only adds to tables that such keys made. -/
def define? (path : List String) (name : String) (value : Toml) (members : Table) :
    Option Table :=
  within? .dotted (fun style inner =>
    if path.isEmpty ∨ style = .dotted then add? name value inner else none) path .header members

/-- Adds the value of a key in the table of the current header. -/
def defineUnder? (header path : List String) (name : String) (value : Toml) (root : Table) :
    Option Table :=
  within? .implied (fun _ inner => define? path name value inner) header .header root

/-- Opens the table of a header: one that was only passed so far, or a new one. -/
def openTable? (path : List String) (name : String) (root : Table) : Option Table :=
  within? .implied (fun _ inner =>
    match inner.lookup name with
    | none => some (inner ++ [(name, .table .header [])])
    | some (.table .implied found) => some (replace inner name (.table .header found))
    | some _ => none) path .header root

/-- Opens a new element of an array of tables. -/
def openElement? (path : List String) (name : String) (root : Table) : Option Table :=
  within? .implied (fun _ inner =>
    match inner.lookup name with
    | none => some (inner ++ [(name, .tables [[]])])
    | some (.tables elements) => some (replace inner name (.tables (elements ++ [[]])))
    | some _ => none) path .header root

end PartitionSnapshot.Toml.Table
