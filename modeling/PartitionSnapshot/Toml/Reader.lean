import PartitionSnapshot.Toml.Scalar
import PartitionSnapshot.Toml.Table

/-!
# Reading TOML

A document is a sequence of statements, each on a line of its own with blanks, comments and empty
lines between: a header of a table, a header of an element of an array of tables, or a key with a
value. The statements grow the root table one after the other.

Keys have fewer than eighty parts, and arrays and inline tables are nested less than eighty deep.
The functions that read what may repeat or nest count down a number of steps; `parse?` starts them
with more than the length of the text can use up.
-/

namespace PartitionSnapshot.Toml

/-- Reads something off the front of a text, or fails. -/
abbrev Scanner := StateT (List Char) Option

namespace Scanner

/-- Reads one given character. -/
def mark (c : Char) : Scanner Unit := fun cs =>
  match cs with
  | d :: rest => if d = c then some ((), rest) else none
  | [] => none

/-- Whether the next character is the given one; if it is, it is read. -/
def hasMark (c : Char) : Scanner Bool := fun cs =>
  match cs with
  | d :: rest => if d = c then some (true, rest) else some (false, cs)
  | [] => some (false, cs)

/-- The next character, which stays unread. -/
def next? : Scanner (Option Char) := fun cs => some (cs.head?, cs)

/-- Passes over the blanks of the line. -/
def blanks : Scanner Unit := modify (·.dropWhile isBlank)

/-- What follows the blanks, line ends and comments that a text begins with. -/
def afterLayout (inComment : Bool) : List Char → List Char
  | [] => []
  | c :: rest =>
    if c = '\n' then afterLayout false rest
    else if inComment then afterLayout true rest
    else if isBlank c then afterLayout false rest
    else if c = '#' then afterLayout true rest
    else c :: rest

/-- Passes over blanks, line ends and comments. -/
def layout : Scanner Unit := modify (afterLayout false)

/-- Reads the end of a line, or of the text, behind blanks and a comment. -/
def lineEnd : Scanner Unit := fun cs =>
  match cs.dropWhile isBlank with
  | [] => some ((), [])
  | '\n' :: rest => some ((), rest)
  | '#' :: rest => some ((), (rest.dropWhile (· ≠ '\n')).tail)
  | _ => none

/-! ## Keys -/

/-- Whether a character may stand in a key without quotes. -/
def isKeyChar (c : Char) : Bool := c.isAlphanum || c == '_' || c == '-'

/-- Reads one part of a key: a string of one line, or a run of plain characters. -/
def keyPart : Scanner String := fun cs =>
  match cs.head? with
  | some '"' => lineString? cs
  | some '\'' => lineString? cs
  | _ =>
    let plain := cs.takeWhile isKeyChar
    if plain.isEmpty then none else some (String.ofList plain, cs.dropWhile isKeyChar)

/-- Reads a key of at most so many parts, with dots between them and blanks around each. The last
part is the name, and the others lead to its table. -/
def key : (parts : Nat) → Scanner (List String × String)
  | 0 => failure
  | parts + 1 => do
    blanks
    let part ← keyPart
    blanks
    if ← hasMark '.' then
      let (path, name) ← key parts
      return (part :: path, name)
    else return ([], part)

/-- The number of parts that a key may have. -/
def maxParts : Nat := 79

/-! ## Values -/

/-- Reads a word, and the time that is parted from a date by a space. -/
def word : Scanner Toml := fun cs => do
  let front := cs.takeWhile isWordChar
  let rest := cs.dropWhile isWordChar
  let later := (rest.drop 1).takeWhile isWordChar
  if rest.head? = some ' ' ∧ date? front = some [] ∧ ¬later.isEmpty then
    return (← word? (front ++ 'T' :: later), (rest.drop 1).dropWhile isWordChar)
  else return (← word? front, rest)

/-- The table of the given keys and values. -/
def tableOf? (pairs : List ((List String × String) × Toml)) : Option Table :=
  pairs.foldlM (fun members ((path, name), value) => Table.define? path name value members) []

mutual

/-- Reads a value in which at most `depth` arrays and inline tables are nested. -/
def value : (steps depth : Nat) → Scanner Toml
  | 0, _ => failure
  | steps + 1, depth => do
    match ← next? with
    | some '"' | some '\'' => return .text (← (string? : Scanner String))
    | some '[' =>
      let depth + 1 := depth | failure
      mark '['
      return .array (← elements steps depth)
    | some '\x7b' =>
      let depth + 1 := depth | failure
      mark '\x7b'
      blanks
      if ← hasMark '\x7d' then return .table .inline []
      return .table .inline (← tableOf? (← members steps depth))
    | _ => word

/-- Reads the rest of the elements of an array and its end. -/
def elements : (steps depth : Nat) → Scanner (List Toml)
  | 0, _ => failure
  | steps + 1, depth => do
    layout
    if ← hasMark ']' then return []
    let element ← value steps depth
    layout
    if ← hasMark ',' then return element :: (← elements steps depth)
    mark ']'
    return [element]

/-- Reads the rest of the members of an inline table, at least one, and its end. -/
def members : (steps depth : Nat) → Scanner (List ((List String × String) × Toml))
  | 0, _ => failure
  | steps + 1, depth => do
    let name ← key maxParts
    mark '='
    blanks
    let member ← value steps depth
    blanks
    if ← hasMark ',' then return (name, member) :: (← members steps depth)
    mark '\x7d'
    return [(name, member)]

end

/-- The number of arrays and inline tables that may be nested. -/
def maxDepth : Nat := 79

/-! ## Statements -/

/-- A line of a document. -/
inductive Statement where
  /-- The header of a table. -/
  | openTable (path : List String) (name : String)
  /-- The header of an element of an array of tables. -/
  | openElement (path : List String) (name : String)
  /-- A key with its value. -/
  | define (path : List String) (name : String) (value : Toml)

/-- Reads a statement up to the end of its line. -/
def statement (steps : Nat) : Scanner Statement := do
  if ← hasMark '[' then
    let ofElement ← hasMark '['
    let (path, name) ← key maxParts
    mark ']'
    if ofElement then mark ']'
    lineEnd
    return if ofElement then .openElement path name else .openTable path name
  else
    let (path, name) ← key maxParts
    mark '='
    blanks
    let value ← value steps maxDepth
    lineEnd
    return .define path name value

/-- Takes a statement into a document: the path of the current header, and the root table. -/
def Statement.takeInto? (header : List String) (root : Table) :
    Statement → Option (List String × Table)
  | .openTable path name => do return (path ++ [name], ← root.openTable? path name)
  | .openElement path name => do return (path ++ [name], ← root.openElement? path name)
  | .define path name value => do return (header, ← root.defineUnder? header path name value)

/-- Reads the rest of the statements. -/
def statements : (steps : Nat) → (header : List String) → (root : Table) → Scanner Table
  | 0, _, _ => failure
  | steps + 1, header, root => do
    layout
    match ← next? with
    | none => return root
    | some _ =>
      let (header, root) ← (← statement steps).takeInto? header root
      statements steps header root

end Scanner

/-- The root table of a TOML document. -/
def parse? (text : String) : Option Toml := do
  let cs ← characters? text
  let (root, _) ← Scanner.statements (2 * cs.length + 2) [] [] cs
  return .table .header root

end PartitionSnapshot.Toml
