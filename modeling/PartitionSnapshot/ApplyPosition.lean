import PartitionSnapshot.Text.Decimal

/-!
# Apply positions

The apply position of a partition is the index of the last log entry that its snapshot reflects,
and the cursor from which inode numbers are handed out. It is kept in a text file as two numbers
with a bar between them; files from before the cursor was kept hold the index alone.
-/

namespace PartitionSnapshot

/-- How far a snapshot reflects the log, and from where inode numbers are handed out. -/
structure ApplyPosition where
  index : UInt64
  cursor : UInt64
  deriving DecidableEq, Repr, Inhabited

namespace ApplyPosition

/-- The position as text. -/
def text (position : ApplyPosition) : String :=
  s!"{position.index}|{position.cursor}"

/-- What stands before and behind the first bar. -/
def splitAtBar? : List Char → Option (List Char × List Char)
  | [] => none
  | c :: rest =>
    if c = '|' then some ([], rest)
    else (splitAtBar? rest).map fun (front, back) => (c :: front, back)

/-- Reads an index, and the cursor when there is a bar. Blanks around either number are passed
over. -/
def parse? (text : String) : Option (UInt64 × Option UInt64) :=
  let trimmed := Text.trim text.toList
  match splitAtBar? trimmed with
  | some (front, back) => do
    let index ← Text.number64? (Text.trim front)
    let cursor ← Text.number64? (Text.trim back)
    return (index, some cursor)
  | none => do return (← Text.number64? trimmed, none)

/-- The position that a file with the given index and cursor stands for, once inode numbers up to
`cursor` are known to be taken. -/
def reconcile (index : UInt64) (stored : Option UInt64) (cursor : UInt64) : ApplyPosition :=
  ⟨index, match stored with | some stored => max stored cursor | none => cursor⟩

end ApplyPosition

end PartitionSnapshot
