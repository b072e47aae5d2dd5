/-!
# TOML values

The values of a TOML document, as far as a reader of settings needs them: of numbers that are not
whole and of dates and times it is only known that they are such.

A table remembers how it came to be, because that decides whether more may be put into it: a table
written in braces is complete, a table with a header of its own may not have a second one, and a
table that exists only because of the dots in a key grows by such keys alone.
-/

namespace PartitionSnapshot

/-- How a table came to be. -/
inductive TableStyle where
  /-- Written in braces. -/
  | inline
  /-- Opened by its own header. -/
  | header
  /-- Passed on the way to the table of a header. -/
  | implied
  /-- Passed on the way to a key with dots. -/
  | dotted
  deriving DecidableEq, Repr

/-- A TOML value. -/
inductive Toml where
  | text (value : String)
  | integer (value : Int)
  | float
  | boolean (value : Bool)
  | datetime
  | array (elements : List Toml)
  | table (style : TableStyle) (members : List (String × Toml))
  /-- An array of tables, each opened by a header in double brackets. -/
  | tables (elements : List (List (String × Toml)))
  deriving Inhabited

namespace Toml

/-- The members of a table in the order of their introduction. -/
abbrev Table := List (String × Toml)

/-- Why a text does not hold what a reader of settings wants. -/
inductive Fault where
  /-- The text is not a TOML document. -/
  | malformed
  /-- A value has another type than the one wanted. -/
  | wrongType
  deriving DecidableEq, Repr

/-- The fault in words. -/
def Fault.message : Fault → String
  | .malformed => "malformed TOML"
  | .wrongType => "value of another type"

end Toml

end PartitionSnapshot
