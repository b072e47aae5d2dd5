import PartitionSnapshot.Json.Basic
import PartitionSnapshot.Json.Text

/-!
# Writing JSON

The compact form has no blanks. The indented form puts every element and member on a line of its
own, two spaces further in than the array or object that holds it, and a space after the colon of a
member; empty arrays and objects stay on one line.
-/

namespace PartitionSnapshot.Json

/-! ## Scalars -/

/-- A string with its quotes. -/
def quotedBytes (text : String) : Bytes :=
  0x22 :: escape (Bytes.ofString text) ++ [0x22]

/-- A truth value. -/
def boolBytes (value : Bool) : Bytes := Bytes.ofString (toString value)

/-- A natural number in decimal digits. -/
def naturalBytes (value : Nat) : Bytes := Bytes.ofString (toString value)

/-! ## The compact form -/

mutual

/-- The compact form of a value. -/
def compact : Json → Bytes
  | .null => Bytes.ofString "null"
  | .bool value => boolBytes value
  | .natural value => naturalBytes value
  | .string text => quotedBytes text
  | .array [] => [0x5B, 0x5D]
  | .array (element :: rest) => 0x5B :: element.compact ++ compactElements rest
  | .object [] => [0x7B, 0x7D]
  | .object ((name, value) :: rest) =>
    0x7B :: quotedBytes name ++ 0x3A :: value.compact ++ compactMembers rest

/-- The further elements of an array, up to its end. -/
def compactElements : List Json → Bytes
  | [] => [0x5D]
  | element :: rest => 0x2C :: element.compact ++ compactElements rest

/-- The further members of an object, up to its end. -/
def compactMembers : List (String × Json) → Bytes
  | [] => [0x7D]
  | (name, value) :: rest =>
    0x2C :: quotedBytes name ++ 0x3A :: value.compact ++ compactMembers rest

end

/-! ## The indented form -/

/-- A line break, and the spaces in front of a line at the given depth. -/
def lineBreak (depth : Nat) : Bytes :=
  0x0A :: List.replicate (2 * depth) 0x20

/-- The name of a member and the colon behind it, at the front of a line. -/
def indentedName (depth : Nat) (name : String) : Bytes :=
  lineBreak depth ++ quotedBytes name ++ [0x3A, 0x20]

mutual

/-- The indented form of a value that stands at the given depth. -/
def indentedAt (depth : Nat) : Json → Bytes
  | .array (element :: rest) =>
    0x5B :: lineBreak (depth + 1) ++ indentedAt (depth + 1) element ++ indentedElements depth rest
  | .object ((name, value) :: rest) =>
    0x7B :: indentedName (depth + 1) name ++ indentedAt (depth + 1) value ++
      indentedMembers depth rest
  | .array [] => [0x5B, 0x5D]
  | .object [] => [0x7B, 0x7D]
  | .null => Bytes.ofString "null"
  | .bool value => boolBytes value
  | .natural value => naturalBytes value
  | .string text => quotedBytes text

/-- The further elements of an array at the given depth, up to its end. -/
def indentedElements (depth : Nat) : List Json → Bytes
  | [] => lineBreak depth ++ [0x5D]
  | element :: rest =>
    0x2C :: lineBreak (depth + 1) ++ indentedAt (depth + 1) element ++ indentedElements depth rest

/-- The further members of an object at the given depth, up to its end. -/
def indentedMembers (depth : Nat) : List (String × Json) → Bytes
  | [] => lineBreak depth ++ [0x7D]
  | (name, value) :: rest =>
    0x2C :: indentedName (depth + 1) name ++ indentedAt (depth + 1) value ++
      indentedMembers depth rest

end

/-- The indented form of a value. -/
def indented (value : Json) : Bytes :=
  indentedAt 0 value

end PartitionSnapshot.Json
