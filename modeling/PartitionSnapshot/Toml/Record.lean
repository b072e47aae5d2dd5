import PartitionSnapshot.Toml.Basic

/-!
# Records in TOML

A record of named fields is read from a table, whose other members are passed over, or from an
array, whose elements are the fields in their order; further elements are passed over too. A date
or time counts as a record that has none of the fields.
-/

namespace PartitionSnapshot.Toml

/-- The values of the named fields of a record. -/
def fields (names : List String) : Toml → Except Fault Table
  | .table _ members => .ok (members.filter fun member => member.1 ∈ names)
  | .array elements => .ok (names.zip elements)
  | .tables elements => .ok (names.zip (elements.map (.table .header)))
  | .datetime => .ok []
  | _ => .error .wrongType

/-- Reads one field, or takes the given value when it is missing. -/
def optional (fields : Table) (name : String) (default : α) (read : Toml → Except Fault α) :
    Except Fault α :=
  match fields.lookup name with
  | some value => read value
  | none => .ok default

/-! ## Values of fields -/

/-- A text. -/
def toText : Toml → Except Fault String
  | .text value => .ok value
  | _ => .error .wrongType

/-- A truth value. -/
def toBool : Toml → Except Fault Bool
  | .boolean value => .ok value
  | _ => .error .wrongType

/-- A natural number of 64 bits. -/
def toUInt64 : Toml → Except Fault UInt64
  | .integer value =>
    if 0 ≤ value ∧ value < UInt64.size then .ok (UInt64.ofNat value.toNat) else .error .wrongType
  | _ => .error .wrongType

/-- Whether a value is a table or an array with nothing in it. -/
def isEmpty : Toml → Bool
  | .table _ members => members.isEmpty
  | .array elements => elements.isEmpty
  | .tables elements => elements.isEmpty
  | _ => false

/-- One of the named choices: its name, or a table whose only member has that name and is an empty
table or array. -/
def toChoice (choices : List (String × α)) (value : Toml) : Except Fault α :=
  let name? : Option String :=
    match value with
    | .text name => some name
    | .table _ [(name, inside)] => if inside.isEmpty then some name else none
    | _ => none
  match name?.bind (choices.lookup ·) with
  | some choice => .ok choice
  | none => .error .wrongType

end PartitionSnapshot.Toml
