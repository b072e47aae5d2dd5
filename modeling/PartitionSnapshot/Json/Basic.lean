/-!
# JSON values

The values that are written as JSON. An object keeps its members in order.
-/

namespace PartitionSnapshot

/-- A JSON value. -/
inductive Json where
  | null
  | bool (value : Bool)
  | natural (value : Nat)
  | string (text : String)
  | array (elements : List Json)
  | object (members : List (String × Json))
  deriving Inhabited

end PartitionSnapshot
