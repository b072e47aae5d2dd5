/-!
# Statuses

What a state machine answers to a request that it may refuse.
-/

namespace PartitionSnapshot

/-- The answer of a state machine to a request. -/
inductive Status where
  | ok
  /-- There is an entity under that key already. -/
  | alreadyExists
  /-- An entity that has to be there is not. -/
  | notExist
  | argumentMismatch
  | internalError
  deriving DecidableEq, Repr, Inhabited

namespace Status

/-- The status in words. -/
def message : Status → String
  | .ok => "ok"
  | .alreadyExists => "exists"
  | .notExist => "not exist"
  | .argumentMismatch => "argument mismatch"
  | .internalError => "internal error"

/-- All statuses. -/
def all : List Status := [.ok, .alreadyExists, .notExist, .argumentMismatch, .internalError]

/-- The status with the given words. -/
def ofMessage? (text : String) : Option Status :=
  all.find? (·.message = text)

end Status

end PartitionSnapshot
