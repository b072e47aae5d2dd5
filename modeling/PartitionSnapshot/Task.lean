import PartitionSnapshot.Error
import PartitionSnapshot.Procedure

/-!
# Tasks

A task is a procedure that ends in a value or in an error of the partition store. The failures of
single requests become errors where they are met, with the words of what was being done.
-/

namespace PartitionSnapshot

/-- A procedure that may fail. -/
abbrev Task := ExceptT Error Procedure

namespace Task

/-- The task of a procedure that may fail, with the failure made an error. -/
def ofProcedure (procedure : Procedure (Except Failure α)) (toError : Failure → Error) : Task α :=
  ExceptT.mk do
    match ← procedure with
    | .ok value => return .ok value
    | .error failure => return .error (toError failure)

/-- The task that ends as a computation does. -/
def ofExcept (result : Except ε α) (toError : ε → Error) : Task α :=
  ExceptT.mk (return result.mapError toError)

/-- The task that ends in what the given one ends in, value or error. -/
def attempt (task : Task α) : Task (Except Error α) :=
  ExceptT.mk do
    let result ← task.run
    return .ok result

end Task

end PartitionSnapshot
