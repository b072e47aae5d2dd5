import PartitionSnapshot.CommandLine.Program

/-!
# The executable

Carries out the program on the real file system: requests become system calls, notes go to standard
error, and the program ends with its output, or its report, and its status.
-/

namespace PartitionSnapshot

/-- The failure of an error number, which some calls give with its sign turned. -/
def Failure.ofNumber (number : UInt32) : Failure :=
  .system ⟨if number.toNat < Nat.pow 2 31 then number.toNat else UInt32.size - number.toNat⟩

/-- The failure that an error of the system is. -/
def Failure.ofSystem : IO.Error → Failure
  | .noFileOrDirectory _ number _ => .ofNumber number
  | .permissionDenied _ number _ => .ofNumber number
  | .alreadyExists _ number _ => .ofNumber number
  | .inappropriateType _ number _ => .ofNumber number
  | .invalidArgument _ number _ => .ofNumber number
  | .unsatisfiedConstraints number _ => .ofNumber number
  | .resourceExhausted _ number _ => .ofNumber number
  | .resourceBusy number _ => .ofNumber number
  | .hardwareFault number _ => .ofNumber number
  | .otherError number _ => .ofNumber number
  | error => .described .other error.toString

/-- An action whose error is a value. -/
def settleAction (action : IO α) : IO (Except Failure α) := do
  try return .ok (← action)
  catch error => return .error (Failure.ofSystem error)

/-- Whether a path leads to a directory. -/
def leadsToDirectory (path : Path) : IO Bool := do
  try (← IO.FS.realPath path.text).isDir
  catch _ => return false

/-- Opens a file and does nothing with it. -/
def openFile (path : Path) (mode : IO.FS.Mode) : IO Unit :=
  IO.FS.withFile path.text mode fun _ => pure ()

/-- Answers a request by the file system. -/
def Request.carryOut : (request : Request) → IO request.Answer
  | .hasDirectory path => leadsToDirectory path
  | .read path => settleAction do return (← IO.FS.readBinFile path.text).data.toList
  | .create path => settleAction (openFile path .write)
  | .append path data =>
    settleAction (IO.FS.withFile path.text .append fun file => file.write ⟨data.toArray⟩)
  | .sync path => settleAction do
    unless ← leadsToDirectory path do openFile path .read
  | .makeDirectories path => settleAction (IO.FS.createDirAll path.text)
  | .removeTree path => settleAction (IO.FS.removeDirAll path.text)
  | .removeFile path => settleAction (IO.FS.removeFile path.text)
  | .rename source target => settleAction (IO.FS.rename source.text target.text)

/-- Carries out a procedure. -/
def Procedure.carryOut : Procedure α → IO α
  | .done value => return value
  | .note entry rest => do
    IO.eprintln entry.line
    rest.carryOut
  | .step request next => do
    let answer ← request.carryOut
    (next answer).carryOut

/-- The lines that the program writes to standard error at its end. -/
def CommandLine.Exit.complaint : Exit → List String
  | .success _ => []
  | .failure report => report
  | .usage error => [s!"error: {error.message}", "", "For more information, try '--help'."]

end PartitionSnapshot

/-- Runs the program. -/
def main (arguments : List String) : IO UInt32 := do
  let exit ← (PartitionSnapshot.CommandLine.run arguments).carryOut
  IO.print exit.output
  for line in exit.complaint do IO.eprintln line
  return exit.status.toUInt32
