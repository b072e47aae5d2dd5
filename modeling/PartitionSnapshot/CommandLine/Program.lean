import PartitionSnapshot.CommandLine.Arguments
import PartitionSnapshot.CommandLine.Report
import PartitionSnapshot.CommandLine.Settings
import PartitionSnapshot.Machine.Memory

/-!
# The program

The program reads its arguments and its settings, does what it is asked, and ends with what it
prints and whether it succeeded. Troubles are reported instead of a result, never beside one.
-/

namespace PartitionSnapshot.CommandLine

/-- How the program ends. -/
inductive Exit where
  /-- With text to print. -/
  | success (output : String)
  /-- With lines that report a trouble. -/
  | failure (report : List String)
  /-- With arguments that it does not understand. -/
  | usage (error : UsageError)
  deriving DecidableEq, Repr

/-- The exit status. -/
def Exit.status : Exit → UInt8
  | .success _ => 0
  | .failure _ => 1
  | .usage _ => 2

/-- The text on standard output. -/
def Exit.output : Exit → String
  | .success output => output
  | _ => ""

/-- A procedure that may run into trouble. -/
abbrev Work := ExceptT Trouble Procedure

namespace Work

/-- The work of a task of the store. -/
def ofTask (task : Task α) (toTrouble : Error → Trouble) : Work α :=
  ExceptT.mk do
    match ← task.run with
    | .ok value => return .ok value
    | .error error => return .error (toTrouble error)

/-- Reads a file that has to be text. -/
def readText (path : Path) (toTrouble : Failure → Trouble) : Work String :=
  ExceptT.mk do
    match ← Procedure.read path with
    | .error failure => return .error (toTrouble failure)
    | .ok content =>
      match Bytes.toString? content with
      | some text => return .ok text
      | none => return .error (toTrouble .notText)

end Work

/-! ## Commands -/

/-- Reads the settings file, if one is given. -/
def readSettings : Option Path → Work Settings
  | none => return {}
  | some path => do
    let text ← Work.readText path (.readSettings path)
    match Settings.parse text with
    | .ok settings => return settings
    | .error fault => throw (.parseSettings path fault)

/-- Loads a partition and summarizes it. -/
def inspect (root : Path) (options : Options) : Work Summary := do
  let store ← Work.ofTask (Store.open root options) (.openPartition root)
  let (result, _, partition) ← (store.load MemoryPartition.empty : Procedure _)
  match result with
  | .error error => throw (.store error)
  | .ok loaded =>
    Procedure.log .debug
      (s!"loaded {partition.size .inode} inodes, " ++
        s!"{partition.size .dentry} dentries into memory")
    return ⟨loaded.config, loaded.position, loaded.stats, partition.freeList.length⟩

/-- Recomputes the checksums of a snapshot and compares them with the recorded ones. -/
def verify (root : Path) (options : Options) : Work Signs := do
  let store ← Work.ofTask (Store.open root options) (.openPartition root)
  Work.ofTask store.verify .store

/-- Reads the apply file of a snapshot directory. -/
def dumpApply (directory : Path) : Work StoredPosition := do
  let path := directory.join Layout.apply
  let text ← Work.readText path (.readApply path)
  match ApplyPosition.parse? text with
  | some (index, cursor) => return ⟨index, cursor⟩
  | none => throw (.parseApply path text)

/-- Carries out a command, and gives what it prints. -/
def carryOut (json : Bool) (options : Options) (operation : Operation) (operand : Path) :
    Work String := do
  match operation with
  | .inspect =>
    let summary ← inspect operand options
    return if json then jsonText summary.json else summary.text
  | .verify =>
    let signs ← verify operand options
    return if json then jsonText (signsJson signs) else s!"OK {signs.text}\n"
  | .dumpApply =>
    let position ← dumpApply operand
    return if json then jsonText position.json else position.text

/-! ## The log -/

/-- The names of the levels that can be asked for, each with the levels of the notes it shows. -/
def shownLevels : List (String × List Level) := [
  ("off", []),
  ("error", [.error]),
  ("warn", [.error, .warn]),
  ("info", [.error, .warn, .info]),
  ("debug", [.error, .warn, .info, .debug]),
  ("trace", [.error, .warn, .info, .debug])]

/-- The level of the log, as the arguments and the settings have it. The arguments win unless they
ask for the default. -/
def logLevel (given : Given) (settings : Settings) : String :=
  let asked := given.logLevel.getD "warn"
  if asked ≠ "warn" then asked else settings.logLevel.getD asked

/-- Whether a note is shown in a log of the given level. Only errors are, if there is no such
level. -/
def isShown (level : String) (note : Note) : Bool :=
  ((shownLevels.lookup level.toLower).getD [.error]).contains note.level

/-! ## Running -/

/-- Carries out a command with the settings in force. -/
def work (given : Given) (settings : Settings) (operation : Operation) (operand : Path) :
    Work String := do
  match given.config with
  | some path => Procedure.log .info s!"Config file: {path}"
  | none => pure ()
  let options :=
    if given.noVerify then { settings.options with verifyChecksums := false }
    else settings.options
  carryOut given.json options operation operand

/-- How work that may run into trouble ends the program. -/
def conclude (work : Work String) : Procedure Exit := do
  match ← work.run with
  | .ok output => return .success output
  | .error trouble => return .failure trouble.reportLines

/-- Does what the arguments ask for. -/
def run (arguments : List String) : Procedure Exit :=
  match read arguments with
  | .error error => return .usage error
  | .ok (.help topic) => return .success (unlines (helpLines topic))
  | .ok .helpOnHelp => return .success (unlines helpOnHelpLines)
  | .ok .version => return .success versionText
  | .ok (.run given operation operand) => do
    match ← (readSettings given.config).run with
    | .error trouble => return .failure trouble.reportLines
    | .ok settings =>
      (conclude (work given settings operation operand)).keepNotes
        (isShown (logLevel given settings))

end PartitionSnapshot.CommandLine
