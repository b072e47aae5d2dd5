/-!
# Failures

Why a single reading, writing or file system step fails. Every failure has a message and belongs to
a class; the operation in which it happens decides by the class whether the failure is one of the
storage or means that the data are corrupt.
-/

namespace PartitionSnapshot

/-! ## System errors -/

/-- An error number of the operating system. -/
structure SystemError where
  number : Nat
  deriving DecidableEq, Repr

namespace SystemError

/-- There is no such file or directory. -/
def noEntry : SystemError := ⟨2⟩
/-- The place is in use. -/
def busy : SystemError := ⟨16⟩
/-- Something is there already. -/
def fileExists : SystemError := ⟨17⟩
/-- The device cannot do this, as a directory cannot be mapped. -/
def noDevice : SystemError := ⟨19⟩
/-- Something other than a directory stands where one is needed. -/
def notDirectory : SystemError := ⟨20⟩
/-- A directory stands where a file is needed. -/
def isDirectory : SystemError := ⟨21⟩
/-- The request makes no sense. -/
def invalidArgument : SystemError := ⟨22⟩
/-- A name in a path is too long. -/
def nameTooLong : SystemError := ⟨36⟩
/-- The directory has something in it. -/
def notEmpty : SystemError := ⟨39⟩

/-- What the system says of its error numbers, from number one on; two of them have no meaning. -/
def descriptions : List String := [
  "Operation not permitted", "No such file or directory", "No such process",
  "Interrupted system call", "Input/output error", "No such device or address",
  "Argument list too long", "Exec format error", "Bad file descriptor", "No child processes",
  "Resource temporarily unavailable", "Cannot allocate memory", "Permission denied",
  "Bad address", "Block device required", "Device or resource busy", "File exists",
  "Invalid cross-device link", "No such device", "Not a directory", "Is a directory",
  "Invalid argument", "Too many open files in system", "Too many open files",
  "Inappropriate ioctl for device", "Text file busy", "File too large", "No space left on device",
  "Illegal seek", "Read-only file system", "Too many links", "Broken pipe",
  "Numerical argument out of domain", "Numerical result out of range",
  "Resource deadlock avoided", "File name too long", "No locks available",
  "Function not implemented", "Directory not empty", "Too many levels of symbolic links",
  "Unknown error 41", "No message of desired type", "Identifier removed",
  "Channel number out of range", "Level 2 not synchronized", "Level 3 halted", "Level 3 reset",
  "Link number out of range", "Protocol driver not attached", "No CSI structure available",
  "Level 2 halted", "Invalid exchange", "Invalid request descriptor", "Exchange full", "No anode",
  "Invalid request code", "Invalid slot", "Unknown error 58", "Bad font file format",
  "Device not a stream", "No data available", "Timer expired", "Out of streams resources",
  "Machine is not on the network", "Package not installed", "Object is remote",
  "Link has been severed", "Advertise error", "Srmount error", "Communication error on send",
  "Protocol error", "Multihop attempted", "RFS specific error", "Bad message",
  "Value too large for defined data type", "Name not unique on network",
  "File descriptor in bad state", "Remote address changed",
  "Can not access a needed shared library", "Accessing a corrupted shared library",
  ".lib section in a.out corrupted", "Attempting to link in too many shared libraries",
  "Cannot exec a shared library directly", "Invalid or incomplete multibyte or wide character",
  "Interrupted system call should be restarted", "Streams pipe error", "Too many users",
  "Socket operation on non-socket", "Destination address required", "Message too long",
  "Protocol wrong type for socket", "Protocol not available", "Protocol not supported",
  "Socket type not supported", "Operation not supported", "Protocol family not supported",
  "Address family not supported by protocol", "Address already in use",
  "Cannot assign requested address", "Network is down", "Network is unreachable",
  "Network dropped connection on reset", "Software caused connection abort",
  "Connection reset by peer", "No buffer space available",
  "Transport endpoint is already connected", "Transport endpoint is not connected",
  "Cannot send after transport endpoint shutdown", "Too many references: cannot splice",
  "Connection timed out", "Connection refused", "Host is down", "No route to host",
  "Operation already in progress", "Operation now in progress", "Stale file handle",
  "Structure needs cleaning", "Not a XENIX named type file", "No XENIX semaphores available",
  "Is a named type file", "Remote I/O error", "Disk quota exceeded", "No medium found",
  "Wrong medium type", "Operation canceled", "Required key not available", "Key has expired",
  "Key has been revoked", "Key was rejected by service", "Owner died", "State not recoverable",
  "Operation not possible due to RF-kill", "Memory page has hardware error"]

/-- The error in words, with its number. -/
def message (error : SystemError) : String :=
  let description :=
    if error.number = 0 then "Success"
    else descriptions.getD (error.number - 1) s!"Unknown error {error.number}"
  s!"{description} (os error {error.number})"

end SystemError

/-! ## Failures -/

/-- What a failure means to the operation in which it happens. -/
inductive Failure.Class where
  /-- The data end too early. -/
  | endOfData
  /-- The data are not what they have to be. -/
  | invalidData
  /-- The argument cannot be expressed. -/
  | invalidInput
  /-- There is no such file. -/
  | notFound
  | other
  deriving DecidableEq, Repr

/-- Why a step of reading, writing or working on files fails. -/
inductive Failure where
  /-- Fewer bytes are left than are needed. -/
  | short (needed left : Nat)
  /-- The data ended before a reading was complete. -/
  | unfilled
  /-- A variable-length number is malformed, or the data end inside it. -/
  | badVarint (atEnd : Bool)
  /-- A record is too long for the header of its length. -/
  | oversized (size : Nat)
  /-- A text file is not UTF-8. -/
  | notText
  /-- A path has a null character in it. -/
  | nullInPath
  /-- The system refused. -/
  | system (error : SystemError)
  /-- A failure that is only known by its class and its words. -/
  | described (what : Failure.Class) (text : String)
  deriving DecidableEq, Repr

namespace Failure

/-- The failure in words. -/
def message : Failure → String
  | .short needed left => s!"need {needed} bytes, {left} left"
  | .unfilled => "failed to fill whole buffer"
  | .badVarint _ => "failed to decode Protobuf message: invalid varint"
  | .oversized size => s!"record of {size} bytes exceeds u32 length header"
  | .notText => "stream did not contain valid UTF-8"
  | .nullInPath => "file name contained an unexpected NUL byte"
  | .system error => error.message
  | .described _ text => text

/-- What the failure means. -/
def classify : Failure → Class
  | .short _ _ => .endOfData
  | .unfilled => .endOfData
  | .badVarint atEnd => if atEnd then .endOfData else .invalidData
  | .oversized _ => .invalidInput
  | .notText => .invalidData
  | .nullInPath => .invalidInput
  | .system error =>
    if error = .noEntry then .notFound
    else if error = .invalidArgument then .invalidInput
    else .other
  | .described what _ => what

end Failure

end PartitionSnapshot
