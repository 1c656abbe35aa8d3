/-!
# Errors of files

Why an operation on a file failed. The operating system reports most causes by a number, which has a
text and belongs to a kind.

## Main definitions

* `FileError` — the causes.
* `FileError.text` — the text of an error.
* `FileError.kind` — the name of its kind.
-/

namespace PixelHost

/-- Why an operation on a file failed. -/
inductive FileError where
  /-- A cause that the operating system reports by a number. -/
  | os (code : Nat)
  /-- The file is to be read as a text, and it is none. -/
  | notText
  deriving DecidableEq, Repr, Inhabited

namespace FileError

/-- There is no such file. -/
def notFound : FileError := os 2

/-- The device does not answer. -/
def noDevice : FileError := os 6

/-- A part of the path is no directory. -/
def notDirectory : FileError := os 20

/-- The file is a directory. -/
def isDirectory : FileError := os 21

/-- There is no room. -/
def noSpace : FileError := os 28

/-- The path leads through too many links. -/
def tooManyLinks : FileError := os 40

/-- The texts of the numbers from one on. -/
def osTexts : Array String := #[
  "Operation not permitted", "No such file or directory", "No such process",
  "Interrupted system call", "Input/output error", "No such device or address",
  "Argument list too long", "Exec format error", "Bad file descriptor", "No child processes",
  "Resource temporarily unavailable", "Cannot allocate memory", "Permission denied",
  "Bad address", "Block device required", "Device or resource busy", "File exists",
  "Invalid cross-device link", "No such device", "Not a directory", "Is a directory",
  "Invalid argument", "Too many open files in system", "Too many open files",
  "Inappropriate ioctl for device", "Text file busy", "File too large", "No space left on device",
  "Illegal seek", "Read-only file system", "Too many links", "Broken pipe",
  "Numerical argument out of domain", "Numerical result out of range",
  "Resource deadlock avoided", "File name too long", "No locks available",
  "Function not implemented", "Directory not empty", "Too many levels of symbolic links",
  "Unknown error 41", "No message of desired type", "Identifier removed",
  "Channel number out of range", "Level 2 not synchronized", "Level 3 halted", "Level 3 reset",
  "Link number out of range", "Protocol driver not attached", "No CSI structure available",
  "Level 2 halted", "Invalid exchange", "Invalid request descriptor", "Exchange full", "No anode",
  "Invalid request code", "Invalid slot", "Unknown error 58", "Bad font file format",
  "Device not a stream", "No data available", "Timer expired", "Out of streams resources",
  "Machine is not on the network", "Package not installed", "Object is remote",
  "Link has been severed", "Advertise error", "Srmount error", "Communication error on send",
  "Protocol error", "Multihop attempted", "RFS specific error", "Bad message",
  "Value too large for defined data type", "Name not unique on network",
  "File descriptor in bad state", "Remote address changed",
  "Can not access a needed shared library", "Accessing a corrupted shared library",
  ".lib section in a.out corrupted", "Attempting to link in too many shared libraries",
  "Cannot exec a shared library directly", "Invalid or incomplete multibyte or wide character",
  "Interrupted system call should be restarted", "Streams pipe error", "Too many users",
  "Socket operation on non-socket", "Destination address required", "Message too long",
  "Protocol wrong type for socket", "Protocol not available", "Protocol not supported",
  "Socket type not supported", "Operation not supported", "Protocol family not supported",
  "Address family not supported by protocol", "Address already in use",
  "Cannot assign requested address", "Network is down", "Network is unreachable",
  "Network dropped connection on reset", "Software caused connection abort",
  "Connection reset by peer", "No buffer space available",
  "Transport endpoint is already connected", "Transport endpoint is not connected",
  "Cannot send after transport endpoint shutdown", "Too many references: cannot splice",
  "Connection timed out", "Connection refused", "Host is down", "No route to host",
  "Operation already in progress", "Operation now in progress", "Stale file handle",
  "Structure needs cleaning", "Not a XENIX named type file", "No XENIX semaphores available",
  "Is a named type file", "Remote I/O error", "Disk quota exceeded", "No medium found",
  "Wrong medium type", "Operation canceled", "Required key not available", "Key has expired",
  "Key has been revoked", "Key was rejected by service", "Owner died", "State not recoverable",
  "Operation not possible due to RF-kill", "Memory page has hardware error"]

/-- The text of a number. -/
def osText (code : Nat) : String :=
  if code = 0 then "Success"
  else osTexts.getD (code - 1) s!"Unknown error {code}"

/-- The text of an error. -/
def text : FileError → String
  | os code => s!"{osText code} (os error {code})"
  | notText => "stream did not contain valid UTF-8"

/-- The kinds of numbers. -/
def osKinds : List (Nat × String) := [
  (1, "PermissionDenied"), (2, "NotFound"), (4, "Interrupted"), (7, "ArgumentListTooLong"),
  (11, "WouldBlock"), (12, "OutOfMemory"), (13, "PermissionDenied"), (16, "ResourceBusy"),
  (17, "AlreadyExists"), (18, "CrossesDevices"), (20, "NotADirectory"), (21, "IsADirectory"),
  (22, "InvalidInput"), (26, "ExecutableFileBusy"), (27, "FileTooLarge"), (28, "StorageFull"),
  (29, "NotSeekable"), (30, "ReadOnlyFilesystem"), (31, "TooManyLinks"), (32, "BrokenPipe"),
  (35, "Deadlock"), (36, "InvalidFilename"), (38, "Unsupported"), (39, "DirectoryNotEmpty"),
  (40, "FilesystemLoop"), (95, "Unsupported"), (98, "AddrInUse"), (99, "AddrNotAvailable"),
  (100, "NetworkDown"), (101, "NetworkUnreachable"), (103, "ConnectionAborted"),
  (104, "ConnectionReset"), (107, "NotConnected"), (110, "TimedOut"), (111, "ConnectionRefused"),
  (113, "HostUnreachable"), (115, "InProgress"), (116, "StaleNetworkFileHandle"),
  (122, "QuotaExceeded")]

/-- The name of the kind of an error. -/
def kind : FileError → String
  | os code => (osKinds.lookup code).getD "Uncategorized"
  | notText => "InvalidData"

end FileError

end PixelHost
