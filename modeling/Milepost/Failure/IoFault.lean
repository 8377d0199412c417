import Milepost.Status.ErrorText

/-!
# Faults of input and output

What a source of bytes reports when it cannot be read: an error number of the system, one of a
few kinds, or a kind with a message of its own.

* `IoKind.ofErrorNumber`: the kind of an error number.
-/

namespace Milepost

/-- The kinds of fault that are told apart. -/
inductive IoKind
  | notFound
  | permissionDenied
  | invalidInput
  | invalidData
  | timedOut
  | interrupted
  | unexpectedEof
  | brokenPipe
  | other
  /-- An error number of no kind. -/
  | uncategorized
  /-- Any other kind, by its name and what a fault of it says. -/
  | named (name description : String)
deriving DecidableEq, Repr

namespace IoKind

/-- The name of the kind. -/
def name : IoKind → String
  | notFound => "NotFound"
  | permissionDenied => "PermissionDenied"
  | invalidInput => "InvalidInput"
  | invalidData => "InvalidData"
  | timedOut => "TimedOut"
  | interrupted => "Interrupted"
  | unexpectedEof => "UnexpectedEof"
  | brokenPipe => "BrokenPipe"
  | other => "Other"
  | uncategorized => "Uncategorized"
  | named name _ => name

/-- What a fault of the kind says when it has no message of its own. -/
def description : IoKind → String
  | notFound => "entity not found"
  | permissionDenied => "permission denied"
  | invalidInput => "invalid input parameter"
  | invalidData => "invalid data"
  | timedOut => "timed out"
  | interrupted => "operation interrupted"
  | unexpectedEof => "unexpected end of file"
  | brokenPipe => "broken pipe"
  | other => "other error"
  | uncategorized => "uncategorized error"
  | named _ description => description

/-- The kind of an error number. -/
def ofErrorNumber : Nat → IoKind
  | 1 | 13 => permissionDenied
  | 2 => notFound
  | 4 => interrupted
  | 7 => named "ArgumentListTooLong" "argument list too long"
  | 11 => named "WouldBlock" "operation would block"
  | 12 => named "OutOfMemory" "out of memory"
  | 16 => named "ResourceBusy" "resource busy"
  | 17 => named "AlreadyExists" "entity already exists"
  | 18 => named "CrossesDevices" "cross-device link or rename"
  | 20 => named "NotADirectory" "not a directory"
  | 21 => named "IsADirectory" "is a directory"
  | 22 => invalidInput
  | 26 => named "ExecutableFileBusy" "executable file busy"
  | 27 => named "FileTooLarge" "file too large"
  | 28 => named "StorageFull" "no storage space"
  | 29 => named "NotSeekable" "seek on unseekable file"
  | 30 => named "ReadOnlyFilesystem" "read-only filesystem or storage medium"
  | 31 => named "TooManyLinks" "too many links"
  | 32 => brokenPipe
  | 35 => named "Deadlock" "deadlock"
  | 36 => named "InvalidFilename" "invalid filename"
  | 38 | 95 => named "Unsupported" "unsupported"
  | 39 => named "DirectoryNotEmpty" "directory not empty"
  | 40 => named "FilesystemLoop" "filesystem loop or indirection limit (e.g. symlink loop)"
  | 98 => named "AddrInUse" "address in use"
  | 99 => named "AddrNotAvailable" "address not available"
  | 100 => named "NetworkDown" "network down"
  | 101 => named "NetworkUnreachable" "network unreachable"
  | 103 => named "ConnectionAborted" "connection aborted"
  | 104 => named "ConnectionReset" "connection reset"
  | 107 => named "NotConnected" "not connected"
  | 110 => timedOut
  | 111 => named "ConnectionRefused" "connection refused"
  | 113 => named "HostUnreachable" "host unreachable"
  | 115 => named "InProgress" "in progress"
  | 116 => named "StaleNetworkFileHandle" "stale network file handle"
  | 122 => named "QuotaExceeded" "quota exceeded"
  | _ => uncategorized

end IoKind

/-- A fault of input or output. -/
inductive IoFault
  /-- The system's error number. -/
  | os (number : Nat)
  /-- A kind alone. -/
  | simple (kind : IoKind)
  /-- A kind with a message. -/
  | message (kind : IoKind) (text : String)
deriving DecidableEq, Repr

namespace IoFault

/-- The kind of the fault. -/
def kind : IoFault → IoKind
  | os number => .ofErrorNumber number
  | simple kind => kind
  | message kind _ => kind

/-- The wording of the fault. -/
def text : IoFault → String
  | os number => Status.errorText number ++ " (os error " ++ toString number ++ ")"
  | simple kind => kind.description
  | message _ text => text

end IoFault

end Milepost
