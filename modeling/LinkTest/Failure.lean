import LinkTest.Datum.Decoder
import LinkTest.Span

/-! # What can go wrong

One type for all that an operation can fail with, and the text that people see for it. -/

namespace LinkTest

/-- A failure of the system below: one of its numbered errors, or one described in words. -/
inductive IoFault
  | numbered (code : Nat)
  | described (text : String)
deriving DecidableEq, Repr, Inhabited

/-- The system's own words for its errors. -/
def IoFault.words : List (Nat × String) := [
  (1, "Operation not permitted"), (2, "No such file or directory"), (4, "Interrupted system call"),
  (5, "Input/output error"), (9, "Bad file descriptor"),
  (11, "Resource temporarily unavailable"), (12, "Cannot allocate memory"),
  (13, "Permission denied"), (16, "Device or resource busy"), (17, "File exists"),
  (20, "Not a directory"), (21, "Is a directory"), (22, "Invalid argument"),
  (24, "Too many open files"), (28, "No space left on device"), (32, "Broken pipe"),
  (36, "File name too long"), (98, "Address already in use"),
  (99, "Cannot assign requested address"), (100, "Network is down"),
  (101, "Network is unreachable"), (103, "Software caused connection abort"),
  (104, "Connection reset by peer"), (105, "No buffer space available"),
  (107, "Transport endpoint is not connected"), (110, "Connection timed out"),
  (111, "Connection refused"), (112, "Host is down"), (113, "No route to host")]

def IoFault.message : IoFault → String
  | numbered code =>
    ((words.lookup code).getD ("Unknown error " ++ toString code)) ++
      " (os error " ++ toString code ++ ")"
  | described text => text

/-- Why a configuration text is refused: it is not TOML, or not of the right shape. -/
inductive TomlFault
  | notToml
  | shape (m : Mismatch)
deriving DecidableEq, Repr

def TomlFault.message : TomlFault → String
  | notToml => "invalid TOML"
  | shape m => m.message

inductive Failure
  | io (fault : IoFault)
  | json (mismatch : Mismatch)
  | tomlRead (fault : TomlFault)
  /-- A whole number too large for the notation. -/
  | tomlWrite
  | noHome
  | timeout (after : Span)
  /-- The server said no. -/
  | refused (reason : String)
  /-- The server said something that does not belong here. -/
  | protocol (reason : String)
  | notLoggedIn
  | invalidRecord (reason : String)
  | invalidTransition (source target : String)
  | notBound
  | workerStopped
  | workerAlreadyStarted
deriving DecidableEq, Repr

namespace Failure

def message : Failure → String
  | io f => "IO error: " ++ f.message
  | json m => "JSON error: " ++ m.message
  | tomlRead f => "TOML parse error: " ++ f.message
  | tomlWrite => "TOML serialize error: out-of-range value for u64 type"
  | noHome => "No home directory"
  | timeout after => "Operation timed out after " ++ after.text
  | refused reason => "Server refused request: " ++ reason
  | protocol reason => "Protocol error: " ++ reason
  | notLoggedIn => "Not logged in"
  | invalidRecord reason => "Invalid results record: " ++ reason
  | invalidTransition source target =>
    "Invalid phase transition from " ++ source ++ " to " ++ target
  | notBound => "No communication worker bound to the orchestrator"
  | workerStopped => "Communication worker is not running"
  | workerAlreadyStarted => "Communication worker was already started"

/-- Whether the failure comes from the network side of a worker. -/
def isNetwork : Failure → Bool
  | io _ | timeout _ | refused _ | protocol _ | notLoggedIn => true
  | _ => false

end Failure
end LinkTest
