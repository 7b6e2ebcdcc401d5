import LinkTest.Text.Blank

/-! # The log

Lines are written at a level and only if the log's own level is at least as talkative. A line
names its level and the thread that wrote it; the time in front of it is put there by whoever
writes the file. -/

namespace LinkTest

inductive LogLevel
  | error
  | warn
  | info
  | debug
  | trace
deriving DecidableEq, Repr, Inhabited

namespace LogLevel

/-- Talkativeness: higher levels write more. -/
def rank : LogLevel → Nat
  | error => 0
  | warn => 1
  | info => 2
  | debug => 3
  | trace => 4

def name : LogLevel → String
  | error => "ERROR"
  | warn => "WARN"
  | info => "INFO"
  | debug => "DEBUG"
  | trace => "TRACE"

/-- The name filled up to the width of the longest. -/
def tag : LogLevel → String
  | warn => "WARN "
  | info => "INFO "
  | l => l.name

/-- The more talkative of two levels. -/
def max (a b : LogLevel) : LogLevel := if a.rank < b.rank then b else a

private def lowered (s : String) : String := String.ofList (s.toList.map Char.toLower)

/-- A level from its name in any case, with white space around it; or the reason against it. -/
def ofText (s : String) : Except String LogLevel :=
  match lowered (Text.trim s) with
  | "error" => .ok error
  | "warn" | "warning" => .ok warn
  | "info" => .ok info
  | "debug" => .ok debug
  | "trace" => .ok trace
  | other => .error ("unknown log level '" ++ other ++ "'")

/-- The level that the environment asks for: `level` names one, `debugging` and the switch raise
it to `debug` at least. -/
def ofEnvironment (switch : Bool) (level debugging : Option String) : LogLevel :=
  let base := match level.map ofText with
    | some (.ok l) => l
    | _ => info
  let asked := match debugging with
    | some v => v == "1" || lowered v == "true"
    | none => false
  if switch || asked then base.max debug else base

end LogLevel

/-- Something to be logged. -/
structure Note where
  level : LogLevel
  /-- The thread that has it to say. -/
  thread : String
  text : String
deriving DecidableEq, Repr, Inhabited

namespace Note

/-- The thread that programs begin in. -/
def main (level : LogLevel) (text : String) : Note := ⟨level, "main", text⟩

end Note

structure Log where
  level : LogLevel
  /-- The lines written, oldest first. -/
  lines : List String
deriving DecidableEq, Repr, Inhabited

namespace Log

def empty : Log := ⟨.info, []⟩

def line (level : LogLevel) (thread text : String) : String :=
  level.tag ++ " " ++ thread ++ ": " ++ text

def write (log : Log) (level : LogLevel) (thread text : String) : Log :=
  if level.rank ≤ log.level.rank then { log with lines := log.lines ++ [line level thread text] }
  else log

def add (log : Log) (n : Note) : Log := log.write n.level n.thread n.text

def addAll (log : Log) (notes : List Note) : Log := notes.foldl add log

end Log
end LinkTest
