import LinkTest.Command.Basic
import Std.Time.DateTime.Timestamp

/-!
# The program

Finds out what a command may need, carries it out, and leaves on the disk and on the outputs what
has come of it. There are no sockets on this side: in the network of the program nothing listens,
and no name but that of the machine itself is known.
-/

namespace LinkTest.Program

/-- The text of a place. -/
def pathOf (p : Place) : String := "/" ++ "/".intercalate p

/-- What stands in a place. All that cannot be read as a file counts as a folder. -/
def entryAt (p : Place) : IO (Option Entry) := do
  match ← (IO.FS.readBinFile (pathOf p)).toBaseIO with
  | .ok bytes => pure (some (.file bytes))
  | .error (.noFileOrDirectory ..) => pure none
  | .error _ => pure (some .folder)

/-- The places on the way along a path. -/
def placesAlong (p : Place) : List String → List Place
  | [] => []
  | part :: rest => FileTree.further p part :: placesAlong (FileTree.further p part) rest

/-- The tree with what stands in some places. -/
def lookAt (t : FileTree) : List Place → IO FileTree
  | [] => pure t
  | p :: r => do
    match ← entryAt p with
    | some e => lookAt (t.put p e) r
    | none => lookAt t r

def sameEntry : Option Entry → Entry → Bool
  | some .folder, .folder => true
  | some (.file a), .file b => a.data == b.data
  | _, _ => false

/-- Makes the disk what a tree says, where it is not. -/
def leave (before : FileTree) : List (Place × Entry) → IO Unit
  | [] => pure ()
  | (p, e) :: r => do
    if !sameEntry (before.entry? p) e then
      match e with
      | .folder => IO.FS.createDirAll (pathOf p)
      | .file bytes => IO.FS.writeBinFile (pathOf p) bytes
    leave before r

def silence : Network := ⟨[], [], [], .refused Network.refusal, .zero, [], 0⟩

def clock : IO Timestamp := do
  let t ← Std.Time.Timestamp.now
  pure (.ofUnix t.val.second.val t.val.nano.val.toNat)

/-- Identifiers that begin with different digits, all made of the same sixteen random bytes. -/
def stampsFrom (seed : ByteArray) (time : Timestamp) (n : Nat) : Stamp :=
  let bits := seed.toList.foldl (fun n b => 256 * n + b.toNat) 0
  ⟨.random (BitVec.ofNat 128 (bits + n * 0x9e3779b97f4a7c15f39cc0605cedc835)), time⟩

def logText (time : Timestamp) (log : Log) : String :=
  let millis := (1000 + time.nano / 1000000 % 1000).repr.drop 1
  String.join (log.lines.map fun l => "[" ++ time.clockText ++ "." ++ millis ++ "] " ++ l ++ "\n")

/-- What is said about a command that is broken off, besides its own output. -/
def lastWords : Command.Exit → String
  | .broken f => "Error: " ++ f.message ++ "\n"
  | .overflow => "overflow when multiplying duration\n"
  | .stopped .misuse => Command.helpText
  | _ => ""

def run (args : List String) : IO UInt32 := do
  let home := (← IO.getEnv "HOME").getD "/"
  let here := PathName.parts (toString (← IO.currentDir))
  let named := match Command.parse args with
    | .ok a => a.config.toList
    | .error _ => []
  let empty : FileTree := ⟨[], here⟩
  let along (path : String) : List Place := placesAlong (empty.origin path) (PathName.parts path)
  let places := placesAlong [] here ++
    (Config.homePath home :: Config.logPath home :: named).flatMap along
  let files ← lookAt empty places
  let time ← clock
  let stamps := stampsFrom (← IO.getRandomBytes 16) time
  let left := Command.command args
    ⟨files, silence, home, ← IO.getEnv "NETGAUGE_LOG", ← IO.getEnv "NETGAUGE_DEBUG", stamps⟩
  leave files left.files.entries.reverse
  if !left.log.lines.isEmpty then
    IO.FS.writeFile (Config.logPath home) (logText time left.log)
  IO.print left.output.out
  IO.eprint (left.output.err ++ lastWords left.exit)
  pure left.exit.code.toUInt32

end LinkTest.Program

def main (args : List String) : IO UInt32 := LinkTest.Program.run args
