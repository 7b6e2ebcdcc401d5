import LinkTest.Command.Arguments
import LinkTest.Command.Run
import LinkTest.Config.Store

/-!
# The command line

Everything that a command does is a change of the world around it: the files, the network, what
stands on the two outputs and in the log.
-/

namespace LinkTest.Command

/-- What a command finds. -/
structure Surroundings where
  files : FileTree
  network : Network
  home : String
  /-- The settings of the environment for the log. -/
  level : Option String
  debugging : Option String
  /-- What is put on the records that are made. -/
  stamps : Nat → Stamp

/-- How a command ends. -/
inductive Exit
  | success
  /-- The test has failed, and this has been said. -/
  | failure
  | broken (f : Failure)
  /-- A span of time does not exist. -/
  | overflow
  | stopped (s : Stop)

def Exit.code : Exit → Nat
  | success => 0
  | failure => 1
  | broken _ => 1
  | overflow => 101
  | stopped .misuse => 2
  | stopped .help => 0
  | stopped .version => 0

/-- What a command leaves. -/
structure Left where
  exit : Exit
  output : Output
  files : FileTree
  network : Network
  log : Log

def versionText : String := "netgauge 0.1.0\n"

def helpText : String :=
  "Usage: netgauge [-d] [-c FILE] run [--server HOST:PORT] [--json]\n" ++
  "       netgauge [-d] [-c FILE] config [--init]\n"

def stopText : Stop → String
  | .version => versionText
  | .help => helpText
  | .misuse => ""

/-- Makes the log's file empty, if it can be made at all. -/
def openLog (t : FileTree) (home : String) : Option FileTree :=
  ((t.makeFolders (Config.folder home)).bind (·.writeText (Config.logPath home) "")).toOption

/-- Writes the default configuration to a place where there is nothing. -/
def initialise (path : String) (t : FileTree) : Except Failure String × FileTree × List Note :=
  if t.exists? path then (.ok "", t, [])
  else
    match Config.default.save path t with
    | (.ok _, t, notes) => (.ok ("Wrote default configuration to " ++ path ++ "\n"), t, notes)
    | (.error f, t, notes) => (.error f, t, notes)

/-- What a command leaves that only works with the configuration. -/
structure Shown where
  exit : Exit
  out : String
  files : FileTree
  notes : List Note

def showConfig (path : String) (init : Bool) (t : FileTree) : Shown :=
  match if init then initialise path t else (.ok "", t, []) with
  | (.error f, t, notes) => ⟨.broken f, "", t, notes⟩
  | (.ok said, t, notes) =>
    let (loaded, more) := Config.load t path
    match loaded with
    | .error f => ⟨.broken f, said, t, notes ++ more⟩
    | .ok c =>
      let out := said ++ "# " ++ path ++ "\n"
      match c.toToml with
      | .error f => ⟨.broken f, out, t, notes ++ more⟩
      | .ok text => ⟨.success, out ++ text, t, notes ++ more⟩

/-- Loads the configuration and makes one test with it. -/
def runTest (path : String) (server : Option String) (json : Bool) (w : Surroundings)
    (files : FileTree) (log : Log) : Left :=
  let (loaded, notes) := Config.load files path
  let log := log.addAll notes
  match loaded with
  | .error f => ⟨.broken f, ⟨"", ""⟩, files, w.network, log⟩
  | .ok c =>
    let c := { c with server := server.getD c.server }
    let log := log.add (startNote c json)
    match test? c json w.network w.stamps log with
    | none => ⟨.overflow, ⟨"", ""⟩, files, w.network, log⟩
    | some t =>
      let exit : Exit := match t.result with
        | .ok true => .success
        | .ok false => .failure
        | .error f => .broken f
      ⟨exit, t.output, files, t.network, t.log⟩

/-- Carries out what the arguments ask for. -/
def carryOut (a : Arguments) (w : Surroundings) : Left :=
  let level := LogLevel.ofEnvironment a.debug w.level w.debugging
  let opened := openLog w.files w.home
  let files := opened.getD w.files
  let path := a.config.getD (Config.homePath w.home)
  let done := match a.task with
    | .run server json => runTest path server json w files ⟨level, []⟩
    | .config init =>
      let s := showConfig path init files
      ⟨s.exit, ⟨s.out, ""⟩, s.files, w.network, Log.addAll ⟨level, []⟩ s.notes⟩
  if opened.isSome then done else { done with log := ⟨level, []⟩ }

def command (args : List String) (w : Surroundings) : Left :=
  match parse args with
  | .error s => ⟨.stopped s, ⟨stopText s, ""⟩, w.files, w.network, .empty⟩
  | .ok a => carryOut a w

end LinkTest.Command
