import LinkTest.Config.Toml
import LinkTest.FileTree
import LinkTest.Log

/-!
# Where configurations are kept

A configuration is loaded from a file, or is the default one where there is no file. It is saved
only after it has been written out in full, so that one that has no written form leaves the file
as it is.
-/

namespace LinkTest.Config

/-- The folder of the program below somebody's home. -/
def folder (home : String) : String := PathName.join home ".netgauge"

/-- The file to load unless another is named. -/
def homePath (home : String) : String := PathName.join (folder home) "netgauge.toml"

/-- The file that the log is written to. -/
def logPath (home : String) : String := PathName.join (folder home) "netgauge.log"

private def optionalText : Option String → String
  | some s => "Some(" ++ Text.quoted s ++ ")"
  | none => "None"

def loadedNote (c : Config) : Note :=
  .main .debug ("Config loaded: server=" ++ c.server ++ " username=" ++ optionalText c.username ++
    " timeout=" ++ toString c.exchangeTimeoutSeconds ++ "s")

def load (t : FileTree) (path : String) : Except Failure Config × List Note :=
  let start : Note := .main .debug ("Config::load path=" ++ path)
  if t.exists? path then
    match (t.readText path).mapError Failure.io >>= ofToml with
    | .ok c => (.ok c, [start, c.loadedNote])
    | .error f => (.error f, [start])
  else (.ok default, [start, .main .debug "Config file not found, using defaults"])

/-- Makes the folder of a file, if it is missing. -/
def makeRoom (t : FileTree) (path : String) : Except Failure FileTree × List Note :=
  match PathName.parent? path with
  | none => (.ok t, [])
  | some parent =>
    if t.exists? parent then (.ok t, [])
    else ((t.makeFolders parent).mapError .io,
      [.main .debug ("Creating config directory: " ++ parent)])

/-- Writes the configuration to a file. The tree is changed also where this fails, if folders had
to be made for it. -/
def save (c : Config) (path : String) (t : FileTree) :
    Except Failure Unit × FileTree × List Note :=
  match makeRoom t path with
  | (.error f, notes) => (.error f, t, notes)
  | (.ok roomy, notes) =>
    match c.toToml with
    | .error f => (.error f, roomy, notes)
    | .ok text =>
      match roomy.writeText path text with
      | .error f => (.error (.io f), roomy, notes)
      | .ok written => (.ok (), written, notes ++ [.main .debug ("Config saved to " ++ path)])

end LinkTest.Config
