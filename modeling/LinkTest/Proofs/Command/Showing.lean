import LinkTest.Command.Basic
import LinkTest.Proofs.Config.Saving

/-!
# The configuration that is shown

The command shows the configuration that is in force, as a text that is read as that
configuration. Where something stands at the path nothing is touched, and shown a second time it
is the same. Only where nothing stands there, and it is asked for, is the default configuration
written; where no file can be made this fails and every file is left as it was.
-/

namespace LinkTest.Command

open Config (Writable)

variable {path said text : String} {init : Bool} {t left : FileTree} {c : Config} {f : Failure}

/-- If the default configuration has to be written, it can be. -/
def Ready (path : String) (init : Bool) (t : FileTree) : Prop :=
  init = true → t.exists? path = true ∨ Writable t path

/-- Folders on the way are made before the file is written. A path that leads back out of one then
leads to a file that could not be seen by it. -/
example : (showConfig "new/../conf.toml" true ⟨[(["conf.toml"], .file .empty)], []⟩).files.file?
    ["conf.toml"] ≠ some .empty := by
  decide +kernel

end LinkTest.Command
