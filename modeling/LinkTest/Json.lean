import LinkTest.Datum.Decoder
import LinkTest.Json.Reader
import LinkTest.Json.Writer

/-! # Values as JSON text -/

namespace LinkTest.Json

/-- One value of a type, with nothing but blanks after it. -/
def decode {α : Type} (decoder : Decoder α) (s : String) : Except Mismatch α := do
  let doc := read s
  let x ← decoder doc.root
  if doc.trailing then .error (.fault .charactersAfterEnd) else .ok x

/-- How deep lists and dictionaries may nest where any value is read. -/
def depthLimit : Nat := 127

/-- Why a text is not JSON at all, if it is not. -/
def firstFault? (s : String) : Option Fault :=
  let doc := read s
  (doc.root.readFault depthLimit).or (if doc.trailing then some .charactersAfterEnd else none)

end LinkTest.Json
