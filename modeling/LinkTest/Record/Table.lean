import LinkTest.Record.Basic

/-! # Records as tables

A valid record is shown as a header, a rule, one row per measurement in the order of names, and a
footer. The width of the name column is the greatest length of a name in bytes, while names are
filled up to it by characters; as no name has more characters than bytes, every value starts at
one and the same place. -/

namespace LinkTest

def retryMessage : String :=
  "There was an error running the test. Check your internet connection and try again."

/-- What is shown for a failed run. -/
def renderFailure (reason : String) : String := retryMessage ++ "\n  reason: " ++ reason ++ "\n"

namespace Record

def nameHeader : String := "metric"

/-- The width of the name column. -/
def nameWidth (m : Metrics) : Nat :=
  (m.names.map String.utf8ByteSize).foldl max nameHeader.utf8ByteSize

/-- A text filled up to a count of characters. -/
def fill (width : Nat) (s : String) : String :=
  s ++ String.ofList (List.replicate (width - s.length) ' ')

def row (width : Nat) (name value : String) : String := fill width name ++ "  " ++ value ++ "\n"

def renderTable (r : Record) : String :=
  match r.content with
  | .error _ => renderFailure r.reason
  | .ok m =>
    let width := nameWidth m
    row width nameHeader "value" ++ String.ofList (List.replicate (width + 8) '-') ++ "\n" ++
      String.join (m.entries.map fun (k, v) => row width k v.display) ++
      "recorded " ++ r.stamp.time.tableText ++ " (" ++ r.stamp.id.short ++ ")\n"

def renderJson (r : Record) : String := Json.pretty r.datum

end Record
end LinkTest
