import LinkTest.Phase
import LinkTest.Receipt
import LinkTest.Record.Basic

/-! # Events of runs -/

namespace LinkTest

inductive EventKind
  | testCompleted
  | testFailed
  | phaseChanged
  | reportRouter
deriving DecidableEq, Repr, Inhabited

namespace EventKind

def name : EventKind → String
  | testCompleted => "TestCompleted"
  | testFailed => "TestFailed"
  | phaseChanged => "PhaseChanged"
  | reportRouter => "ReportRouter"

def all : List EventKind := [testCompleted, testFailed, phaseChanged, reportRouter]

/-- All kinds in the order of their names. -/
def byName : List EventKind := [phaseChanged, reportRouter, testCompleted, testFailed]

theorem mem_byName (k : EventKind) : k ∈ byName := by cases k <;> decide

def named : List (String × EventKind) := all.map fun k => (k.name, k)

def decoder : Decoder EventKind := Decoder.variant named

end EventKind

inductive Event
  | testCompleted (record : Record)
  | testFailed (reason : String)
  | phaseChanged (source target : Phase)
  | reportRouter (receipt : Receipt)

namespace Event

def kind : Event → EventKind
  | testCompleted _ => .testCompleted
  | testFailed _ => .testFailed
  | phaseChanged _ _ => .phaseChanged
  | reportRouter _ => .reportRouter

/-- The event in one line. -/
def describe : Event → String
  | phaseChanged source target => "phase: " ++ source.name ++ " -> " ++ target.name
  | testCompleted r => "test completed (" ++ r.stamp.id.short ++ ")"
  | testFailed reason => "test failed: " ++ reason
  | reportRouter r =>
    "results uploaded (set " ++ toString r.setId ++ ", result " ++ toString r.resultId ++ ")"

end Event
end LinkTest
