import LinkTest.Credentials
import LinkTest.Receipt
import LinkTest.Record.Basic

/-!
# Messages to a worker and its replies

Whoever asks for a test or an upload says where the replies go: to a target that collects them, or
to the run on whose behalf the request is made, which they carry forward.
-/

namespace LinkTest

/-- Runs are numbered in the order in which they were begun. -/
structure RunId where
  number : Nat
deriving DecidableEq, Repr, Inhabited

def RunId.text (r : RunId) : String := toString r.number

/-- How a target takes replies: they wait in a queue, or a function is called with each. -/
inductive TargetKind
  | channel
  | callback
deriving DecidableEq, Repr, Inhabited

def TargetKind.describe : TargetKind → String
  | channel => "ReplyTarget::Channel"
  | callback => "ReplyTarget::Callback"

inductive ReplyTo
  | target (id : Nat) (kind : TargetKind)
  | run (id : RunId)
deriving DecidableEq, Repr, Inhabited

/-- A run is told of a reply by a call. -/
def ReplyTo.kind : ReplyTo → TargetKind
  | target _ kind => kind
  | run _ => .callback

inductive Message
  /-- Log in, as someone else than the worker's own user if credentials are given. -/
  | login (credentials : Option Credentials)
  | requestTest (replyTo : ReplyTo)
  | report (record : Record) (replyTo : Option ReplyTo)
  | quit

namespace Message

def kind : Message → String
  | login _ => "LOGIN"
  | requestTest _ => "REQUEST_TEST"
  | report _ _ => "REPORT"
  | quit => "QUIT"

/-- The text of a message for people. -/
def describe : Message → String
  | quit => "Quit"
  | login c => "Login \x7b credentials: " ++ Text.optional (c.map (·.describe)) ++ " \x7d"
  | requestTest t => "RequestTest \x7b reply_to: " ++ t.kind.describe ++ " \x7d"
  | report record replyTo =>
    "Report \x7b record: " ++ record.describe ++ ", reply_to: " ++
      Text.optional (replyTo.map (·.kind.describe)) ++ " \x7d"

/-- The text of a message if it is the same every time; that of a report is not, as a record bears a
fresh identifier and the time. -/
def describe? : Message → Option String
  | report _ _ => none
  | m => some m.describe

end Message

inductive Reply
  /-- There is a session, and the test is being made. -/
  | started
  /-- The test has ended. If it could not be made, the record says why. -/
  | finished (record : Record)
  | reported (receipt : Receipt)
  | reportFailed (reason : String)

end LinkTest
