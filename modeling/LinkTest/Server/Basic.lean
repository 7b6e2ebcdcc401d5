import LinkTest.Credentials
import LinkTest.Receipt
import LinkTest.Record.Basic

/-!
# Servers as workers see them

A server is whatever has a state and answers three kinds of call and a farewell. Each call is made
under a limit of time. One that would not end by then is given up at the limit, wherever it stands;
what it has done to the server's state until then stays done.
-/

namespace LinkTest

/-- How a call ends. -/
inductive Outcome (α : Type)
  | ended (result : Except Failure α)
  /-- It was given up at the limit. -/
  | overdue
  /-- It takes the thread that made it down with it. -/
  | crashed

namespace Outcome

/-- The result as the caller sees it, who was ready to wait for `limit`; nothing after a crash. -/
def result? {α : Type} (limit : Span) : Outcome α → Option (Except Failure α)
  | ended r => some r
  | overdue => some (.error (.timeout limit))
  | crashed => none

end Outcome

class Server (σ : Type) where
  login : Span → Credentials → σ → Outcome SessionToken × σ
  /-- Makes one test and its record. -/
  test : Span → SessionToken → σ → Outcome Record × σ
  /-- Uploads the metrics of a valid record. -/
  report : Span → SessionToken → Record → σ → Outcome Receipt × σ
  disconnect : σ → σ

/-- One use that is made of a server. -/
inductive Call
  | login (credentials : Credentials)
  | test (session : SessionToken)
  | report (session : SessionToken) (record : Record)
  | disconnect

def Call.text : Call → String
  | login c => "login " ++ c.username ++ ":" ++ c.token
  | test t => "test " ++ t.text
  | report t r => "report " ++ t.text ++ " " ++ Json.compact r.metrics.datum
  | disconnect => "disconnect"

end LinkTest
