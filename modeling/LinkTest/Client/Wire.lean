import LinkTest.Credentials
import LinkTest.Failure
import LinkTest.Json
import LinkTest.Record.Metrics
import LinkTest.Settings

/-!
# What client and test server say to each other

One request on one line, one reply on one line, both in JSON.
-/

namespace LinkTest

inductive Request
  | login (credentials : Credentials)
  | getConfig (session : SessionToken)
  | report (session : SessionToken) (setId resultId : Int) (metrics : Metrics)

namespace Request

def op : Request → String
  | login _ => "login"
  | getConfig _ => "get_config"
  | report _ _ _ _ => "report"

def members : Request → List (String × Datum)
  | login c => [("username", .text c.username), ("token", .text c.token)]
  | getConfig t => [("session", t.datum)]
  | report t setId resultId m =>
    [("session", t.datum), ("set_id", .whole setId), ("result_id", .whole resultId),
      ("metrics", m.datum)]

def line (r : Request) : String := Json.compact (.dict (("op", .text r.op) :: r.members) .strict)

end Request

/-- What the server answers; which parts are there depends on the request. -/
structure Response where
  accepted : Bool
  reason : Option String
  session : Option SessionToken
  settings : Option Settings
deriving DecidableEq, Repr

namespace Response

def fields : List Decoder.Field := [
  .of "ok" Decoder.boolean .refused,
  .of "reason" (Decoder.optional Decoder.text) .filled,
  .of "session" (Decoder.optional SessionToken.decoder) .filled,
  .of "config" (Decoder.optional Settings.decoder) .filled]

def decoder : Decoder Response := fun d => do
  let found ← Decoder.fields "Reply" fields d
  let accepted ← found.get "ok" Decoder.boolean
  let reason ← found.getD "reason" (Decoder.optional Decoder.text) none
  let session ← found.getD "session" (Decoder.optional SessionToken.decoder) none
  let settings ← found.getD "config" (Decoder.optional Settings.decoder) none
  .ok ⟨accepted, reason, session, settings⟩

/-- The response on a line to a request, if it is one and the server agrees. -/
def ofLine (r : Request) (line : String) : Except Failure Response :=
  match Json.decode decoder line with
  | .error m => .error (.protocol ("malformed " ++ r.op ++ " reply: " ++ m.message))
  | .ok reply =>
    if reply.accepted then .ok reply
    else .error (.refused (reply.reason.getD (r.op ++ " rejected")))

end Response
end LinkTest
