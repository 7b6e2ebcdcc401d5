import LinkTest.Datum.Decoder
import LinkTest.Text.Quoted

/-!
# Credentials and sessions

The token of credentials is a secret: the form for people shows only that there is one. In return
for credentials a server hands out a session token, which stands for the login from then on.
-/

namespace LinkTest

structure Credentials where
  username : String
  token : String
deriving DecidableEq, Repr, Inhabited

namespace Credentials

def anonymous : Credentials := ⟨"", ""⟩

def describe (c : Credentials) : String :=
  "Credentials \x7b username: " ++ Text.quoted c.username ++ ", token: " ++
    Text.quoted "<redacted>" ++ " \x7d"

end Credentials

structure SessionToken where
  text : String
deriving DecidableEq, Repr, Inhabited

namespace SessionToken

def datum (t : SessionToken) : Datum := .text t.text

def decoder : Decoder SessionToken := fun d => (Decoder.text d).map SessionToken.mk

end SessionToken
end LinkTest
