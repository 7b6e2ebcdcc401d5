import LinkTest.Server.Basic

/-!
# Servers that follow a script

The outcomes of the calls of each kind are given in advance; when they have been used up, every
call succeeds with one and the same result.
-/

namespace LinkTest

structure Script where
  logins : List (Outcome SessionToken)
  tests : List (Outcome Record)
  reports : List (Outcome Receipt)
  /-- What is put on the records of tests beyond the script. -/
  stamp : Stamp

namespace Script

def defaultToken : SessionToken := ⟨"session"⟩

def defaultRecord (stamp : Stamp) : Record :=
  .measured stamp (.ofList [
    ("latency_ms", .number (.ofNat 42)),
    ("throughput_mbps", .number (.ofDecimal false 875 (-1)))])

def defaultReceipt : Receipt := ⟨1, 2⟩

instance : Server Script where
  login _ _ s := (s.logins.headD (.ended (.ok defaultToken)), { s with logins := s.logins.tail })
  test _ _ s :=
    (s.tests.headD (.ended (.ok (defaultRecord s.stamp))), { s with tests := s.tests.tail })
  report _ _ _ s :=
    (s.reports.headD (.ended (.ok defaultReceipt)), { s with reports := s.reports.tail })
  disconnect s := s

end Script

/-- A server that gives everything back: its session is the user's name, its tests fail with the
session as the reason, and its receipts count the metrics. -/
structure Loopback where
  stamp : Stamp

instance : Server Loopback where
  login _ c s := (.ended (.ok ⟨c.username⟩), s)
  test _ t s := (.ended (.ok (.failed s.stamp t.text)), s)
  report _ _ r s := (.ended (.ok ⟨0, r.metrics.size⟩), s)
  disconnect s := s

end LinkTest
