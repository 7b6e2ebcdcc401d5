import LinkTest.Datum.Decoder

/-! # Receipts for uploads -/

namespace LinkTest

/-- Under which numbers the server has filed a record. -/
structure Receipt where
  setId : Int
  resultId : Int
deriving DecidableEq, Repr, Inhabited

namespace Receipt

def datum (r : Receipt) : Datum :=
  .dict [("set_id", .whole r.setId), ("result_id", .whole r.resultId)] .strict

def fields : List Decoder.Field := [
  .of "set_id" Decoder.signed64 .refused,
  .of "result_id" Decoder.signed64 .refused]

def decoder : Decoder Receipt := fun d => do
  let found ← Decoder.fields "ReportReceipt" fields d
  let setId ← found.get "set_id" Decoder.signed64
  let resultId ← found.get "result_id" Decoder.signed64
  .ok ⟨setId, resultId⟩

end Receipt
end LinkTest
