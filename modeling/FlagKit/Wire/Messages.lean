import FlagKit.Wire.Bulk
import FlagKit.Wire.Received

/-!
# Messages and relays

The remaining messages of the protocol: requests, and the responses for an unknown flag
and for a request that fails as a whole.  A value is received as it was sent but for an
explicit null among the metadata.  A value that was itself received has none, so a
relay that reads a message and writes it again passes it on unchanged, however the
document it read was laid out (`messages_relayed`).
-/

namespace FlagKit
namespace Ofrep

open Json

/-! ## Values -/

def FlagValue.asBool : FlagValue → Option Bool
  | .boolean b => some b
  | .codeDefault => none

namespace EvaluationSuccess

def on (key : String) (reason : Reason) : EvaluationSuccess where
  key
  value := .boolean true
  reason
  variant := some "on"
  metadata := none

def off (key : String) (reason : Reason) : EvaluationSuccess where
  key
  value := .boolean false
  reason
  variant := some "off"
  metadata := none

end EvaluationSuccess

namespace EvaluationFailure

def new (key : String) (errorCode : ErrorCode) : EvaluationFailure where
  key
  errorCode
  errorDetails := none

def withDetails (f : EvaluationFailure) (details : String) : EvaluationFailure :=
  { f with errorDetails := some details }

end EvaluationFailure

def BulkEntry.key : BulkEntry → String
  | .success s => s.key
  | .failure f => f.key

def BulkEvaluationSuccess.new (flags : List BulkEntry) : BulkEvaluationSuccess where
  flags
  metadata := none

structure FlagNotFound where
  key : String
  errorCode : ErrorCode
  errorDetails : Option String
  deriving DecidableEq

def FlagNotFound.new (key : String) : FlagNotFound where
  key
  errorCode := .flagNotFound
  errorDetails := none

structure BulkEvaluationFailure where
  errorCode : ErrorCode
  errorDetails : Option String
  deriving DecidableEq

structure EvaluationRequest where
  context : Context

def EvaluationRequest.default : EvaluationRequest := { context := .default }

def statusFor : ErrorCode → UInt16
  | .flagNotFound => 404
  | .parseError | .invalidContext | .targetingKeyMissing => 400
  | .general => 500

/-! ## Documents -/

def EvaluationSuccess.toValue (s : EvaluationSuccess) : Json :=
  (JsonMap.ofMembers (writeFields s.given)).toJson

def EvaluationFailure.toValue (f : EvaluationFailure) : Json :=
  (JsonMap.ofMembers (writeFields f.given)).toJson

namespace FlagNotFound

def fieldSpecs : List FieldSpec :=
  [⟨"key", false⟩, ⟨"errorCode", false⟩, ⟨"errorDetails", true⟩]

def given (n : FlagNotFound) : List (String × Option Json) :=
  [("key", some (.string n.key)), ("errorCode", some n.errorCode.toValue),
    ("errorDetails", n.errorDetails.map .string)]

def toValue (n : FlagNotFound) : Json := (JsonMap.ofMembers (writeFields n.given)).toJson

def deserialize (v : Json) : Option FlagNotFound := do
  match ← v.fields fieldSpecs with
  | [key, errorCode, errorDetails] =>
    return {
      key := ← required readString key
      errorCode := ← required ErrorCode.deserialize errorCode
      errorDetails := ← optional readString errorDetails }
  | _ => none

end FlagNotFound

namespace BulkEvaluationFailure

def fieldSpecs : List FieldSpec := [⟨"errorCode", false⟩, ⟨"errorDetails", true⟩]

def given (b : BulkEvaluationFailure) : List (String × Option Json) :=
  [("errorCode", some b.errorCode.toValue), ("errorDetails", b.errorDetails.map .string)]

def toValue (b : BulkEvaluationFailure) : Json :=
  (JsonMap.ofMembers (writeFields b.given)).toJson

def deserialize (v : Json) : Option BulkEvaluationFailure := do
  match ← v.fields fieldSpecs with
  | [errorCode, errorDetails] =>
    return {
      errorCode := ← required ErrorCode.deserialize errorCode
      errorDetails := ← optional readString errorDetails }
  | _ => none

end BulkEvaluationFailure

namespace EvaluationRequest

def fieldSpecs : List FieldSpec := [⟨"context", false⟩]

def given (r : EvaluationRequest) : List (String × Option Json) :=
  [("context", some r.context.toValue)]

def toValue (r : EvaluationRequest) : Json := (JsonMap.ofMembers (writeFields r.given)).toJson

def deserialize (v : Json) : Option EvaluationRequest := do
  match ← v.fields fieldSpecs with
  | [context] => return { context := ← required Context.deserialize context }
  | _ => none

end EvaluationRequest

/-! ## A failure and an unknown flag -/

/-- The failure with the fields of the response for an unknown flag. -/
def FlagNotFound.asFailure (n : FlagNotFound) : EvaluationFailure := ⟨n.key, n.errorCode, n.errorDetails⟩

def EvaluationFailure.asNotFound (f : EvaluationFailure) : FlagNotFound :=
  ⟨f.key, f.errorCode, f.errorDetails⟩

theorem FlagNotFound.toValue_eq (n : FlagNotFound) : n.toValue = n.asFailure.toValue := rfl

/-- Not only what is written: whatever is read as the one is read as the other. -/
theorem FlagNotFound.deserialize_eq (v : Json) :
    deserialize v = (EvaluationFailure.deserialize v).map EvaluationFailure.asNotFound := by
  have hspecs : fieldSpecs = EvaluationFailure.fieldSpecs := rfl
  rw [deserialize, EvaluationFailure.deserialize, hspecs]
  cases v.fields EvaluationFailure.fieldSpecs with
  | none => rfl
  | some given =>
    rcases given with _ | ⟨key, _ | ⟨errorCode, _ | ⟨errorDetails, _ | ⟨_, _⟩⟩⟩⟩
    case cons.cons.cons.nil =>
      cases hkey : required readString key <;>
        cases hcode : required ErrorCode.deserialize errorCode <;>
        cases hdetails : optional readString errorDetails <;>
        simp [hkey, hcode, hdetails, EvaluationFailure.asNotFound]
    all_goals rfl

/-! ## What the receiver gets

A value is received as it was sent but for an explicit null among the metadata, which
is received as no metadata. -/

def receivedJson : Option Json → Option Json
  | some .null => none
  | o => o

theorem optional_some_eq (o : Option Json) : optional some o = some (receivedJson o) := by
  cases o with
  | none => rfl
  | some v => cases v <;> rfl

theorem receivedJson_of_optional {given o : Option Json} (h : optional some given = some o) :
    receivedJson o = o := by
  rw [optional_some_eq] at h
  cases h
  cases given with
  | none => rfl
  | some v => cases v <;> rfl

def EvaluationSuccess.received (s : EvaluationSuccess) : EvaluationSuccess :=
  { s with metadata := receivedJson s.metadata }

def BulkEntry.received : BulkEntry → BulkEntry
  | .success s => .success s.received
  | .failure f => .failure f

def BulkEvaluationSuccess.received (b : BulkEvaluationSuccess) : BulkEvaluationSuccess where
  flags := b.flags.map BulkEntry.received
  metadata := receivedJson b.metadata

theorem EvaluationSuccess.deserialize_toValue (s : EvaluationSuccess) :
    deserialize s.toValue = some s.received := by
  have hfields := fields_writeFields fieldSpecs s.given_nodup rfl
  simp only [deserialize, toValue, hfields]
  simp [given, readString, FlagValue.deserialize_toValue, Reason.deserialize_toValue,
    optional_string, optional_some_eq, received]

theorem EvaluationFailure.deserialize_toValue (f : EvaluationFailure) :
    deserialize f.toValue = some f := f.deserialize_given

theorem FlagNotFound.deserialize_toValue (n : FlagNotFound) : deserialize n.toValue = some n := by
  rw [deserialize_eq, toValue_eq, EvaluationFailure.deserialize_toValue]
  rfl

theorem BulkEntry.deserialize_success (s : EvaluationSuccess) :
    deserialize s.toValue = some (.success s.received) := by
  rw [deserialize, untagged, s.deserialize_toValue]
  rfl

theorem BulkEntry.deserialize_failure (f : EvaluationFailure) :
    deserialize f.toValue = some (.failure f) := by
  rw [deserialize, untagged, EvaluationFailure.toValue, f.not_success, f.deserialize_given]
  rfl

theorem BulkEntry.toValue_eq (e : BulkEntry) :
    e.toValue = match e with
      | .success s => s.toValue
      | .failure f => f.toValue := by
  rw [toValue, serialize_eq_derived]
  cases e <;> rfl

theorem BulkEntry.deserialize_received (e : BulkEntry) : deserialize e.toValue = some e.received := by
  rw [toValue_eq]
  cases e with
  | success s => exact deserialize_success s
  | failure f => exact deserialize_failure f

theorem BulkEvaluationSuccess.given_nodup (b : BulkEvaluationSuccess) :
    (b.given.map Prod.fst).Nodup := by
  show ["flags", "metadata"].Nodup
  decide

theorem BulkEvaluationSuccess.deserialize_received (b : BulkEvaluationSuccess) :
    deserialize b.toValue = some b.received := by
  have hfields := fields_writeFields fieldSpecs b.given_nodup rfl
  have hflags := readSeq_map_map BulkEntry.deserialize_received b.flags
  simp only [deserialize, toValue, hfields]
  simp [given, hflags, optional_some_eq, received]

theorem BulkEvaluationFailure.given_nodup (b : BulkEvaluationFailure) :
    (b.given.map Prod.fst).Nodup := by
  show ["errorCode", "errorDetails"].Nodup
  decide

theorem BulkEvaluationFailure.deserialize_toValue (b : BulkEvaluationFailure) :
    deserialize b.toValue = some b := by
  have hfields := fields_writeFields fieldSpecs b.given_nodup rfl
  simp only [deserialize, toValue, hfields]
  simp [given, ErrorCode.deserialize_toValue, optional_string]

theorem EvaluationRequest.given_nodup (r : EvaluationRequest) :
    (r.given.map Prod.fst).Nodup := by
  show ["context"].Nodup
  decide

/-- A request is received when its context is. -/
def EvaluationRequest.received (r : EvaluationRequest) : Option EvaluationRequest :=
  r.context.received.map EvaluationRequest.mk

theorem EvaluationRequest.deserialize_received (r : EvaluationRequest) :
    deserialize r.toValue = r.received := by
  have hfields := fields_writeFields fieldSpecs r.given_nodup rfl
  simp only [deserialize, toValue, hfields]
  cases hcontext : r.context.received <;>
    simp [given, received, Context.deserialize_toValue, hcontext]

/-! ## Relays -/

theorem Reason.relayed : Relayed deserialize toValue := relayed_of_round_trip deserialize_toValue

theorem ErrorCode.relayed : Relayed deserialize toValue :=
  relayed_of_round_trip deserialize_toValue

theorem FlagValue.relayed : Relayed deserialize toValue :=
  relayed_of_round_trip deserialize_toValue

/-- A success that was read has no null among its metadata. -/
theorem EvaluationSuccess.received_of_deserialize {v : Json} {s : EvaluationSuccess}
    (h : deserialize v = some s) : s.received = s := by
  rw [deserialize, Option.bind_eq_bind, Option.bind_eq_some_iff] at h
  obtain ⟨given, -, hread⟩ := h
  rcases given with
    _ | ⟨key, _ | ⟨value, _ | ⟨reason, _ | ⟨variant, _ | ⟨metadata, _ | ⟨_, _⟩⟩⟩⟩⟩⟩
  case cons.cons.cons.cons.cons.nil =>
    simp only [Option.bind_eq_bind, Option.bind_eq_some_iff, Option.pure_def,
      Option.some.injEq] at hread
    obtain ⟨_, -, _, -, _, -, _, -, o, ho, rfl⟩ := hread
    rw [received, receivedJson_of_optional ho]
  all_goals cases hread

theorem EvaluationSuccess.relayed : Relayed deserialize toValue :=
  relayed_of_received deserialize_toValue fun _ _ h => received_of_deserialize h

theorem BulkEntry.received_of_deserialize {v : Json} {e : BulkEntry}
    (h : deserialize v = some e) : e.received = e := by
  rw [deserialize, untagged] at h
  cases hs : EvaluationSuccess.deserialize v with
  | some s =>
    rw [hs] at h
    cases h
    exact congrArg BulkEntry.success (EvaluationSuccess.received_of_deserialize hs)
  | none =>
    rw [hs] at h
    cases hf : EvaluationFailure.deserialize v with
    | none =>
      rw [hf] at h
      cases h
    | some f =>
      rw [hf] at h
      cases h
      rfl

theorem BulkEvaluationSuccess.received_of_deserialize {v : Json} {b : BulkEvaluationSuccess}
    (h : deserialize v = some b) : b.received = b := by
  rw [deserialize, Option.bind_eq_bind, Option.bind_eq_some_iff] at h
  obtain ⟨given, -, hread⟩ := h
  rcases given with _ | ⟨flags, _ | ⟨metadata, _ | ⟨_, _⟩⟩⟩
  case cons.cons.nil =>
    simp only [Option.bind_eq_bind, Option.bind_eq_some_iff, required_eq_some_iff,
      Option.pure_def, Option.some.injEq] at hread
    obtain ⟨l, ⟨_, -, hl⟩, o, ho, rfl⟩ := hread
    have hentries := forall_mem_of_readSeq (fun _ _ => BulkEntry.received_of_deserialize) hl
    rw [received, receivedJson_of_optional ho, List.map_congr_left hentries, List.map_id']
  all_goals cases hread

theorem EvaluationRequest.relayed : Relayed deserialize toValue := by
  intro v r h
  rw [deserialize, Option.bind_eq_bind, Option.bind_eq_some_iff] at h
  obtain ⟨given, -, hread⟩ := h
  rcases given with _ | ⟨context, _ | ⟨_, _⟩⟩
  case cons.nil =>
    simp only [Option.bind_eq_bind, Option.bind_eq_some_iff, required_eq_some_iff,
      Option.pure_def, Option.some.injEq] at hread
    obtain ⟨c, ⟨_, -, hc⟩, rfl⟩ := hread
    rw [deserialize_received, received, Context.received, Context.no_key_attribute hc]
    rfl
  all_goals cases hread

/-- Whatever document a message was read from, as an object or as an array, with unknown
members or without, it is the same after it was written and read again. -/
theorem messages_relayed :
    Relayed Reason.deserialize Reason.toValue ∧
    Relayed ErrorCode.deserialize ErrorCode.toValue ∧
    Relayed FlagValue.deserialize FlagValue.toValue ∧
    Relayed EvaluationSuccess.deserialize EvaluationSuccess.toValue ∧
    Relayed EvaluationFailure.deserialize EvaluationFailure.toValue ∧
    Relayed FlagNotFound.deserialize FlagNotFound.toValue ∧
    Relayed BulkEntry.deserialize BulkEntry.toValue ∧
    Relayed BulkEvaluationSuccess.deserialize BulkEvaluationSuccess.toValue ∧
    Relayed BulkEvaluationFailure.deserialize BulkEvaluationFailure.toValue ∧
    Relayed EvaluationRequest.deserialize EvaluationRequest.toValue :=
  ⟨Reason.relayed, ErrorCode.relayed, FlagValue.relayed, EvaluationSuccess.relayed,
    relayed_of_round_trip EvaluationFailure.deserialize_toValue,
    relayed_of_round_trip FlagNotFound.deserialize_toValue,
    relayed_of_received BulkEntry.deserialize_received
      (fun _ _ h => BulkEntry.received_of_deserialize h),
    relayed_of_received BulkEvaluationSuccess.deserialize_received
      (fun _ _ h => BulkEvaluationSuccess.received_of_deserialize h),
    relayed_of_round_trip BulkEvaluationFailure.deserialize_toValue,
    EvaluationRequest.relayed⟩

end Ofrep
end FlagKit
