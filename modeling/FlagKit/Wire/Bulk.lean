import FlagKit.Json.Derive

/-!
# Bulk responses on the wire

A bulk response is a list of entries, each a success or a failure written as one flat
object.  The writer of an entry is written by hand and the reader takes the first of
the two shapes that fits.  The shapes are disjoint because a success always has a
`value` and a failure never does, so an entry is read back as the kind it is
(`deserialize_toValue`), in its place.
-/

namespace FlagKit
namespace Ofrep

open Json

inductive Reason where
  | static
  | targetingMatch
  | split
  | disabled
  | unknown
  deriving DecidableEq

inductive ErrorCode where
  | parseError
  | targetingKeyMissing
  | invalidContext
  | general
  | flagNotFound
  deriving DecidableEq

inductive FlagValue where
  | boolean (b : Bool)
  | codeDefault
  deriving DecidableEq

structure EvaluationSuccess where
  key : String
  value : FlagValue
  reason : Reason
  variant : Option String
  metadata : Option Json

structure EvaluationFailure where
  key : String
  errorCode : ErrorCode
  errorDetails : Option String
  deriving DecidableEq

inductive BulkEntry where
  | success (s : EvaluationSuccess)
  | failure (f : EvaluationFailure)

def BulkEntry.isFailure : BulkEntry → Bool
  | .success _ => false
  | .failure _ => true

structure BulkEvaluationSuccess where
  flags : List BulkEntry
  metadata : Option Json

def BulkEvaluationSuccess.counts (b : BulkEvaluationSuccess) : Nat × Nat :=
  let failures := (b.flags.filter BulkEntry.isFailure).length
  (b.flags.length - failures, failures)

/-! ## Enumerations and values -/

namespace Reason

def rename : Reason → String
  | .static => "STATIC"
  | .targetingMatch => "TARGETING_MATCH"
  | .split => "SPLIT"
  | .disabled => "DISABLED"
  | .unknown => "UNKNOWN"

def names : List (String × Reason) :=
  [.static, .targetingMatch, .split, .disabled, .unknown].map (fun r => (r.rename, r))

def toValue (r : Reason) : Json := .string r.rename

def deserialize : Json → Option Reason := readUnit names

theorem deserialize_toValue (r : Reason) : deserialize r.toValue = some r := by
  cases r <;> decide

end Reason

namespace ErrorCode

def rename : ErrorCode → String
  | .parseError => "PARSE_ERROR"
  | .targetingKeyMissing => "TARGETING_KEY_MISSING"
  | .invalidContext => "INVALID_CONTEXT"
  | .general => "GENERAL"
  | .flagNotFound => "FLAG_NOT_FOUND"

def names : List (String × ErrorCode) :=
  [.parseError, .targetingKeyMissing, .invalidContext, .general, .flagNotFound].map
    (fun c => (c.rename, c))

def toValue (c : ErrorCode) : Json := .string c.rename

def deserialize : Json → Option ErrorCode := readUnit names

theorem deserialize_toValue (c : ErrorCode) : deserialize c.toValue = some c := by
  cases c <;> decide

end ErrorCode

namespace FlagValue

/-- Untagged: the code default is a null. -/
def toValue : FlagValue → Json
  | .boolean b => .bool b
  | .codeDefault => .null

def deserialize (v : Json) : Option FlagValue :=
  (untagged readBool readNull v).map (Sum.elim .boolean (fun _ => .codeDefault))

theorem deserialize_toValue (v : FlagValue) : deserialize v.toValue = some v := by
  cases v <;> rfl

end FlagValue

/-! ## Entries -/

namespace EvaluationSuccess

def fieldSpecs : List FieldSpec :=
  [⟨"key", false⟩, ⟨"value", false⟩, ⟨"reason", false⟩, ⟨"variant", true⟩, ⟨"metadata", true⟩]

def given (s : EvaluationSuccess) : List (String × Option Json) :=
  [("key", some (.string s.key)), ("value", some s.value.toValue),
    ("reason", some s.reason.toValue), ("variant", s.variant.map .string),
    ("metadata", s.metadata)]

def deserialize (v : Json) : Option EvaluationSuccess := do
  match ← v.fields fieldSpecs with
  | [key, value, reason, variant, metadata] =>
    return {
      key := ← required readString key
      value := ← required FlagValue.deserialize value
      reason := ← required Reason.deserialize reason
      variant := ← optional readString variant
      metadata := ← optional some metadata }
  | _ => none

end EvaluationSuccess

namespace EvaluationFailure

def fieldSpecs : List FieldSpec :=
  [⟨"key", false⟩, ⟨"errorCode", false⟩, ⟨"errorDetails", true⟩]

def given (f : EvaluationFailure) : List (String × Option Json) :=
  [("key", some (.string f.key)), ("errorCode", some f.errorCode.toValue),
    ("errorDetails", f.errorDetails.map .string)]

def deserialize (v : Json) : Option EvaluationFailure := do
  match ← v.fields fieldSpecs with
  | [key, errorCode, errorDetails] =>
    return {
      key := ← required readString key
      errorCode := ← required ErrorCode.deserialize errorCode
      errorDetails := ← optional readString errorDetails }
  | _ => none

end EvaluationFailure

namespace BulkEntry

/-- The members the hand-written serializer writes, in order. -/
def serialize : BulkEntry → List (String × Json)
  | .success s =>
    [("key", .string s.key), ("value", s.value.toValue), ("reason", s.reason.toValue)] ++
      (match s.variant with
        | some v => [("variant", .string v)]
        | none => []) ++
      match s.metadata with
      | some m => [("metadata", m)]
      | none => []
  | .failure f =>
    [("key", .string f.key), ("errorCode", f.errorCode.toValue)] ++
      match f.errorDetails with
      | some d => [("errorDetails", .string d)]
      | none => []

/-- The members the derived serializer of the value inside writes. -/
def derived : BulkEntry → List (String × Json)
  | .success s => writeFields s.given
  | .failure f => writeFields f.given

def toValue (e : BulkEntry) : Json := (JsonMap.ofMembers e.serialize).toJson

def deserialize (v : Json) : Option BulkEntry :=
  (untagged EvaluationSuccess.deserialize EvaluationFailure.deserialize v).map
    (Sum.elim .success .failure)

/-- The two writers write the same members. -/
theorem serialize_eq_derived (e : BulkEntry) : e.serialize = e.derived := by
  cases e with
  | success s => cases hv : s.variant <;> cases hm : s.metadata <;>
      simp [serialize, derived, EvaluationSuccess.given, writeFields, hv, hm]
  | failure f => cases hd : f.errorDetails <;>
      simp [serialize, derived, EvaluationFailure.given, writeFields, hd]

end BulkEntry

/-! ## Reading an entry back -/

theorem optional_string (o : Option String) :
    optional readString (o.map Json.string) = some o :=
  optional_map (fun _ _ => rfl) (fun _ _ hnull => by cases hnull)

/-- A JSON value of a field is read back when it is not an explicit null. -/
theorem optional_json {o : Option Json} (h : o ≠ some .null) : optional some o = some o := by
  have hmap := @optional_map _ some id o (fun _ _ => rfl)
    (fun a ha hnull => h (by rw [ha]; exact congrArg some hnull))
  rw [Option.map_id] at hmap
  exact hmap

namespace EvaluationSuccess

theorem given_nodup (s : EvaluationSuccess) : (s.given.map Prod.fst).Nodup := by
  show ["key", "value", "reason", "variant", "metadata"].Nodup
  decide

theorem deserialize_given {s : EvaluationSuccess} (h : s.metadata ≠ some .null) :
    deserialize (JsonMap.ofMembers (writeFields s.given)).toJson = some s := by
  have hfields := fields_writeFields fieldSpecs s.given_nodup rfl
  simp only [deserialize, hfields]
  simp [given, readString, FlagValue.deserialize_toValue, Reason.deserialize_toValue,
    optional_string, optional_json h]

/-- A document without a `value` is not a success. -/
theorem deserialize_eq_none {m : JsonMap} (h : m["value"]? = none) :
    deserialize m.toJson = none := by
  simp [deserialize, fields_toJson, fieldSpecs, h, required]

end EvaluationSuccess

namespace EvaluationFailure

theorem given_nodup (f : EvaluationFailure) : (f.given.map Prod.fst).Nodup := by
  show ["key", "errorCode", "errorDetails"].Nodup
  decide

theorem deserialize_given (f : EvaluationFailure) :
    deserialize (JsonMap.ofMembers (writeFields f.given)).toJson = some f := by
  have hfields := fields_writeFields fieldSpecs f.given_nodup rfl
  simp only [deserialize, hfields]
  simp [given, readString, ErrorCode.deserialize_toValue, optional_string]

theorem not_success (f : EvaluationFailure) :
    EvaluationSuccess.deserialize (JsonMap.ofMembers (writeFields f.given)).toJson = none := by
  apply EvaluationSuccess.deserialize_eq_none
  apply getElem?_writeFields_of_not_mem f.given_nodup
  show "value" ∉ ["key", "errorCode", "errorDetails"]
  decide

end EvaluationFailure

/-- No metadata of the entry is an explicit null. -/
def BulkEntry.NoNullMetadata : BulkEntry → Prop
  | .success s => s.metadata ≠ some .null
  | .failure _ => True

theorem BulkEntry.deserialize_toValue {e : BulkEntry} (h : e.NoNullMetadata) :
    deserialize e.toValue = some e := by
  rw [toValue, serialize_eq_derived, deserialize]
  cases e with
  | success s =>
    rw [derived, untagged, EvaluationSuccess.deserialize_given h]
    rfl
  | failure f =>
    rw [derived, untagged, f.not_success, f.deserialize_given]
    rfl

/-! ## Responses -/

namespace BulkEvaluationSuccess

def fieldSpecs : List FieldSpec := [⟨"flags", false⟩, ⟨"metadata", true⟩]

def given (b : BulkEvaluationSuccess) : List (String × Option Json) :=
  [("flags", some (.array (b.flags.map BulkEntry.toValue))), ("metadata", b.metadata)]

def toValue (b : BulkEvaluationSuccess) : Json :=
  (JsonMap.ofMembers (writeFields b.given)).toJson

def deserialize (v : Json) : Option BulkEvaluationSuccess := do
  match ← v.fields fieldSpecs with
  | [flags, metadata] =>
    return {
      flags := ← required (readSeq BulkEntry.deserialize) flags
      metadata := ← optional some metadata }
  | _ => none

/-- No metadata, of the response or of an entry, is an explicit null. -/
def NoNullMetadata (b : BulkEvaluationSuccess) : Prop :=
  b.metadata ≠ some .null ∧ ∀ e ∈ b.flags, e.NoNullMetadata

theorem deserialize_toValue {b : BulkEvaluationSuccess} (h : b.NoNullMetadata) :
    deserialize b.toValue = some b := by
  have hnodup : (b.given.map Prod.fst).Nodup := by
    show ["flags", "metadata"].Nodup
    decide
  have hfields := fields_writeFields fieldSpecs hnodup rfl
  have hflags := readSeq_map fun e he => BulkEntry.deserialize_toValue (h.2 e he)
  simp only [deserialize, toValue, hfields]
  simp [given, hflags, optional_json h.1]

/-- A bulk response is read back as it was sent, every entry in its place and of its
kind, and an entry is written as the value inside it would be. -/
theorem bulk_round_trips (b : BulkEvaluationSuccess) (h : b.NoNullMetadata) :
    deserialize b.toValue = some b ∧
      (deserialize b.toValue).map counts = some b.counts ∧
      ∀ e : BulkEntry, e.serialize = e.derived := by
  have hback := deserialize_toValue h
  refine ⟨hback, ?_, BulkEntry.serialize_eq_derived⟩
  rw [hback]
  rfl

/-- A code default beside a failure of the same key. -/
theorem bulk_round_trips_mixed :
    (deserialize (toValue ⟨[.success ⟨"checkout", .codeDefault, .unknown, none, none⟩,
      .failure ⟨"checkout", .general, some "no rule"⟩], none⟩)).map counts = some (1, 1) :=
  (@bulk_round_trips ⟨[.success ⟨"checkout", .codeDefault, .unknown, none, none⟩,
    .failure ⟨"checkout", .general, some "no rule"⟩], none⟩
      ⟨by simp, by simp [BulkEntry.NoNullMetadata]⟩).2.1

end BulkEvaluationSuccess
end Ofrep
end FlagKit
