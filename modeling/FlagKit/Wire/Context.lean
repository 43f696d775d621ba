import FlagKit.Json.Derive

/-!
# Evaluation contexts on the wire

A context has a named field, written as `targetingKey`, and a free-form map whose
entries are written beside it in the same object.  Nothing keeps a caller from adding
an attribute called `targetingKey`.  The attribute then replaces the named field in the
document, and the receiver reads it as the targeting key of the context.
-/

namespace FlagKit
namespace Ofrep

open Json

structure Context where
  targetingKey : Option String
  attributes : JsonMap

namespace Context

def default : Context := { targetingKey := none, attributes := ∅ }

def new (targetingKey : String) : Context := { targetingKey := some targetingKey, attributes := ∅ }

/-- `Context::with`. -/
def withAttribute (c : Context) (key : String) (value : Json) : Context :=
  { c with attributes := Std.ExtTreeMap.insert c.attributes key value }

/-- The members in the order they are serialized, the flattened map last. -/
def members (c : Context) : List (String × Json) :=
  (c.targetingKey.map (fun k => ("targetingKey", Json.string k))).toList ++ c.attributes.toList

def toValue (c : Context) : Json := (JsonMap.ofMembers c.members).toJson

/-- The members not named go to the map. -/
def deserialize : Json → Option Context
  | .object members => do
    let given ← member "targetingKey" members
    let targetingKey ← optional readString given
    return {
      targetingKey
      attributes := JsonMap.ofMembers (members.filter (fun p => p.1 ≠ "targetingKey")) }
  | _ => none

/-! ## One context -/

theorem getElem?_members (c : Context) (k : String) :
    (JsonMap.ofMembers c.members)[k]? = c.attributes[k]?.or
      (if k = "targetingKey" then c.targetingKey.map .string else none) := by
  rw [JsonMap.ofMembers, Std.ExtTreeMap.ofList_eq_insertMany_empty, members]
  cases c.targetingKey with
  | none =>
    rw [Option.map_none, Option.toList_none, List.nil_append, JsonMap.getElem?_insertMany_toList]
    simp
  | some key =>
    rw [Option.map_some, Option.toList_some, List.singleton_append,
      Std.ExtTreeMap.insertMany_cons, JsonMap.getElem?_insertMany_toList]
    by_cases h : k = "targetingKey"
    · rw [if_pos h, h, JsonMap.getElem?_insert_self]
      rfl
    · rw [if_neg h, JsonMap.getElem?_insert_ne _ (Ne.symm h)]
      simp

theorem deserialize_toJson (m : JsonMap) :
    deserialize m.toJson = (optional readString m["targetingKey"]?).map
      (fun key => { targetingKey := key, attributes := Std.ExtTreeMap.erase m "targetingKey" }) := by
  simp only [deserialize, JsonMap.toJson, member_toList, JsonMap.ofMembers_filter_ne, JsonMap.ofMembers_toList,
    Option.bind_eq_bind, Option.bind_some, Option.pure_def]
  exact Option.map_eq_bind.symm

/-- A context is read back exactly when no attribute takes the name of the field. -/
theorem deserialize_toValue_iff (c : Context) :
    deserialize c.toValue = some c ↔ c.attributes["targetingKey"]? = none := by
  rw [toValue, deserialize_toJson, getElem?_members, if_pos rfl]
  constructor
  · intro h
    obtain ⟨key, _, heq⟩ := Option.map_eq_some_iff.mp h
    rw [← heq]
    simp
  · intro h
    have hkey : optional readString (c.targetingKey.map .string) = some c.targetingKey :=
      optional_map (fun _ _ => rfl) (fun _ _ hnull => by cases hnull)
    rw [h, Option.none_or, hkey, Option.map_some, Option.some.injEq]
    have hattr : Std.ExtTreeMap.erase (JsonMap.ofMembers c.members) "targetingKey" =
        c.attributes := by
      apply JsonMap.ext
      intro k
      rw [Std.ExtTreeMap.getElem?_erase, getElem?_members]
      by_cases hk : k = "targetingKey"
      · simp [hk, h]
      · have hcmp : ¬ compare "targetingKey" k = .eq := fun heq =>
          hk (JsonMap.compare_eq_iff.mp heq).symm
        simp [hk, hcmp]
    rw [hattr]

/-! ## Chains of calls -/

/-- The context a chain of `with` calls builds. -/
def chain (c : Context) (calls : List (String × Json)) : Context :=
  calls.foldl (fun c p => c.withAttribute p.1 p.2) c

theorem chain_targetingKey (c : Context) (calls : List (String × Json)) :
    (c.chain calls).targetingKey = c.targetingKey := by
  induction calls generalizing c with
  | nil => rfl
  | cons p calls ih => exact ih (c.withAttribute p.1 p.2)

theorem chain_getElem?_eq_none_iff (c : Context) (calls : List (String × Json)) (k : String) :
    (c.chain calls).attributes[k]? = none ↔
      c.attributes[k]? = none ∧ ∀ p ∈ calls, p.1 ≠ k := by
  induction calls generalizing c with
  | nil => simp [chain]
  | cons p calls ih =>
    have hstep := ih (c.withAttribute p.1 p.2)
    show ((c.withAttribute p.1 p.2).chain calls).attributes[k]? = none ↔ _
    rw [hstep, List.forall_mem_cons]
    show (Std.ExtTreeMap.insert c.attributes p.1 p.2)[k]? = none ∧ _ ↔ _
    by_cases h : p.1 = k
    · rw [← h, JsonMap.getElem?_insert_self]
      simp
    · rw [JsonMap.getElem?_insert_ne _ h]
      simp [h]

/-- The receiver gets the context that was sent, with the targeting key it started
with. -/
structure Survives (start c : Context) : Prop where
  read_back : deserialize c.toValue = some c
  same_key : (deserialize c.toValue).map Context.targetingKey = some start.targetingKey

/-- An attribute called `targetingKey` is what the receiver reads as the targeting key. -/
theorem attribute_replaces_key :
    ¬ ∀ (key : String) (calls : List (String × Json)),
      Survives (new key) ((new key).chain calls) := by
  intro h
  have hback := (h "user-1" [("targetingKey", .string "user-2")]).read_back
  have hnone := (deserialize_toValue_iff _).mp hback
  exact ((chain_getElem?_eq_none_iff _ _ _).mp hnone).2 _ (List.mem_singleton.mpr rfl) rfl

/-- A context built by a chain of calls survives the wire exactly when no call of the
chain uses the key `targetingKey`. -/
theorem survives_iff {start : Context} (hstart : start = default ∨ ∃ key, start = new key)
    (calls : List (String × Json)) :
    Survives start (start.chain calls) ↔ ∀ p ∈ calls, p.1 ≠ "targetingKey" := by
  have hempty : start.attributes["targetingKey"]? = none := by
    rcases hstart with rfl | ⟨key, rfl⟩
    · simp [default]
    · simp [new]
  have hnone := chain_getElem?_eq_none_iff start calls "targetingKey"
  constructor
  · intro h
    exact (hnone.mp ((deserialize_toValue_iff _).mp h.read_back)).2
  · intro h
    have hback := (deserialize_toValue_iff _).mpr (hnone.mpr ⟨hempty, h⟩)
    refine ⟨hback, ?_⟩
    rw [hback, Option.map_some, chain_targetingKey]

theorem survives_with_attributes :
    Survives (new "user-1") ((new "user-1").chain [("plan", .string "pro"), ("plan", .null)]) :=
  (@survives_iff (new "user-1") (Or.inr ⟨"user-1", rfl⟩)
    [("plan", .string "pro"), ("plan", .null)]).mpr (by simp)

end Context
end Ofrep
end FlagKit
