import FlagKit.Wire.Context

/-!
# What the receiver of a context gets

For every chain of `with` calls: the attributes are the last value given for each key,
and the targeting key is the one the chain started with unless a call used its name.
Then it is the last value given for it, if that is a string; a null takes the key away
and any other value makes the whole document unreadable.

That is so when the document is a map, as `to_value` makes it.  A text has the two
members of one name one after the other, and is refused for it (`received_eq`).

A relay that reads a context and writes it again keeps every member a caller sent but
for a null in place of the targeting key.
-/

namespace FlagKit
namespace Ofrep
namespace Context

open Json

/-! ## Chains of calls -/

theorem chain_attributes (c : Context) (calls : List (String × Json)) :
    (c.chain calls).attributes = c.attributes.insertMany calls := by
  induction calls generalizing c with
  | nil => simp [chain]
  | cons p calls ih =>
    rw [Std.ExtTreeMap.insertMany_cons]
    exact ih (c.withAttribute p.1 p.2)

/-- The targeting key the receiver reads; `none` when it refuses the document. -/
def receivedKey (start : Context) (calls : List (String × Json)) : Option (Option String) :=
  match JsonMap.lastMember "targetingKey" calls with
  | none => some start.targetingKey
  | some (.string s) => some (some s)
  | some .null => some none
  | some _ => none

/-- The attributes the receiver reads. -/
def receivedAttributes (calls : List (String × Json)) : JsonMap :=
  JsonMap.ofMembers (calls.filter (fun p => p.1 ≠ "targetingKey"))

theorem optional_key (key : Option String) (o : Option Json) :
    optional readString (o.or (key.map .string)) =
      match o with
      | none => some key
      | some (.string s) => some (some s)
      | some .null => some none
      | some _ => none := by
  cases o with
  | none =>
    rw [Option.none_or]
    exact optional_map (fun _ _ => rfl) (fun _ _ hnull => by cases hnull)
  | some v => cases v <;> rfl

/-- The document of a context without its key has the attributes without that name. -/
theorem erase_ofMembers (c : Context) :
    Std.ExtTreeMap.erase (JsonMap.ofMembers c.members) "targetingKey" =
      Std.ExtTreeMap.erase c.attributes "targetingKey" := by
  apply JsonMap.ext
  intro k
  rw [Std.ExtTreeMap.getElem?_erase, Std.ExtTreeMap.getElem?_erase, getElem?_members]
  by_cases hk : k = "targetingKey"
  · rw [hk, if_pos (JsonMap.compare_eq_iff.mpr rfl), if_pos (JsonMap.compare_eq_iff.mpr rfl)]
  · rw [if_neg hk, Option.or_none]

/-- A key that is not repeated is looked up like a member of the map. -/
theorem member_eq_lastMember {k : String} {members : List (String × Json)}
    {given : Option Json} (h : member k members = some given) :
    JsonMap.lastMember k members = given := by
  unfold member at h
  unfold JsonMap.lastMember
  split at h
  · rename_i hnone
    rw [hnone]
    exact Option.some.inj h
  · rename_i p hone
    rw [hone]
    exact Option.some.inj h
  · cases h

/-- The document as it is written, where a repeated name stays. -/
def written (c : Context) : Json := .object c.members

/-- Members with a key of their own are read like the map made of them. -/
theorem deserialize_object {members : List (String × Json)} :
    deserialize (.object members) = (member "targetingKey" members).bind fun _ =>
      deserialize (JsonMap.ofMembers members).toJson := by
  cases hgiven : member "targetingKey" members with
  | none => simp [deserialize, hgiven]
  | some given =>
    rw [Option.bind_some, deserialize_toJson, JsonMap.getElem?_ofMembers,
      member_eq_lastMember hgiven]
    simp only [deserialize, hgiven, Option.bind_eq_bind, Option.bind_some, Option.pure_def,
      JsonMap.ofMembers_filter_ne]
    exact Option.map_eq_bind.symm

/-- The name is repeated when the field and an attribute both have it. -/
theorem member_members_eq_none_iff (c : Context) :
    member "targetingKey" c.members = none ↔
      c.targetingKey ≠ none ∧ c.attributes["targetingKey"]? ≠ none := by
  have hattr := member_toList c.attributes "targetingKey"
  unfold members
  cases c.targetingKey with
  | none => simp [hattr]
  | some key =>
    have hfilter : ((("targetingKey", Json.string key) :: c.attributes.toList).filter
        (fun p => p.1 = "targetingKey")) = ("targetingKey", Json.string key) ::
          c.attributes.toList.filter (fun p => p.1 = "targetingKey") := by
      rw [List.filter_cons_of_pos (by simp)]
    rw [Option.map_some, Option.toList_some, List.singleton_append, member, hfilter]
    rw [member] at hattr
    cases hrest : c.attributes.toList.filter (fun p => p.1 = "targetingKey") with
    | nil =>
      rw [hrest] at hattr
      simp [← Option.some.inj hattr]
    | cons p rest =>
      rw [hrest] at hattr
      cases rest with
      | nil => simp [← Option.some.inj hattr]
      | cons q rest => cases hattr

/-- The document written is refused when the name is repeated, and read like the map
otherwise. -/
theorem deserialize_written (c : Context) :
    deserialize c.written =
      if c.targetingKey = none ∨ c.attributes["targetingKey"]? = none then
        deserialize c.toValue
      else none := by
  rw [written, deserialize_object, ← toValue]
  have hnone := member_members_eq_none_iff c
  by_cases h : c.targetingKey = none ∨ c.attributes["targetingKey"]? = none
  · rw [if_pos h]
    have hsome : member "targetingKey" c.members ≠ none := fun heq =>
      h.elim (hnone.mp heq).1 (hnone.mp heq).2
    obtain ⟨given, hgiven⟩ := Option.ne_none_iff_exists'.mp hsome
    rw [hgiven]
    rfl
  · rw [if_neg h, hnone.mpr (not_or.mp h)]
    rfl

/-- The meaning of every chain for the receiver: what is read of the map, and that the
document as written is refused when a call repeats the name of a key that is there. -/
theorem received_eq {start : Context} (hstart : start = default ∨ ∃ key, start = new key)
    (calls : List (String × Json)) :
    deserialize (start.chain calls).toValue =
        (receivedKey start calls).map (fun key =>
          { targetingKey := key, attributes := receivedAttributes calls }) ∧
      deserialize (start.chain calls).written =
        if start.targetingKey = none ∨ ∀ p ∈ calls, p.1 ≠ "targetingKey" then
          deserialize (start.chain calls).toValue
        else none := by
  have hempty : start.attributes = ∅ := by
    rcases hstart with rfl | ⟨key, rfl⟩ <;> rfl
  have hattr : (start.chain calls).attributes = JsonMap.ofMembers calls := by
    rw [chain_attributes, hempty, JsonMap.ofMembers, Std.ExtTreeMap.ofList_eq_insertMany_empty]
  constructor
  · rw [toValue, deserialize_toJson, getElem?_members, if_pos rfl, erase_ofMembers, hattr,
      JsonMap.getElem?_ofMembers, chain_targetingKey, optional_key, ← JsonMap.ofMembers_filter_ne]
    rfl
  · have hunused := chain_getElem?_eq_none_iff start calls "targetingKey"
    rw [hempty] at hunused
    rw [deserialize_written, chain_targetingKey]
    simp only [hunused, Std.ExtTreeMap.getElem?_empty, true_and]

theorem received_refused :
    deserialize ((new "user-1").chain [("targetingKey", .bool true)]).toValue = none ∧
      deserialize ((new "user-1").chain [("targetingKey", .string "user-2")]).written = none :=
  ⟨(@received_eq (new "user-1") (Or.inr ⟨"user-1", rfl⟩) [("targetingKey", .bool true)]).1,
    (@received_eq (new "user-1") (Or.inr ⟨"user-1", rfl⟩)
      [("targetingKey", .string "user-2")]).2.trans (if_neg (by simp [new]))⟩

/-! ## One context -/

/-- What is read of a context: an attribute with the name of the field takes its place,
and must be a string or a null. -/
def received (c : Context) : Option Context :=
  match c.attributes["targetingKey"]? with
  | none => some c
  | some (.string s) => some {
      targetingKey := some s
      attributes := Std.ExtTreeMap.erase c.attributes "targetingKey" }
  | some .null => some {
      targetingKey := none
      attributes := Std.ExtTreeMap.erase c.attributes "targetingKey" }
  | some _ => none

theorem deserialize_toValue (c : Context) : deserialize c.toValue = c.received := by
  unfold received
  cases hattr : c.attributes["targetingKey"]? with
  | none => exact (deserialize_toValue_iff c).mpr hattr
  | some v =>
    rw [toValue, deserialize_toJson, getElem?_members, if_pos rfl, hattr, optional_key,
      erase_ofMembers]
    cases v <;> rfl

/-! ## Relays -/

theorem deserialize_eq_some_iff {v : Json} {c : Context} :
    deserialize v = some c ↔ ∃ members given, v = .object members ∧
      member "targetingKey" members = some given ∧
      optional readString given = some c.targetingKey ∧
      c.attributes = JsonMap.ofMembers (members.filter (fun p => p.1 ≠ "targetingKey")) := by
  cases v with
  | object members =>
    simp only [deserialize, Option.bind_eq_bind, Option.bind_eq_some_iff, Option.pure_def,
      Option.some.injEq]
    constructor
    · intro hex
      obtain ⟨given, hgiven, key, hkey, rfl⟩ := hex
      exact ⟨members, given, rfl, hgiven, hkey, rfl⟩
    · intro hex
      obtain ⟨members', given, heq, hgiven, hkey, hattr⟩ := hex
      cases heq
      refine ⟨given, hgiven, c.targetingKey, hkey, ?_⟩
      rw [← hattr]
  | null | bool | number | string | array =>
    simp [deserialize]

/-- What a relay makes of a member: only a null targeting key is dropped. -/
def relayedMember (k : String) (members : List (String × Json)) : Option Json :=
  match JsonMap.lastMember k members with
  | some .null => if k = "targetingKey" then none else some .null
  | given => given

theorem optional_readString_eq_some {given : Option Json} {key : Option String}
    (h : optional readString given = some key) :
    key.map Json.string = match given with
      | some .null => none
      | given => given := by
  match given, h with
  | none, h => cases h; rfl
  | some .null, h => cases h; rfl
  | some (.string s), h => cases h; rfl

/-- No attribute that was read takes the name of the field. -/
theorem no_key_attribute {v : Json} {c : Context} (h : deserialize v = some c) :
    c.attributes["targetingKey"]? = none := by
  obtain ⟨members, given, -, -, -, hattr⟩ := deserialize_eq_some_iff.mp h
  rw [hattr, JsonMap.getElem?_ofMembers, JsonMap.lastMember_filter_self]

/-- Every document read as a context is read the same after it was written again, and
what is written has the members of the original. -/
theorem context_relayed {v : Json} {c : Context} (h : deserialize v = some c) :
    deserialize c.toValue = some c ∧ ∃ members, v = .object members ∧
      ∀ k, (JsonMap.ofMembers c.members)[k]? = relayedMember k members := by
  have hnone := no_key_attribute h
  obtain ⟨members, given, rfl, hgiven, hkey, hattr⟩ := deserialize_eq_some_iff.mp h
  refine ⟨(deserialize_toValue_iff c).mpr hnone, members, rfl, fun k => ?_⟩
  rw [getElem?_members, relayedMember]
  by_cases hk : k = "targetingKey"
  · rw [hk, hnone, if_pos rfl, Option.none_or, optional_readString_eq_some hkey,
      member_eq_lastMember hgiven]
    cases given with
    | none => rfl
    | some w => cases w <;> rfl
  · rw [hattr, JsonMap.getElem?_ofMembers, JsonMap.lastMember_filter_ne hk, if_neg hk,
      Option.or_none]
    cases JsonMap.lastMember k members with
    | none => rfl
    | some w => cases w <;> simp [hk]

theorem context_relayed_null :
    deserialize (toValue ⟨none, JsonMap.ofMembers [("plan", .string "pro")]⟩) =
      some ⟨none, JsonMap.ofMembers [("plan", .string "pro")]⟩ :=
  (@context_relayed (.object [("targetingKey", .null), ("plan", .string "pro")])
    ⟨none, JsonMap.ofMembers [("plan", .string "pro")]⟩ (by
      simp [deserialize, member, Json.optional])).1

end Context
end Ofrep
end FlagKit
