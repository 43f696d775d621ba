import FlagKit.Numeric.F64
import Mathlib.Data.List.Basic

/-!
# JSON documents and maps

A document is a tree.  Its objects list their members in the order of the text, and a
text may repeat a key.  A `JsonMap` is the map a JSON library makes of such members:
one value a key, in the order of the keys, a later member replacing an earlier one.
`member` is the lookup that refuses a repeated key; on the members of a map it is the
lookup of the map (`member_toList`).
-/

namespace FlagKit

inductive JsonNumber where
  | posInt (n : UInt64)
  | negInt (i : Int64)
  | float (x : F64)
  deriving DecidableEq

inductive Json where
  | null
  | bool (b : Bool)
  | number (n : JsonNumber)
  | string (s : String)
  | array (elems : List Json)
  | object (members : List (String × Json))

abbrev JsonMap := Std.ExtTreeMap String Json compare

namespace JsonMap

/-- Insert the members one by one. -/
def ofMembers (members : List (String × Json)) : JsonMap := Std.ExtTreeMap.ofList members compare

def toJson (m : JsonMap) : Json := .object m.toList

theorem compare_eq_iff {a b : String} : compare a b = .eq ↔ a = b := Std.LawfulEqCmp.compare_eq_iff_eq

theorem getElem?_insert_self (m : JsonMap) (k : String) (v : Json) :
    (Std.ExtTreeMap.insert m k v)[k]? = some v := by
  rw [Std.ExtTreeMap.getElem?_insert, if_pos (compare_eq_iff.mpr rfl)]

theorem getElem?_insert_ne (m : JsonMap) {k j : String} (h : k ≠ j) (v : Json) :
    (Std.ExtTreeMap.insert m k v)[j]? = m[j]? := by
  rw [Std.ExtTreeMap.getElem?_insert, if_neg (fun heq => h (compare_eq_iff.mp heq))]

theorem keys_toList_nodup (m : JsonMap) : (m.toList.map Prod.fst).Nodup := by
  rw [List.Nodup, List.pairwise_map]
  refine (Std.ExtTreeMap.distinct_keys_toList (t := m)).imp fun hab heq => hab ?_
  exact compare_eq_iff.mpr heq

theorem mem_toList_iff (m : JsonMap) (k : String) (v : Json) :
    (k, v) ∈ m.toList ↔ m[k]? = some v :=
  Std.ExtTreeMap.mem_toList_iff_getElem?_eq_some

/-- Inserting all members of a map over another keeps the first one's values. -/
theorem getElem?_insertMany_toList (base m : JsonMap) (k : String) :
    (base.insertMany m.toList)[k]? = m[k]?.or base[k]? := by
  cases hk : m[k]? with
  | some v =>
    rw [Std.ExtTreeMap.getElem?_insertMany_list_of_mem (compare_eq_iff.mpr rfl)
      Std.ExtTreeMap.distinct_keys_toList ((mem_toList_iff m k v).mpr hk)]
    rfl
  | none =>
    have hnot : k ∉ m.toList.map Prod.fst := by
      intro hmem
      obtain ⟨⟨_, v⟩, hv, rfl⟩ := List.mem_map.mp hmem
      rw [(mem_toList_iff m _ v).mp hv] at hk
      cases hk
    rw [Std.ExtTreeMap.getElem?_insertMany_list_of_contains_eq_false]
    · rfl
    · simpa using hnot

theorem ext {m m' : JsonMap} (h : ∀ k : String, m[k]? = m'[k]?) : m = m' :=
  Std.ExtTreeMap.ext_getElem? h

/-- Members without a repeated key are the lookups of the map made of them. -/
theorem getElem?_ofMembers_eq_some_iff {members : List (String × Json)}
    (h : (members.map Prod.fst).Nodup) {k : String} {v : Json} :
    (ofMembers members)[k]? = some v ↔ (k, v) ∈ members := by
  have hdistinct : members.Pairwise (fun a b => ¬ compare a.1 b.1 = .eq) := by
    rw [List.Nodup, List.pairwise_map] at h
    exact h.imp fun hab heq => hab (compare_eq_iff.mp heq)
  constructor
  · intro hget
    by_cases hmem : k ∈ members.map Prod.fst
    · obtain ⟨⟨j, w⟩, hw, hj⟩ := List.mem_map.mp hmem
      have hget' : (ofMembers members)[k]? = some w :=
        Std.ExtTreeMap.getElem?_ofList_of_mem (compare_eq_iff.mpr hj) hdistinct hw
      rw [hget', Option.some.injEq] at hget
      rw [← hget, ← show j = k from hj]
      exact hw
    · have hnone : (ofMembers members)[k]? = none :=
        Std.ExtTreeMap.getElem?_ofList_of_contains_eq_false (by simpa using hmem)
      rw [hnone] at hget
      cases hget
  · intro hmem
    exact Std.ExtTreeMap.getElem?_ofList_of_mem (compare_eq_iff.mpr rfl) hdistinct hmem

theorem ofMembers_toList (m : JsonMap) : ofMembers m.toList = m := by
  apply ext
  intro k
  rw [ofMembers, Std.ExtTreeMap.ofList_eq_insertMany_empty, getElem?_insertMany_toList]
  simp

/-- The last value given for a key; in a map made of the members it is the one kept. -/
def lastMember (k : String) (members : List (String × Json)) : Option Json :=
  (members.filter (fun p => p.1 = k)).getLast?.map Prod.snd

theorem getElem?_insertMany (base : JsonMap) (members : List (String × Json)) (k : String) :
    (base.insertMany members)[k]? = (lastMember k members).or base[k]? := by
  induction members generalizing base with
  | nil => simp [lastMember]
  | cons p rest ih =>
    rw [Std.ExtTreeMap.insertMany_cons, ih]
    by_cases h : p.1 = k
    · rw [← h, getElem?_insert_self, lastMember, lastMember, List.filter_cons_of_pos (by simp)]
      cases hlast : (rest.filter (fun q => q.1 = p.1)).getLast? with
      | none =>
        rw [List.getLast?_eq_none_iff.mp hlast]
        rfl
      | some q => simp [List.getLast?_cons, hlast]
    · rw [getElem?_insert_ne base h, lastMember, lastMember,
        List.filter_cons_of_neg (by simpa using h)]

theorem getElem?_ofMembers (members : List (String × Json)) (k : String) :
    (ofMembers members)[k]? = lastMember k members := by
  rw [ofMembers, Std.ExtTreeMap.ofList_eq_insertMany_empty, getElem?_insertMany]
  simp

theorem lastMember_filter_self (k : String) (members : List (String × Json)) :
    lastMember k (members.filter (fun p => p.1 ≠ k)) = none := by
  have hnone : (members.filter (fun p => p.1 ≠ k)).filter (fun p => p.1 = k) = [] := by
    rw [List.filter_eq_nil_iff]
    intro p hp
    simpa using (List.mem_filter.mp hp).2
  rw [lastMember, hnone]
  rfl

theorem lastMember_filter_ne {k j : String} (h : k ≠ j) (members : List (String × Json)) :
    lastMember k (members.filter (fun p => p.1 ≠ j)) = lastMember k members := by
  have hsame : (members.filter (fun p => p.1 ≠ j)).filter (fun p => p.1 = k) =
      members.filter (fun p => p.1 = k) := by
    rw [List.filter_filter]
    refine List.filter_congr fun p _ => ?_
    by_cases hp : p.1 = k <;> simp [hp, h]
  rw [lastMember, lastMember, hsame]

/-- The members without one key make the map with the key erased. -/
theorem ofMembers_filter_ne (members : List (String × Json)) (k : String) :
    ofMembers (members.filter (fun p => p.1 ≠ k)) =
      Std.ExtTreeMap.erase (ofMembers members) k := by
  apply ext
  intro j
  rw [getElem?_ofMembers, Std.ExtTreeMap.getElem?_erase, getElem?_ofMembers]
  by_cases h : j = k
  · rw [h, lastMember_filter_self, if_pos (compare_eq_iff.mpr rfl)]
  · have hcmp : ¬ compare k j = .eq := fun heq => h (compare_eq_iff.mp heq).symm
    rw [if_neg hcmp, lastMember_filter_ne h]

end JsonMap

namespace Json

/-- The value of a key among the members of an object; a repeated key is refused. -/
def member (k : String) (members : List (String × Json)) : Option (Option Json) :=
  match members.filter (fun p => p.1 = k) with
  | [] => some none
  | [p] => some (some p.2)
  | _ :: _ :: _ => none

theorem member_eq_of_nodup {members : List (String × Json)} (h : (members.map Prod.fst).Nodup)
    {k : String} {v : Json} (hv : (k, v) ∈ members) : member k members = some (some v) := by
  have hfilter : members.filter (fun p => p.1 = k) = [(k, v)] := by
    induction members with
    | nil => cases hv
    | cons p rest ih =>
      rw [List.map_cons, List.nodup_cons] at h
      rcases List.mem_cons.mp hv with rfl | hrest
      · have hnone : rest.filter (fun p => p.1 = k) = [] := by
          rw [List.filter_eq_nil_iff]
          intro q hq hkey
          exact h.1 (List.mem_map.mpr ⟨q, hq, of_decide_eq_true hkey⟩)
        simp [hnone]
      · have hne : p.1 ≠ k := fun heq =>
          h.1 (List.mem_map.mpr ⟨(k, v), hrest, heq.symm⟩)
        rw [List.filter_cons_of_neg (by simpa using hne)]
        exact ih h.2 hrest
  rw [member, hfilter]

theorem member_toList (m : JsonMap) (k : String) : member k m.toList = some m[k]? := by
  cases hk : m[k]? with
  | some v =>
    exact member_eq_of_nodup (JsonMap.keys_toList_nodup m) ((JsonMap.mem_toList_iff m k v).mpr hk)
  | none =>
    have hfilter : m.toList.filter (fun p => p.1 = k) = [] := by
      rw [List.filter_eq_nil_iff]
      intro p hp hkey
      have hmem := (JsonMap.mem_toList_iff m p.1 p.2).mp hp
      rw [of_decide_eq_true hkey, hk] at hmem
      cases hmem
    rw [member, hfilter]

end Json
end FlagKit
