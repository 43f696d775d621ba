import FlagKit.Json.Value

/-!
# Derived readers and writers

What a derived deserializer does with a document, as functions into `Option`.

A record is read from an object by the names of its fields or from an array by their
places.  In an object unknown keys are ignored, a field given twice is an error and a
missing field is left to its reader.  In an array fields may be missing at the end when
they have a default, and nothing may be left over.  `fields` collects what is given for
each field, and `required` and `optional` read it.

An enumeration without data is read from its name, alone or as the one key of an object
whose value is null.  An untagged choice takes the first alternative that reads.
-/

namespace FlagKit
namespace Json

variable {α β : Type}

/-! ## Scalars -/

def readBool : Json → Option Bool
  | .bool b => some b
  | _ => none

def readString : Json → Option String
  | .string s => some s
  | _ => none

def readNull : Json → Option Unit
  | .null => some ()
  | _ => none

/-- The integer a number is, when it is written as one. -/
def readInt : Json → Option Int
  | .number (.posInt n) => some n.toNat
  | .number (.negInt i) => some i.toInt
  | _ => none

def readU8 (v : Json) : Option UInt8 :=
  v.readInt.bind fun i => if 0 ≤ i ∧ i < 2 ^ 8 then some (UInt8.ofNat i.toNat) else none

def readI64 (v : Json) : Option Int64 :=
  v.readInt.bind fun i => if -2 ^ 63 ≤ i ∧ i < 2 ^ 63 then some (Int64.ofInt i) else none

def writeU8 (n : UInt8) : Json := .number (.posInt n.toUInt64)

def writeI64 (i : Int64) : Json :=
  if i < 0 then .number (.negInt i) else .number (.posInt i.toUInt64)

/-- An enumeration without data, given with the name of each value. -/
def readUnit (names : List (String × α)) : Json → Option α
  | .string s => (names.find? (fun p => p.1 = s)).map Prod.snd
  | .object [(s, .null)] => (names.find? (fun p => p.1 = s)).map Prod.snd
  | _ => none

/-! ## Records -/

structure FieldSpec where
  name : String
  hasDefault : Bool

/-- What a document gives for each field of a record. -/
def fields (specs : List FieldSpec) : Json → Option (List (Option Json))
  | .object members => specs.mapM (fun f => member f.name members)
  | .array elems =>
    if elems.length ≤ specs.length ∧ (specs.drop elems.length).all FieldSpec.hasDefault then
      some (elems.map some ++ List.replicate (specs.length - elems.length) none)
    else none
  | _ => none

def required (read : Json → Option α) (given : Option Json) : Option α := given.bind read

/-- A missing field and an explicit null both read as `none`. -/
def optional (read : Json → Option α) : Option Json → Option (Option α)
  | none | some .null => some none
  | some v => (read v).map some

@[simp] theorem required_some (read : Json → Option α) (v : Json) :
    required read (some v) = read v := rfl

@[simp] theorem optional_none (read : Json → Option α) : optional read none = some none := rfl

theorem optional_some (read : Json → Option α) {v : Json} (h : v ≠ .null) :
    optional read (some v) = (read v).map some := by
  cases v <;> first | rfl | exact absurd rfl h

/-- An optional field is read back when it is written only if there is a value, and
no value is written as null. -/
theorem optional_map {read : Json → Option α} {write : α → Json} {o : Option α}
    (hread : ∀ a, o = some a → read (write a) = some a) (hnull : ∀ a, o = some a → write a ≠ .null) :
    optional read (o.map write) = some o := by
  cases o with
  | none => rfl
  | some a =>
    rw [Option.map_some, optional_some read (hnull a rfl), hread a rfl]
    rfl

theorem readBool_eq_some_iff {v : Json} {b : Bool} : v.readBool = some b ↔ v = .bool b := by
  cases v <;> simp [readBool]

theorem readString_eq_some_iff {v : Json} {s : String} : v.readString = some s ↔ v = .string s := by
  cases v <;> simp [readString]

theorem readU8_writeU8 (n : UInt8) : (writeU8 n).readU8 = some n := by
  have hlt := n.toNat_lt
  have hint : (writeU8 n).readInt = some (n.toNat : Int) := by
    simp [writeU8, readInt]
  rw [readU8, hint, Option.bind_some, if_pos (by omega), Int.toNat_natCast, UInt8.ofNat_toNat]

theorem readI64_writeI64 (i : Int64) : (writeI64 i).readI64 = some i := by
  have hint : (writeI64 i).readInt = some i.toInt := by
    unfold writeI64
    by_cases h : i < 0
    · rw [if_pos h]
      rfl
    · have hle : (0 : Int64) ≤ i := Int64.not_lt.mp h
      rw [if_neg h, readInt, Option.some.injEq, Int64.toNat_toUInt64_of_le hle]
      exact Int.toNat_of_nonneg (Int64.le_iff_toInt_le.mp hle)
  have hlow := i.le_toInt
  have hhigh := i.toInt_lt
  rw [readI64, hint, Option.bind_some, if_pos ⟨by omega, by omega⟩, Int64.ofInt_toInt]

theorem required_eq_some_iff {read : Json → Option α} {given : Option Json} {a : α} :
    required read given = some a ↔ ∃ v, given = some v ∧ read v = some a :=
  Option.bind_eq_some_iff

/-- The fields of a map are its lookups. -/
theorem fields_toJson (specs : List FieldSpec) (m : JsonMap) :
    fields specs m.toJson = some (specs.map (fun f => m[f.name]?)) := by
  show specs.mapM (fun f => member f.name m.toList) = _
  induction specs with
  | nil => rfl
  | cons f rest ih =>
    rw [List.mapM_cons, member_toList, ih]
    rfl

/-- A derived writer: the fields in order, the skipped ones left out. -/
def writeFields (given : List (String × Option Json)) : List (String × Json) :=
  given.filterMap (fun p => p.2.map (fun v => (p.1, v)))

theorem mem_writeFields {given : List (String × Option Json)} {k : String} {v : Json} :
    (k, v) ∈ writeFields given ↔ (k, some v) ∈ given := by
  rw [writeFields, List.mem_filterMap]
  constructor
  · intro hex
    obtain ⟨⟨j, o⟩, hmem, ho⟩ := hex
    obtain ⟨w, rfl, heq⟩ := Option.map_eq_some_iff.mp ho
    cases heq
    exact hmem
  · intro hmem
    exact ⟨(k, some v), hmem, rfl⟩

theorem writeFields_nodup {given : List (String × Option Json)}
    (h : (given.map Prod.fst).Nodup) : ((writeFields given).map Prod.fst).Nodup := by
  rw [List.Nodup, List.pairwise_map] at h ⊢
  refine h.filterMap _ fun a b hab a' ha b' hb heq => hab ?_
  obtain ⟨v, _, rfl⟩ := Option.map_eq_some_iff.mp ha
  obtain ⟨w, _, rfl⟩ := Option.map_eq_some_iff.mp hb
  exact heq

/-- A field is found in the document written exactly as it was given. -/
theorem getElem?_writeFields {given : List (String × Option Json)}
    (h : (given.map Prod.fst).Nodup) {k : String} {o : Option Json} (hk : (k, o) ∈ given) :
    (JsonMap.ofMembers (writeFields given))[k]? = o := by
  apply Option.ext
  intro v
  rw [JsonMap.getElem?_ofMembers_eq_some_iff (writeFields_nodup h), mem_writeFields]
  constructor
  · intro hv
    have heq := List.inj_on_of_nodup_map h hv hk rfl
    exact (Prod.mk.inj heq).2.symm
  · intro ho
    rw [← ho]
    exact hk

theorem getElem?_writeFields_of_not_mem {given : List (String × Option Json)}
    (h : (given.map Prod.fst).Nodup) {k : String} (hk : k ∉ given.map Prod.fst) :
    (JsonMap.ofMembers (writeFields given))[k]? = none := by
  rw [Option.eq_none_iff_forall_ne_some]
  intro v hv
  rw [JsonMap.getElem?_ofMembers_eq_some_iff (writeFields_nodup h), mem_writeFields] at hv
  exact hk (List.mem_map.mpr ⟨_, hv, rfl⟩)

/-- A record written and read with the same field names is given its fields back. -/
theorem fields_writeFields (specs : List FieldSpec) {given : List (String × Option Json)}
    (h : (given.map Prod.fst).Nodup) (hnames : specs.map FieldSpec.name = given.map Prod.fst) :
    fields specs (JsonMap.ofMembers (writeFields given)).toJson = some (given.map Prod.snd) := by
  have hlookup : given.map (fun p => (JsonMap.ofMembers (writeFields given))[p.1]?) =
      given.map Prod.snd := List.map_congr_left fun p hp => getElem?_writeFields h hp
  have hspecs : specs.map (fun f => (JsonMap.ofMembers (writeFields given))[f.name]?) =
      (specs.map FieldSpec.name).map (fun k => (JsonMap.ofMembers (writeFields given))[k]?) := by
    rw [List.map_map]
    rfl
  rw [fields_toJson, hspecs, hnames, List.map_map]
  exact congrArg some hlookup

/-- The reader and the writer of a relay: what was read stays the same when it is
written again, however the document was laid out. -/
def Relayed (read : Json → Option α) (write : α → Json) : Prop :=
  ∀ v a, read v = some a → read (write a) = some a

/-- A writer whose every value is read back relays. -/
theorem relayed_of_round_trip {read : Json → Option α} {write : α → Json}
    (h : ∀ a, read (write a) = some a) : Relayed read write := fun _ a _ => h a

/-- A relay need only keep the values that are ever read. -/
theorem relayed_of_received {read : Json → Option α} {write : α → Json} {f : α → α}
    (hback : ∀ a, read (write a) = some (f a)) (hread : ∀ v a, read v = some a → f a = a) :
    Relayed read write := by
  intro v a h
  rw [hback, hread v a h]

/-! ## Sequences and choices -/

def readSeq (read : Json → Option α) : Json → Option (List α)
  | .array elems => elems.mapM read
  | _ => none

theorem readSeq_map {read : Json → Option α} {write : α → Json} {l : List α}
    (h : ∀ a ∈ l, read (write a) = some a) : readSeq read (.array (l.map write)) = some l := by
  show (l.map write).mapM read = some l
  induction l with
  | nil => rfl
  | cons a rest ih =>
    rw [List.forall_mem_cons] at h
    rw [List.map_cons, List.mapM_cons, h.1, ih h.2]
    rfl

/-- A list is received element by element. -/
theorem readSeq_map_map {read : Json → Option α} {write : α → Json} {f : α → α}
    (h : ∀ a, read (write a) = some (f a)) (l : List α) :
    readSeq read (.array (l.map write)) = some (l.map f) := by
  show (l.map write).mapM read = some (l.map f)
  induction l with
  | nil => rfl
  | cons a rest ih =>
    rw [List.map_cons, List.mapM_cons, h, ih]
    rfl

/-- What is true of each element that is read is true of those of the list. -/
theorem forall_mem_of_readSeq {read : Json → Option α} {P : α → Prop}
    (h : ∀ v a, read v = some a → P a) {v : Json} {l : List α} (hl : readSeq read v = some l) :
    ∀ a ∈ l, P a := by
  cases v with
  | array elems =>
    replace hl : elems.mapM read = some l := hl
    induction elems generalizing l with
    | nil =>
      cases hl
      exact fun a ha => by cases ha
    | cons e rest ih =>
      rw [List.mapM_cons] at hl
      simp only [Option.bind_eq_bind, Option.bind_eq_some_iff, Option.pure_def,
        Option.some.injEq] at hl
      obtain ⟨a, ha, as, has, rfl⟩ := hl
      exact List.forall_mem_cons.mpr ⟨h e a ha, ih has⟩
  | null | bool | number | string | object => cases hl

/-- The first of two shapes that fits. -/
def untagged (first : Json → Option α) (second : Json → Option β) (v : Json) : Option (α ⊕ β) :=
  match first v with
  | some a => some (.inl a)
  | none => (second v).map .inr

end Json
end FlagKit
