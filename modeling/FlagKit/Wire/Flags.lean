import FlagKit.Wire.Admission

/-!
# Flags, written and read back

The derived writers of a name, a flag and a change record.  Nothing is skipped: a flag
without a creation time is written with a null.  Whatever value the public fields hold,
it is read back as it was (`flags_round_trip`), so a document carries an invalid name or
a percentage above 100 as faithfully as any other: what is written for a value is
admitted exactly when the constructors would have given the value.

The codec of a creation time belongs to the build.  `TimeFormat.unixSeconds` is the one
of a build without the `chrono` feature.
-/

namespace FlagKit

open Json

variable {T : Type}

/-- A codec of creation times: nothing is written as null and everything is read back. -/
structure TimeFormat (T : Type) where
  read : Json → Option T
  write : T → Json
  write_ne_null : ∀ t, write t ≠ .null
  read_write : ∀ t, read (write t) = some t

theorem Json.writeI64_ne_null (i : Int64) : writeI64 i ≠ .null := by
  unfold writeI64
  split <;> intro h <;> cases h

/-- The seconds themselves, as a number. -/
def TimeFormat.unixSeconds : TimeFormat Int64 where
  read := readI64
  write := writeI64
  write_ne_null := writeI64_ne_null
  read_write := readI64_writeI64

/-! ## The derived writers -/

/-- A transparent newtype is written as the string inside. -/
def FlagName.toValue (n : FlagName) : Json := .string n.inner

/-- An option that is never skipped. -/
def TimeFormat.writeOption (C : TimeFormat T) : Option T → Json
  | none => .null
  | some t => C.write t

def Flag.given (C : TimeFormat T) (f : Flag T) : List (String × Option Json) :=
  [("name", some f.name.toValue), ("enabled", some (.bool f.enabled)),
    ("percentage", some (writeU8 f.percentage)), ("created_at", some (C.writeOption f.createdAt))]

def Flag.toValue (C : TimeFormat T) (f : Flag T) : Json :=
  (JsonMap.ofMembers (writeFields (f.given C))).toJson

def FlagChange.given (c : FlagChange) : List (String × Option Json) :=
  [("name", some c.name.toValue), ("old", some (.bool c.old)), ("new", some (.bool c.new)),
    ("who", some (.string c.who)), ("when", some (writeI64 c.when))]

def FlagChange.toValue (c : FlagChange) : Json :=
  (JsonMap.ofMembers (writeFields c.given)).toJson

/-! ## Read back -/

theorem FlagName.deserialize_toValue (n : FlagName) : deserialize n.toValue = some n :=
  FlagName.deserialize_eq_some_iff.mpr rfl

theorem TimeFormat.optional_writeOption (C : TimeFormat T) (o : Option T) :
    optional C.read (some (C.writeOption o)) = some o := by
  cases o with
  | none => rfl
  | some t =>
    show optional C.read (some (C.write t)) = _
    rw [optional_some C.read (C.write_ne_null t), C.read_write]
    rfl

theorem Flag.fields_toValue (C : TimeFormat T) (f : Flag T) :
    (f.toValue C).fields fieldSpecs =
      some [some (.string f.name.inner), some (.bool f.enabled), some (writeU8 f.percentage),
        some (C.writeOption f.createdAt)] := by
  have hnodup : ((f.given C).map Prod.fst).Nodup := by
    show ["name", "enabled", "percentage", "created_at"].Nodup
    decide
  exact fields_writeFields fieldSpecs hnodup rfl

theorem Flag.deserialize_toValue (C : TimeFormat T) (f : Flag T) :
    deserialize C.read (f.toValue C) = some f :=
  Flag.deserialize_eq_some_iff.mpr ⟨_, _, f.fields_toValue C, readU8_writeU8 _,
    C.optional_writeOption _⟩

theorem FlagChange.fields_toValue (c : FlagChange) :
    c.toValue.fields fieldSpecs =
      some [some (.string c.name.inner), some (.bool c.old), some (.bool c.new),
        some (.string c.who), some (writeI64 c.when)] := by
  have hnodup : (c.given.map Prod.fst).Nodup := by
    show ["name", "old", "new", "who", "when"].Nodup
    decide
  exact fields_writeFields fieldSpecs hnodup rfl

theorem FlagChange.deserialize_toValue (c : FlagChange) : deserialize c.toValue = some c :=
  FlagChange.deserialize_eq_some_iff.mpr ⟨_, c.fields_toValue, readI64_writeI64 _⟩

/-! ## Admitted as written -/

variable (K : Validkit)

theorem nameAdmitted_toValue (n : FlagName) : NameAdmitted K n.toValue ↔ n.Valid K := by
  rw [nameAdmitted_iff]
  constructor
  · intro h
    exact h n.inner rfl
  · intro h s hs
    cases hs
    exact h

theorem flagAdmitted_toValue (C : TimeFormat T) (f : Flag T) :
    FlagAdmitted K C.read (f.toValue C) ↔ f.name.Valid K ∧ f.percentage ≤ 100 := by
  constructor
  · intro h
    obtain ⟨hvalid, hle, -⟩ := h f (f.deserialize_toValue C)
    exact ⟨hvalid, hle⟩
  · intro h f' hf'
    rw [f.deserialize_toValue C] at hf'
    cases hf'
    exact ⟨h.1, h.2, Flag.rebuild_eq_ok h.1 h.2⟩

theorem changeAdmitted_toValue (c : FlagChange) : ChangeAdmitted K c.toValue ↔ c.name.Valid K := by
  constructor
  · intro h
    exact (h c c.deserialize_toValue).1
  · intro h c' hc'
    rw [c.deserialize_toValue] at hc'
    cases hc'
    exact ⟨h, FlagName.new_asStr K h⟩

/-- Names, flags and change records are read back whatever they hold, and the document
is admitted exactly when a constructor would have given the value. -/
theorem flags_round_trip (C : TimeFormat T) :
    (∀ n : FlagName, FlagName.deserialize n.toValue = some n ∧
      (NameAdmitted K n.toValue ↔ n.Valid K)) ∧
    (∀ f : Flag T, Flag.deserialize C.read (f.toValue C) = some f ∧
      (FlagAdmitted K C.read (f.toValue C) ↔ f.name.Valid K ∧ f.percentage ≤ 100)) ∧
    (∀ c : FlagChange, FlagChange.deserialize c.toValue = some c ∧
      (ChangeAdmitted K c.toValue ↔ c.name.Valid K)) :=
  ⟨fun n => ⟨n.deserialize_toValue, nameAdmitted_toValue K n⟩,
    fun f => ⟨f.deserialize_toValue C, flagAdmitted_toValue K C f⟩,
    fun c => ⟨c.deserialize_toValue, changeAdmitted_toValue K c⟩⟩

end FlagKit
