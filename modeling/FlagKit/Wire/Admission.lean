import FlagKit.Flag
import FlagKit.Json.Derive

/-!
# Deserialized flags

The constructors of names and flags validate, and so do the conversions from
strings.  The derived deserializers are entry points of their own: `FlagName` takes any
string and `percentage` any byte.  For each of the three types `admitted_iff` says
which documents are nevertheless read as values the constructors give.

The reader of a creation time belongs to the build.
-/

namespace FlagKit

open Json

variable {T : Type}

/-! ## The derived readers -/

/-- A transparent newtype is read as the string inside. -/
def FlagName.deserialize (v : Json) : Option FlagName := v.readString.map FlagName.newUnchecked

def Flag.fieldSpecs : List FieldSpec :=
  [⟨"name", false⟩, ⟨"enabled", false⟩, ⟨"percentage", false⟩, ⟨"created_at", false⟩]

def Flag.deserialize (readTime : Json → Option T) (v : Json) : Option (Flag T) := do
  match ← v.fields fieldSpecs with
  | [name, enabled, percentage, createdAt] =>
    return {
      name := ← required FlagName.deserialize name
      enabled := ← required readBool enabled
      percentage := ← required readU8 percentage
      createdAt := ← optional readTime createdAt }
  | _ => none

def FlagChange.fieldSpecs : List FieldSpec :=
  [⟨"name", false⟩, ⟨"old", false⟩, ⟨"new", false⟩, ⟨"who", false⟩, ⟨"when", false⟩]

def FlagChange.deserialize (v : Json) : Option FlagChange := do
  match ← v.fields fieldSpecs with
  | [name, old, new, who, when] =>
    return {
      name := ← required FlagName.deserialize name
      old := ← required readBool old
      new := ← required readBool new
      who := ← required readString who
      when := ← required readI64 when }
  | _ => none

/-! ## What they read -/

theorem FlagName.deserialize_eq_some_iff {v : Json} {n : FlagName} :
    deserialize v = some n ↔ v = .string n.inner := by
  cases v <;> cases n <;> simp [deserialize, readString, newUnchecked]

theorem Flag.deserialize_eq_some_iff {readTime : Json → Option T} {v : Json} {f : Flag T} :
    deserialize readTime v = some f ↔ ∃ p created,
      v.fields fieldSpecs =
          some [some (.string f.name.inner), some (.bool f.enabled), some p, created] ∧
        p.readU8 = some f.percentage ∧ optional readTime created = some f.createdAt := by
  rw [deserialize, Option.bind_eq_bind, Option.bind_eq_some_iff]
  constructor
  · intro hex
    obtain ⟨given, hfields, hread⟩ := hex
    match given, hread with
    | [name, enabled, percentage, createdAt], hread =>
      simp only [Option.bind_eq_bind, Option.bind_eq_some_iff, required_eq_some_iff,
        FlagName.deserialize_eq_some_iff, readBool_eq_some_iff, Option.pure_def,
        Option.some.injEq] at hread
      obtain ⟨n, ⟨_, rfl, rfl⟩, b, ⟨_, rfl, rfl⟩, pct, ⟨p, rfl, hp⟩, created, hcreated, rfl⟩ := hread
      exact ⟨p, createdAt, hfields, hp, hcreated⟩
  · intro hex
    obtain ⟨p, created, hfields, hp, hcreated⟩ := hex
    refine ⟨_, hfields, ?_⟩
    simp only [required_some, hp, hcreated, readBool,
      FlagName.deserialize_eq_some_iff.mpr rfl, Option.bind_eq_bind, Option.bind_some,
      Option.pure_def]

theorem FlagChange.deserialize_eq_some_iff {v : Json} {c : FlagChange} :
    deserialize v = some c ↔ ∃ t,
      v.fields fieldSpecs =
          some [some (.string c.name.inner), some (.bool c.old), some (.bool c.new),
            some (.string c.who), some t] ∧
        t.readI64 = some c.when := by
  rw [deserialize, Option.bind_eq_bind, Option.bind_eq_some_iff]
  constructor
  · intro hex
    obtain ⟨given, hfields, hread⟩ := hex
    match given, hread with
    | [name, old, new, who, when], hread =>
      simp only [Option.bind_eq_bind, Option.bind_eq_some_iff, required_eq_some_iff,
        FlagName.deserialize_eq_some_iff, readBool_eq_some_iff, readString_eq_some_iff,
        Option.pure_def, Option.some.injEq] at hread
      obtain ⟨n, ⟨_, rfl, rfl⟩, o, ⟨_, rfl, rfl⟩, b, ⟨_, rfl, rfl⟩, w, ⟨_, rfl, rfl⟩, i, ⟨t, rfl, ht⟩,
        rfl⟩ := hread
      exact ⟨t, hfields, ht⟩
  · intro hex
    obtain ⟨t, hfields, ht⟩ := hex
    refine ⟨_, hfields, ?_⟩
    simp only [required_some, ht, readBool, readString,
      FlagName.deserialize_eq_some_iff.mpr rfl, Option.bind_eq_bind, Option.bind_some,
      Option.pure_def]

/-! ## What the constructors admit -/

/-- Build the flag again, with the constructor for its creation time. -/
def Flag.rebuild (K : Validkit) (f : Flag T) : Except FlagError (Flag T) := do
  let name ← FlagName.new K f.name.asStr
  match f.createdAt with
  | none => Flag.new name f.enabled f.percentage
  | some t => Flag.withCreatedAt name f.enabled f.percentage t

theorem Flag.rebuild_eq_ok {K : Validkit} {f : Flag T} (hvalid : f.name.Valid K)
    (hle : f.percentage ≤ 100) : f.rebuild K = .ok f := by
  have hname := FlagName.new_asStr K hvalid
  have hnot : ¬ f.percentage > 100 := UInt8.not_lt.mpr hle
  obtain ⟨name, enabled, percentage, createdAt⟩ := f
  cases createdAt with
  | none => simp [rebuild, hname, new, hnot, bind, Except.bind]
  | some t => simp [rebuild, hname, withCreatedAt, new, hnot, bind, Except.bind, pure, Except.pure]

variable (K : Validkit)

def NameAdmitted (v : Json) : Prop :=
  ∀ n, FlagName.deserialize v = some n → n.Valid K ∧ FlagName.new K n.asStr = .ok n

def FlagAdmitted (readTime : Json → Option T) (v : Json) : Prop :=
  ∀ f, Flag.deserialize readTime v = some f →
    f.name.Valid K ∧ f.percentage ≤ 100 ∧ f.rebuild K = .ok f

def ChangeAdmitted (v : Json) : Prop :=
  ∀ c, FlagChange.deserialize v = some c →
    c.name.Valid K ∧ FlagName.new K c.name.asStr = .ok c.name

/-- The document has the fields of a flag, with name `s` and percentage `p`. -/
def FlagDocument (readTime : Json → Option T) (v : Json) (s : String) (p : UInt8) : Prop :=
  ∃ b n created, v.fields Flag.fieldSpecs =
      some [some (.string s), some (.bool b), some n, created] ∧
    n.readU8 = some p ∧ (optional readTime created).isSome = true

/-- The document has the fields of a change record, with name `s`. -/
def ChangeDocument (v : Json) (s : String) : Prop :=
  ∃ b b' who t, v.fields FlagChange.fieldSpecs =
      some [some (.string s), some (.bool b), some (.bool b'), some (.string who), some t] ∧
    t.readI64.isSome = true

theorem nameAdmitted_iff (v : Json) :
    NameAdmitted K v ↔ ∀ s, v = .string s → K.parse s = true := by
  constructor
  · intro h s hv
    exact (h ⟨s⟩ (FlagName.deserialize_eq_some_iff.mpr hv)).1
  · intro h n hn
    have hvalid : n.Valid K := h _ (FlagName.deserialize_eq_some_iff.mp hn)
    exact ⟨hvalid, FlagName.new_asStr K hvalid⟩

theorem flagAdmitted_iff (readTime : Json → Option T) (v : Json) :
    FlagAdmitted K readTime v ↔
      ∀ s p, FlagDocument readTime v s p → K.parse s = true ∧ p ≤ 100 := by
  constructor
  · intro h s p hdoc
    obtain ⟨b, n, created, hfields, hp, hcreated⟩ := hdoc
    obtain ⟨at', hat⟩ := Option.isSome_iff_exists.mp hcreated
    have hflag := h ⟨⟨s⟩, b, p, at'⟩ (Flag.deserialize_eq_some_iff.mpr ⟨n, created, hfields, hp, hat⟩)
    exact ⟨hflag.1, hflag.2.1⟩
  · intro h f hf
    obtain ⟨n, created, hfields, hp, hcreated⟩ := Flag.deserialize_eq_some_iff.mp hf
    obtain ⟨hvalid, hle⟩ := h f.name.inner f.percentage
      ⟨f.enabled, n, created, hfields, hp, by rw [hcreated]; rfl⟩
    exact ⟨hvalid, hle, Flag.rebuild_eq_ok hvalid hle⟩

theorem changeAdmitted_iff (v : Json) :
    ChangeAdmitted K v ↔ ∀ s, ChangeDocument v s → K.parse s = true := by
  constructor
  · intro h s hdoc
    obtain ⟨b, b', who, t, hfields, ht⟩ := hdoc
    obtain ⟨i, hi⟩ := Option.isSome_iff_exists.mp ht
    exact (h ⟨⟨s⟩, b, b', who, i⟩ (FlagChange.deserialize_eq_some_iff.mpr ⟨t, hfields, hi⟩)).1
  · intro h c hc
    obtain ⟨t, hfields, ht⟩ := FlagChange.deserialize_eq_some_iff.mp hc
    have hvalid : c.name.Valid K := h c.name.inner
      ⟨c.old, c.new, c.who, t, hfields, by rw [ht]; rfl⟩
    exact ⟨hvalid, FlagName.new_asStr K hvalid⟩

/-- The string `Bad-Name` is read as a flag name. -/
theorem invalid_name_deserializes :
    ¬ ∀ v, NameAdmitted .snakeCase v ∧ FlagAdmitted .snakeCase readI64 v ∧
      ChangeAdmitted .snakeCase v := by
  intro h
  have hvalid := ((h (.string "Bad-Name")).1 ⟨"Bad-Name"⟩ rfl).1
  unfold FlagName.Valid at hvalid
  exact absurd hvalid (by decide)

/-- Every document is read as a value the constructors give exactly when the name in
it is valid and, in a flag, the percentage is at most 100. -/
theorem admitted_iff (readTime : Json → Option T) (v : Json) :
    (NameAdmitted K v ↔ ∀ s, v = .string s → K.parse s = true) ∧
    (FlagAdmitted K readTime v ↔
      ∀ s p, FlagDocument readTime v s p → K.parse s = true ∧ p ≤ 100) ∧
    (ChangeAdmitted K v ↔ ∀ s, ChangeDocument v s → K.parse s = true) :=
  ⟨nameAdmitted_iff K v, flagAdmitted_iff K readTime v, changeAdmitted_iff K v⟩

end FlagKit
