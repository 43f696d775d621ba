import Mathlib.Init

/-!
# Flags and their names

`FlagName`, `Flag`, `FlagChange` and the errors of the crate.  Two things a flag is made of are
not decided here.  The rule for names belongs to the `validkit` crate and is the
predicate of a `Validkit`.  The type `T` of a creation time depends on the build:
a `DateTime<Utc>` with the `chrono` feature, Unix seconds without it.
-/

namespace FlagKit

inductive FlagError where
  | notFound (name : String)
  | alreadyExists (name : String)
  | invalidName (name reason : String)
  | storage (msg : String)
  deriving DecidableEq

/-- The validator of the `validkit` crate: `parse` says which strings
`validkit::FlagName::parse` accepts. -/
structure Validkit where
  parse : String → Bool

/-- The rule the crate documents, `^[a-z][a-z0-9_]*$`. -/
def Validkit.snakeCase : Validkit where
  parse s :=
    match s.toList with
    | [] => false
    | c :: cs => c.isLower && cs.all (fun d => d.isLower || d.isDigit || d == '_')

/-- A flag name.  `new` validates; `newUnchecked` does not, so a value need not
be valid. -/
structure FlagName where
  inner : String
  deriving DecidableEq

namespace FlagName

variable (K : Validkit)

def validate (s : String) : Except FlagError Unit :=
  if K.parse s then .ok ()
  else .error (.invalidName s
    "must match ^[a-z][a-z0-9_]*$ (lowercase snake_case, start with letter)")

def new (name : String) : Except FlagError FlagName := do
  validate K name
  return ⟨name⟩

def newUnchecked (name : String) : FlagName := ⟨name⟩

def asStr (n : FlagName) : String := n.inner

def Valid (n : FlagName) : Prop := K.parse n.inner = true

theorem new_eq_ok_iff {s : String} {n : FlagName} : new K s = .ok n ↔ n = ⟨s⟩ ∧ n.Valid K := by
  cases h : K.parse s with
  | false =>
    simp only [new, validate, h, Valid]
    constructor
    · intro hok
      cases hok
    · intro hex
      obtain ⟨rfl, hvalid⟩ := hex
      simp [h] at hvalid
  | true =>
    simp only [new, validate, h, Valid]
    constructor
    · intro hok
      cases hok
      exact ⟨rfl, h⟩
    · intro hex
      obtain ⟨rfl, -⟩ := hex
      rfl

theorem asStr_injective {m n : FlagName} (h : m.asStr = n.asStr) : m = n := by
  cases m
  cases n
  cases h
  rfl

theorem new_asStr {n : FlagName} (h : n.Valid K) : new K n.asStr = .ok n :=
  (new_eq_ok_iff K).mpr ⟨rfl, h⟩

end FlagName

/-- A feature flag.  Its fields are public, so `percentage` may be any byte. -/
structure Flag (T : Type) where
  name : FlagName
  enabled : Bool
  percentage : UInt8
  createdAt : Option T
  deriving DecidableEq

namespace Flag

variable {T : Type}

def percentageMsg (percentage : UInt8) : String :=
  "percentage must be 0..=100, got " ++ toString percentage.toNat

def new (name : FlagName) (enabled : Bool) (percentage : UInt8) : Except FlagError (Flag T) :=
  if percentage > 100 then .error (.storage (percentageMsg percentage))
  else .ok { name, enabled, percentage, createdAt := none }

def withCreatedAt (name : FlagName) (enabled : Bool) (percentage : UInt8) (createdAt : T) :
    Except FlagError (Flag T) := do
  let flag : Flag T ← new name enabled percentage
  return { flag with createdAt := some createdAt }

def setPercentage (flag : Flag T) (pct : UInt8) : Except FlagError Unit × Flag T :=
  if pct > 100 then (.error (.storage (percentageMsg pct)), flag)
  else (.ok (), { flag with percentage := pct })

def isEnabled (flag : Flag T) : Bool := flag.enabled

end Flag

/-- An audit record. -/
structure FlagChange where
  name : FlagName
  old : Bool
  new : Bool
  who : String
  when : Int64
  deriving DecidableEq

end FlagKit
