import FlagKit.Sql.Table
import FlagKit.Store.Interface

/-!
# The SQLite store

A flag is written as four columns and read back through two copies of the same
checks, one in `get` and one in `list`.  Creation times cross the table as Unix
seconds; how a `T` is turned into seconds and back depends on the build and is a
`TimeCodec`.  A read takes the time of the call, which stands in for a stored time
that is out of range.
-/

namespace FlagKit

open Sql

variable {T : Type}

/-- `timestamp` and `timestampOpt` are `DateTime::timestamp` and the single result
of `Utc.timestamp_opt(secs, 0)`. -/
structure TimeCodec (T : Type) where
  timestamp : T → Int64
  timestampOpt : Int64 → Option T

/-- Without the `chrono` feature a creation time is its Unix seconds. -/
def TimeCodec.unixSeconds : TimeCodec Int64 := { timestamp := id, timestampOpt := some }

structure FlagRow where
  name : SqlValue
  enabled : SqlValue
  percentage : SqlValue
  createdAt : SqlValue
  deriving DecidableEq

/-- The primary key; `NULL` is none. -/
def FlagRow.key (r : FlagRow) : Option SqlValue := if r.name = .null then none else some r.name

abbrev FlagsTable := Table FlagRow.key

structure SqliteFlagStore where
  flags : FlagsTable

/-- `u8::try_from` of an `i64`. -/
def u8TryFrom (i : Int64) : Option UInt8 :=
  if 0 ≤ i.toInt ∧ i.toInt ≤ 255 then some (UInt8.ofNat i.toInt.toNat) else none

/-- A `bool` cast to `i64`. -/
def boolAsI64 (b : Bool) : Int64 := if b then 1 else 0

/-- A `u8` cast to `i64`. -/
def u8AsI64 (p : UInt8) : Int64 := Int64.ofNat p.toNat

namespace SqliteFlagStore

def inMemory : SqliteFlagStore := ⟨Table.empty⟩

variable (K : Validkit) (C : TimeCodec T) (now : T)

def get (s : SqliteFlagStore) (name : FlagName) : Option (Flag T) := do
  let row ← (s.flags.select (.text name.asStr)).head?
  let nameS ← row.name.getString
  let enabled ← row.enabled.getI64
  let percentage ← row.percentage.getI64
  let createdAt ← row.createdAt.getOptionI64
  let flagName ← (FlagName.new K nameS).toOption
  let pct ← u8TryFrom percentage
  if pct > 100 then none
  else return {
    name := flagName
    enabled := decide (enabled ≠ 0)
    percentage := pct
    createdAt := createdAt.map fun ts => (C.timestampOpt ts).getD now }

/-- The row `set` binds. -/
def bound (flag : Flag T) : FlagRow :=
  { name := .text flag.name.asStr
    enabled := .integer (boolAsI64 flag.enabled)
    percentage := .integer (u8AsI64 flag.percentage)
    createdAt := .ofOption (flag.createdAt.map C.timestamp) }

def set (s : SqliteFlagStore) (flag : Flag T) : Except FlagError Unit × SqliteFlagStore :=
  if flag.percentage > 100 then (.error (.storage (Flag.percentageMsg flag.percentage)), s)
  else
    let excluded := bound C flag
    (.ok (),
      { flags := s.flags.upsert (k := .text flag.name.asStr) excluded rfl
          (fun row => { row with
            enabled := excluded.enabled
            percentage := excluded.percentage
            createdAt := excluded.createdAt })
          (fun _ => rfl) })

/-- What the row closure of `list` reads; a row it fails on is skipped. -/
def columns (row : FlagRow) : Option (String × Int64 × Int64 × Option Int64) := do
  let nameS ← row.name.getString
  let enabled ← row.enabled.getI64
  let percentage ← row.percentage.getI64
  let createdAt ← row.createdAt.getOptionI64
  return (nameS, enabled, percentage, createdAt)

/-- The body of the loop of `list`. -/
def decode : String × Int64 × Int64 × Option Int64 → Option (Flag T)
  | (nameS, enabled, percentage, createdAt) =>
    match FlagName.new K nameS with
    | .error _ => none
    | .ok fname =>
      match u8TryFrom percentage with
      | none => none
      | some pct =>
        if pct ≤ 100 then some
          { name := fname
            enabled := decide (enabled ≠ 0)
            percentage := pct
            createdAt := createdAt.map fun ts => (C.timestampOpt ts).getD now }
        else none

/-- The clock is read once for the whole call, where the source reads it for each row
whose date is out of range. -/
def list (order : ScanOrder FlagRow) (s : SqliteFlagStore) : List (Flag T) :=
  ((order.scan s.flags.rows).filterMap columns).filterMap (decode K C now)

def delete (s : SqliteFlagStore) (name : FlagName) : Except FlagError Bool × SqliteFlagStore :=
  let (n, flags) := s.flags.delete (.text name.asStr)
  (.ok (decide (n > 0)), { flags })

end SqliteFlagStore

/-- The store as evaluation sees it at time `now`. -/
def sqliteFlagStore (K : Validkit) (C : TimeCodec T) (order : ScanOrder FlagRow) (now : T) :
    FlagStore SqliteFlagStore T :=
  { get := SqliteFlagStore.get K C now
    set := SqliteFlagStore.set C
    list := SqliteFlagStore.list K C now order
    delete := SqliteFlagStore.delete }

/-! ## Reading a row back -/

theorem u8TryFrom_eq_some_iff {i : Int64} {p : UInt8} :
    u8TryFrom i = some p ↔ i.toInt = p.toNat := by
  have hp := p.toNat_lt
  unfold u8TryFrom
  by_cases h : 0 ≤ i.toInt ∧ i.toInt ≤ 255
  · rw [if_pos h, Option.some.injEq]
    constructor
    · intro heq
      rw [← heq, UInt8.toNat_ofNat', Nat.mod_eq_of_lt (by omega)]
      omega
    · intro heq
      rw [heq, Int.toNat_natCast, UInt8.ofNat_toNat]
  · rw [if_neg h]
    refine iff_of_false (fun hf => by cases hf) (fun heq => h ?_)
    omega

theorem u8TryFrom_u8AsI64 (p : UInt8) : u8TryFrom (u8AsI64 p) = some p := by
  have hlt := p.toNat_lt
  exact u8TryFrom_eq_some_iff.mpr (Int64.toInt_ofNat_of_lt (by omega))

theorem boolAsI64_eq_zero (b : Bool) : decide (boolAsI64 b = 0) = !b := by
  cases b <;> decide

namespace SqliteFlagStore

variable (K : Validkit) (C : TimeCodec T) (now : T)

/-- One row through the checks both reads make. -/
def read (row : FlagRow) : Option (Flag T) := (columns row).bind (decode K C now)

theorem list_eq (order : ScanOrder FlagRow) (s : SqliteFlagStore) :
    s.list K C now order = (order.scan s.flags.rows).filterMap (read K C now) := by
  rw [list, List.filterMap_filterMap]
  rfl

theorem get_eq (s : SqliteFlagStore) (name : FlagName) :
    s.get K C now name = (s.flags.select (.text name.asStr)).head?.bind (read K C now) := by
  unfold get
  cases (s.flags.select (.text name.asStr)).head? with
  | none => rfl
  | some row =>
    simp only [Option.bind_eq_bind, Option.bind_some, read, columns]
    cases row.name.getString with
    | none => rfl
    | some nameS =>
    cases row.enabled.getI64 with
    | none => rfl
    | some enabled =>
    cases row.percentage.getI64 with
    | none => rfl
    | some percentage =>
    cases row.createdAt.getOptionI64 with
    | none => rfl
    | some createdAt =>
      simp only [Option.bind_some, Option.pure_def, decode]
      cases FlagName.new K nameS with
      | error e => rfl
      | ok flagName =>
        cases u8TryFrom percentage with
        | none => rfl
        | some pct =>
          by_cases h : pct > 100
          · have hle : ¬ pct ≤ 100 := UInt8.not_le.mpr h
            simp [Except.toOption, h, hle]
          · have hle : pct ≤ 100 := UInt8.not_lt.mp h
            simp [Except.toOption, h, hle]

theorem columns_eq_some_iff {row : FlagRow} {nameS : String} {enabled percentage : Int64}
    {createdAt : Option Int64} :
    columns row = some (nameS, enabled, percentage, createdAt) ↔
      row = ⟨.text nameS, .integer enabled, .integer percentage, .ofOption createdAt⟩ := by
  obtain ⟨name, en, pct, created⟩ := row
  simp only [columns, Option.bind_eq_bind, Option.bind_eq_some_iff, Option.pure_def,
    Option.some.injEq, Prod.mk.injEq, SqlValue.getString_eq_some_iff,
    SqlValue.getI64_eq_some_iff, SqlValue.getOptionI64_eq_some_iff, FlagRow.mk.injEq]
  constructor
  · intro hex
    obtain ⟨_, rfl, _, rfl, _, rfl, _, rfl, rfl, rfl, rfl, rfl⟩ := hex
    exact ⟨rfl, rfl, rfl, rfl⟩
  · intro hcols
    obtain ⟨rfl, rfl, rfl, rfl⟩ := hcols
    exact ⟨_, rfl, _, rfl, _, rfl, _, rfl, rfl, rfl, rfl, rfl⟩

theorem decode_eq_some_iff {nameS : String} {enabled percentage : Int64}
    {createdAt : Option Int64} {f : Flag T} :
    decode K C now (nameS, enabled, percentage, createdAt) = some f ↔
      f.name = ⟨nameS⟩ ∧ f.name.Valid K ∧ f.enabled = decide (enabled ≠ 0) ∧
        u8TryFrom percentage = some f.percentage ∧ f.percentage ≤ 100 ∧
        f.createdAt = createdAt.map (fun ts => (C.timestampOpt ts).getD now) := by
  cases hnew : FlagName.new K nameS with
  | error e =>
    simp only [decode, hnew, reduceCtorEq, false_iff]
    intro hall
    have hok := (FlagName.new_eq_ok_iff K).mpr ⟨hall.1, hall.2.1⟩
    rw [hnew] at hok
    cases hok
  | ok fname =>
    obtain ⟨rfl, hvalid⟩ := (FlagName.new_eq_ok_iff K).mp hnew
    cases hpct : u8TryFrom percentage with
    | none => simp [decode, hnew, hpct]
    | some pct =>
      obtain ⟨name, en, p, created⟩ := f
      by_cases hle : pct ≤ 100
      · simp only [decode, hnew, hpct, if_pos hle, Option.some.injEq, Flag.mk.injEq]
        constructor
        · intro heq
          obtain ⟨rfl, rfl, rfl, rfl⟩ := heq
          exact ⟨rfl, hvalid, rfl, rfl, hle, rfl⟩
        · intro hall
          exact ⟨hall.1.symm, hall.2.2.1.symm, hall.2.2.2.1, hall.2.2.2.2.2.symm⟩
      · simp only [decode, hnew, hpct, if_neg hle, reduceCtorEq, false_iff]
        intro hall
        rw [Option.some.inj hall.2.2.2.1] at hle
        exact hle hall.2.2.2.2.1

/-- Everything a row that reads as a flag is. -/
theorem read_eq_some_iff {row : FlagRow} {f : Flag T} :
    read K C now row = some f ↔ ∃ enabled percentage createdAt,
      row = ⟨.text f.name.asStr, .integer enabled, .integer percentage, .ofOption createdAt⟩ ∧
        f.name.Valid K ∧ f.enabled = decide (enabled ≠ 0) ∧
        u8TryFrom percentage = some f.percentage ∧ f.percentage ≤ 100 ∧
        f.createdAt = createdAt.map (fun ts => (C.timestampOpt ts).getD now) := by
  rw [read, Option.bind_eq_some_iff]
  constructor
  · intro hex
    obtain ⟨⟨nameS, enabled, percentage, createdAt⟩, hcols, hdec⟩ := hex
    obtain ⟨hname, hrest⟩ := (decode_eq_some_iff K C now).mp hdec
    refine ⟨enabled, percentage, createdAt, ?_, hrest⟩
    rw [columns_eq_some_iff.mp hcols, hname]
    rfl
  · intro hex
    obtain ⟨enabled, percentage, createdAt, hrow, hrest⟩ := hex
    exact ⟨_, columns_eq_some_iff.mpr hrow, (decode_eq_some_iff K C now).mpr ⟨rfl, hrest⟩⟩

theorem read_key {row : FlagRow} {f : Flag T} (h : read K C now row = some f) :
    row.key = some (.text f.name.asStr) := by
  obtain ⟨_, _, _, rfl, _⟩ := (read_eq_some_iff K C now).mp h
  simp [FlagRow.key]

/-- A written row reads back as the flag written, but for the creation time. -/
theorem read_bound_eq {flag : Flag T} (hvalid : flag.name.Valid K) (hle : flag.percentage ≤ 100) :
    read K C now (bound C flag) = some { flag with
      createdAt := (flag.createdAt.map C.timestamp).map fun ts => (C.timestampOpt ts).getD now } := by
  have hname := FlagName.new_asStr K hvalid
  simp [read, columns, bound, SqlValue.getString, SqlValue.getI64, decode, hname,
    u8TryFrom_u8AsI64, hle, boolAsI64_eq_zero]

theorem read_bound {flag : Flag T} (hvalid : flag.name.Valid K) (hle : flag.percentage ≤ 100) :
    ∃ f, read K C now (bound C flag) = some f ∧ f.name = flag.name ∧ f.setting = flag.setting :=
  ⟨_, read_bound_eq K C now hvalid hle, rfl, rfl⟩

end SqliteFlagStore
end FlagKit
