import FlagKit.Numeric.F64
import Mathlib.Data.List.Basic

/-!
# Tables with a primary key

A table is a list of rows in which no two rows have the same key.  A key is
optional: SQLite lets a primary key that is not an `INTEGER` be `NULL`, any number
of times, and `NULL` equals nothing.  The three statements on a table are a select
by key, an insert that updates in place on conflict, and a delete by key; `mem_*`
say which rows each leaves.

Values and their typed reads are those of `rusqlite`: a read gives back a value only
from a column of the same storage class.
-/

namespace FlagKit
namespace Sql

inductive SqlValue where
  | null
  | integer (i : Int64)
  | real (x : F64)
  | text (s : String)
  | blob (b : List UInt8)
  deriving DecidableEq

namespace SqlValue

def ofOption : Option Int64 → SqlValue
  | some i => .integer i
  | none => .null

/-- `row.get::<_, String>`. -/
def getString : SqlValue → Option String
  | .text s => some s
  | _ => none

/-- `row.get::<_, i64>`. -/
def getI64 : SqlValue → Option Int64
  | .integer i => some i
  | _ => none

/-- `row.get::<_, Option<i64>>`. -/
def getOptionI64 : SqlValue → Option (Option Int64)
  | .null => some none
  | .integer i => some (some i)
  | _ => none

theorem getString_eq_some_iff {v : SqlValue} {s : String} :
    v.getString = some s ↔ v = .text s := by
  cases v <;> simp [getString]

theorem getI64_eq_some_iff {v : SqlValue} {i : Int64} : v.getI64 = some i ↔ v = .integer i := by
  cases v <;> simp [getI64]

theorem getOptionI64_eq_some_iff {v : SqlValue} {i : Option Int64} :
    v.getOptionI64 = some i ↔ v = ofOption i := by
  cases v <;> cases i <;> simp [getOptionI64, ofOption]

@[simp] theorem getOptionI64_ofOption (i : Option Int64) :
    (ofOption i).getOptionI64 = some i := by
  cases i <;> rfl

end SqlValue

variable {ρ κ : Type}

structure Table (key : ρ → Option κ) where
  rows : List ρ
  unique : rows.Pairwise (fun a b => key a = none ∨ key a ≠ key b)

namespace Table

variable {key : ρ → Option κ}

def empty : Table key := ⟨[], List.Pairwise.nil⟩

theorem unique_map {t : Table key} {f : ρ → ρ} (hf : ∀ r, key (f r) = key r) :
    (t.rows.map f).Pairwise (fun a b => key a = none ∨ key a ≠ key b) := by
  rw [List.pairwise_map]
  refine t.unique.imp fun hab => ?_
  rw [hf, hf]
  exact hab

variable [DecidableEq κ]

def select (t : Table key) (k : κ) : List ρ := t.rows.filter (fun r => key r = some k)

theorem mem_select {t : Table key} {k : κ} {r : ρ} :
    r ∈ t.select k ↔ r ∈ t.rows ∧ key r = some k := by
  simp [select]

theorem unique_append {t : Table key} {k : κ} {row : ρ} (hrow : key row = some k)
    (h : t.select k = []) :
    (t.rows ++ [row]).Pairwise (fun a b => key a = none ∨ key a ≠ key b) := by
  rw [List.pairwise_append]
  refine ⟨t.unique, List.pairwise_singleton _ _, fun r hr b hb => Or.inr ?_⟩
  rw [List.mem_singleton.mp hb, hrow]
  intro hkey
  have hmem := mem_select.mpr ⟨hr, hkey⟩
  rw [h] at hmem
  cases hmem

theorem key_updated {k : κ} {update : ρ → ρ} (hupdate : ∀ r, key (update r) = key r) (r : ρ) :
    key (if key r = some k then update r else r) = key r := by
  by_cases h : key r = some k
  · rw [if_pos h, hupdate]
  · rw [if_neg h]

/-- `INSERT … ON CONFLICT(key) DO UPDATE`: a row with the key is updated where it
stands, else the new row is added. -/
def upsert (t : Table key) {k : κ} (row : ρ) (hrow : key row = some k) (update : ρ → ρ)
    (hupdate : ∀ r, key (update r) = key r) : Table key :=
  if h : t.select k = [] then ⟨t.rows ++ [row], unique_append hrow h⟩
  else ⟨t.rows.map (fun r => if key r = some k then update r else r),
    unique_map (key_updated hupdate)⟩

/-- Delete by key; the result counts the rows deleted. -/
def delete (t : Table key) (k : κ) : Nat × Table key :=
  ((t.select k).length, ⟨t.rows.filter (fun r => key r ≠ some k), t.unique.filter _⟩)

/-- When the update overwrites all columns the new row is there in both cases. -/
theorem mem_upsert (t : Table key) {k : κ} {row : ρ} (hrow : key row = some k) {update : ρ → ρ}
    (hall : ∀ r, key r = some k → update r = row) (hupdate : ∀ r, key (update r) = key r)
    {r : ρ} :
    r ∈ (t.upsert row hrow update hupdate).rows ↔ r = row ∨ (r ∈ t.rows ∧ key r ≠ some k) := by
  unfold upsert
  by_cases h : t.select k = []
  · have hnone : ∀ r ∈ t.rows, key r ≠ some k := by
      intro r hr hkey
      have hmem := mem_select.mpr ⟨hr, hkey⟩
      rw [h] at hmem
      cases hmem
    rw [dif_pos h, List.mem_append, List.mem_singleton]
    constructor
    · intro hcase
      rcases hcase with hr | hr
      · exact Or.inr ⟨hr, hnone r hr⟩
      · exact Or.inl hr
    · intro hcase
      rcases hcase with hr | hr
      · exact Or.inr hr
      · exact Or.inl hr.1
  · rw [dif_neg h, List.mem_map]
    constructor
    · intro hex
      obtain ⟨a, ha, rfl⟩ := hex
      by_cases hkey : key a = some k
      · rw [if_pos hkey]
        exact Or.inl (hall a hkey)
      · rw [if_neg hkey]
        exact Or.inr ⟨ha, hkey⟩
    · intro hcase
      rcases hcase with rfl | ⟨hr, hkey⟩
      · obtain ⟨a, ha⟩ := List.exists_mem_of_ne_nil _ h
        obtain ⟨hmem, hkey⟩ := mem_select.mp ha
        exact ⟨a, hmem, by rw [if_pos hkey, hall a hkey]⟩
      · exact ⟨r, hr, by rw [if_neg hkey]⟩

theorem map_update_eq_self {k : κ} {update : ρ → ρ} {l : List ρ}
    (h : ∀ r ∈ l, key r = some k → update r = r) :
    l.map (fun r => if key r = some k then update r else r) = l := by
  have hkeep : ∀ r ∈ l, (if key r = some k then update r else r) = r := by
    intro r hr
    by_cases hkey : key r = some k
    · rw [if_pos hkey, h r hr hkey]
    · rw [if_neg hkey]
  exact (List.map_congr_left hkeep).trans (List.map_id _)

/-- A filter that drops the rows of the key does not see the upsert. -/
theorem filter_upsert_ne (t : Table key) {k : κ} {row : ρ} (hrow : key row = some k)
    {update : ρ → ρ} (hupdate : ∀ r, key (update r) = key r) {p : ρ → Bool}
    (hp : ∀ r, key r = some k → p r = false) :
    (t.upsert row hrow update hupdate).rows.filter p = t.rows.filter p := by
  unfold upsert
  by_cases h : t.select k = []
  · rw [dif_pos h]
    simp [List.filter_append, hp row hrow]
  · rw [dif_neg h, List.filter_map]
    have hpred : p ∘ (fun r => if key r = some k then update r else r) = p := by
      funext r
      by_cases hkey : key r = some k
      · have hnew : key (update r) = some k := (hupdate r).trans hkey
        simp [hkey, hp r hkey, hp _ hnew]
      · simp [hkey]
    rw [hpred]
    apply map_update_eq_self
    intro r hr hkey
    have hpr := (List.mem_filter.mp hr).2
    rw [hp r hkey] at hpr
    cases hpr

/-- To write a row that is there changes nothing. -/
theorem upsert_eq_self {t : Table key} {k : κ} {row : ρ} (hrow : key row = some k)
    {update : ρ → ρ} (hall : ∀ r, key r = some k → update r = row)
    (hupdate : ∀ r, key (update r) = key r) (hmem : t.select k = [row]) :
    t.upsert row hrow update hupdate = t := by
  have hrows : (t.upsert row hrow update hupdate).rows = t.rows := by
    rw [upsert, dif_neg (by rw [hmem]; exact List.cons_ne_nil _ _)]
    apply map_update_eq_self
    intro r hr hkey
    have hr' := mem_select.mpr ⟨hr, hkey⟩
    rw [hmem, List.mem_singleton] at hr'
    rw [hall r hkey, hr']
  cases h : t.upsert row hrow update hupdate
  rw [h] at hrows
  cases t
  cases hrows
  rfl

/-- No two rows have the same key, so a select gives at most one row. -/
theorem select_length_le (t : Table key) (k : κ) : (t.select k).length ≤ 1 := by
  have hpair : (t.select k).Pairwise (fun a b => key a = none ∨ key a ≠ key b) :=
    t.unique.filter _
  have hkey : ∀ r ∈ t.select k, key r = some k := fun r hr => (mem_select.mp hr).2
  match hs : t.select k, hpair, hkey with
  | [], _, _ => exact Nat.zero_le 1
  | [a], _, _ => exact Nat.le_refl 1
  | a :: b :: l, hpair, hkey =>
    have hab := List.rel_of_pairwise_cons hpair (List.mem_cons_self)
    rw [hkey a (by simp), hkey b (by simp)] at hab
    simp at hab

theorem select_eq_of_mem {t : Table key} {k : κ} {r : ρ} (hr : r ∈ t.rows)
    (hkey : key r = some k) : t.select k = [r] := by
  have hmem := mem_select.mpr ⟨hr, hkey⟩
  obtain ⟨a, ha⟩ := List.length_eq_one_iff.mp
    (Nat.le_antisymm (t.select_length_le k) (List.length_pos_of_mem hmem))
  rw [ha, List.mem_singleton] at hmem
  rw [ha, hmem]

theorem mem_delete {t : Table key} {k : κ} {r : ρ} :
    r ∈ (t.delete k).2.rows ↔ r ∈ t.rows ∧ key r ≠ some k := by
  simp [delete]

theorem select_delete_self (t : Table key) (k : κ) : (t.delete k).2.select k = [] := by
  rw [List.eq_nil_iff_forall_not_mem]
  intro r hr
  obtain ⟨hdelete, hkey⟩ := mem_select.mp hr
  exact (mem_delete.mp hdelete).2 hkey

theorem select_delete_ne (t : Table key) {k k' : κ} (hne : k' ≠ k) :
    (t.delete k).2.select k' = t.select k' := by
  show (t.rows.filter _).filter _ = t.rows.filter _
  rw [List.filter_filter]
  refine List.filter_congr fun r _ => ?_
  by_cases hkey : key r = some k'
  · simp [hkey, hne]
  · simp [hkey]

theorem delete_pos_iff {t : Table key} {k : κ} :
    0 < (t.delete k).1 ↔ ∃ r ∈ t.rows, key r = some k := by
  show 0 < (t.select k).length ↔ _
  rw [List.length_pos_iff_exists_mem]
  exact exists_congr fun r => mem_select

end Table
end Sql
end FlagKit
