import FlagKit.Store.Holds

/-!
# Written and read back

`set` checks the percentage and both reads check the percentage and the name.  So a
flag whose name is not valid is accepted, stored under that name and skipped by every
read.  A valid name is all that is missing: then a write that is accepted is what the
reads give back, and nothing else changes.
-/

namespace FlagKit

open Machine Sql

variable {T : Type}

/-- The fields evaluation reads are those of `f`. -/
def Flag.SameFields (f g : Flag T) : Prop :=
  g.name = f.name ∧ g.enabled = f.enabled ∧ g.percentage = f.percentage

namespace SqliteFlagStore

variable (K : Validkit) (C : TimeCodec T) (order : ScanOrder FlagRow) (now : T)

/-- What a caller of `set` relies on: an accepted flag is there for both reads, the
others are as before, and a refused flag changes nothing. -/
structure Visible (s : SqliteFlagStore) (f : Flag T) : Prop where
  found : (s.set C f).1 = .ok () →
    ∃ g, (s.set C f).2.get K C now f.name = some g ∧ f.SameFields g
  listed : (s.set C f).1 = .ok () →
    ∃ g, ((s.set C f).2.list K C now order).filter (fun g => g.name = f.name) = [g] ∧
      f.SameFields g
  others_found : (s.set C f).1 = .ok () → ∀ name, name ≠ f.name →
    (s.set C f).2.get K C now name = s.get K C now name
  others_listed : (s.set C f).1 = .ok () →
    (((s.set C f).2.list K C now order).filter (fun g => g.name ≠ f.name)).Perm
      ((s.list K C now order).filter (fun g => g.name ≠ f.name))
  refused : ∀ e, (s.set C f).1 = .error e →
    (∀ name, (s.set C f).2.get K C now name = s.get K C now name) ∧
      (s.set C f).2.list K C now order = s.list K C now order

variable {s : SqliteFlagStore} {f : Flag T}

theorem set_ok_iff : (s.set C f).1 = .ok () ↔ f.percentage ≤ 100 := by
  by_cases h : f.percentage > 100
  · rw [set, if_pos h]
    exact iff_of_false (fun hok => by cases hok) (UInt8.not_le.mpr h)
  · rw [set, if_neg h]
    exact iff_of_true rfl (UInt8.not_lt.mp h)

theorem set_refused (h : 100 < f.percentage) : (s.set C f).2 = s := by
  rw [set, if_pos h]

/-! ## The rows a write leaves -/

theorem select_set_self (hle : f.percentage ≤ 100) :
    (s.set C f).2.flags.select (.text f.name.asStr) = [bound C f] :=
  Table.select_eq_of_mem ((Holds.mem_set hle).mpr (Or.inl rfl)) (key_bound f)

/-- A filter that drops the rows of this name sees the same rows as before. -/
theorem filter_set_ne (hle : f.percentage ≤ 100) {p : FlagRow → Bool}
    (hp : ∀ r : FlagRow, r.key = some (.text f.name.asStr) → p r = false) :
    (s.set C f).2.flags.rows.filter p = s.flags.rows.filter p := by
  rw [set, if_neg (UInt8.not_lt.mpr hle)]
  apply Table.filter_upsert_ne
  · exact key_bound f
  · intro r
    rfl
  · exact hp

theorem select_set_ne (hle : f.percentage ≤ 100) {name : FlagName} (hne : name ≠ f.name) :
    (s.set C f).2.flags.select (.text name.asStr) = s.flags.select (.text name.asStr) := by
  have hkey : some (SqlValue.text name.asStr) ≠ some (.text f.name.asStr) := by
    intro heq
    exact hne (text_key_inj.mp heq)
  apply filter_set_ne C hle
  intro r hr
  rw [hr, decide_eq_false_iff_not]
  exact Ne.symm hkey

/-! ## What the reads make of them -/

/-- A read of the name just written decodes the row just written. -/
theorem get_set_self (hle : f.percentage ≤ 100) :
    (s.set C f).2.get K C now f.name = read K C now (bound C f) := by
  rw [get_eq, select_set_self C hle, List.head?_cons, Option.bind_some]

theorem get_set_ne (hle : f.percentage ≤ 100) {name : FlagName} (hne : name ≠ f.name) :
    (s.set C f).2.get K C now name = s.get K C now name := by
  rw [get_eq, get_eq, select_set_ne C hle hne]

theorem get_delete_self (name : FlagName) : (s.delete name).2.get K C now name = none := by
  rw [get_eq]
  show ((s.flags.delete _).2.select _).head?.bind _ = none
  rw [Table.select_delete_self]
  rfl

theorem get_delete_ne {name other : FlagName} (hne : other ≠ name) :
    (s.delete name).2.get K C now other = s.get K C now other := by
  have hkey : SqlValue.text other.asStr ≠ .text name.asStr := by
    intro heq
    exact hne (text_key_inj.mp (congrArg some heq))
  rw [get_eq, get_eq]
  show ((s.flags.delete _).2.select _).head?.bind _ = _
  rw [Table.select_delete_ne _ hkey]

/-- The flags listed under some names are decoded from the rows of these names. -/
theorem list_filter_perm (s : SqliteFlagStore) (p : FlagName → Bool) (q : FlagRow → Bool)
    (hpq : ∀ r g, read K C now r = some g → q r = p g.name) :
    ((s.list K C now order).filter (fun g => p g.name)).Perm
      ((s.flags.rows.filter q).filterMap (read K C now)) := by
  rw [list_eq]
  refine (((order.perm _).filterMap _).filter _).trans (List.Perm.of_eq ?_)
  rw [List.filter_filterMap, List.filterMap_filter]
  apply List.filterMap_congr
  intro r _
  cases hread : read K C now r with
  | none => simp
  | some g =>
    rw [hpq r g hread, Option.filter_some]

theorem key_eq_iff_of_read {r : FlagRow} {g : Flag T} (h : read K C now r = some g)
    (name : FlagName) : r.key = some (.text name.asStr) ↔ g.name = name := by
  rw [read_key K C now h, text_key_inj]

theorem list_name_perm (s : SqliteFlagStore) (name : FlagName) :
    ((s.list K C now order).filter (fun g => g.name = name)).Perm
      ((s.flags.select (.text name.asStr)).filterMap (read K C now)) := by
  apply list_filter_perm K C order now s (fun n => n = name)
  intro r g hread
  rw [decide_eq_decide]
  exact key_eq_iff_of_read K C now hread name

theorem list_other_perm (s : SqliteFlagStore) (name : FlagName) :
    ((s.list K C now order).filter (fun g => g.name ≠ name)).Perm
      ((s.flags.rows.filter (fun r => r.key ≠ some (.text name.asStr))).filterMap
        (read K C now)) := by
  apply list_filter_perm K C order now s (fun n => n ≠ name)
  intro r g hread
  rw [decide_eq_decide]
  exact not_congr (key_eq_iff_of_read K C now hread name)

/-! ## Writes -/

theorem visible_of_refused (h : 100 < f.percentage) : Visible K C order now s f := by
  have hno : (s.set C f).1 ≠ .ok () := fun hok =>
    UInt8.not_le.mpr h ((set_ok_iff C).mp hok)
  refine ⟨fun hok => absurd hok hno, fun hok => absurd hok hno, fun hok => absurd hok hno,
    fun hok => absurd hok hno, fun e _ => ?_⟩
  rw [set_refused C h]
  exact ⟨fun _ => rfl, rfl⟩

theorem visible_of_valid (hvalid : f.name.Valid K) (hle : f.percentage ≤ 100) :
    Visible K C order now s f := by
  obtain ⟨g, hread, hname, hsetting⟩ := read_bound K C now hvalid hle
  have hsame : f.SameFields g := by
    have hfields := hsetting
    rw [Flag.setting, Flag.setting, Setting.mk.injEq] at hfields
    exact ⟨hname, hfields.1, hfields.2⟩
  refine ⟨fun _ => ⟨g, ?_, hsame⟩, fun _ => ⟨g, ?_, hsame⟩, fun _ name hne => ?_, fun _ => ?_,
    fun e he => ?_⟩
  · rw [get_set_self K C now hle, hread]
  · have hperm := list_name_perm K C order now (s.set C f).2 f.name
    rw [select_set_self C hle, List.filterMap_cons_some hread, List.filterMap_nil] at hperm
    exact List.perm_singleton.mp hperm
  · exact get_set_ne K C now hle hne
  · have hrows := filter_set_ne C (s := s) hle
      (p := fun r => decide (r.key ≠ some (.text f.name.asStr))) (fun r hr => by simp [hr])
    have hafter := list_other_perm K C order now (s.set C f).2 f.name
    rw [hrows] at hafter
    exact hafter.trans (list_other_perm K C order now s f.name).symm
  · rw [(set_ok_iff C).mpr hle] at he
    cases he

/-- A row under a name that is not valid is skipped by every read. -/
theorem read_eq_none_of_invalid {r : FlagRow} (hname : ¬ f.name.Valid K)
    (hkey : r.key = some (.text f.name.asStr)) : read K C now r = none := by
  rw [Option.eq_none_iff_forall_ne_some]
  intro g hg
  have heq := (key_eq_iff_of_read K C now hg f.name).mp hkey
  obtain ⟨_, _, _, _, hvalid, _⟩ := (read_eq_some_iff K C now).mp hg
  rw [heq] at hvalid
  exact hname hvalid

theorem not_visible_of_invalid (hname : ¬ f.name.Valid K) (hle : f.percentage ≤ 100) :
    ¬ Visible K C order now s f := by
  intro h
  obtain ⟨g, hget, _⟩ := h.found ((set_ok_iff C).mpr hle)
  rw [get_set_self K C now hle, read_eq_none_of_invalid K C now hname (key_bound f)] at hget
  cases hget

/-- In every state a sequence of calls leads to, from any content, a write is
visible exactly when it is refused for its percentage or its name is valid. -/
theorem write_visible_iff (start : SqliteFlagStore) (ops : List (StoreOp T)) (f : Flag T) :
    Visible K C order now (final (sqliteFlagStore K C order now).step start ops) f ↔
      100 < f.percentage ∨ f.name.Valid K := by
  constructor
  · intro h
    by_cases hle : 100 < f.percentage
    · exact Or.inl hle
    · right
      by_contra hname
      exact not_visible_of_invalid K C order now hname (UInt8.not_lt.mp hle) h
  · intro hcase
    by_cases hle : 100 < f.percentage
    · exact visible_of_refused K C order now hle
    · exact visible_of_valid K C order now (hcase.resolve_left hle) (UInt8.not_lt.mp hle)

/-- An unchecked name is accepted by an empty store and never read back. -/
theorem accepted_write_not_visible :
    ¬ ∀ (ops : List (StoreOp Int64)) (f : Flag Int64),
      Visible .snakeCase .unixSeconds .stored 0
        (final (sqliteFlagStore .snakeCase .unixSeconds .stored 0).step inMemory ops) f := by
  intro h
  exact not_visible_of_invalid .snakeCase .unixSeconds .stored 0
    (f := ⟨.newUnchecked "Bad-Name", true, 50, none⟩) (by unfold FlagName.Valid; decide)
    (by decide) (h [] _)

end SqliteFlagStore
end FlagKit
