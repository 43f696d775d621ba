import FlagKit.Store.Sqlite

/-!
# A table holds a catalog

`Holds` says that the rows of a flags table are the rows `set` binds for the flags
of a catalog.  A table that holds a catalog represents it: both reads give back what
was bound.  `set` and `delete` move it to the next catalog.
-/

namespace FlagKit

open Sql

variable {T : Type} {K : Validkit} {C : TimeCodec T}

structure Holds (K : Validkit) (C : TimeCodec T) (s : SqliteFlagStore) (m : Catalog) : Prop where
  written : ∀ r ∈ s.flags.rows, ∃ f : Flag T, r = SqliteFlagStore.bound C f ∧
    f.name.Valid K ∧ f.percentage ≤ 100
  catalog : ∀ name v, m name = some v ↔
    ∃ f : Flag T, SqliteFlagStore.bound C f ∈ s.flags.rows ∧ f.name = name ∧ f.setting = v

theorem text_key_inj {m n : FlagName} :
    (some (SqlValue.text m.asStr) = some (.text n.asStr)) ↔ m = n := by
  rw [Option.some.injEq, SqlValue.text.injEq]
  exact ⟨FlagName.asStr_injective, fun h => by rw [h]⟩

theorem key_bound (f : Flag T) :
    (SqliteFlagStore.bound C f).key = some (.text f.name.asStr) := by
  simp [FlagRow.key, SqliteFlagStore.bound]

theorem key_bound_eq_iff {f : Flag T} {name : FlagName} :
    (SqliteFlagStore.bound C f).key = some (.text name.asStr) ↔ f.name = name := by
  rw [key_bound, text_key_inj]

/-- The columns written tell the settings apart. -/
theorem setting_of_bound_eq {f g : Flag T}
    (h : SqliteFlagStore.bound C f = SqliteFlagStore.bound C g) : f.setting = g.setting := by
  simp only [SqliteFlagStore.bound, FlagRow.mk.injEq, SqlValue.integer.injEq] at h
  obtain ⟨_, henabled, hpct, _⟩ := h
  have he : f.enabled = g.enabled := by
    have := congrArg (fun i => decide (i = 0)) henabled
    simpa [boolAsI64_eq_zero] using this
  have hp : f.percentage = g.percentage := by
    have := congrArg u8TryFrom hpct
    simpa [u8TryFrom_u8AsI64] using this
  rw [Flag.setting, Flag.setting, he, hp]

theorem holds_empty : Holds K C SqliteFlagStore.inMemory Catalog.empty where
  written r hr := by cases hr
  catalog name v := by
    constructor
    · intro h
      cases h
    · intro hex
      obtain ⟨f, hf, _⟩ := hex
      cases hf

namespace Holds

variable {s : SqliteFlagStore} {m : Catalog}

/-- A row of the table reads back as a flag of the catalog. -/
theorem read_row (h : Holds K C s m) (now : T) {r : FlagRow} (hr : r ∈ s.flags.rows) :
    ∃ g : Flag T, SqliteFlagStore.read K C now r = some g ∧ m g.name = some g.setting := by
  obtain ⟨f, rfl, hvalid, hle⟩ := h.written r hr
  obtain ⟨g, hread, hname, hsetting⟩ := SqliteFlagStore.read_bound K C now hvalid hle
  refine ⟨g, hread, ?_⟩
  rw [hname, hsetting]
  exact (h.catalog _ _).mpr ⟨f, hr, rfl, rfl⟩

theorem get_eq (h : Holds K C s m) (now : T) (name : FlagName) :
    (s.get K C now name).map (fun f => (f.name, f.setting)) =
      (m name).map (fun v => (name, v)) := by
  rw [SqliteFlagStore.get_eq]
  cases hhead : (s.flags.select (.text name.asStr)).head? with
  | none =>
    have hnone : m name = none := by
      rw [Option.eq_none_iff_forall_not_mem]
      intro v hv
      obtain ⟨f, hf, hname, _⟩ := (h.catalog name v).mp hv
      have hmem := Table.mem_select.mpr ⟨hf, key_bound_eq_iff.mpr hname⟩
      rw [List.head?_eq_none_iff.mp hhead] at hmem
      cases hmem
    rw [hnone]
    rfl
  | some r =>
    obtain ⟨hr, hkey⟩ := Table.mem_select.mp (List.mem_of_head? hhead)
    obtain ⟨g, hread, hg⟩ := h.read_row now hr
    have hname : g.name = name := by
      rw [SqliteFlagStore.read_key K C now hread] at hkey
      exact text_key_inj.mp hkey
    rw [Option.bind_some, hread, ← hname, hg]
    rfl

theorem list_nodup (order : ScanOrder FlagRow) (now : T) :
    ((s.list K C now order).map Flag.name).Nodup := by
  rw [SqliteFlagStore.list_eq, (((order.perm _).filterMap _).map _).nodup_iff, List.Nodup,
    List.pairwise_map]
  refine s.flags.unique.filterMap _ fun a b hab f hf g hg hfg => ?_
  -- two rows read as flags of one name have the same key
  rw [SqliteFlagStore.read_key K C now hf, SqliteFlagStore.read_key K C now hg, hfg] at hab
  rcases hab with hnone | hne
  · cases hnone
  · exact hne rfl

theorem mem_list (h : Holds K C s m) (order : ScanOrder FlagRow) (now : T) (name : FlagName)
    (v : Setting) :
    (∃ f ∈ s.list K C now order, f.name = name ∧ f.setting = v) ↔ m name = some v := by
  rw [SqliteFlagStore.list_eq]
  constructor
  · intro hex
    obtain ⟨g, hg, rfl, rfl⟩ := hex
    obtain ⟨r, hr, hread⟩ := List.mem_filterMap.mp hg
    obtain ⟨g', hread', hg'⟩ := h.read_row now ((order.perm _).mem_iff.mp hr)
    rw [hread, Option.some.injEq] at hread'
    rw [hread']
    exact hg'
  · intro hm
    obtain ⟨f, hf, rfl, rfl⟩ := (h.catalog name v).mp hm
    obtain ⟨g, hread, hg⟩ := h.read_row now hf
    have hname : g.name = f.name := by
      have hkey := SqliteFlagStore.read_key K C now hread
      rw [key_bound] at hkey
      exact (text_key_inj.mp hkey).symm
    rw [hname, hm, Option.some.injEq] at hg
    exact ⟨g, List.mem_filterMap.mpr ⟨_, (order.perm _).mem_iff.mpr hf, hread⟩, hname, hg.symm⟩

theorem represents (h : Holds K C s m) (order : ScanOrder FlagRow) (now : T) :
    Represents (sqliteFlagStore K C order now) s m where
  get_eq := h.get_eq now
  list_nodup := list_nodup order now
  mem_list := h.mem_list order now

/-! ## Calls keep it -/

/-- The update leaves the name, which is the one bound, and overwrites the rest. -/
theorem updated_eq_bound (f : Flag T) (row : FlagRow) (hkey : row.key = some (.text f.name.asStr)) :
    { row with
      enabled := (SqliteFlagStore.bound C f).enabled
      percentage := (SqliteFlagStore.bound C f).percentage
      createdAt := (SqliteFlagStore.bound C f).createdAt } = SqliteFlagStore.bound C f := by
  have hname : row.name = .text f.name.asStr := by
    unfold FlagRow.key at hkey
    by_cases hnull : row.name = .null
    · rw [if_pos hnull] at hkey
      cases hkey
    · rw [if_neg hnull] at hkey
      exact Option.some.inj hkey
  rw [hname]
  rfl

theorem mem_set {f : Flag T} (hle : f.percentage ≤ 100) {r : FlagRow} :
    r ∈ (s.set C f).2.flags.rows ↔
      r = SqliteFlagStore.bound C f ∨
        (r ∈ s.flags.rows ∧ r.key ≠ some (.text f.name.asStr)) := by
  rw [SqliteFlagStore.set, if_neg (UInt8.not_lt.mpr hle)]
  exact Table.mem_upsert s.flags (key_bound f) (updated_eq_bound f) (fun _ => rfl)

/-- Rows of other names stay. -/
theorem mem_set_ne {f g : Flag T} (hle : f.percentage ≤ 100) (hname : g.name ≠ f.name) :
    SqliteFlagStore.bound C g ∈ (s.set C f).2.flags.rows ↔
      SqliteFlagStore.bound C g ∈ s.flags.rows := by
  have hkey : (SqliteFlagStore.bound C g).key ≠ some (.text f.name.asStr) := by
    rw [Ne, key_bound_eq_iff]
    exact hname
  rw [mem_set hle]
  constructor
  · intro hcase
    rcases hcase with heq | hg
    · rw [heq, key_bound] at hkey
      exact absurd rfl hkey
    · exact hg.1
  · intro hg
    exact Or.inr ⟨hg, hkey⟩

theorem set (h : Holds K C s m) {f : Flag T} (hvalid : f.name.Valid K)
    (hle : f.percentage ≤ 100) : Holds K C (s.set C f).2 (m.put f.name f.setting) where
  written r hr := by
    rcases (mem_set hle).mp hr with rfl | ⟨hr, _⟩
    · exact ⟨f, rfl, hvalid, hle⟩
    · exact h.written r hr
  catalog name v := by
    by_cases hname : name = f.name
    · subst hname
      rw [Catalog.put_self, Option.some.injEq]
      constructor
      · intro hv
        exact ⟨f, (mem_set hle).mpr (Or.inl rfl), rfl, hv⟩
      · intro hex
        obtain ⟨g, hg, hgname, rfl⟩ := hex
        rcases (mem_set hle).mp hg with hbound | ⟨_, hkey⟩
        · exact (setting_of_bound_eq hbound).symm
        · exact absurd (key_bound_eq_iff.mpr hgname) hkey
    · rw [Catalog.put_ne hname, h.catalog]
      refine exists_congr fun g => and_congr_left fun hg => ?_
      rw [mem_set_ne hle (by rw [hg.1]; exact hname)]

theorem delete (h : Holds K C s m) (name : FlagName) :
    Holds K C (s.delete name).2 (m.remove name) where
  written r hr := h.written r (Table.mem_delete.mp hr).1
  catalog other v := by
    by_cases hname : other = name
    · subst hname
      rw [Catalog.remove_self]
      refine iff_of_false (fun hnone => by cases hnone) ?_
      intro hex
      obtain ⟨g, hg, hgname, _⟩ := hex
      exact (Table.mem_delete.mp hg).2 (key_bound_eq_iff.mpr hgname)
    · rw [Catalog.remove_ne hname, h.catalog]
      refine exists_congr fun g => and_congr_left fun hg => ?_
      have hkey : (SqliteFlagStore.bound C g).key ≠ some (.text name.asStr) := by
        rw [Ne, key_bound_eq_iff, hg.1]
        exact hname
      constructor
      · intro hmem
        exact Table.mem_delete.mpr ⟨hmem, hkey⟩
      · intro hmem
        exact (Table.mem_delete.mp hmem).1

/-- A row was deleted exactly when the name was there. -/
theorem delete_reply (h : Holds K C s m) (name : FlagName) :
    (s.delete name).1 = .ok (m name).isSome := by
  refine congrArg Except.ok (Bool.eq_iff_iff.mpr ?_)
  rw [decide_eq_true_iff, Option.isSome_iff_exists]
  refine Table.delete_pos_iff.trans ?_
  constructor
  · intro hex
    obtain ⟨r, hr, hkey⟩ := hex
    obtain ⟨f, rfl, _⟩ := h.written r hr
    exact ⟨_, (h.catalog name _).mpr ⟨f, hr, key_bound_eq_iff.mp hkey, rfl⟩⟩
  · intro hex
    obtain ⟨v, hv⟩ := hex
    obtain ⟨f, hf, hname, _⟩ := (h.catalog name v).mp hv
    exact ⟨_, hf, key_bound_eq_iff.mpr hname⟩

end Holds
end FlagKit
