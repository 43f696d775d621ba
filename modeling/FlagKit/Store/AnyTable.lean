import FlagKit.Store.History
import FlagKit.Store.Reads

/-!
# Any table is a catalog

A flags table may hold rows nobody wrote through the store: invalid names, percentages
out of range, texts where numbers belong.  A read skips them, so what a table says to an
evaluation is still a catalog, the same at every time and for both reads
(`represents_catalog`).  A write that is accepted and whose name is valid puts its setting
there, a delete removes it, and every other call leaves the catalog alone, also when it
changes the table.

So the store refines a catalog from any table on, and evaluation needs no other store
than a catalog to be explained (`tables_refine_catalogs`).
-/

namespace FlagKit

open Machine Sql

variable {T : Type} (finish : DefaultHasher)

namespace Catalog

variable (K : Validkit)

/-- What a call on any table does to the catalog it stands for. -/
def write (m : Catalog) : StoreOp T → Unit × Catalog
  | .set flag =>
    ((), if K.parse flag.name.inner = true ∧ flag.percentage ≤ 100 then
      m.put flag.name flag.setting else m)
  | .delete name => ((), m.remove name)

variable {K} {m : Catalog} {flag : Flag T}

theorem write_put (hvalid : K.parse flag.name.inner = true) (hle : flag.percentage ≤ 100) :
    (write K m (.set flag)).2 = m.put flag.name flag.setting :=
  if_pos ⟨hvalid, hle⟩

theorem write_ignored (h : ¬ (K.parse flag.name.inner = true ∧ flag.percentage ≤ 100)) :
    (write K m (.set flag)).2 = m :=
  if_neg h

theorem write_remove (name : FlagName) :
    (write K m (.delete name : StoreOp T)).2 = m.remove name := rfl

end Catalog

namespace SqliteFlagStore

variable (K : Validkit) (C : TimeCodec T)

/-- The settings that lookups at time `now` find. -/
def catalog (now : T) (s : SqliteFlagStore) : Catalog :=
  fun name => (s.get K C now name).map Flag.setting

variable {K C} {now now' : T} {s : SqliteFlagStore}

/-! ## One catalog -/

/-- The time of the call shows in the creation time only. -/
theorem read_setting {r : FlagRow} {f : Flag T} (h : read K C now r = some f) :
    ∃ g, read K C now' r = some g ∧ g.name = f.name ∧ g.setting = f.setting := by
  obtain ⟨enabled, percentage, createdAt, hrow, hvalid, hen, hpct, hle, _⟩ :=
    (read_eq_some_iff K C now).mp h
  refine ⟨{ f with createdAt := createdAt.map fun ts => (C.timestampOpt ts).getD now' }, ?_, rfl,
    rfl⟩
  exact (read_eq_some_iff K C now').mpr
    ⟨enabled, percentage, createdAt, hrow, hvalid, hen, hpct, hle, rfl⟩

theorem get_name {name : FlagName} {f : Flag T} (h : s.get K C now name = some f) :
    f.name = name := by
  obtain ⟨r, _, hkey, hread⟩ := (get_eq_some_iff_row name f).mp h
  rw [read_key K C now hread] at hkey
  exact text_key_inj.mp hkey

theorem catalog_eq_some_iff {name : FlagName} {v : Setting} :
    s.catalog K C now name = some v ↔ ∃ f, s.get K C now name = some f ∧ f.setting = v :=
  Option.map_eq_some_iff

theorem catalog_of_later {name : FlagName} {v : Setting}
    (h : s.catalog K C now name = some v) : s.catalog K C now' name = some v := by
  obtain ⟨f, hget, hsetting⟩ := catalog_eq_some_iff.mp h
  obtain ⟨r, hr, hkey, hread⟩ := (get_eq_some_iff_row name f).mp hget
  obtain ⟨g, hread', _, hsetting'⟩ : ∃ g, read K C now' r = some g ∧ _ := read_setting hread
  exact catalog_eq_some_iff.mpr
    ⟨g, (get_eq_some_iff_row name g).mpr ⟨r, hr, hkey, hread'⟩, hsetting'.trans hsetting⟩

theorem catalog_time (now now' : T) (s : SqliteFlagStore) :
    s.catalog K C now = s.catalog K C now' := by
  funext name
  exact Option.ext fun v => ⟨catalog_of_later, catalog_of_later⟩

/-- Both reads show the catalog, whatever the table holds. -/
theorem represents_catalog (order : ScanOrder FlagRow) (now : T) (s : SqliteFlagStore) :
    Represents (sqliteFlagStore K C order now) s (s.catalog K C now) where
  get_eq name := by
    show (s.get K C now name).map _ = ((s.get K C now name).map Flag.setting).map _
    cases hget : s.get K C now name with
    | none => rfl
    | some f =>
      rw [Option.map_some, Option.map_some, Option.map_some, get_name hget]
  list_nodup := Holds.list_nodup order now
  mem_list name v := by
    rw [catalog_eq_some_iff]
    constructor
    · intro hex
      obtain ⟨f, hf, rfl, hsetting⟩ := hex
      exact ⟨f, (mem_list_iff_get f).mp hf, hsetting⟩
    · intro hex
      obtain ⟨f, hget, hsetting⟩ := hex
      have hname := get_name hget
      refine ⟨f, (mem_list_iff_get f).mpr ?_, hname, hsetting⟩
      rw [hname]
      exact hget

/-! ## Calls -/

theorem readBack_setting (now : T) (f : Flag T) :
    (readBack K C now f).map Flag.setting =
      if K.parse f.name.inner = true then some f.setting else none := by
  rw [readBack, Option.map_map]
  by_cases hvalid : K.parse f.name.inner = true
  · rw [if_pos hvalid, FlagName.new_asStr K hvalid]
    rfl
  · rw [if_neg hvalid]
    cases hnew : FlagName.new K f.name.asStr with
    | error e => rfl
    | ok n =>
      obtain ⟨rfl, hn⟩ := (FlagName.new_eq_ok_iff K).mp hnew
      exact absurd hn hvalid

/-- An invalid name is never found. -/
theorem catalog_invalid {name : FlagName} (h : K.parse name.inner ≠ true) :
    s.catalog K C now name = none := by
  rw [Option.eq_none_iff_forall_ne_some]
  intro v hv
  obtain ⟨f, hget, _⟩ := catalog_eq_some_iff.mp hv
  obtain ⟨r, _, _, hread⟩ := (get_eq_some_iff_row name f).mp hget
  have hvalid := (valid_of_read hread).1
  rw [get_name hget] at hvalid
  exact h hvalid

theorem step_catalog (order : ScanOrder FlagRow) (now now' : T) (s : SqliteFlagStore)
    (op : StoreOp T) :
    ((sqliteFlagStore K C order now').step s op).2.catalog K C now =
      (Catalog.write K (s.catalog K C now) op).2 := by
  funext name
  rw [catalog, get_step]
  cases op with
  | set flag =>
    rw [writes]
    by_cases hvalid : K.parse flag.name.inner = true
    · by_cases hle : flag.percentage ≤ 100
      · rw [Catalog.write_put hvalid hle]
        by_cases hname : flag.name = name
        · rw [if_pos ⟨hname, hle⟩, Option.getD_some, readBack_setting, if_pos hvalid, ← hname,
            Catalog.put_self]
        · rw [if_neg (fun h => hname h.1), Catalog.put_ne (Ne.symm hname)]
          rfl
      · rw [if_neg (fun h => hle h.2), Catalog.write_ignored (fun h => hle h.2)]
        rfl
    · rw [Catalog.write_ignored (fun h => hvalid h.1)]
      -- the row is there, and no read gets past its name
      by_cases hwrites : flag.name = name ∧ flag.percentage ≤ 100
      · rw [if_pos hwrites, Option.getD_some, readBack_setting, if_neg hvalid, ← hwrites.1,
          catalog_invalid hvalid]
      · rw [if_neg hwrites]
        rfl
  | delete other =>
    rw [writes, Catalog.write_remove]
    by_cases hname : other = name
    · rw [if_pos hname, hname, Catalog.remove_self]
      rfl
    · rw [if_neg hname, Catalog.remove_ne (Ne.symm hname)]
      rfl

theorem final_catalog (order : ScanOrder FlagRow) (now now' : T) (s : SqliteFlagStore)
    (ops : List (StoreOp T)) :
    (final (sqliteFlagStore K C order now').step s ops).catalog K C now =
      final (Catalog.write K) (s.catalog K C now) ops :=
  related_final (R := fun (t : SqliteFlagStore) (m : Catalog) => t.catalog K C now = m)
    (Q := Eq) (fun t m op op' h heq => by
      rw [← h, ← heq]
      exact step_catalog order now now' t op) rfl (List.forall₂_refl _)

/-! ## Evaluation -/

/-- What is evaluated on a table is a catalog, at every time and in every order of
rows. -/
structure Evaluates (K : Validkit) (C : TimeCodec T) (s : SqliteFlagStore) (m : Catalog) :
    Prop where
  enabled : ∀ order now name, Evaluator.enabled (sqliteFlagStore K C order now) s name =
    ((m name).map Setting.enabled).getD false
  enabled_for : ∀ order now name userId orgId,
    Evaluator.enabledFor finish (sqliteFlagStore K C order now) s name userId orgId =
      ((m name).map (fun v => v.admits finish name userId)).getD false
  enabled_for_all : ∀ order now userId orgId name b,
    (name, b) ∈ Evaluator.enabledForAll finish (sqliteFlagStore K C order now) s userId orgId ↔
      ∃ v, m name = some v ∧ v.admits finish name userId = b
  names_once : ∀ order now userId orgId, ((Evaluator.enabledForAll finish
    (sqliteFlagStore K C order now) s userId orgId).map Prod.fst).Nodup

theorem evaluates_catalog (now : T) (s : SqliteFlagStore) :
    Evaluates finish K C s (s.catalog K C now) where
  enabled order now' name := by
    rw [catalog_time now now']
    exact (represents_catalog order now' s).enabled_eq name
  enabled_for order now' name userId orgId := by
    rw [catalog_time now now']
    exact (represents_catalog order now' s).enabledFor_eq finish name userId orgId
  enabled_for_all order now' userId orgId name b := by
    rw [catalog_time now now']
    exact (represents_catalog order now' s).mem_enabledForAll finish userId orgId name b
  names_once order now' userId orgId := by
    rw [Represents.names_enabledForAll]
    exact (represents_catalog order now' s).list_nodup

/-- From any table and through any calls, every evaluation at any time is that of the
catalog the calls leave of the one the table stood for. -/
theorem tables_refine_catalogs (order : ScanOrder FlagRow) (now now' : T) (s : SqliteFlagStore)
    (ops : List (StoreOp T)) :
    Evaluates finish K C (final (sqliteFlagStore K C order now').step s ops)
      (final (Catalog.write K) (s.catalog K C now) ops) := by
  rw [← final_catalog order now now']
  exact evaluates_catalog finish now _

end SqliteFlagStore
end FlagKit
