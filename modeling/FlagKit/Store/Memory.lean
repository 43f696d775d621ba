import FlagKit.Store.Interface
import Mathlib.Data.List.AList

/-!
# The in-memory store

The `DashMap` is a finite map from strings to flags.  `set` is the only way in and
files a flag under its own name, so every entry carries the proof that its key is
the name of its flag.
-/

namespace FlagKit

variable {T : Type}

structure MemoryFlagStore (T : Type) where
  inner : AList (fun _ : String => Flag T)
  keyed : ∀ e ∈ inner.entries, e.2.name.asStr = e.1

namespace MemoryFlagStore

def new : MemoryFlagStore T := ⟨∅, by simp⟩

def len (s : MemoryFlagStore T) : Nat := s.inner.entries.length

def isEmpty (s : MemoryFlagStore T) : Bool := s.inner.entries.isEmpty

def clear (_ : MemoryFlagStore T) : MemoryFlagStore T := ⟨∅, by simp⟩

def get (s : MemoryFlagStore T) (name : FlagName) : Option (Flag T) := s.inner.lookup name.asStr

theorem keyed_insert (s : MemoryFlagStore T) (flag : Flag T) :
    ∀ e ∈ (s.inner.insert flag.name.asStr flag).entries, e.2.name.asStr = e.1 := by
  intro e he
  rw [AList.entries_insert, List.mem_cons] at he
  rcases he with rfl | he
  · rfl
  · exact s.keyed e ((List.kerase_sublist _ _).subset he)

theorem keyed_erase (s : MemoryFlagStore T) (key : String) :
    ∀ e ∈ (s.inner.erase key).entries, e.2.name.asStr = e.1 :=
  fun e he => s.keyed e ((List.kerase_sublist _ _).subset he)

def set (s : MemoryFlagStore T) (flag : Flag T) : Except FlagError Unit × MemoryFlagStore T :=
  (.ok (), ⟨s.inner.insert flag.name.asStr flag, s.keyed_insert flag⟩)

def list (order : ScanOrder (Flag T)) (s : MemoryFlagStore T) : List (Flag T) :=
  order.scan (s.inner.entries.map Sigma.snd)

def delete (s : MemoryFlagStore T) (name : FlagName) : Except FlagError Bool × MemoryFlagStore T :=
  (.ok (s.inner.lookup name.asStr).isSome, ⟨s.inner.erase name.asStr, s.keyed_erase name.asStr⟩)

end MemoryFlagStore

def memoryFlagStore (order : ScanOrder (Flag T)) : FlagStore (MemoryFlagStore T) T :=
  { get := MemoryFlagStore.get
    set := MemoryFlagStore.set
    list := MemoryFlagStore.list order
    delete := MemoryFlagStore.delete }

namespace MemoryFlagStore

/-! ## Reading after a call -/

theorem get_set_self (s : MemoryFlagStore T) (flag : Flag T) :
    (s.set flag).2.get flag.name = some flag :=
  AList.lookup_insert _

theorem get_set_ne (s : MemoryFlagStore T) {flag : Flag T} {name : FlagName}
    (h : name ≠ flag.name) : (s.set flag).2.get name = s.get name :=
  AList.lookup_insert_ne fun e => h (FlagName.asStr_injective e)

theorem get_delete_self (s : MemoryFlagStore T) (name : FlagName) :
    (s.delete name).2.get name = none :=
  AList.lookup_erase _ _

theorem get_delete_ne (s : MemoryFlagStore T) {name other : FlagName} (h : other ≠ name) :
    (s.delete name).2.get other = s.get other :=
  AList.lookup_erase_ne fun e => h (FlagName.asStr_injective e)

/-! ## The catalog of a map -/

def catalog (s : MemoryFlagStore T) : Catalog := fun name => (s.get name).map Flag.setting

theorem catalog_clear (s : MemoryFlagStore T) : s.clear.catalog = Catalog.empty := rfl

theorem catalog_set (s : MemoryFlagStore T) (flag : Flag T) :
    (s.set flag).2.catalog = s.catalog.put flag.name flag.setting := by
  funext name
  by_cases h : name = flag.name
  · rw [h, Catalog.put_self, catalog, get_set_self]
    rfl
  · rw [Catalog.put_ne h, catalog, get_set_ne s h]
    rfl

theorem catalog_delete (s : MemoryFlagStore T) (name : FlagName) :
    (s.delete name).2.catalog = s.catalog.remove name := by
  funext other
  by_cases h : other = name
  · rw [h, Catalog.remove_self, catalog, get_delete_self]
    rfl
  · rw [Catalog.remove_ne h, catalog, get_delete_ne s h]
    rfl

theorem get_eq_some_iff (s : MemoryFlagStore T) (name : FlagName) (f : Flag T) :
    s.get name = some f ↔ f ∈ s.inner.entries.map Sigma.snd ∧ f.name = name := by
  rw [get, ← Option.mem_def, AList.mem_lookup_iff, List.mem_map]
  constructor
  · intro he
    exact ⟨⟨_, he, rfl⟩, FlagName.asStr_injective (s.keyed _ he)⟩
  · intro hex
    obtain ⟨⟨⟨key, g⟩, he, rfl⟩, rfl⟩ := hex
    have hkey := s.keyed _ he
    simp only at hkey ⊢
    rw [hkey]
    exact he

theorem mem_list (order : ScanOrder (Flag T)) (s : MemoryFlagStore T) (f : Flag T) :
    f ∈ s.list order ↔ s.get f.name = some f := by
  rw [list, (order.perm _).mem_iff, get_eq_some_iff]
  simp

theorem represents (order : ScanOrder (Flag T)) (s : MemoryFlagStore T) :
    Represents (memoryFlagStore order) s s.catalog where
  get_eq name := by
    show (s.get name).map _ = ((s.get name).map _).map _
    cases h : s.get name with
    | none => rfl
    | some f => simp [((s.get_eq_some_iff name f).mp h).2]
  list_nodup := by
    show ((order.scan _).map Flag.name).Nodup
    rw [((order.perm _).map Flag.name).nodup_iff]
    -- the names are the keys of the map
    apply List.Nodup.of_map FlagName.asStr
    have hkeys : ((s.inner.entries.map Sigma.snd).map Flag.name).map FlagName.asStr =
        s.inner.keys := by
      rw [List.map_map, List.map_map]
      exact List.map_congr_left s.keyed
    rw [hkeys]
    exact s.inner.keys_nodup
  mem_list name v := by
    show (∃ f ∈ s.list order, _) ↔ (s.get name).map _ = some v
    rw [Option.map_eq_some_iff]
    constructor
    · intro hex
      obtain ⟨f, hf, rfl, rfl⟩ := hex
      exact ⟨f, (s.mem_list order f).mp hf, rfl⟩
    · intro hex
      obtain ⟨f, hget, rfl⟩ := hex
      have hname := ((s.get_eq_some_iff name f).mp hget).2
      refine ⟨f, (s.mem_list order f).mpr ?_, hname, rfl⟩
      rw [hname]
      exact hget

end MemoryFlagStore
end FlagKit
