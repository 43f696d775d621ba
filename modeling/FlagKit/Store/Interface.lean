import FlagKit.Flag
import FlagKit.Machine.Run
import Mathlib.Data.List.Perm.Lattice
import Mathlib.Logic.Function.Basic

/-!
# Flag stores

`FlagStore` is the trait: four functions on a store of type `σ`.  What a store is
for is a `Catalog`, a partial function from names to the two settings evaluation
reads, and `Represents` says that a store in a given state answers like a catalog.
Two stores that represent the same catalog answer alike, whatever they are made of.
-/

namespace FlagKit

variable {σ τ T : Type}

/-- The order in which a table is scanned: any, the same each time the table is the
same. -/
structure ScanOrder (α : Type) where
  scan : List α → List α
  perm : ∀ l, (scan l).Perm l

def ScanOrder.stored {α : Type} : ScanOrder α := ⟨id, fun _ => List.Perm.refl _⟩

structure FlagStore (σ T : Type) where
  get : σ → FlagName → Option (Flag T)
  set : σ → Flag T → Except FlagError Unit × σ
  list : σ → List (Flag T)
  delete : σ → FlagName → Except FlagError Bool × σ :=
    fun s _ => (.error (.storage "delete not implemented"), s)

/-! ## Calls -/

inductive StoreOp (T : Type) where
  | set (flag : Flag T)
  | delete (name : FlagName)

inductive Reply where
  | set (result : Except FlagError Unit)
  | delete (result : Except FlagError Bool)

/-- Make one call of a mutating method. -/
def FlagStore.step (S : FlagStore σ T) (s : σ) : StoreOp T → Reply × σ
  | .set flag => (.set (S.set s flag).1, (S.set s flag).2)
  | .delete name => (.delete (S.delete s name).1, (S.delete s name).2)

/-- The operation writes only a valid name and a percentage `Flag::new` accepts. -/
def StoreOp.Admissible (K : Validkit) : StoreOp T → Prop
  | .set flag => flag.name.Valid K ∧ flag.percentage ≤ 100
  | .delete _ => True

/-! ## Catalogs -/

structure Setting where
  enabled : Bool
  percentage : UInt8
  deriving DecidableEq

def Flag.setting (f : Flag T) : Setting := { enabled := f.enabled, percentage := f.percentage }

abbrev Catalog := FlagName → Option Setting

namespace Catalog

def empty : Catalog := fun _ => none

def put (m : Catalog) (name : FlagName) (v : Setting) : Catalog :=
  Function.update m name (some v)

def remove (m : Catalog) (name : FlagName) : Catalog := Function.update m name none

@[simp] theorem put_self (m : Catalog) (name : FlagName) (v : Setting) :
    m.put name v name = some v := by
  simp [put]

theorem put_ne {m : Catalog} {name other : FlagName} (h : other ≠ name) (v : Setting) :
    m.put name v other = m other := by
  simp [put, h]

@[simp] theorem remove_self (m : Catalog) (name : FlagName) : m.remove name name = none := by
  simp [remove]

theorem remove_ne {m : Catalog} {name other : FlagName} (h : other ≠ name) :
    m.remove name other = m other := by
  simp [remove, h]

def step (m : Catalog) : StoreOp T → Reply × Catalog
  | .set flag => (.set (.ok ()), m.put flag.name flag.setting)
  | .delete name => (.delete (.ok (m name).isSome), m.remove name)

end Catalog

/-- A store answers like a catalog: `get` finds what is there, and `list` shows all
of it with no name twice. -/
structure Represents (S : FlagStore σ T) (s : σ) (m : Catalog) : Prop where
  get_eq : ∀ name, (S.get s name).map (fun f => (f.name, f.setting)) =
    (m name).map (fun v => (name, v))
  list_nodup : ((S.list s).map Flag.name).Nodup
  mem_list : ∀ name v, (∃ f ∈ S.list s, f.name = name ∧ f.setting = v) ↔ m name = some v

namespace Represents

variable {S : FlagStore σ T} {s : σ} {m : Catalog}

theorem get_eq_none (h : Represents S s m) {name : FlagName} (hm : m name = none) :
    S.get s name = none := by
  have hget := h.get_eq name
  rw [hm, Option.map_none, Option.map_eq_none_iff] at hget
  exact hget

theorem get_eq_some (h : Represents S s m) {name : FlagName} {v : Setting}
    (hm : m name = some v) :
    ∃ f, S.get s name = some f ∧ f.name = name ∧ f.setting = v := by
  have hget := h.get_eq name
  rw [hm, Option.map_some, Option.map_eq_some_iff] at hget
  obtain ⟨f, hf, heq⟩ := hget
  rw [Prod.mk.injEq] at heq
  exact ⟨f, hf, heq.1, heq.2⟩

theorem mem_list_iff (h : Represents S s m) (name : FlagName) (v : Setting) :
    (name, v) ∈ (S.list s).map (fun f => (f.name, f.setting)) ↔ m name = some v := by
  rw [← h.mem_list name v, List.mem_map]
  constructor
  · intro hex
    obtain ⟨f, hf, heq⟩ := hex
    rw [Prod.mk.injEq] at heq
    exact ⟨f, hf, heq.1, heq.2⟩
  · intro hex
    obtain ⟨f, hf, hname, hsetting⟩ := hex
    exact ⟨f, hf, by rw [hname, hsetting]⟩

end Represents
end FlagKit
