import Mathlib.Data.List.Pairwise
import Mathlib.Data.List.Sort

/-!
# Rows in the order of a key

`ORDER BY key DESC` gives the rows of a query by descending key and says nothing about
rows with one key.  An `OrderByDesc` is any sort that does this; keys that are not
integers are left to it.

What a reader makes of a row, `f`, may tell less than the row.  A query reads the same
in every such order exactly when rows with one key read the same
(`forall_sort_map_eq_iff`).
-/

namespace FlagKit
namespace Sql

variable {ρ β : Type}

/-- `a` may stand before `b`. -/
def Descending (key : ρ → Option Int) (a b : ρ) : Prop :=
  ∀ i j, key a = some i → key b = some j → j ≤ i

structure OrderByDesc (key : ρ → Option Int) where
  sort : List ρ → List ρ
  perm : ∀ l, (sort l).Perm l
  sorted : ∀ l, (∀ r ∈ l, (key r).isSome) → (sort l).Pairwise (Descending key)

namespace OrderByDesc

variable {key : ρ → Option Int}

/-- Of two rows with one key the one that satisfies `p` comes first. -/
def Prefers (key : ρ → Option Int) (p : ρ → Bool) (a b : ρ) : Prop :=
  (key b).getD 0 < (key a).getD 0 ∨ (key a).getD 0 = (key b).getD 0 ∧ (p b = true → p a = true)

instance (p : ρ → Bool) : DecidableRel (Prefers key p) :=
  fun _ _ => inferInstanceAs (Decidable (_ ∨ _))

instance (p : ρ → Bool) : Std.Total (Prefers key p) where
  total a b := by
    unfold Prefers
    cases p a <;> cases p b <;> simp <;> omega

instance (p : ρ → Bool) : IsTrans ρ (Prefers key p) where
  trans a b c := by
    unfold Prefers
    cases p a <;> cases p b <;> cases p c <;> simp <;> omega

theorem descending_of_prefers {p : ρ → Bool} {a b : ρ} (h : Prefers key p a b) :
    Descending key a b := by
  intro i j ha hb
  rw [Prefers, ha, hb, Option.getD_some, Option.getD_some] at h
  omega

/-- The order that is stable but for a preference among rows with one key. -/
def preferring (key : ρ → Option Int) (p : ρ → Bool) : OrderByDesc key where
  sort l := l.insertionSort (Prefers key p)
  perm l := List.perm_insertionSort _ l
  sorted l _ := (List.pairwise_insertionSort _ l).imp descending_of_prefers

/-! ## What does not depend on the order -/

section Read

variable {f : ρ → β} {l l' : List ρ}

/-- In two descending orders of rows that read the same when they have one key, the same
is read. -/
theorem map_eq_of_ties (hkeys : ∀ r ∈ l, (key r).isSome)
    (hties : ∀ a ∈ l, ∀ b ∈ l, key a = key b → f a = f b)
    (hperm : l'.Perm l) (hsorted : l'.Pairwise (Descending key)) (o : OrderByDesc key) :
    (o.sort l).map f = l'.map f := by
  have hpairs : (o.sort l).map (fun r => (key r, f r)) = l'.map (fun r => (key r, f r)) := by
    have hmapped : ∀ {m : List ρ}, m.Pairwise (Descending key) →
        (m.map (fun r => (key r, f r))).Pairwise
          (fun x y : Option Int × β => ∀ i j, x.1 = some i → y.1 = some j → j ≤ i) :=
      fun hm => List.pairwise_map.mpr hm
    refine List.Perm.eq_of_pairwise (fun x y hx hy hxy hyx => ?_) (hmapped (o.sorted l hkeys))
      (hmapped hsorted) (((o.perm l).trans hperm.symm).map _)
    obtain ⟨a, ha, rfl⟩ := List.mem_map.mp hx
    obtain ⟨b, hb, rfl⟩ := List.mem_map.mp hy
    have ha' := (o.perm l).mem_iff.mp ha
    have hb' := hperm.mem_iff.mp hb
    obtain ⟨i, hi⟩ := Option.isSome_iff_exists.mp (hkeys a ha')
    obtain ⟨j, hj⟩ := Option.isSome_iff_exists.mp (hkeys b hb')
    have hkey : key a = key b := by
      rw [hi, hj, Int.le_antisymm (hyx j i hj hi) (hxy i j hi hj)]
    rw [Prod.mk.injEq]
    exact ⟨hkey, hties a ha' b hb' hkey⟩
  have hread := congrArg (List.map Prod.snd) hpairs
  rw [List.map_map, List.map_map] at hread
  exact hread

/-- A row that is preferred is not read after another one of its key. -/
theorem preferring_pairwise [DecidableEq β] (a : ρ) {b : ρ} (hne : f a ≠ f b)
    (hkey : key a = key b) (hdet : ∀ c ∈ l, ∀ d ∈ l, f c = f d → key c = key d) (ha : a ∈ l)
    (hb : b ∈ l) :
    (((preferring key (fun r => f r = f a)).sort l).map f).Pairwise
      (fun u v => ¬ (u = f b ∧ v = f a)) := by
  rw [List.pairwise_map]
  have hsorted : ((preferring key (fun r => f r = f a)).sort l).Pairwise
      (Prefers key (fun r => f r = f a)) := List.pairwise_insertionSort _ l
  refine hsorted.imp_of_mem fun {x y} hx hy hxy hread => ?_
  have hx' := ((preferring key (fun r => f r = f a)).perm l).mem_iff.mp hx
  have hy' := ((preferring key (fun r => f r = f a)).perm l).mem_iff.mp hy
  have hsame : key x = key y :=
    (hdet x hx' b hb hread.1).trans (hkey.symm.trans (hdet y hy' a ha hread.2).symm)
  rcases hxy with hlt | ⟨-, himp⟩
  · rw [hsame] at hlt
    omega
  · have hfirst := of_decide_eq_true (himp (decide_eq_true hread.2))
    rw [hread.1] at hfirst
    exact hne hfirst.symm

/-- Rows with one key that read differently can come in two orders. -/
theorem ties_of_forall_map_eq [DecidableEq β]
    (hdet : ∀ a ∈ l, ∀ b ∈ l, f a = f b → key a = key b)
    {read : List β} (hall : ∀ o : OrderByDesc key, (o.sort l).map f = read) :
    ∀ a ∈ l, ∀ b ∈ l, key a = key b → f a = f b := by
  intro a ha b hb hkey
  by_contra hne
  have hab := preferring_pairwise a hne hkey hdet ha hb
  have hba := preferring_pairwise b (Ne.symm hne) hkey.symm hdet hb ha
  rw [hall] at hab hba
  have hboth := hab.and hba
  have hmem : ∀ c ∈ l, f c ∈ read := by
    intro c hc
    rw [← hall (preferring key fun _ => true)]
    exact List.mem_map_of_mem (((preferring key fun _ => true).perm l).mem_iff.mpr hc)
  have : Std.Symm (fun u v => ¬ (u = f b ∧ v = f a) ∧ ¬ (u = f a ∧ v = f b)) :=
    ⟨fun u v h => ⟨fun huv => h.2 ⟨huv.2, huv.1⟩, fun huv => h.1 ⟨huv.2, huv.1⟩⟩⟩
  exact (hboth.forall (hmem a ha) (hmem b hb) hne).2 ⟨rfl, rfl⟩

theorem forall_sort_map_eq_iff [DecidableEq β] (hkeys : ∀ r ∈ l, (key r).isSome)
    (hdet : ∀ a ∈ l, ∀ b ∈ l, f a = f b → key a = key b) (hperm : l'.Perm l)
    (hsorted : l'.Pairwise (Descending key)) :
    (∀ o : OrderByDesc key, (o.sort l).map f = l'.map f) ↔
      ∀ a ∈ l, ∀ b ∈ l, key a = key b → f a = f b :=
  ⟨ties_of_forall_map_eq hdet, fun hties => map_eq_of_ties hkeys hties hperm hsorted⟩

end Read

end OrderByDesc
end Sql
end FlagKit
