import Mathlib.Data.List.Perm.Basic
import Mathlib.Data.List.Forall2

/-!
# Order statistics by counting

An entry of a sorted list is bounded by `v` exactly when enough entries are
(`getElem_iff_lt_countP`), and a count does not depend on the order of the list.
This is how a bound on the `k`-th smallest entry is read off the unsorted list,
and how two lists that compare entry by entry have sorted forms that do.
-/

namespace FlagKit
namespace OrderStat

variable {α : Type}

/-- Along a list where `p` can only turn from true to false, `p` holds at index
`k` exactly when more than `k` entries satisfy it. -/
theorem getElem_iff_lt_countP {p : α → Bool} {l : List α}
    (h : l.Pairwise (fun a b => p b = true → p a = true)) {k : Nat} (hk : k < l.length) :
    p l[k] = true ↔ k < l.countP p := by
  induction l generalizing k with
  | nil => simp at hk
  | cons a l ih =>
    have hl := @ih h.of_cons
    cases ha : p a with
    | true =>
      rw [List.countP_cons_of_pos ha]
      cases k with
      | zero => simp [ha]
      | succ k =>
        simp only [List.length_cons, Nat.add_lt_add_iff_right] at hk
        simpa using hl hk
    | false =>
      -- every later entry fails too, so the count is zero
      have hfalse : ∀ b ∈ l, p b = false := by
        intro b hb
        have := List.rel_of_pairwise_cons h hb
        rw [ha] at this
        simpa using this
      have hzero : l.countP p = 0 := by
        rw [List.countP_eq_zero]
        intro b hb
        simp [hfalse b hb]
      rw [List.countP_cons_of_neg (by simp [ha]), hzero]
      cases k with
      | zero => simp [ha]
      | succ k => simpa using hfalse _ (List.getElem_mem _)

/-- If each entry of `l'` that passes has a passing counterpart in `l`, then `l`
has at least as many. -/
theorem countP_le_of_forall₂ {p : α → Bool} {l l' : List α}
    (h : List.Forall₂ (fun a b => p b = true → p a = true) l l') : l'.countP p ≤ l.countP p := by
  induction h with
  | nil => exact Nat.le_refl _
  | @cons a b l l' hab _ ih =>
    rw [List.countP_cons, List.countP_cons]
    by_cases hb : p b = true
    · simp only [hb, hab hb, if_true]
      omega
    · simp only [hb, if_false, Bool.false_eq_true]
      omega

/-- Entrywise comparison of two lists passes to their sorted forms. -/
theorem sorted_getElem_le {r : α → α → Bool}
    (trans : ∀ {a b c}, r a b = true → r b c = true → r a c = true) {l l' s s' : List α}
    (h : List.Forall₂ (fun a b => r a b = true) l l') (hs : s.Perm l) (hs' : s'.Perm l')
    (hsort : s.Pairwise (fun a b => r a b = true))
    (hsort' : s'.Pairwise (fun a b => r a b = true))
    {k : Nat} (hk : k < s.length) (hk' : k < s'.length) (hrefl : r s'[k] s'[k] = true) :
    r s[k] s'[k] = true := by
  have hcount' : k < s'.countP (fun x => r x s'[k]) :=
    (getElem_iff_lt_countP (p := fun x => r x s'[k]) (hsort'.imp fun hab => trans hab) hk').mp
      hrefl
  have hcount : s'.countP (fun x => r x s'[k]) ≤ s.countP (fun x => r x s'[k]) := by
    rw [hs.countP_eq, hs'.countP_eq]
    exact countP_le_of_forall₂ (h.imp fun _ _ hab => trans hab)
  exact (getElem_iff_lt_countP (p := fun x => r x s'[k]) (hsort.imp fun hab => trans hab) hk).mpr
    (Nat.lt_of_lt_of_le hcount' hcount)

/-! ## One entry of a sorted list

`r` is transitive; the counts are those of a list `l` that `s` is a sorted form of. -/

section Rank

variable {r : α → α → Bool} {l s : List α} {k : Nat}

/-- An entry is in a downward closed set exactly when the entries outside it are
fewer than the entries from it on. -/
theorem getElem_iff_countP_not (hs : s.Perm l) {p : α → Bool}
    (h : s.Pairwise (fun a b => p b = true → p a = true)) (hk : k < s.length) :
    p s[k] = true ↔ l.countP (fun a => !p a) < l.length - k := by
  have hsum : l.length = l.countP p + l.countP (fun a => !p a) := by
    rw [List.length_eq_countP_add_countP p]
    congr 1
    apply List.countP_congr
    intro a _
    cases p a <;> simp
  rw [getElem_iff_lt_countP h hk, hs.countP_eq]
  have hlen := hs.length_eq
  omega

/-- More than `k` entries are at most the entry at index `k`. -/
theorem lt_countP_le (trans : ∀ {a b c}, r a b = true → r b c = true → r a c = true)
    (hs : s.Perm l) (hsort : s.Pairwise (fun a b => r a b = true)) (hk : k < s.length)
    (hrefl : r s[k] s[k] = true) : k < l.countP (fun a => r a s[k]) := by
  rw [← hs.countP_eq]
  exact (getElem_iff_lt_countP (p := fun a => r a s[k]) (hsort.imp fun hab => trans hab) hk).mp
    hrefl

/-- At most `k` entries are below the entry at index `k`. -/
theorem countP_lt_le {q : α → α → Bool}
    (trans : ∀ {a b c}, r a b = true → q b c = true → q a c = true)
    (hs : s.Perm l) (hsort : s.Pairwise (fun a b => r a b = true)) (hk : k < s.length)
    (hirrefl : q s[k] s[k] = false) : l.countP (fun a => q a s[k]) ≤ k := by
  rw [← hs.countP_eq, ← Nat.not_lt]
  intro hlt
  have hq := (getElem_iff_lt_countP (p := fun a => q a s[k])
    (hsort.imp fun hab => trans hab) hk).mpr hlt
  rw [hirrefl] at hq
  cases hq

end Rank

end OrderStat
end FlagKit
