import Mathlib.Data.Nat.Count
import Mathlib.Tactic.Ring

/-!
# Counting residues

How many numbers below `n` have a residue modulo `r` below `p`: `p` for each full block
of `r`, and of the last block as many as it still has.
-/

namespace FlagKit

theorem count_lt (p n : Nat) : Nat.count (fun d => d < p) n = min p n := by
  induction n with
  | zero => rw [Nat.count_zero, Nat.min_zero]
  | succ n ih =>
    rw [Nat.count_succ, ih]
    by_cases h : n < p
    · rw [if_pos h]
      omega
    · rw [if_neg h]
      omega

/-- One block, which may be cut short. -/
theorem count_mod_lt_block {p r n : Nat} (hn : n ≤ r) :
    Nat.count (fun d => d % r < p) n = min p n := by
  rw [← count_lt, Nat.count_eq_card_filter_range, Nat.count_eq_card_filter_range]
  congr 1
  refine Finset.filter_congr fun d hd => ?_
  rw [Nat.mod_eq_of_lt (Nat.lt_of_lt_of_le (Finset.mem_range.mp hd) hn)]

theorem count_mod_lt_blocks {p r : Nat} (hp : p ≤ r) (q : Nat) {t : Nat} (ht : t ≤ r) :
    Nat.count (fun d => d % r < p) (r * q + t) = p * q + min p t := by
  induction q with
  | zero =>
    rw [Nat.mul_zero, Nat.mul_zero, Nat.zero_add, Nat.zero_add]
    exact count_mod_lt_block ht
  | succ q ih =>
    have hsplit : r * (q + 1) + t = r + (r * q + t) := by ring
    have hshift : (fun k => (r + k) % r < p) = fun k => k % r < p := by
      funext k
      rw [Nat.add_mod_left]
    rw [hsplit, Nat.count_add, count_mod_lt_block (Nat.le_refl r), Nat.min_eq_left hp]
    simp only [hshift, ih]
    ring

theorem count_mod_lt {p r : Nat} (hp : p ≤ r) (hr : 0 < r) (n : Nat) :
    Nat.count (fun d => d % r < p) n = p * (n / r) + min p (n % r) := by
  have h := count_mod_lt_blocks hp (n / r) (Nat.le_of_lt (Nat.mod_lt n hr))
  rw [Nat.div_add_mod] at h
  exact h

end FlagKit
