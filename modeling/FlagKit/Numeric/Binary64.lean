import FlagKit.Numeric.F64
import Mathlib.Data.Int.Log

/-!
# Rounding to binary64

`FloatEnv` leaves the rounding open.  Here it is the one IEEE 754 prescribes: to the
nearest value of 53 bits, below the normal range to the nearest multiple of 2^-1074, to
the even one of two that are as near, and to an infinity once the result would reach
2^1024.

It has the two properties of `FloatEnv.Rounds` (`binary64_rounds`).  Values with the same
last bit are ordered by rounding as whole numbers are; between two values with different
ones lies zero or a power of two, which no rounding crosses.
-/

namespace FlagKit
namespace Binary64

/-! ## Whole numbers -/

/-- The nearest whole number, the even one of two. -/
def roundEven (x : ℚ) : Int :=
  if x - ⌊x⌋ < 1 / 2 then ⌊x⌋
  else if 1 / 2 < x - ⌊x⌋ then ⌊x⌋ + 1
  else if ⌊x⌋ % 2 = 0 then ⌊x⌋
  else ⌊x⌋ + 1

theorem roundEven_eq_or (x : ℚ) : roundEven x = ⌊x⌋ ∨ roundEven x = ⌊x⌋ + 1 := by
  unfold roundEven
  split_ifs <;> simp

theorem roundEven_intCast (n : Int) : roundEven n = n := by
  simp [roundEven]

theorem roundEven_mono {x y : ℚ} (h : x ≤ y) : roundEven x ≤ roundEven y := by
  rcases Int.lt_or_eq_of_le (Int.floor_mono h) with hlt | heq
  · have hx := roundEven_eq_or x
    have hy := roundEven_eq_or y
    omega
  · have hfract : x - ⌊y⌋ ≤ y - ⌊y⌋ := sub_le_sub_right h _
    unfold roundEven
    rw [heq]
    split_ifs <;> first | omega | linarith

/-! ## The grid -/

/-- The exponent of the last bit of a value near `q`. -/
def lastBit (q : ℚ) : Int := max (Int.log 2 |q| - 52) (-1074)

theorem lastBit_neg (q : ℚ) : lastBit (-q) = lastBit q := by
  rw [lastBit, lastBit, abs_neg]

def OnGrid (e : Int) (p : ℚ) : Prop := ∃ n : Int, p = n * 2 ^ e

theorem onGrid_zero (e : Int) : OnGrid e 0 := ⟨0, by simp⟩

theorem OnGrid.neg {e : Int} {p : ℚ} (h : OnGrid e p) : OnGrid e (-p) := by
  obtain ⟨n, rfl⟩ := h
  exact ⟨-n, by simp⟩

/-- A multiple of a power of two is one of every smaller power. -/
theorem onGrid_of_le {d e : Int} (h : d ≤ e) (m : Int) : OnGrid d (m * 2 ^ e) := by
  obtain ⟨j, rfl⟩ : ∃ j : Nat, e = d + j := ⟨(e - d).toNat, by omega⟩
  refine ⟨m * 2 ^ j, ?_⟩
  push_cast
  rw [zpow_add₀ (by norm_num), zpow_natCast]
  ring

theorem onGrid_pow {d e : Int} (h : d ≤ e) : OnGrid d (2 ^ e) := by
  have hone := onGrid_of_le h 1
  rw [Int.cast_one, one_mul] at hone
  exact hone

/-! ## The nearest value -/

/-- The nearest value of the format, were its exponents not bounded above. -/
def nearest (q : ℚ) : ℚ := roundEven (q / 2 ^ lastBit q) * 2 ^ lastBit q

theorem nearest_le {q p : ℚ} (h : q ≤ p) (hp : OnGrid (lastBit q) p) : nearest q ≤ p := by
  have hpos : (0 : ℚ) < 2 ^ lastBit q := zpow_pos (by norm_num) _
  obtain ⟨n, rfl⟩ := hp
  have hdiv : q / 2 ^ lastBit q ≤ n := (div_le_iff₀ hpos).mpr h
  have hround := roundEven_mono hdiv
  rw [roundEven_intCast] at hround
  have hcast : (roundEven (q / 2 ^ lastBit q) : ℚ) ≤ n := by exact_mod_cast hround
  exact mul_le_mul_of_nonneg_right hcast (le_of_lt hpos)

theorem le_nearest {q p : ℚ} (h : p ≤ q) (hp : OnGrid (lastBit q) p) : p ≤ nearest q := by
  have hpos : (0 : ℚ) < 2 ^ lastBit q := zpow_pos (by norm_num) _
  obtain ⟨n, rfl⟩ := hp
  have hdiv : (n : ℚ) ≤ q / 2 ^ lastBit q := (le_div_iff₀ hpos).mpr h
  have hround := roundEven_mono hdiv
  rw [roundEven_intCast] at hround
  have hcast : (n : ℚ) ≤ roundEven (q / 2 ^ lastBit q) := by exact_mod_cast hround
  exact mul_le_mul_of_nonneg_right hcast (le_of_lt hpos)

theorem nearest_eq {q : ℚ} (hq : OnGrid (lastBit q) q) : nearest q = q :=
  le_antisymm (nearest_le (le_refl q) hq) (le_nearest (le_refl q) hq)

/-- Of two positive values with different last bits, the power of two below the greater
one is between them. -/
theorem exists_power_between {a b : ℚ} (ha : 0 < a) (hab : a ≤ b) (hne : lastBit a ≠ lastBit b) :
    ∃ p, a ≤ p ∧ p ≤ b ∧ OnGrid (lastBit a) p ∧ OnGrid (lastBit b) p := by
  have hb := lt_of_lt_of_le ha hab
  have hmono : Int.log 2 a ≤ Int.log 2 b := Int.log_mono_right ha hab
  have hbelow : ((2 : Nat) : ℚ) ^ Int.log 2 b ≤ b := Int.zpow_log_le_self (by norm_num) hb
  have habove : a < ((2 : Nat) : ℚ) ^ (Int.log 2 a + 1) := Int.lt_zpow_succ_log_self (by norm_num) a
  rw [Nat.cast_ofNat] at hbelow habove
  simp only [lastBit, abs_of_pos ha, abs_of_pos hb] at hne ⊢
  have hlt : Int.log 2 a + 1 ≤ Int.log 2 b := by omega
  have hpow : (2 : ℚ) ^ (Int.log 2 a + 1) ≤ 2 ^ Int.log 2 b :=
    zpow_le_zpow_right₀ (by norm_num) hlt
  exact ⟨2 ^ Int.log 2 b, le_trans (le_of_lt habove) hpow, hbelow, onGrid_pow (by omega),
    onGrid_pow (by omega)⟩

theorem exists_between {a b : ℚ} (hab : a ≤ b) (hne : lastBit a ≠ lastBit b) :
    ∃ p, a ≤ p ∧ p ≤ b ∧ OnGrid (lastBit a) p ∧ OnGrid (lastBit b) p := by
  rcases lt_or_ge 0 a with ha | ha
  · exact exists_power_between ha hab hne
  · rcases lt_or_ge b 0 with hb | hb
    · obtain ⟨p, hbp, hpa, hgb, hga⟩ := exists_power_between (neg_pos.mpr hb) (neg_le_neg hab)
        (by rw [lastBit_neg, lastBit_neg]; exact hne.symm)
      rw [lastBit_neg] at hgb hga
      exact ⟨-p, le_neg_of_le_neg hpa, neg_le_of_neg_le hbp, hga.neg, hgb.neg⟩
    · exact ⟨0, ha, hb, onGrid_zero _, onGrid_zero _⟩

theorem nearest_mono {a b : ℚ} (hab : a ≤ b) : nearest a ≤ nearest b := by
  by_cases heq : lastBit a = lastBit b
  · have hpos : (0 : ℚ) < 2 ^ lastBit b := zpow_pos (by norm_num) _
    have hround := roundEven_mono (div_le_div_of_nonneg_right hab (le_of_lt hpos))
    have hcast : (roundEven (a / 2 ^ lastBit b) : ℚ) ≤ roundEven (b / 2 ^ lastBit b) := by
      exact_mod_cast hround
    rw [nearest, nearest, heq]
    exact mul_le_mul_of_nonneg_right hcast (le_of_lt hpos)
  · obtain ⟨p, hap, hpb, hga, hgb⟩ := exists_between hab heq
    exact le_trans (nearest_le hap hga) (le_nearest hpb hgb)

/-! ## Rounding -/

def round (q : ℚ) : F64 :=
  if 2 ^ 1024 ≤ nearest q then .posInf
  else if nearest q ≤ -2 ^ 1024 then .negInf
  else .fin (nearest q)

theorem round_mono {a b : ℚ} (hab : a ≤ b) : (round a).le (round b) = true := by
  have hmono := nearest_mono hab
  unfold round
  by_cases hbtop : 2 ^ 1024 ≤ nearest b
  · rw [if_pos hbtop]
    exact F64.le_posInf (by split_ifs <;> exact F64.noConfusion)
  · have hatop : ¬ 2 ^ 1024 ≤ nearest a := fun h => hbtop (le_trans h hmono)
    rw [if_neg hbtop, if_neg hatop]
    by_cases habot : nearest a ≤ -2 ^ 1024
    · rw [if_pos habot]
      exact F64.negInf_le (by split_ifs <;> exact F64.noConfusion)
    · have hbbot : ¬ nearest b ≤ -2 ^ 1024 := fun h => habot (le_trans hmono h)
      rw [if_neg habot, if_neg hbbot]
      exact decide_eq_true hmono

theorem round_eq {q : ℚ} (hgrid : OnGrid (lastBit q) q) (hlow : -2 ^ 1024 < q)
    (hhigh : q < 2 ^ 1024) : round q = .fin q := by
  rw [round, nearest_eq hgrid, if_neg (not_le.mpr hhigh), if_neg (not_le.mpr hlow)]

theorem onGrid_lastBit {m k : Nat} (hm : m < 2 ^ 53) (hk : k ≤ 1022) :
    OnGrid (lastBit (m / 2 ^ k)) ((m : ℚ) / 2 ^ k) := by
  have heq : (m : ℚ) / 2 ^ k = (m : Int) * 2 ^ (-(k : Int)) := by
    rw [Int.cast_natCast, zpow_neg, zpow_natCast, div_eq_mul_inv]
  rcases Nat.eq_zero_or_pos m with rfl | hpos
  · rw [Nat.cast_zero, zero_div]
    exact onGrid_zero _
  · have hq : (0 : ℚ) < m / 2 ^ k := by positivity
    have hlt : (m : ℚ) / 2 ^ k < ((2 : Nat) : ℚ) ^ (53 - k : Int) := by
      have hmq : (m : ℚ) < 2 ^ 53 := by exact_mod_cast hm
      rw [Nat.cast_ofNat, zpow_sub₀ (by norm_num), zpow_natCast]
      exact div_lt_div_of_pos_right hmq (by positivity)
    have hlog := (Int.lt_zpow_iff_log_lt (by norm_num) hq).mp hlt
    have hbit : lastBit (m / 2 ^ k) ≤ -(k : Int) := by
      rw [lastBit, abs_of_pos hq]
      omega
    have hgrid := onGrid_of_le hbit m
    rw [← heq] at hgrid
    exact hgrid

end Binary64

/-- Arithmetic in doubles. -/
def FloatEnv.binary64 : FloatEnv := { FloatEnv.exact with round := Binary64.round }

theorem FloatEnv.binary64_rounds : FloatEnv.binary64.Rounds where
  mono := Binary64.round_mono
  keeps m k hm hk := by
    have hmq : (m : ℚ) < 2 ^ 53 := by exact_mod_cast hm
    have hnonneg : (0 : ℚ) ≤ m / 2 ^ k := by positivity
    have hle : (m : ℚ) / 2 ^ k ≤ m := div_le_self (Nat.cast_nonneg m) (one_le_pow₀ (by norm_num))
    have hbig : (2 : ℚ) ^ 53 ≤ 2 ^ 1024 := pow_le_pow_right₀ (by norm_num) (by norm_num)
    have hneg : -(2 : ℚ) ^ 1024 < 0 := neg_lt_zero.mpr (by positivity)
    exact Binary64.round_eq (Binary64.onGrid_lastBit hm hk) (lt_of_lt_of_le hneg hnonneg)
      (lt_of_le_of_lt hle (lt_of_lt_of_le hmq hbig))

end FlagKit
