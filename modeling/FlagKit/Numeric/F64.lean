import Mathlib.Data.Rat.Floor
import Mathlib.Data.List.Sort
import Mathlib.Tactic.Linarith

/-!
# Binary64 values over the rationals

An `F64` is a binary64 value as comparisons see it: NaN, an infinity or a
rational number.  The two zeros compare equal and are one value here.

What IEEE 754 leaves to the rounding mode and the standard library leaves to the
sorting algorithm is a parameter, `FloatEnv`.  Its `round` is applied to every
literal, conversion, product and quotient.  Its `sortBy` is the slice method, and
`none` is its panic: on elements that the comparison orders totally it returns them
sorted, on others it may panic or return any permutation.  `FloatEnv.exact` rounds
nothing and sorts by insertion, `FloatEnv.strict` panics on whatever it cannot order.
-/

namespace FlagKit

inductive F64 where
  | nan
  | negInf
  | fin (q : ℚ)
  | posInf
  deriving DecidableEq

namespace F64

def lt : F64 → F64 → Bool
  | fin a, fin b => decide (a < b)
  | negInf, fin _ | negInf, posInf | fin _, posInf => true
  | _, _ => false

def le : F64 → F64 → Bool
  | fin a, fin b => decide (a ≤ b)
  | negInf, negInf | negInf, fin _ | negInf, posInf | fin _, posInf | posInf, posInf => true
  | _, _ => false

def gt (a b : F64) : Bool := b.lt a

def partialCmp : F64 → F64 → Option Ordering
  | nan, _ | _, nan => none
  | a, b => some (if a.lt b then .lt else if b.lt a then .gt else .eq)

def ceil : F64 → F64
  | fin q => fin ⌈q⌉
  | x => x

def max (a b : F64) : F64 :=
  if a = nan then b else if b = nan then a else if a.lt b then b else a

/-- `as usize`: truncation, saturating at both ends, NaN to zero. -/
def toUsize : F64 → Nat
  | fin q => min ⌊q⌋.toNat (2 ^ 64 - 1)
  | posInf => 2 ^ 64 - 1
  | nan | negInf => 0

section Order

attribute [local simp] lt le

theorem le_refl {a : F64} (ha : a ≠ nan) : a.le a = true := by
  cases a <;> simp_all

theorem le_trans {a b c : F64} (hab : a.le b = true) (hbc : b.le c = true) : a.le c = true := by
  cases a <;> cases b <;> cases c <;> simp_all
  linarith

theorem ne_nan_of_le {a b : F64} (h : a.le b = true) : a ≠ nan ∧ b ≠ nan := by
  cases a <;> cases b <;> simp_all

theorem negInf_le {a : F64} (ha : a ≠ nan) : negInf.le a = true := by
  cases a <;> simp_all

theorem le_posInf {a : F64} (ha : a ≠ nan) : a.le posInf = true := by
  cases a <;> simp_all

theorem lt_of_lt_of_le {a b c : F64} (hab : a.lt b = true) (hbc : b.le c = true) :
    a.lt c = true := by
  cases a <;> cases b <;> cases c <;> simp_all
  linarith

theorem lt_of_le_of_lt {a b c : F64} (hab : a.le b = true) (hbc : b.lt c = true) :
    a.lt c = true := by
  cases a <;> cases b <;> cases c <;> simp_all
  linarith

theorem lt_irrefl (a : F64) : a.lt a = false := by
  cases a <;> simp

theorem le_antisymm {a b : F64} (hab : a.le b = true) (hba : b.le a = true) : a = b := by
  cases a <;> cases b <;> simp_all
  linarith

theorem not_lt_iff_le {a b : F64} (ha : a ≠ nan) (hb : b ≠ nan) :
    b.lt a = false ↔ a.le b = true := by
  cases a <;> cases b <;> simp_all

theorem le_total {a b : F64} (ha : a ≠ nan) (hb : b ≠ nan) : a.le b = true ∨ b.le a = true := by
  cases a <;> cases b <;> simp_all
  exact Rat.le_total

end Order

/-- `max(1.0) as usize` is at least one, also of NaN. -/
theorem one_le_toUsize_max (x : F64) : 1 ≤ (x.max (.fin 1)).toUsize := by
  have hone : 1 ≤ (F64.fin 1).toUsize := by decide +kernel
  cases x with
  | nan => exact hone
  | negInf => exact hone
  | posInf => decide +kernel
  | fin q =>
    by_cases hq : q < 1
    · have hmax : (F64.fin q).max (.fin 1) = .fin 1 := by simp [F64.max, F64.lt, hq]
      rw [hmax]
      exact hone
    · have hmax : (F64.fin q).max (.fin 1) = .fin q := by simp [F64.max, F64.lt, hq]
      have hfloor : (1 : Int) ≤ ⌊q⌋ := by
        rw [Int.le_floor]
        exact_mod_cast not_lt.mp hq
      rw [hmax, F64.toUsize]
      omega

theorem partialCmp_eq {a b : F64} (ha : a ≠ nan) (hb : b ≠ nan) :
    a.partialCmp b = some (if a.lt b then .lt else if b.lt a then .gt else .eq) := by
  cases a <;> cases b <;> simp_all [partialCmp]

/-- `a.partial_cmp(b).unwrap_or(Ordering::Equal)`, the usual way to sort floats. -/
def cmpOrEqual (a b : F64) : Ordering := (a.partialCmp b).getD .eq

theorem cmpOrEqual_ne_gt_iff {a b : F64} (ha : a ≠ nan) (hb : b ≠ nan) :
    cmpOrEqual a b ≠ .gt ↔ a.le b = true := by
  rw [← not_lt_iff_le ha hb, cmpOrEqual, partialCmp_eq ha hb]
  cases hab : a.lt b with
  | false => cases b.lt a <;> simp
  | true =>
    cases hba : b.lt a with
    | false => simp
    | true =>
      cases a <;> cases b <;> simp_all [lt]
      linarith

end F64

/-! ## Sorting by a comparison -/

def TotalOn {α : Type} (cmp : α → α → Ordering) (l : List α) : Prop :=
  (∀ a ∈ l, ∀ b ∈ l, cmp a b ≠ .gt ∨ cmp b a ≠ .gt) ∧
    ∀ a ∈ l, ∀ b ∈ l, ∀ c ∈ l, cmp a b ≠ .gt → cmp b c ≠ .gt → cmp a c ≠ .gt

instance {α : Type} (cmp : α → α → Ordering) (l : List α) : Decidable (TotalOn cmp l) :=
  inferInstanceAs (Decidable (_ ∧ _))

theorem totalOn_cmpOrEqual {l : List F64} (hl : F64.nan ∉ l) : TotalOn F64.cmpOrEqual l := by
  have hne : ∀ a ∈ l, a ≠ F64.nan := fun a ha e => hl (e ▸ ha)
  refine ⟨fun a ha b hb => ?_, fun a ha b hb c hc hab hbc => ?_⟩
  · rw [F64.cmpOrEqual_ne_gt_iff (hne a ha) (hne b hb),
      F64.cmpOrEqual_ne_gt_iff (hne b hb) (hne a ha)]
    exact F64.le_total (hne a ha) (hne b hb)
  · rw [F64.cmpOrEqual_ne_gt_iff (hne _ ‹_›) (hne _ ‹_›)] at hab hbc ⊢
    exact F64.le_trans hab hbc

/-- Insertion sort orders a list on which the comparison is total, whatever it
does elsewhere: the sort never leaves the elements of the list. -/
theorem pairwise_insertionSort_of_totalOn {α : Type} {cmp : α → α → Ordering} {l : List α}
    (h : TotalOn cmp l) :
    (l.insertionSort (fun a b => cmp a b ≠ .gt)).Pairwise (fun a b => cmp a b ≠ .gt) := by
  let r : {a // a ∈ l} → {a // a ∈ l} → Prop := fun a b => cmp a.1 b.1 ≠ .gt
  have : Std.Total r := ⟨fun a b => h.1 a.1 a.2 b.1 b.2⟩
  have : IsTrans {a // a ∈ l} r := ⟨fun a b c => h.2 a.1 a.2 b.1 b.2 c.1 c.2⟩
  have hmap := List.map_insertionSort r (fun a b => cmp a b ≠ .gt) Subtype.val l.attach
    (fun a _ b _ => Iff.rfl)
  rw [List.attach_map_subtype_val] at hmap
  rw [← hmap, List.pairwise_map]
  exact List.pairwise_insertionSort r l.attach

/-! ## Arithmetic -/

structure FloatEnv where
  round : ℚ → F64
  sortBy : (F64 → F64 → Ordering) → List F64 → Option (List F64)
  sortBy_perm : ∀ {cmp l l'}, sortBy cmp l = some l' → l'.Perm l
  sortBy_sorted : ∀ {cmp l}, TotalOn cmp l →
    ∃ l', sortBy cmp l = some l' ∧ l'.Pairwise (fun a b => cmp a b ≠ .gt)

namespace FloatEnv

variable (env : FloatEnv)

def ofNat (n : Nat) : F64 := env.round n

/-- A product; zero times an infinity is NaN. -/
def mul : F64 → F64 → F64
  | .nan, _ | _, .nan => .nan
  | .fin a, .fin b => env.round (a * b)
  | .fin a, .posInf | .posInf, .fin a =>
    if a = 0 then .nan else if 0 < a then .posInf else .negInf
  | .fin a, .negInf | .negInf, .fin a =>
    if a = 0 then .nan else if 0 < a then .negInf else .posInf
  | .posInf, .posInf | .negInf, .negInf => .posInf
  | .posInf, .negInf | .negInf, .posInf => .negInf

/-- A quotient; a zero divisor counts as positive. -/
def div : F64 → F64 → F64
  | .nan, _ | _, .nan => .nan
  | .fin a, .fin b =>
    if b = 0 then if a = 0 then .nan else if 0 < a then .posInf else .negInf
    else env.round (a / b)
  | .fin _, .posInf | .fin _, .negInf => .fin 0
  | .posInf, .fin b => if b < 0 then .negInf else .posInf
  | .negInf, .fin b => if b < 0 then .posInf else .negInf
  | .posInf, .posInf | .posInf, .negInf | .negInf, .posInf | .negInf, .negInf => .nan

def exact : FloatEnv where
  round := .fin
  sortBy cmp l := some (l.insertionSort (fun a b => cmp a b ≠ .gt))
  sortBy_perm h := by
    rw [← Option.some.inj h]
    exact List.perm_insertionSort _ _
  sortBy_sorted h := ⟨_, rfl, pairwise_insertionSort_of_totalOn h⟩

def strict : FloatEnv where
  round := .fin
  sortBy cmp l := if TotalOn cmp l then exact.sortBy cmp l else none
  sortBy_perm {cmp l l'} h := by
    by_cases ht : TotalOn cmp l
    · rw [if_pos ht] at h
      exact exact.sortBy_perm h
    · rw [if_neg ht] at h
      cases h
  sortBy_sorted h := by
    rw [if_pos h]
    exact exact.sortBy_sorted h

theorem strict_sortBy_eq_none {cmp : F64 → F64 → Ordering} {l : List F64}
    (h : ¬ TotalOn cmp l) : strict.sortBy cmp l = none := by
  show (if TotalOn cmp l then exact.sortBy cmp l else none) = none
  rw [if_neg h]

/-- What rounding to binary64 promises: it keeps the order, and every value of 53 bits
that is not too small. -/
structure Rounds : Prop where
  mono : ∀ {a b : ℚ}, a ≤ b → (env.round a).le (env.round b) = true
  keeps : ∀ m k : Nat, m < 2 ^ 53 → k ≤ 1022 → env.round (m / 2 ^ k) = .fin (m / 2 ^ k)

theorem exact_rounds : FloatEnv.exact.Rounds where
  mono h := decide_eq_true h
  keeps _ _ _ _ := rfl

variable {env}

theorem Rounds.ofNat_eq (h : env.Rounds) {n : Nat} (hn : n < 2 ^ 53) : env.ofNat n = .fin n := by
  have hkeep := h.keeps n 0 hn (Nat.zero_le _)
  rw [pow_zero, div_one] at hkeep
  exact hkeep

/-- A value between two that are kept is rounded to one between them. -/
theorem Rounds.squeeze (h : env.Rounds) {a b q : ℚ} (ha : env.round a = .fin a)
    (hb : env.round b = .fin b) (haq : a ≤ q) (hqb : q ≤ b) :
    ∃ x, env.round q = .fin x ∧ a ≤ x ∧ x ≤ b := by
  have hlow := h.mono haq
  have hhigh := h.mono hqb
  rw [ha] at hlow
  rw [hb] at hhigh
  cases hq : env.round q with
  | fin x =>
    rw [hq] at hlow hhigh
    exact ⟨x, rfl, of_decide_eq_true hlow, of_decide_eq_true hhigh⟩
  | nan | negInf =>
    rw [hq] at hlow
    cases hlow
  | posInf =>
    rw [hq] at hhigh
    cases hhigh

theorem Rounds.half_eq (h : env.Rounds) {n : Nat} (hn : n < 2 ^ 53) :
    env.mul (.fin n) (.fin (1 / 2)) = .fin (n / 2) := by
  have hkeep := h.keeps n 1 hn (by omega)
  rw [pow_one] at hkeep
  show env.round (n * (1 / 2)) = _
  rw [mul_one_div, hkeep]

theorem mul_posInf (env : FloatEnv) {a : ℚ} (ha : 0 < a) : env.mul (.fin a) .posInf = .posInf := by
  show (if a = 0 then F64.nan else if 0 < a then .posInf else .negInf) = .posInf
  rw [if_neg (ne_of_gt ha), if_pos ha]

theorem mul_negInf (env : FloatEnv) {a : ℚ} (ha : 0 < a) : env.mul (.fin a) .negInf = .negInf := by
  show (if a = 0 then F64.nan else if 0 < a then .negInf else .posInf) = .negInf
  rw [if_neg (ne_of_gt ha), if_pos ha]

theorem Rounds.mul_ne_nan (h : env.Rounds) {a : ℚ} (ha : 0 < a) {x : F64} (hx : x ≠ .nan) :
    env.mul (.fin a) x ≠ .nan := by
  cases x with
  | nan => exact absurd rfl hx
  | fin q => exact (F64.ne_nan_of_le (h.mono (le_refl (a * q)))).1
  | negInf =>
    rw [mul_negInf env ha]
    exact F64.noConfusion
  | posInf =>
    rw [mul_posInf env ha]
    exact F64.noConfusion

/-- A product with a positive number keeps the order. -/
theorem Rounds.mul_le (h : env.Rounds) {a : ℚ} (ha : 0 < a) {x y : F64} (hxy : x.le y = true) :
    (env.mul (.fin a) x).le (env.mul (.fin a) y) = true := by
  obtain ⟨hx, hy⟩ := F64.ne_nan_of_le hxy
  cases x with
  | nan => exact absurd rfl hx
  | negInf =>
    rw [mul_negInf env ha]
    exact F64.negInf_le (h.mul_ne_nan ha hy)
  | fin p =>
    cases y with
    | nan => exact absurd rfl hy
    | negInf => cases hxy
    | fin q => exact h.mono (mul_le_mul_of_nonneg_left (of_decide_eq_true hxy) (le_of_lt ha))
    | posInf =>
      rw [mul_posInf env ha]
      exact F64.le_posInf (h.mul_ne_nan ha hx)
  | posInf =>
    cases y with
    | posInf => exact F64.le_refl (h.mul_ne_nan ha hy)
    | nan | negInf | fin => cases hxy

end FloatEnv
end FlagKit
