import FlagKit.Gate.Worse

/-!
# What a promotion says about the window

A promotion is four conditions on the window and its stage, none of which mentions a
sort, a rank or a quotient: enough time, enough requests, errors within the budget and
at most one latency sample in a hundred above the ceiling.  The counting form of the
last one is the nearest rank `n - n / 100` read through `OrderStat`.

Arithmetic is exact and no sample is NaN; the sorting algorithm is any.
-/

namespace FlagKit

variable {env : FloatEnv}

/-! ## The rank -/

/-- The ceiling of 99 hundredths. -/
theorem ceil_mul_99 (n : Nat) : ⌈(n : ℚ) * (99 / 100)⌉ = ((n - n / 100 : Nat) : Int) := by
  have hdiv := Nat.div_add_mod n 100
  have hmod := Nat.mod_lt n (by decide : 0 < 100)
  have hsub : n - n / 100 + n / 100 = n := Nat.sub_add_cancel (Nat.div_le_self n 100)
  have hdivq : (100 : ℚ) * (n / 100 : Nat) + (n % 100 : Nat) = n := by exact_mod_cast hdiv
  have hmodq : ((n % 100 : Nat) : ℚ) + 1 ≤ 100 := by exact_mod_cast hmod
  have hsubq : ((n - n / 100 : Nat) : ℚ) + (n / 100 : Nat) = n := by exact_mod_cast hsub
  have hnonneg : (0 : ℚ) ≤ (n % 100 : Nat) := Nat.cast_nonneg _
  rw [Int.ceil_eq_iff, Int.cast_natCast]
  constructor <;> linarith

/-- A product gives the rank it has for ceiling. -/
theorem rank_of_ceil {n : Nat} {x : ℚ} {k : Nat}
    (hprod : env.mul (env.ofNat n) (env.round (99 / 100)) = .fin x) (hceil : ⌈x⌉ = (k : Int))
    (hpos : 1 ≤ k) (hlt : k < 2 ^ 64) : HealthSnapshot.p99Rank env n = k := by
  have hposq : ¬ ((k : ℚ) < 1) := by
    rw [not_lt]
    exact_mod_cast hpos
  have hmax : F64.max (.fin (k : ℚ)) (.fin 1) = .fin (k : ℚ) := by
    simp [F64.max, F64.lt, hposq]
  rw [HealthSnapshot.p99Rank, hprod, F64.ceil, hceil, Int.cast_natCast, hmax, F64.toUsize,
    Int.floor_natCast, Int.toNat_natCast]
  omega

theorem p99Rank_exact (hexact : env.Exact) {n : Nat} (hpos : 0 < n) (hlt : n < 2 ^ 64) :
    HealthSnapshot.p99Rank env n = n - n / 100 := by
  have hprod : env.mul (env.ofNat n) (env.round (99 / 100)) = .fin (n * (99 / 100)) := by
    rw [FloatEnv.ofNat, hexact, hexact, FloatEnv.mul, hexact]
  exact rank_of_ceil hprod (ceil_mul_99 n) (by omega) (by omega)

/-! ## The p99 -/

section Samples

variable {s : HealthSnapshot}

/-- The rank computed for a window is the nearest rank. -/
def NearestRank (env : FloatEnv) (s : HealthSnapshot) : Prop :=
  HealthSnapshot.p99Rank env s.latenciesMs.length =
    s.latenciesMs.length - s.latenciesMs.length / 100

theorem nearestRank_exact (hexact : env.Exact) (hne : s.latenciesMs ≠ [])
    (hlen : s.latenciesMs.length < 2 ^ 64) : NearestRank env s :=
  p99Rank_exact hexact (List.length_pos_iff.mpr hne) hlen

/-- The p99 of a window is the entry at the nearest rank of its sorted samples. -/
theorem latencyP99Ms_at {sorted : List F64} (hne : s.latenciesMs ≠ [])
    (hrank : NearestRank env s)
    (hsort : env.sortBy F64.cmpOrEqual s.latenciesMs = some sorted) :
    ∃ h : s.latenciesMs.length - s.latenciesMs.length / 100 - 1 < sorted.length,
      s.latencyP99Ms env = some (some sorted[
        s.latenciesMs.length - s.latenciesMs.length / 100 - 1]) := by
  have hpos := List.length_pos_iff.mpr hne
  have hlt : s.latenciesMs.length - s.latenciesMs.length / 100 - 1 < sorted.length := by
    rw [(env.sortBy_perm hsort).length_eq]
    omega
  refine ⟨hlt, latencyP99Ms_eq hne hsort ?_ hlt⟩
  rw [NearestRank] at hrank
  rw [hrank]
  omega

/-- The reported p99 is a sample, at least 99 of 100 samples are at most it and fewer
than 99 of 100 are below it. -/
theorem counts_of_nearestRank (hnan : F64.nan ∉ s.latenciesMs) (hne : s.latenciesMs ≠ [])
    (hrank : NearestRank env s) :
    ∃ p, s.latencyP99Ms env = some (some p) ∧ p ∈ s.latenciesMs ∧
      99 * s.latenciesMs.length ≤ 100 * s.latenciesMs.countP (fun x => x.le p) ∧
      100 * s.latenciesMs.countP (fun x => x.lt p) < 99 * s.latenciesMs.length := by
  obtain ⟨sorted, hsort, hperm, hsorted⟩ := sortBy_le_sorted env hnan
  obtain ⟨hlt, hp99⟩ := latencyP99Ms_at hne hrank hsort
  have hmem := hperm.mem_iff.mp (List.getElem_mem hlt)
  have hrefl := F64.le_refl (fun e => hnan (e ▸ hmem))
  have hpos := List.length_pos_iff.mpr hne
  have hle := OrderStat.lt_countP_le (r := F64.le) F64.le_trans hperm hsorted hlt hrefl
  have hbelow := OrderStat.countP_lt_le (q := F64.lt) F64.lt_of_le_of_lt hperm hsorted hlt
    (F64.lt_irrefl _)
  refine ⟨_, hp99, hmem, ?_, ?_⟩
  · omega
  · omega

/-- The p99 is above a ceiling exactly when more than one sample in a hundred is. -/
theorem gt_iff_of_nearestRank (hnan : F64.nan ∉ s.latenciesMs)
    (hrank : s.latenciesMs ≠ [] → NearestRank env s) :
    ∃ p99, s.latencyP99Ms env = some p99 ∧
      ∀ ceiling, p99.any (fun p => p.gt ceiling) = false ↔
        s.latenciesMs.countP (fun x => x.gt ceiling) ≤ s.latenciesMs.length / 100 := by
  by_cases hne : s.latenciesMs = []
  · exact ⟨none, latencyP99Ms_nil hne, fun ceiling => by simp [hne]⟩
  · obtain ⟨sorted, hsort, hperm, hsorted⟩ := sortBy_le_sorted env hnan
    obtain ⟨hlt, hp99⟩ := latencyP99Ms_at hne (hrank hne) hsort
    refine ⟨_, hp99, fun ceiling => ?_⟩
    -- once a sample is above the ceiling, so are all longer ones
    have hclosed : sorted.Pairwise
        (fun a b => (!b.gt ceiling) = true → (!a.gt ceiling) = true) := by
      refine hsorted.imp fun {a b} hab hb => ?_
      rw [Bool.not_eq_true'] at hb ⊢
      by_contra ha
      rw [Bool.not_eq_false] at ha
      have hgt : b.gt ceiling = true := F64.lt_of_lt_of_le ha hab
      rw [hgt] at hb
      cases hb
    have hiff := OrderStat.getElem_iff_countP_not hperm (p := fun x => !x.gt ceiling) hclosed hlt
    simp only [Bool.not_not, Bool.not_eq_true'] at hiff
    have hpos := List.length_pos_iff.mpr hne
    rw [Option.any_some, hiff]
    omega

theorem latencyP99Ms_counts (hexact : env.Exact) (hnan : F64.nan ∉ s.latenciesMs)
    (hne : s.latenciesMs ≠ []) (hlen : s.latenciesMs.length < 2 ^ 64) :
    ∃ p, s.latencyP99Ms env = some (some p) ∧ p ∈ s.latenciesMs ∧
      99 * s.latenciesMs.length ≤ 100 * s.latenciesMs.countP (fun x => x.le p) ∧
      100 * s.latenciesMs.countP (fun x => x.lt p) < 99 * s.latenciesMs.length :=
  counts_of_nearestRank hnan hne (nearestRank_exact hexact hne hlen)

theorem latencyP99Ms_gt_iff (hexact : env.Exact) (hnan : F64.nan ∉ s.latenciesMs)
    (hlen : s.latenciesMs.length < 2 ^ 64) :
    ∃ p99, s.latencyP99Ms env = some p99 ∧
      ∀ ceiling, p99.any (fun p => p.gt ceiling) = false ↔
        s.latenciesMs.countP (fun x => x.gt ceiling) ≤ s.latenciesMs.length / 100 :=
  gt_iff_of_nearestRank hnan fun hne => nearestRank_exact hexact hne hlen

/-- The order of the samples does not show in the p99. -/
theorem latencyP99Ms_perm (hnan : F64.nan ∉ s.latenciesMs)
    {l : List F64} (hl : l.Perm s.latenciesMs) :
    { s with latenciesMs := l }.latencyP99Ms env = s.latencyP99Ms env := by
  have hnan' : F64.nan ∉ l := fun h => hnan (hl.mem_iff.mp h)
  obtain ⟨sorted, hsort, hperm, hsorted⟩ := sortBy_le_sorted env hnan
  obtain ⟨sorted', hsort', hperm', hsorted'⟩ := sortBy_le_sorted env hnan'
  have hsame : sorted' = sorted :=
    List.Perm.eq_of_pairwise (fun a b _ _ hab hba => F64.le_antisymm hab hba) hsorted' hsorted
      (hperm'.trans (hl.trans hperm.symm))
  have hempty : l.isEmpty = s.latenciesMs.isEmpty := by
    rw [Bool.eq_iff_iff, List.isEmpty_iff_length_eq_zero, List.isEmpty_iff_length_eq_zero,
      hl.length_eq]
  simp only [HealthSnapshot.latencyP99Ms, hempty, hsort, hsort', hsame]

/-! ## The error budget -/

/-- The error rate is within the budget exactly when the errors are within its share
of the requests. -/
theorem errorRate_gt_iff (hexact : env.Exact) {budget : F64} (hb : budget ≠ .nan) :
    (s.errorRate env).any (fun r => r.gt budget) = false ↔
      s.total = 0 ∨ (F64.fin s.errors.toNat).le (env.mul budget (env.ofNat s.total.toNat)) = true := by
  by_cases h0 : s.total = 0
  · simp [errorRate_none h0, h0]
  · have hpos : (0 : ℚ) < s.total.toNat := by
      have hne : s.total.toNat ≠ 0 := fun h => h0 (UInt64.toNat_inj.mp h)
      exact_mod_cast Nat.pos_of_ne_zero hne
    rw [errorRate_exact hexact h0, Option.any_some, FloatEnv.ofNat, hexact]
    simp only [h0, false_or, F64.gt]
    cases budget with
    | nan => exact absurd rfl hb
    | negInf => simp [F64.lt, FloatEnv.mul, hpos.ne', hpos, F64.le]
    | posInf => simp [F64.lt, FloatEnv.mul, hpos.ne', hpos, F64.le]
    | fin q =>
      simp only [F64.lt, FloatEnv.mul, hexact _, F64.le, decide_eq_false_iff_not,
        decide_eq_true_iff, not_lt]
      exact div_le_iff₀ hpos

end Samples

/-! ## Verdicts -/

/-- What a verdict on the window says, in terms of the stage and the samples. -/
structure PromoteMeans (env : FloatEnv) (g : HealthGate) (w : Window) : Prop where
  promote_iff : g.decides env w = some .promote ↔
    g.stage.minDuration ≤ w.observedFor ∧ g.stage.minSamples ≤ w.snapshot.total ∧
      (w.snapshot.total = 0 ∨ (F64.fin w.snapshot.errors.toNat).le
        (env.mul g.stage.maxErrorRate (env.ofNat w.snapshot.total.toNat)) = true) ∧
      w.snapshot.latenciesMs.countP (fun x => x.gt g.stage.maxLatencyP99Ms) ≤
        w.snapshot.latenciesMs.length / 100
  p99 : w.snapshot.latenciesMs ≠ [] →
    ∃ v g' p, g.observe env w.snapshot w.observedFor = some (v, g') ∧
      v.latencyP99Ms = some p ∧ p ∈ w.snapshot.latenciesMs ∧
      99 * w.snapshot.latenciesMs.length ≤
        100 * w.snapshot.latenciesMs.countP (fun x => x.le p) ∧
      100 * w.snapshot.latenciesMs.countP (fun x => x.lt p) <
        99 * w.snapshot.latenciesMs.length
  order_free : ∀ l : List F64, l.Perm w.snapshot.latenciesMs →
    g.observe env { w.snapshot with latenciesMs := l } w.observedFor =
      g.observe env w.snapshot w.observedFor

/-- The length of a `Vec` fits a `usize`, and floats are taken as rationals and
infinities. -/
theorem promote_means (hexact : env.Exact) (g : HealthGate) (w : Window)
    (hnan : F64.nan ∉ w.snapshot.latenciesMs) (hlen : w.snapshot.latenciesMs.length < 2 ^ 64)
    (hbudget : g.stage.maxErrorRate ≠ .nan) : PromoteMeans env g w where
  promote_iff := by
    obtain ⟨p99, hp99, hgt⟩ := latencyP99Ms_gt_iff hexact hnan hlen
    have hbreached : g.stage.breached env w.snapshot p99 = false ↔
        (w.snapshot.total = 0 ∨ (F64.fin w.snapshot.errors.toNat).le
          (env.mul g.stage.maxErrorRate (env.ofNat w.snapshot.total.toNat)) = true) ∧
        w.snapshot.latenciesMs.countP (fun x => x.gt g.stage.maxLatencyP99Ms) ≤
          w.snapshot.latenciesMs.length / 100 := by
      rw [Stage.breached, Bool.or_eq_false_iff, errorRate_gt_iff hexact hbudget, hgt]
    rw [HealthGate.observe_promote_iff, HealthGate.evidence_eq_healthy_iff, hp99]
    simp only [Option.some.injEq, exists_eq_left', hbreached]
  p99 hne := by
    obtain ⟨p, hp99, hcounts⟩ := latencyP99Ms_counts hexact hnan hne hlen
    obtain ⟨v, g', hobs⟩ := HealthGate.observe_answers env (g := g) hp99
    rw [HealthGate.observe_latencyP99Ms env hobs, Option.some.injEq] at hp99
    exact ⟨v, g', p, hobs, hp99, hcounts⟩
  order_free l hl := by
    have hp99 := @latencyP99Ms_perm env _ hnan l hl
    have hrate : { w.snapshot with latenciesMs := l }.errorRate env =
        w.snapshot.errorRate env := rfl
    simp only [HealthGate.observe, HealthGate.holdVerdict, hp99, hrate]

theorem promote_means_without_ceiling :
    sampleGate.decides .exact ⟨⟨200, 0, [.fin 3, .posInf, .fin 3]⟩, 0⟩ = some .promote :=
  (@promote_means .exact (fun _ => rfl) sampleGate ⟨⟨200, 0, [.fin 3, .posInf, .fin 3]⟩, 0⟩
    (by decide) (by decide) (by decide)).promote_iff.mpr
      ⟨by decide, by decide, Or.inr (by decide +kernel), by decide +kernel⟩

end FlagKit
