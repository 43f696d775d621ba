import FlagKit.Lifecycle.Staleness

/-!
# What the aging ratio does

A flag on which no signal fires is fresh or aging, and the ratio of the policy decides.
It is a public field and may be any double.  A lower ratio judges no flag more mildly.
From 1 on, and when it is not a number, it judges none: a flag that old has passed its
deadline.  At or below 0 every flag is aging.  At the default it is half the deadline, in
whole days, that makes the difference (`aging_ratio_means`).

The signals do not depend on it.  There are at most two of them, since a flag that was
never evaluated is at 0 percent and one that is fully rolled out at 100.
-/

namespace FlagKit

variable {env : FloatEnv}

theorem FloatEnv.Rounds.convertsU32 (h : env.Rounds) : env.ConvertsU32 := by
  intro n
  have hlt := n.toNat_lt
  exact h.ofNat_eq (by omega)

theorem FlagKind.deadline_pos (k : FlagKind) : 0 < k.deadline.toNat := by
  cases k <;> decide

namespace FlagPolicy

variable {p q : FlagPolicy} {f : FlagFacts}

/-! ## The threshold -/

theorem pastAging_eq (h : env.Rounds) (p : FlagPolicy) (f : FlagFacts) :
    p.pastAging env f =
      (env.mul (.fin f.kind.deadline.toNat) p.agingRatio).le (.fin f.effectiveAge.toNat) := by
  rw [pastAging, h.convertsU32, h.convertsU32]

theorem deadline_pos_rat (f : FlagFacts) : (0 : ℚ) < f.kind.deadline.toNat := by
  exact_mod_cast f.kind.deadline_pos

/-- What a lower ratio makes of a flag that is aging. -/
theorem pastAging_antitone (h : env.Rounds) (hle : p.agingRatio.le q.agingRatio = true)
    (haging : q.pastAging env f = true) : p.pastAging env f = true := by
  rw [pastAging_eq h] at haging ⊢
  exact F64.le_trans (h.mul_le (deadline_pos_rat f) hle) haging

theorem pastAging_nan (h : env.Rounds) (hratio : p.agingRatio = .nan) :
    p.pastAging env f = false := by
  rw [pastAging_eq h, hratio]
  rfl

/-- The ratio 1 is reached with the deadline. -/
theorem deadline_le_of_pastAging (h : env.Rounds) (hratio : (F64.fin 1).le p.agingRatio = true)
    (haging : p.pastAging env f = true) : f.kind.deadline ≤ f.effectiveAge := by
  rw [pastAging_eq h] at haging
  have hone : env.mul (.fin f.kind.deadline.toNat) (.fin 1) = .fin f.kind.deadline.toNat := by
    show env.round (f.kind.deadline.toNat * 1) = _
    rw [mul_one]
    exact h.convertsU32 f.kind.deadline
  have hle := F64.le_trans (h.mul_le (deadline_pos_rat f) hratio) haging
  rw [hone, F64.le, decide_eq_true_eq] at hle
  rw [UInt32.le_iff_toNat_le]
  exact_mod_cast hle

theorem pastAging_of_nonpos (h : env.Rounds) (hratio : p.agingRatio.le (.fin 0) = true) :
    p.pastAging env f = true := by
  have hzero : env.mul (.fin f.kind.deadline.toNat) (.fin 0) = .fin 0 := by
    show env.round (f.kind.deadline.toNat * 0) = _
    rw [mul_zero]
    have hnat := h.ofNat_eq (n := 0) (by omega)
    rw [FloatEnv.ofNat, Nat.cast_zero] at hnat
    exact hnat
  have hage : (F64.fin 0).le (.fin f.effectiveAge.toNat) = true := by
    rw [F64.le, decide_eq_true_eq]
    exact Nat.cast_nonneg _
  rw [pastAging_eq h]
  refine F64.le_trans (h.mul_le (deadline_pos_rat f) hratio) ?_
  rw [hzero]
  exact hage

theorem pastAging_half (h : env.Rounds) (hratio : p.agingRatio = .fin (1 / 2)) :
    p.pastAging env f = true ↔ f.kind.deadline.toNat ≤ 2 * f.effectiveAge.toNat := by
  have hlt := f.kind.deadline.toNat_lt
  rw [pastAging_eq h, hratio, h.half_eq (by omega), F64.le, decide_eq_true_eq,
    div_le_iff₀ (by norm_num), mul_comm]
  exact_mod_cast Iff.rfl

/-! ## The signals -/

/-- Which signals of the report come first. -/
def rank : StaleSignal → Nat
  | .agedPastDeadline _ _ => 0
  | .neverEvaluated => 1
  | .fullyRolledOut => 2

theorem firedSignals_sorted (p : FlagPolicy) (f : FlagFacts) :
    (p.firedSignals f).Pairwise (fun s t => rank s < rank t) := by
  unfold firedSignals
  by_cases haged : f.effectiveAge ≥ f.kind.deadline <;>
    cases (p.staleWhenNeverEvaluated && f.evaluationTracked && f.lastEvaluatedAgeDays.isNone &&
      f.percentage == 0) <;>
    cases (p.staleWhenFullyRolledOut && f.percentage == 100) <;>
    simp [haged, rank]

theorem not_both_percentages (p : FlagPolicy) (f : FlagFacts) :
    ¬ (p.Fires f .neverEvaluated ∧ p.Fires f .fullyRolledOut) := by
  intro hboth
  obtain ⟨⟨-, -, -, hzero⟩, -, hfull⟩ := hboth
  rw [hzero] at hfull
  exact absurd hfull (by decide)

/-! ## Every ratio -/

/-- What the ratio of a policy makes of a flag. -/
structure RatioMeans (env : FloatEnv) (p : FlagPolicy) (f : FlagFacts) : Prop where
  stricter : ∀ q : FlagPolicy, q.staleWhenFullyRolledOut = p.staleWhenFullyRolledOut →
    q.staleWhenNeverEvaluated = p.staleWhenNeverEvaluated →
      q.agingRatio.le p.agingRatio = true → NoStaler (p.classify env f) (q.classify env f)
  never : p.agingRatio = .nan ∨ (F64.fin 1).le p.agingRatio = true →
    (p.classify env f).staleness ≠ .aging
  always : p.agingRatio.le (.fin 0) = true → (p.classify env f).staleness ≠ .fresh
  half : p.agingRatio = .fin (1 / 2) → ((p.classify env f).staleness = .aging ↔
    f.kind.isPermanent = false ∧ (∀ s, ¬ p.Fires f s) ∧
      f.kind.deadline.toNat ≤ 2 * f.effectiveAge.toNat)
  in_order : (p.classify env f).signals.Pairwise (fun s t => rank s < rank t)
  one_percentage : ¬ (StaleSignal.neverEvaluated ∈ (p.classify env f).signals ∧
    StaleSignal.fullyRolledOut ∈ (p.classify env f).signals)

theorem classify_aging_iff : (p.classify env f).staleness = .aging ↔
    f.kind.isPermanent = false ∧ (∀ s, ¬ p.Fires f s) ∧ p.pastAging env f = true := by
  cases hkind : f.kind.isPermanent with
  | true =>
    rw [classify_permanent hkind]
    simp
  | false =>
    have hnil : (p.classify env f).signals = [] ↔ ∀ s, ¬ p.Fires f s := by
      rw [List.eq_nil_iff_forall_not_mem]
      exact forall_congr' fun s => not_congr (mem_signals_iff.trans (and_iff_right hkind))
    rw [classify_staleness hkind, verdict_eq_aging_iff, hnil]
    simp

theorem classify_fresh (hfresh : (p.classify env f).staleness = .fresh) :
    p.pastAging env f = false := by
  cases hkind : f.kind.isPermanent with
  | true =>
    rw [classify_permanent hkind] at hfresh
    cases hfresh
  | false =>
    rw [classify_staleness hkind] at hfresh
    cases haging : p.pastAging env f with
    | false => rfl
    | true =>
      rw [haging] at hfresh
      cases hsignals : (p.classify env f).signals with
      | nil =>
        rw [hsignals] at hfresh
        cases hfresh
      | cons s ss =>
        rw [hsignals] at hfresh
        cases hfresh

/-- For every ratio a policy can hold and every flag. -/
theorem aging_ratio_means (h : env.Rounds) (p : FlagPolicy) (f : FlagFacts) :
    RatioMeans env p f where
  stricter q hrolled hnever hratio := by
    refine noStaler_of_fires rfl (fun s hs => ⟨s, ?_, rfl⟩) (pastAging_antitone h hratio)
    cases s with
    | agedPastDeadline age deadline => exact hs
    | neverEvaluated => exact ⟨hnever.trans hs.1, hs.2⟩
    | fullyRolledOut => exact ⟨hrolled.trans hs.1, hs.2⟩
  never hratio haging := by
    obtain ⟨-, hnone, hpast⟩ := classify_aging_iff.mp haging
    rcases hratio with hnan | hone
    · rw [pastAging_nan h hnan] at hpast
      cases hpast
    · exact hnone (.agedPastDeadline f.effectiveAge f.kind.deadline)
        ⟨rfl, rfl, deadline_le_of_pastAging h hone hpast⟩
  always hratio hfresh := by
    have hpast := classify_fresh hfresh
    rw [pastAging_of_nonpos h hratio] at hpast
    cases hpast
  half hratio := by
    rw [classify_aging_iff, pastAging_half h hratio]
  in_order := by
    cases hkind : f.kind.isPermanent with
    | true =>
      rw [classify_permanent hkind]
      exact List.Pairwise.nil
    | false =>
      rw [classify_lasting hkind]
      exact firedSignals_sorted p f
  one_percentage hboth :=
    not_both_percentages p f ⟨(mem_signals_iff.mp hboth.1).2, (mem_signals_iff.mp hboth.2).2⟩

/-- A release flag turns aging on its fifteenth day. -/
theorem aging_ratio_means_halfway :
    (standard.classify .exact ⟨.release, 15, none, 10, some 1, true⟩).staleness = .aging := by
  refine ((aging_ratio_means FloatEnv.exact_rounds standard
    ⟨.release, 15, none, 10, some 1, true⟩).half rfl).mpr ⟨rfl, fun s hs => ?_, by decide⟩
  cases s with
  | agedPastDeadline age deadline => exact absurd hs.2.2 (by decide)
  | neverEvaluated => exact absurd hs.2.2.1 (by decide)
  | fullyRolledOut => exact absurd hs.2 (by decide)

end FlagPolicy
end FlagKit
