import FlagKit.Gate.Standard
import FlagKit.Gate.Unusable
import FlagKit.Numeric.Binary64

/-!
# Rounding does not show in a verdict

The gate computes with doubles: a rank as `len * 0.99`, an error rate as a quotient, and
neither `0.99` nor a budget such as `0.01` is a double.  Rounding shows in neither.

The rank is the nearest rank: a product that is not a whole number is a hundredth of a
sample away from one, and the literal is below 99 hundredths by less
(`p99_nearest_rank`).  The rate is over a budget of `a` in `b` exactly when more than `a`
requests in `b` failed: a rate over the budget is over it by a fraction whose
denominator is `b` times the requests, and two doubles lie in between.

So a controller takes the same course on every machine that rounds as IEEE 754 asks, and
the one it takes with exact arithmetic (`rounding_free`).

The bounds, 2^46 samples and 2^51 requests times `b`, are far above what a window holds.
-/

namespace FlagKit

open Machine RolloutController

variable {env : FloatEnv}

/-- The double nearest to 99 hundredths is below them. -/
def FloatEnv.P99Below (env : FloatEnv) : Prop := (env.round (99 / 100)).le (.fin (99 / 100)) = true

theorem FloatEnv.exact_p99Below : FloatEnv.exact.P99Below := decide_eq_true le_rfl

theorem FloatEnv.binary64_p99Below : FloatEnv.binary64.P99Below := by
  unfold FloatEnv.P99Below
  decide +kernel

/-! ## The rank -/

/-- The literal `0.99` is at most 2^-53 below 99 hundredths. -/
theorem p99_literal (h : env.Rounds) (hlit : env.P99Below) :
    ∃ r : ℚ, env.round (99 / 100) = .fin r ∧ 8917127262193582 / 2 ^ 53 ≤ r ∧ r ≤ 99 / 100 := by
  have hlow := h.keeps 8917127262193582 53 (by norm_num) (by norm_num)
  have hone := h.keeps 1 0 (by norm_num) (by norm_num)
  rw [Nat.cast_ofNat] at hlow
  rw [Nat.cast_one, pow_zero, div_one] at hone
  have hbelow : (8917127262193582 / 2 ^ 53 : ℚ) ≤ 99 / 100 := by norm_num
  have habove : (99 / 100 : ℚ) ≤ 1 := by norm_num
  obtain ⟨r, hr, hge, -⟩ := h.squeeze hlow hone hbelow habove
  rw [FloatEnv.P99Below, hr] at hlit
  exact ⟨r, hr, hge, of_decide_eq_true hlit⟩

/-- A whole number is not crossed: a product that is not one is a hundredth of a
sample away from it, the literal less than that. -/
theorem p99Rank_rounded (h : env.Rounds) (hlit : env.P99Below) {n : Nat} (hpos : 0 < n)
    (hlt : n < 2 ^ 46) : HealthSnapshot.p99Rank env n = n - n / 100 := by
  obtain ⟨r, hr, hge, hle⟩ := p99_literal h hlit
  obtain ⟨k, hk⟩ : ∃ k, k + 1 = n - n / 100 := ⟨n - n / 100 - 1, by omega⟩
  have hupper : 99 * n ≤ 100 * (k + 1) := by omega
  have hlower : 100 * k + 1 ≤ 99 * n := by omega
  have hupperq : (99 : ℚ) * n ≤ 100 * (k + 1) := by exact_mod_cast hupper
  have hlowerq : (100 : ℚ) * k + 1 ≤ 99 * n := by exact_mod_cast hlower
  have hnq : (n : ℚ) < 2 ^ 46 := by exact_mod_cast hlt
  have hn0 : (0 : ℚ) ≤ n := Nat.cast_nonneg n
  -- a double between the whole number below and the product
  have hkeep := h.keeps (128 * k + 1) 7 (by omega) (by norm_num)
  have hwhole := h.keeps (k + 1) 0 (by omega) (by norm_num)
  rw [pow_zero, div_one] at hwhole
  have hbelow : (((128 * k + 1 : Nat) : ℚ) / 2 ^ 7) ≤ n * r := by
    have hnr : (n : ℚ) * (8917127262193582 / 2 ^ 53) ≤ n * r := mul_le_mul_of_nonneg_left hge hn0
    refine le_trans ?_ hnr
    push_cast
    linarith only [hnq, hlowerq]
  have habove : (n : ℚ) * r ≤ ((k + 1 : Nat) : ℚ) := by
    have hnr : (n : ℚ) * r ≤ n * (99 / 100) := mul_le_mul_of_nonneg_left hle hn0
    push_cast
    linarith only [hnr, hupperq]
  obtain ⟨x, hx, hxge, hxle⟩ := h.squeeze hkeep hwhole hbelow habove
  have hprod : env.mul (env.ofNat n) (env.round (99 / 100)) = .fin x := by
    rw [h.ofNat_eq (by omega), hr]
    exact hx
  rw [← hk]
  refine rank_of_ceil hprod ?_ (by omega) (by omega)
  rw [Int.ceil_eq_iff]
  push_cast at hxge hxle ⊢
  constructor
  · linarith only [hxge]
  · exact hxle

/-! ## The p99 -/

/-- Numbers are usable evidence in doubles: the place of the p99 leaves at most one sample
in a hundred behind it. -/
theorem usable_of_numbers (h : env.Rounds) (hlit : env.P99Below) {l : List F64} {ceiling : F64}
    (hc : ceiling ≠ .nan) (hnan : F64.nan ∉ l) (hlen : l.length < 2 ^ 46) :
    Usable env l ceiling := by
  refine ⟨hc, hnan, Or.inl ?_⟩
  by_cases hne : l = []
  · rw [hne]
    exact Nat.zero_le _
  · rw [p99Place, p99Rank_rounded h hlit (List.length_pos_iff.mpr hne) hlen]
    omega

theorem p99_nearest_rank (h : env.Rounds) (hlit : env.P99Below) {s : HealthSnapshot}
    (hnan : F64.nan ∉ s.latenciesMs) (hlen : s.latenciesMs.length < 2 ^ 46) :
    ∃ p99, s.latencyP99Ms env = some p99 ∧
      (s.latenciesMs ≠ [] → ∃ p, p99 = some p ∧ p ∈ s.latenciesMs ∧
        99 * s.latenciesMs.length ≤ 100 * s.latenciesMs.countP (fun x => x.le p) ∧
        100 * s.latenciesMs.countP (fun x => x.lt p) < 99 * s.latenciesMs.length) ∧
      ∀ ceiling, p99.any (fun p => p.gt ceiling) = false ↔
        s.latenciesMs.countP (fun x => x.gt ceiling) ≤ s.latenciesMs.length / 100 := by
  have hrank : s.latenciesMs ≠ [] → NearestRank env s := fun hne =>
    p99Rank_rounded h hlit (List.length_pos_iff.mpr hne) hlen
  obtain ⟨p99, hp99, hgt⟩ := gt_iff_of_nearestRank hnan hrank
  refine ⟨p99, hp99, fun hne => ?_, hgt⟩
  obtain ⟨p, hp, hcounts⟩ := counts_of_nearestRank hnan hne (hrank hne)
  rw [hp99, Option.some.injEq] at hp
  exact ⟨p, hp, hcounts⟩

/-- In doubles the p99 of three samples is above 30 ms when one of them is. -/
theorem p99_nearest_rank_binary64 :
    ∃ p99, HealthSnapshot.latencyP99Ms .binary64 ⟨3, 0, [.fin 12, .fin 40, .fin 7]⟩ = some p99 ∧
      p99.any (fun p => p.gt (.fin 30)) = true := by
  obtain ⟨p99, hp99, -, hgt⟩ := @p99_nearest_rank .binary64 FloatEnv.binary64_rounds
    FloatEnv.binary64_p99Below ⟨3, 0, [.fin 12, .fin 40, .fin 7]⟩ (by decide) (by decide)
  refine ⟨p99, hp99, ?_⟩
  rw [← Bool.not_eq_false, hgt]
  decide +kernel

/-! ## The error rate -/

/-- A quotient is at least that of every smaller whole number. -/
theorem quotient_ge (h : env.Rounds) {e e' t : Nat} (hle : e' ≤ e) (he : e' < 2 ^ 53)
    (ht : 0 < t) : (env.round (e' / t)).le (env.div (env.ofNat e) (.fin t)) = true := by
  have htq : (0 : ℚ) < t := by exact_mod_cast ht
  have hcast : (e' : ℚ) ≤ e := by exact_mod_cast hle
  have hmono : (env.ofNat e').le (env.ofNat e) = true := h.mono hcast
  rw [h.ofNat_eq he] at hmono
  cases hx : env.ofNat e with
  | nan | negInf =>
    rw [hx] at hmono
    cases hmono
  | posInf =>
    rw [FloatEnv.div, if_neg (not_lt_of_gt htq)]
    exact F64.le_posInf (F64.ne_nan_of_le (h.mono (le_refl ((e' : ℚ) / t)))).1
  | fin x =>
    rw [hx] at hmono
    have hex : (e' : ℚ) ≤ x := of_decide_eq_true hmono
    rw [FloatEnv.div, if_neg (ne_of_gt htq)]
    exact h.mono (div_le_div_of_nonneg_right hex (le_of_lt htq))

/-- Above a fraction with a small denominator there are two doubles before the next
such fraction. -/
theorem literal_lt (h : env.Rounds) {a b e t : Nat} (hab : a ≤ b) (hb : 0 < b) (ht : 0 < t)
    (hbt : b * t ≤ 2 ^ 51) (hlt : a * t < b * e) :
    (env.round (a / b)).lt (env.round (e / t)) = true := by
  have hbq : (0 : ℚ) < b := by exact_mod_cast hb
  have htq : (0 : ℚ) < t := by exact_mod_cast ht
  obtain ⟨u, hu⟩ : ∃ u, u = (a * 2 ^ 52 + (b - 1)) / b := ⟨_, rfl⟩
  have hdiv := Nat.div_add_mod (a * 2 ^ 52 + (b - 1)) b
  have hmod := Nat.mod_lt (a * 2 ^ 52 + (b - 1)) hb
  rw [← hu] at hdiv
  have hlow : a * 2 ^ 52 ≤ b * u := by omega
  have hhigh : b * u + 1 ≤ a * 2 ^ 52 + b := by omega
  have hu52 : u ≤ 2 ^ 52 := by
    by_contra hgt
    have hmul : b * (2 ^ 52 + 1) ≤ b * u := Nat.mul_le_mul_left b (by omega)
    have hmul' : a * 2 ^ 52 ≤ b * 2 ^ 52 := Nat.mul_le_mul_right _ hab
    omega
  have hkeep := h.keeps u 52 (by omega) (by norm_num)
  have hkeep' := h.keeps (u + 1) 52 (by omega) (by norm_num)
  have hlowq : (a : ℚ) * 2 ^ 52 ≤ b * u := by exact_mod_cast hlow
  have hhighq : (b : ℚ) * u + 1 ≤ a * 2 ^ 52 + b := by exact_mod_cast hhigh
  have hltq : (a : ℚ) * t + 1 ≤ b * e := by exact_mod_cast hlt
  have hbtq : (b : ℚ) * t ≤ 2 ^ 51 := by exact_mod_cast hbt
  have hbelow : (a : ℚ) / b ≤ u / 2 ^ 52 := by
    rw [div_le_div_iff₀ hbq (by norm_num), mul_comm (u : ℚ)]
    exact hlowq
  have habove : (((u + 1 : Nat) : ℚ) / 2 ^ 52) ≤ e / t := by
    have hfirst : ((u + 1 : Nat) : ℚ) / 2 ^ 52 ≤ (a + b / 2 ^ 51) / b := by
      rw [div_le_div_iff₀ (by norm_num) hbq]
      push_cast
      linarith only [hhighq]
    have hsecond : ((a : ℚ) + b / 2 ^ 51) / b ≤ e / t := by
      rw [div_le_div_iff₀ hbq htq]
      linarith only [hltq, hbtq]
    exact le_trans hfirst hsecond
  have hround := h.mono hbelow
  have hround' := h.mono habove
  rw [hkeep] at hround
  rw [hkeep'] at hround'
  have hnext : (F64.fin ((u : ℚ) / 2 ^ 52)).lt (.fin (((u + 1 : Nat) : ℚ) / 2 ^ 52)) = true := by
    refine decide_eq_true (div_lt_div_of_pos_right ?_ (by norm_num))
    exact_mod_cast Nat.lt_succ_self u
  exact F64.lt_of_lt_of_le (F64.lt_of_le_of_lt hround hnext) hround'

theorem rate_gt_iff (h : env.Rounds) {a b e t : Nat} (hab : a ≤ b) (hb : 0 < b) (ht : 0 < t)
    (hbt : b * t ≤ 2 ^ 51) :
    (env.div (env.ofNat e) (env.ofNat t)).gt (env.round (a / b)) = true ↔ a * t < b * e := by
  have ht51 : t ≤ 2 ^ 51 := le_trans (Nat.le_mul_of_pos_left t hb) hbt
  have hbq : (0 : ℚ) < b := by exact_mod_cast hb
  have htq : (0 : ℚ) < t := by exact_mod_cast ht
  rw [h.ofNat_eq (show t < 2 ^ 53 by omega)]
  constructor
  · intro hgt
    by_contra hle
    rw [Nat.not_lt] at hle
    have het : e ≤ t := Nat.le_of_mul_le_mul_left (hle.trans (Nat.mul_le_mul_right t hab)) hb
    have hq : (e : ℚ) / t ≤ a / b := by
      rw [div_le_div_iff₀ htq hbq, mul_comm (e : ℚ)]
      exact_mod_cast hle
    have hdiv : env.div (env.ofNat e) (.fin t) = env.round (e / t) := by
      rw [h.ofNat_eq (show e < 2 ^ 53 by omega), FloatEnv.div, if_neg (ne_of_gt htq)]
    rw [hdiv] at hgt
    have hirrefl := F64.lt_of_lt_of_le hgt (h.mono hq)
    rw [F64.lt_irrefl] at hirrefl
    cases hirrefl
  · intro hlt
    -- a count of errors that is too great for a double may be cut
    obtain ⟨e', hle, he, hlt'⟩ : ∃ e', e' ≤ e ∧ e' < 2 ^ 53 ∧ a * t < b * e' := by
      by_cases he : e < 2 ^ 53
      · exact ⟨e, le_refl e, he, hlt⟩
      · refine ⟨2 ^ 52, by omega, by norm_num, ?_⟩
        have hat : a * t ≤ b * t := Nat.mul_le_mul_right t hab
        have hcut : b * 1 ≤ b * 2 ^ 52 := Nat.mul_le_mul_left b (by norm_num)
        omega
    exact F64.lt_of_lt_of_le (literal_lt h hab hb ht hbt hlt') (quotient_ge h hle he ht)

/-! ## The evidence -/

/-- A window of which a gate with budgets in `b` parts can count everything. -/
structure Countable (b : Nat) (w : Window) : Prop where
  total_le : b * w.snapshot.total.toNat ≤ 2 ^ 51
  not_nan : F64.nan ∉ w.snapshot.latenciesMs
  samples_lt : w.snapshot.latenciesMs.length < 2 ^ 46

/-- The evidence of a window in whole numbers, for a budget of `a` errors in `b`. -/
def Stage.counted (s : Stage) (a b : Nat) (w : Window) : Evidence :=
  if w.observedFor < s.minDuration ∨ w.snapshot.total < s.minSamples then .insufficient
  else if (w.snapshot.total ≠ 0 ∧ a * w.snapshot.total.toNat < b * w.snapshot.errors.toNat) ∨
      w.snapshot.latenciesMs.length / 100 <
        w.snapshot.latenciesMs.countP (fun x => x.gt s.maxLatencyP99Ms) then .breach
  else .healthy

theorem errorRate_gt_literal_iff (h : env.Rounds) {a b : Nat} (hab : a ≤ b) (hb : 0 < b)
    {s : HealthSnapshot} (hs : b * s.total.toNat ≤ 2 ^ 51) :
    (s.errorRate env).any (fun r => r.gt (env.round (a / b))) = true ↔
      s.total ≠ 0 ∧ a * s.total.toNat < b * s.errors.toNat := by
  by_cases h0 : s.total = 0
  · simp [errorRate_none h0, h0]
  · have hpos : 0 < s.total.toNat := by
      rw [Nat.pos_iff_ne_zero]
      exact fun heq => h0 (UInt64.toNat_inj.mp heq)
    rw [HealthSnapshot.errorRate, if_neg h0, Option.any_some, rate_gt_iff h hab hb hpos hs]
    exact ⟨fun hlt => ⟨h0, hlt⟩, And.right⟩

theorem evidence_counted (h : env.Rounds) (hlit : env.P99Below) {a b : Nat} (hab : a ≤ b)
    (hb : 0 < b) {s : Stage} (hs : s.maxErrorRate = env.round (a / b)) {w : Window}
    (hw : Countable b w) : s.evidence env w = some (s.counted a b w) := by
  have hrate := errorRate_gt_literal_iff h hab hb hw.total_le
  obtain ⟨p99, hp99, hgt⟩ := gt_iff_of_nearestRank hw.not_nan (fun hne =>
    p99Rank_rounded h hlit (List.length_pos_iff.mpr hne) hw.samples_lt)
  have habove := (hgt s.maxLatencyP99Ms).not
  rw [Bool.not_eq_false, Nat.not_le] at habove
  rw [s.evidence_of_p99 env hp99, Stage.counted, Stage.breached, hs]
  simp only [Bool.or_eq_true, hrate, habove]

/-! ## Two machines -/

section Machines

variable {env' : FloatEnv} {b : Nat}

/-- The same stage in the source, whose budget each machine has rounded. -/
structure WrittenAlike (env env' : FloatEnv) (b : Nat) (s s' : Stage) : Prop where
  percentage_eq : s.percentage = s'.percentage
  minDuration_eq : s.minDuration = s'.minDuration
  minSamples_eq : s.minSamples = s'.minSamples
  maxLatencyP99Ms_eq : s.maxLatencyP99Ms = s'.maxLatencyP99Ms
  budget : ∃ a, a ≤ b ∧ s.maxErrorRate = env.round (a / b) ∧ s'.maxErrorRate = env'.round (a / b)

/-- Where two controllers on two machines agree. -/
structure SameCourse (env env' : FloatEnv) (b : Nat) (c c' : RolloutController) : Prop where
  rollout_eq : c.rollout = c'.rollout
  stages : List.Forall₂ (WrittenAlike env env' b) c.gate.stages c'.gate.stages
  failureLimit_eq : c.gate.failureLimit = c'.gate.failureLimit
  stageIndex_eq : c.gate.stageIndex = c'.gate.stageIndex
  consecutiveFailures_eq : c.gate.consecutiveFailures = c'.gate.consecutiveFailures

theorem evidence_writtenAlike (h : env.Rounds) (hlit : env.P99Below) (h' : env'.Rounds)
    (hlit' : env'.P99Below) (hb : 0 < b) {s s' : Stage} (hs : WrittenAlike env env' b s s')
    {w : Window} (hw : Countable b w) : s.evidence env w = s'.evidence env' w := by
  obtain ⟨a, hab, hbudget, hbudget'⟩ := hs.budget
  rw [evidence_counted h hlit hab hb hbudget hw, evidence_counted h' hlit' hab hb hbudget' hw,
    Stage.counted, Stage.counted, hs.minDuration_eq, hs.minSamples_eq, hs.maxLatencyP99Ms_eq]

theorem stage_writtenAlike {c c' : RolloutController} (h : SameCourse env env' b c c') :
    WrittenAlike env env' b c.gate.stage c'.gate.stage := by
  have hlen := h.stages.length_eq
  have hmin : min c.gate.stageIndex (c.gate.stages.length - 1) =
      min c'.gate.stageIndex (c'.gate.stages.length - 1) := by
    rw [h.stageIndex_eq, hlen]
  have hget := (List.forall₂_iff_get.mp h.stages).2 _ (c.gate.clamp_lt c.gate.stageIndex)
    (by rw [hmin]; exact c'.gate.clamp_lt c'.gate.stageIndex)
  unfold HealthGate.stage
  simp only [hmin] at hget ⊢
  exact hget

theorem stagePercentage_writtenAlike {stages stages' : List Stage}
    (h : List.Forall₂ (WrittenAlike env env' b) stages stages') (i : Nat) :
    stagePercentage stages i = stagePercentage stages' i := by
  have hmap : stages.map Stage.percentage = stages'.map Stage.percentage := by
    induction h with
    | nil => rfl
    | cons hs _ ih => rw [List.map_cons, List.map_cons, hs.percentage_eq, ih]
  rw [stagePercentage, stagePercentage, ← List.getElem?_map, ← List.getElem?_map, hmap]

theorem feed_sameCourse (h : env.Rounds) (hlit : env.P99Below) (h' : env'.Rounds)
    (hlit' : env'.P99Below) (hb : 0 < b) {c c' : RolloutController}
    (hc : SameCourse env env' b c c') {w : Window} (hw : Countable b w) :
    decided (c.feed env w).1 = decided (c'.feed env' w).1 ∧
      SameCourse env env' b (c.feed env w).2 (c'.feed env' w).2 := by
  have heq := evidence_writtenAlike h hlit h' hlit' hb (stage_writtenAlike hc) hw
  have hlimit : c.gate.failureLimit ≤ c.gate.consecutiveFailures + 1 ↔
      c'.gate.failureLimit ≤ c'.gate.consecutiveFailures + 1 := by
    rw [hc.failureLimit_eq, hc.consecutiveFailures_eq]
  have hup : c.gate.stageIndex + 1 < c.gate.stages.length ↔
      c'.gate.stageIndex + 1 < c'.gate.stages.length := by
    rw [hc.stageIndex_eq, hc.stages.length_eq]
  cases hk : c.gate.stage.evidence env w with
  | none =>
    rw [feed_panics env hk, feed_panics env' (heq.symm.trans hk)]
    exact ⟨rfl, hc⟩
  | some k =>
    cases k with
    | insufficient =>
      obtain ⟨hdec, hnext⟩ := feed_insufficient env hk
      obtain ⟨hdec', hnext'⟩ := feed_insufficient env' (heq.symm.trans hk)
      rw [hdec, hdec', hnext, hnext']
      exact ⟨rfl, hc⟩
    | breach =>
      by_cases hl : c.gate.failureLimit ≤ c.gate.consecutiveFailures + 1
      · obtain ⟨hdec, hnext⟩ := feed_breach_rollback env hk hl
        obtain ⟨hdec', hnext'⟩ := feed_breach_rollback env' (heq.symm.trans hk) (hlimit.mp hl)
        rw [hdec, hdec', hnext, hnext']
        refine ⟨rfl, ?_, hc.stages, hc.failureLimit_eq, rfl, rfl⟩
        exact congrArg Rollout.resetExposure hc.rollout_eq
      · obtain ⟨hdec, hnext⟩ := feed_breach_hold env hk hl
        obtain ⟨hdec', hnext'⟩ := feed_breach_hold env' (heq.symm.trans hk) (mt hlimit.mpr hl)
        rw [hdec, hdec', hnext, hnext']
        refine ⟨rfl, hc.rollout_eq, hc.stages, hc.failureLimit_eq, hc.stageIndex_eq, ?_⟩
        exact congrArg (· + 1) hc.consecutiveFailures_eq
    | healthy =>
      by_cases hlt : c.gate.stageIndex + 1 < c.gate.stages.length
      · obtain ⟨hdec, hnext⟩ := feed_healthy_up env hk hlt
        obtain ⟨hdec', hnext'⟩ := feed_healthy_up env' (heq.symm.trans hk) (hup.mp hlt)
        rw [hdec, hdec', hnext, hnext']
        refine ⟨rfl, ?_, hc.stages, hc.failureLimit_eq, congrArg (· + 1) hc.stageIndex_eq, rfl⟩
        show (c.rollout.advance _).2 = (c'.rollout.advance _).2
        rw [hc.rollout_eq, hc.stageIndex_eq, stagePercentage_writtenAlike hc.stages]
      · obtain ⟨hdec, hnext⟩ := feed_healthy_top env hk (Nat.not_lt.mp hlt)
        obtain ⟨hdec', hnext'⟩ := feed_healthy_top env' (heq.symm.trans hk)
          (Nat.not_lt.mp (mt hup.mpr hlt))
        rw [hdec, hdec', hnext, hnext']
        exact ⟨rfl, hc.rollout_eq, hc.stages, hc.failureLimit_eq, hc.stageIndex_eq, rfl⟩

/-- Windows without NaN are all decided on. -/
theorem decisions_of_countable {ws : List Window} (hws : ∀ w ∈ ws, Countable b w)
    (c : RolloutController) :
    ∃ ds : List Decision, (trace (feed env) c ws).map Observed.decision = ds.map some := by
  induction ws generalizing c with
  | nil => exact ⟨[], rfl⟩
  | cons w ws ih =>
    rw [List.forall_mem_cons] at hws
    obtain ⟨ds, hds⟩ := ih hws.2 (c.feed env w).2
    have hk := Stage.evidence_of_sorts env c.gate.stage
      (HealthSnapshot.sorts_of_nan_not_mem env hws.1.not_nan)
    have hanswered : Observed.decision (event (feed env) c w) ≠ none := by
      refine mt (c.decided_feed_eq_none_iff env w).mp ?_
      simp [hk]
    obtain ⟨d, hd⟩ := Option.ne_none_iff_exists'.mp hanswered
    exact ⟨d :: ds, by rw [trace_cons, List.map_cons, List.map_cons, hd, hds]⟩

/-- Two controllers over the same gate, on two machines that round, decide alike on every
window and stay in the same state. -/
theorem rounding_free (h : env.Rounds) (hlit : env.P99Below) (h' : env'.Rounds)
    (hlit' : env'.P99Below) (hb : 0 < b) {stages stages' : List Stage}
    (hstages : List.Forall₂ (WrittenAlike env env' b) stages stages') {limit : UInt32}
    {g g' : HealthGate} (hg : HealthGate.new stages limit = .ok g)
    (hg' : HealthGate.new stages' limit = .ok g') (r : Rollout) {ws : List Window}
    (hws : ∀ w ∈ ws, Countable b w) :
    ∃ ds : List Decision,
      (trace (feed env) (RolloutController.new r g) ws).map Observed.decision = ds.map some ∧
      (trace (feed env') (RolloutController.new r g') ws).map Observed.decision = ds.map some ∧
      SameCourse env env' b (final (feed env) (RolloutController.new r g) ws)
        (final (feed env') (RolloutController.new r g') ws) := by
  obtain ⟨hne, rfl⟩ := HealthGate.new_eq_ok_iff.mp hg
  obtain ⟨hne', rfl⟩ := HealthGate.new_eq_ok_iff.mp hg'
  have hstart : SameCourse env env' b (RolloutController.new r ⟨stages, hne, max limit 1, 0, 0⟩)
      (RolloutController.new r ⟨stages', hne', max limit 1, 0, 0⟩) := ⟨rfl, hstages, rfl, rfl, rfl⟩
  have hstep : ∀ c c' w, SameCourse env env' b c c' → Countable b w →
      decided (feed env c w).1 = decided (feed env' c' w).1 ∧
        SameCourse env env' b (feed env c w).2 (feed env' c' w).2 :=
    fun _ _ _ hc hw => feed_sameCourse h hlit h' hlit' hb hc hw
  obtain ⟨hsame, hcourse⟩ := related_answers (f := decided) (g := decided) hstep hstart hws
  obtain ⟨ds, hds⟩ := decisions_of_countable hws (RolloutController.new r _)
  exact ⟨ds, hds, hsame.symm.trans hds, hcourse⟩

/-- In doubles the standard gate holds one error in a hundred for healthy, and no more, as
it does with exact arithmetic. -/
theorem rounding_free_standard :
    (trace (feed .binary64) (RolloutController.new (sampleRollout 5)
        ⟨standardStages .binary64, List.cons_ne_nil _ _, 3, 0, 0⟩)
        [⟨⟨300, 3, []⟩, Duration.fromSecs 600⟩, ⟨⟨300, 4, []⟩, Duration.fromSecs 600⟩]).map
          Observed.decision =
      (trace (feed .exact) (RolloutController.new (sampleRollout 5)
        ⟨standardStages .exact, List.cons_ne_nil _ _, 3, 0, 0⟩)
        [⟨⟨300, 3, []⟩, Duration.fromSecs 600⟩, ⟨⟨300, 4, []⟩, Duration.fromSecs 600⟩]).map
          Observed.decision := by
  have hstage : ∀ p, WrittenAlike .binary64 .exact 100 (standardStage .binary64 p)
      (standardStage .exact p) := fun p => ⟨rfl, rfl, rfl, rfl, 1, by decide, by
        simp [standardStage], by simp [standardStage]⟩
  have htotal : 100 * (300 : UInt64).toNat ≤ 2 ^ 51 := by decide
  have hwindow : ∀ e, Countable 100 ⟨⟨300, e, []⟩, Duration.fromSecs 600⟩ := fun _ =>
    ⟨htotal, List.not_mem_nil, Nat.two_pow_pos 46⟩
  obtain ⟨ds, hds, hds', -⟩ := @rounding_free .binary64 .exact 100 FloatEnv.binary64_rounds
    FloatEnv.binary64_p99Below FloatEnv.exact_rounds FloatEnv.exact_p99Below (by decide) _ _
    (.cons (hstage 5) (.cons (hstage 25) (.cons (hstage 50) (.cons (hstage 100) .nil)))) 3 _ _ rfl
    rfl (sampleRollout 5)
    [⟨⟨300, 3, []⟩, Duration.fromSecs 600⟩, ⟨⟨300, 4, []⟩, Duration.fromSecs 600⟩]
    (by simp [hwindow])
  exact hds.trans hds'.symm

end Machines

end FlagKit
