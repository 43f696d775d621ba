import FlagKit.Gate.Reclimb
import FlagKit.Numeric.OrderStat

/-!
# A worse history never earns more exposure

Two controllers with the same gate are fed windows in pairs: the same length and
the same number of requests, with at least as many errors and latencies at least as
long in the second.  Both measurements the gate looks at are monotone, the error
rate as a quotient and the p99 as an entry of the sorted latencies, so when all
stages have the same bounds the second window is at least as bad evidence.  The
rest is `Climb.step_worse`.

Rates are compared as exact quotients; the sorting algorithm is any.
-/

namespace FlagKit

open Machine RolloutController

variable {env : FloatEnv}

/-- Arithmetic without rounding. -/
def FloatEnv.Exact (env : FloatEnv) : Prop := ∀ q, env.round q = .fin q

/-- `w'` reports a worse window than `w`. -/
structure Worse (w w' : Window) : Prop where
  observedFor_eq : w'.observedFor = w.observedFor
  total_eq : w'.snapshot.total = w.snapshot.total
  errors_le : w.snapshot.errors ≤ w'.snapshot.errors
  latencies_le : List.Forall₂ (fun a b => F64.le a b = true)
    w.snapshot.latenciesMs w'.snapshot.latenciesMs

/-! ## The two measurements -/

theorem errorRate_none {s : HealthSnapshot} (h : s.total = 0) : s.errorRate env = none := by
  rw [HealthSnapshot.errorRate, if_pos h]

theorem errorRate_exact (hexact : env.Exact) {s : HealthSnapshot} (h : s.total ≠ 0) :
    s.errorRate env = some (.fin (s.errors.toNat / s.total.toNat)) := by
  have hne : ((s.total.toNat : Nat) : ℚ) ≠ 0 := by
    intro h0
    have hz : s.total.toNat = 0 := by exact_mod_cast h0
    exact h (UInt64.toNat_inj.mp hz)
  rw [HealthSnapshot.errorRate, if_neg h, FloatEnv.ofNat, FloatEnv.ofNat, hexact, hexact,
    FloatEnv.div, if_neg hne, hexact]

/-- A bound broken by the better error rate is broken by the worse one. -/
theorem errorRate_worse (hexact : env.Exact) {w w' : Window} (h : Worse w w') {bound : F64}
    (hb : (w.snapshot.errorRate env).any (fun r => r.gt bound) = true) :
    (w'.snapshot.errorRate env).any (fun r => r.gt bound) = true := by
  by_cases h0 : w.snapshot.total = 0
  · rw [errorRate_none h0] at hb
    cases hb
  · have h0' : w'.snapshot.total ≠ 0 := by
      rw [h.total_eq]
      exact h0
    rw [errorRate_exact hexact h0] at hb
    rw [errorRate_exact hexact h0', h.total_eq]
    have hle : (w.snapshot.errors.toNat : ℚ) ≤ w'.snapshot.errors.toNat := by
      exact_mod_cast UInt64.le_iff_toNat_le.mp h.errors_le
    have hrate : (w.snapshot.errors.toNat / w.snapshot.total.toNat : ℚ) ≤
        w'.snapshot.errors.toNat / w.snapshot.total.toNat := by
      gcongr
    exact F64.lt_of_lt_of_le hb (decide_eq_true hrate)

theorem sortBy_le_sorted (env : FloatEnv) {l : List F64} (hl : F64.nan ∉ l) :
    ∃ sorted, env.sortBy F64.cmpOrEqual l = some sorted ∧ sorted.Perm l ∧
      sorted.Pairwise (fun a b => a.le b = true) := by
  obtain ⟨sorted, hsort, hpairwise⟩ := env.sortBy_sorted (totalOn_cmpOrEqual hl)
  have hperm := env.sortBy_perm hsort
  have hne : ∀ a ∈ sorted, a ≠ F64.nan := fun a ha e => hl (e ▸ hperm.mem_iff.mp ha)
  exact ⟨sorted, hsort, hperm, hpairwise.imp_of_mem fun ha hb hab =>
    (F64.cmpOrEqual_ne_gt_iff (hne _ ha) (hne _ hb)).mp hab⟩

theorem latencyP99Ms_eq {s : HealthSnapshot} {sorted : List F64} (h : s.latenciesMs ≠ [])
    (hsort : env.sortBy F64.cmpOrEqual s.latenciesMs = some sorted) {k : Nat}
    (hk : k = min (HealthSnapshot.p99Rank env s.latenciesMs.length) s.latenciesMs.length - 1)
    (hlt : k < sorted.length) : s.latencyP99Ms env = some (some sorted[k]) := by
  have hlen : sorted.length = s.latenciesMs.length := (env.sortBy_perm hsort).length_eq
  have hempty : s.latenciesMs.isEmpty = false := by simpa using h
  simp only [HealthSnapshot.latencyP99Ms, hempty, hsort, Bool.false_eq_true, if_false,
    Option.bind_eq_bind, Option.bind_some, Option.pure_def, hlen, ← hk]
  rw [List.getElem?_eq_getElem hlt]

theorem nan_not_mem_of_le {l l' : List F64}
    (h : List.Forall₂ (fun a b => F64.le a b = true) l l') : F64.nan ∉ l ∧ F64.nan ∉ l' := by
  induction h with
  | nil => simp
  | cons hab _ ih =>
    obtain ⟨ha, hb⟩ := F64.ne_nan_of_le hab
    simp [ih, ha.symm, hb.symm]

theorem latencyP99Ms_nil {s : HealthSnapshot} (h : s.latenciesMs = []) :
    s.latencyP99Ms env = some none := by
  rw [HealthSnapshot.latencyP99Ms, h]
  rfl

/-- Both windows have a p99, and a bound broken by the better one is broken by the
worse one. -/
theorem latencyP99Ms_worse (env : FloatEnv) {w w' : Window} (h : Worse w w') :
    ∃ p p', w.snapshot.latencyP99Ms env = some p ∧ w'.snapshot.latencyP99Ms env = some p' ∧
      ∀ bound, p.any (fun p => p.gt bound) = true → p'.any (fun p => p.gt bound) = true := by
  have hlen := h.latencies_le.length_eq
  by_cases hempty : w.snapshot.latenciesMs = []
  · have hempty' : w'.snapshot.latenciesMs = [] := by
      rw [hempty, List.length_nil] at hlen
      exact List.length_eq_zero_iff.mp hlen.symm
    exact ⟨none, none, latencyP99Ms_nil hempty, latencyP99Ms_nil hempty', fun _ hb => hb⟩
  · have hpos := List.length_pos_iff.mpr hempty
    have hempty' : w'.snapshot.latenciesMs ≠ [] := by
      rw [hlen] at hpos
      exact List.length_pos_iff.mp hpos
    obtain ⟨hnan, hnan'⟩ := nan_not_mem_of_le h.latencies_le
    obtain ⟨l, hl, hperm, hsorted⟩ := sortBy_le_sorted env hnan
    obtain ⟨l', hl', hperm', hsorted'⟩ := sortBy_le_sorted env hnan'
    obtain ⟨k, hk⟩ : ∃ k, k = min (HealthSnapshot.p99Rank env w.snapshot.latenciesMs.length)
      w.snapshot.latenciesMs.length - 1 := ⟨_, rfl⟩
    have hlt : k < l.length := by
      rw [hperm.length_eq]
      omega
    have hlt' : k < l'.length := by
      rw [hperm'.length_eq]
      omega
    have hle := OrderStat.sorted_getElem_le (r := F64.le) F64.le_trans h.latencies_le hperm hperm'
      hsorted hsorted' hlt hlt'
      (F64.le_refl fun e => hnan' (hperm'.mem_iff.mp (e ▸ List.getElem_mem hlt')))
    refine ⟨_, _, latencyP99Ms_eq hempty hl hk hlt,
      latencyP99Ms_eq hempty' hl' (by rw [← hlen]; exact hk) hlt', fun bound hb => ?_⟩
    exact F64.lt_of_lt_of_le hb hle

/-! ## Evidence -/

structure SameBounds (s t : Stage) : Prop where
  minDuration_eq : s.minDuration = t.minDuration
  minSamples_eq : s.minSamples = t.minSamples
  maxErrorRate_eq : s.maxErrorRate = t.maxErrorRate
  maxLatencyP99Ms_eq : s.maxLatencyP99Ms = t.maxLatencyP99Ms

theorem breached_worse (hexact : env.Exact) {s t : Stage} (hb : SameBounds s t) {w w' : Window}
    (h : Worse w w') {p p' : Option F64}
    (hp : ∀ bound, p.any (fun p => p.gt bound) = true → p'.any (fun p => p.gt bound) = true)
    (hs : s.breached env w.snapshot p = true) : t.breached env w'.snapshot p' = true := by
  unfold Stage.breached at hs ⊢
  rw [Bool.or_eq_true] at hs ⊢
  rw [← hb.maxErrorRate_eq, ← hb.maxLatencyP99Ms_eq]
  rcases hs with hrate | hp99
  · exact Or.inl (errorRate_worse hexact h hrate)
  · exact Or.inr (hp _ hp99)

theorem evidence_worse (hexact : env.Exact) {s t : Stage} (hb : SameBounds s t) {w w' : Window}
    (h : Worse w w') : ∃ k k', s.evidence env w = some k ∧ t.evidence env w' = some k' ∧
      Climb.AsBad k' k := by
  obtain ⟨p, p', hp, hp', hworse⟩ := latencyP99Ms_worse env h
  refine ⟨_, _, s.evidence_of_p99 env hp, t.evidence_of_p99 env hp', ?_⟩
  rw [← hb.minDuration_eq, ← hb.minSamples_eq, h.observedFor_eq, h.total_eq]
  by_cases hthin : w.observedFor < s.minDuration ∨ w.snapshot.total < s.minSamples
  · rw [if_pos hthin, if_pos hthin]
    exact Or.inl rfl
  · rw [if_neg hthin, if_neg hthin]
    by_cases hs : s.breached env w.snapshot p = true
    · rw [if_pos hs, if_pos (breached_worse hexact hb h hworse hs)]
      exact Or.inl rfl
    · rw [if_neg hs]
      by_cases ht : t.breached env w'.snapshot p' = true
      · rw [if_pos ht]
        exact Or.inr ⟨rfl, rfl⟩
      · rw [if_neg ht]
        exact Or.inl rfl

/-! ## Two runs -/

variable {stages : List Stage} {limit : UInt32}

/-- `c'` is tracked by a climber behind the one that tracks `c`. -/
def FallsBehind (stages : List Stage) (limit : UInt32) (c c' : RolloutController) : Prop :=
  ∃ s s', Climbing stages limit c s ∧ Climbing stages limit c' s' ∧ Climb.Behind s' s

theorem stage_mem {c : RolloutController} {s : Climb} (h : Climbing stages limit c s) :
    c.gate.stage ∈ stages := by
  rw [← h.1.stages_eq]
  exact List.get_mem _ _

theorem feed_fallsBehind (hexact : env.Exact) (ho : Ordered stages)
    (hshared : ∀ s ∈ stages, ∀ t ∈ stages, SameBounds s t) {c c' : RolloutController}
    (h : FallsBehind stages limit c c') {w w' : Window} (hw : Worse w w') :
    FallsBehind stages limit (c.feed env w).2 (c'.feed env w').2 := by
  obtain ⟨s, s', hs, hs', hbehind⟩ := h
  refine ⟨_, _, feed_climbing env ho hs w, feed_climbing env ho hs' w', ?_⟩
  obtain ⟨k, k', hk, hk', hbad⟩ :=
    evidence_worse hexact (hshared _ (stage_mem hs) _ (stage_mem hs')) hw
  rw [evidenceIn, evidenceIn, hk, hk']
  exact Climb.step_worse hbehind hs.2 hbad

theorem percentage_le_of_fallsBehind (ho : Ordered stages) {c c' : RolloutController}
    (h : FallsBehind stages limit c c') : c'.rollout.percentage ≤ c.rollout.percentage := by
  obtain ⟨s, s', hs, hs', hbehind⟩ := h
  rw [hs.1.percentage_eq, hs'.1.percentage_eq]
  apply Climb.exposure_le_of_behind _ hbehind hs.2.rung_lt
  · intro i j hij hj
    exact ho.percentage_mono hij hj
  · intro a
    exact UInt8.zero_le

/-- After every prefix of a worse history the exposure is at most that of the
better one. -/
theorem worse_history_exposes_less (hexact : env.Exact) {first : Stage} {rest : List Stage}
    {g : HealthGate} {flag : FlagName} {salt : String} {r : Rollout}
    (ho : Ordered (first :: rest))
    (hshared : ∀ s ∈ first :: rest, ∀ t ∈ first :: rest, SameBounds s t)
    (hg : HealthGate.new (first :: rest) limit = .ok g)
    (hr : Rollout.new flag first.percentage salt = .ok r) {ws ws' : List Window}
    (h : List.Forall₂ Worse ws ws') (n : Nat) :
    (final (feed env) (RolloutController.new r g) (ws'.take n)).rollout.percentage ≤
      (final (feed env) (RolloutController.new r g) (ws.take n)).rollout.percentage := by
  obtain ⟨s, hs⟩ := start_climbable hg hr
  have hstart : FallsBehind (first :: rest) (max limit 1) (RolloutController.new r g)
      (RolloutController.new r g) :=
    ⟨s, s, hs, hs, Or.inr ⟨Nat.le_refl _, Nat.le_refl _, fun hexp => hexp⟩⟩
  have hfinal := related_final (R := FallsBehind (first :: rest) (max limit 1)) (Q := Worse)
    (fun _ _ _ _ hc hw => feed_fallsBehind hexact ho hshared hc hw) hstart
    (List.forall₂_take n h)
  exact percentage_le_of_fallsBehind ho hfinal

theorem worse_history_exposes_less_after_breach :
    (final (feed .exact) (RolloutController.new (sampleRollout 5) sampleGate)
        [⟨⟨200, 50, [.fin 20]⟩, 0⟩]).rollout.percentage ≤
      (final (feed .exact) (RolloutController.new (sampleRollout 5) sampleGate)
        [⟨⟨200, 0, [.fin 10]⟩, 0⟩]).rollout.percentage :=
  @worse_history_exposes_less .exact 1 (fun _ => rfl) (sampleStage 5) [sampleStage 25] sampleGate
    ⟨"checkout"⟩ "c1" (sampleRollout 5) ⟨by simp [sampleStage], by simp [sampleStage]⟩
    (by
      intro s hs t ht
      simp only [List.mem_cons, List.not_mem_nil, or_false] at hs ht
      rcases hs with rfl | rfl <;> rcases ht with rfl | rfl <;> exact ⟨rfl, rfl, rfl, rfl⟩)
    rfl rfl [⟨⟨200, 0, [.fin 10]⟩, 0⟩] [⟨⟨200, 50, [.fin 20]⟩, 0⟩]
    (List.Forall₂.cons
      ⟨rfl, rfl, by decide, List.Forall₂.cons (by decide +kernel) List.Forall₂.nil⟩
      List.Forall₂.nil) 1

end FlagKit
