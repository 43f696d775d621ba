import FlagKit.Gate.Resumed
import FlagKit.Gate.Worse

/-!
# Tolerance never costs exposure

Two controllers differ in their failure limit alone and watch the same windows.  The
strict one rolls back earlier, and from then on it may have the shorter streak and
outlast the tolerant one in its next crisis.  It never gets ahead: what it lost
earlier it has to climb again first (`Climb.step_behind`), and the percentage it
started with it has lost by the time the tolerant one does (`Climb.falls_of_behind`).

The stages must share their bounds, as those of `HealthGate::standard` do.  A stage
with bounds of its own can be fatal to the tolerant controller while the strict one,
fallen below it, is spared.
-/

namespace FlagKit

open Machine RolloutController

variable (env : FloatEnv)

theorem evidence_sameBounds {s t : Stage} (h : SameBounds s t) (w : Window) :
    t.evidence env w = s.evidence env w := by
  unfold Stage.evidence Stage.breached
  rw [h.minDuration_eq, h.minSamples_eq, h.maxErrorRate_eq, h.maxLatencyP99Ms_eq]

variable {stages : List Stage} {limit limit' : UInt32} {percentage : UInt8}

/-- A rung higher, or a starting percentage not yet lost, exposes no less. -/
theorem resumedExposure_mono (ho : Ordered stages) {rolled rolled' : Bool} {i i' : Nat}
    (hrolled : rolled' = true → rolled = true) (hi : i ≤ i') (hi' : i' < stages.length) :
    resumedExposure stages 0 percentage rolled i ≤
      resumedExposure stages 0 percentage rolled' i' := by
  have hmono := ho.percentage_mono hi hi'
  unfold resumedExposure
  by_cases hzero : i = 0
  · rw [if_pos hzero, if_pos hzero]
    cases rolled with
    | true =>
      rw [if_pos rfl]
      exact UInt8.zero_le
    | false =>
      have hkept : rolled' = false := by
        by_contra hback
        exact absurd (hrolled (by simpa using hback)) Bool.false_ne_true
      rw [hkept, if_neg Bool.false_ne_true, if_neg Bool.false_ne_true]
      by_cases hzero' : i' = 0
      · rw [if_pos hzero']
        exact UInt8.le_refl _
      · rw [if_neg hzero']
        exact le_max_start _ _
  · have hpos : ¬ i' = 0 := by omega
    rw [if_neg hzero, if_neg hzero, if_neg hpos, if_neg hpos]
    cases rolled with
    | true =>
      cases rolled' with
      | true => exact hmono
      | false => exact UInt8.le_trans hmono (le_max_stage _ _)
    | false =>
      have hkept : rolled' = false := by
        by_contra hback
        exact absurd (hrolled (by simpa using hback)) Bool.false_ne_true
      rw [hkept, if_neg Bool.false_ne_true, if_neg Bool.false_ne_true]
      exact max_start_mono _ hmono

/-- The climbers of the strict gate `c` and of the tolerant `c'`: the first is behind the
second, and has lost its exposure only by a rollback among the steps `es`. -/
def ClimbsBehind (stages : List Stage) (limit limit' : UInt32) (es : List Observed)
    (c c' : RolloutController) : Prop :=
  ∃ s s', (GateTracks stages limit c s ∧ ClimbSound stages limit s) ∧
    (GateTracks stages limit' c' s' ∧ ClimbSound stages limit' s') ∧ Climb.Behind s s' ∧
    (s.exposed = false → rolledBack es = true)

/-- The strict controller `c` trails the tolerant `c'`, which has not rolled back unless
the strict one has. -/
structure Trails (stages : List Stage) (limit limit' : UInt32) (percentage : UInt8)
    (es : List Observed) (c : RolloutController) (es' : List Observed)
    (c' : RolloutController) : Prop where
  strict : Resumed stages 0 percentage es c
  tolerant : Resumed stages 0 percentage es' c'
  behind : ClimbsBehind stages limit limit' es c c'
  rolled : rolledBack es' = true → rolledBack es = true

theorem feed_trails (ho : Ordered stages) (hlimit : limit ≤ limit')
    (hshared : ∀ s ∈ stages, ∀ t ∈ stages, SameBounds s t) {es es' : List Observed}
    {c c' : RolloutController} (h : Trails stages limit limit' percentage es c es' c')
    (w : Window) :
    Trails stages limit limit' percentage (es ++ [event (feed env) c w]) (c.feed env w).2
      (es' ++ [event (feed env) c' w]) (c'.feed env w).2 := by
  obtain ⟨s, s', ⟨hs, hsound⟩, ⟨hs', hsound'⟩, hbehind, hlost⟩ := h.behind
  obtain ⟨hdec, hnext⟩ := feed_gateTracks env hs hsound w
  obtain ⟨hdec', hnext'⟩ := feed_gateTracks env hs' hsound' w
  have hmem : ∀ {c : RolloutController}, c.gate.stages = stages → c.gate.stage ∈ stages := by
    intro c hc
    rw [← hc]
    exact List.get_mem _ _
  have hsame : evidenceIn env c w = evidenceIn env c' w :=
    (evidence_sameBounds env (hshared _ (hmem hs.stages_eq) _ (hmem hs'.stages_eq)) w).symm
  rw [← hsame] at hdec' hnext'
  have hle := UInt32.le_iff_toNat_le.mp hlimit
  refine ⟨feed_resumed env ho h.strict w, feed_resumed env ho h.tolerant w,
    ⟨_, _, ⟨hnext, climbStep_sound hsound _⟩, ⟨hnext', climbStep_sound hsound' _⟩, ?_, ?_⟩, ?_⟩
  · cases evidenceIn env c w with
    | none => exact hbehind
    | some k => exact Climb.step_behind hle hbehind hsound' (Or.inl rfl)
  · intro hexp
    rw [rolledBack_append]
    exact (climbStep_unexposed hexp).imp hlost fun hroll => hdec.trans hroll
  · intro hrolled
    rw [rolledBack_append] at hrolled ⊢
    rcases hrolled with hbefore | hnow
    · exact Or.inl (h.rolled hbefore)
    · have hfall := hdec'.symm.trans hnow
      cases hk : evidenceIn env c w with
      | none =>
        rw [hk] at hfall
        cases hfall
      | some k =>
        rw [hk] at hfall hdec
        rcases Climb.falls_of_behind hle hbehind (Option.some.inj hfall) with hexp | hroll
        · exact Or.inl (hlost hexp)
        · exact Or.inr (hdec.trans (congrArg some hroll))

theorem percentage_le_of_trails (ho : Ordered stages) {es es' : List Observed}
    {c c' : RolloutController} (h : Trails stages limit limit' percentage es c es' c') :
    c.rollout.percentage ≤ c'.rollout.percentage := by
  obtain ⟨s, s', ⟨hs, hsound⟩, ⟨hs', hsound'⟩, hbehind, hlost⟩ := h.behind
  rw [h.strict.exposure, h.tolerant.exposure]
  have hrung : c.gate.stageIndex ≤ c'.gate.stageIndex := by
    rw [hs.rung_eq, hs'.rung_eq]
    rcases hbehind with ⟨_, hzero⟩ | ⟨_, hle, _⟩
    · rw [hzero]
      exact Nat.zero_le _
    · exact hle
  exact resumedExposure_mono ho h.rolled hrung h.tolerant.index_lt

theorem max_one_mono (h : limit ≤ limit') : max limit 1 ≤ max limit' 1 := by
  show (if limit ≤ 1 then 1 else limit) ≤ if limit' ≤ 1 then 1 else limit'
  by_cases h1 : limit ≤ 1
  · rw [if_pos h1]
    by_cases h1' : limit' ≤ 1
    · rw [if_pos h1']
      exact UInt32.le_refl _
    · rw [if_neg h1']
      exact UInt32.le_of_lt (UInt32.not_le.mp h1')
  · have h1' : ¬ limit' ≤ 1 := fun hle => h1 (UInt32.le_trans h hle)
    rw [if_neg h1, if_neg h1']
    exact h

/-- Raising the failure limit never lowers the exposure, whatever it started with and
after any windows. -/
theorem tolerance_exposes_more {g g' : HealthGate} {flag : FlagName} {salt : String}
    {r : Rollout} (ho : Ordered stages)
    (hshared : ∀ s ∈ stages, ∀ t ∈ stages, SameBounds s t) (hlimit : limit ≤ limit')
    (hg : HealthGate.new stages limit = .ok g) (hg' : HealthGate.new stages limit' = .ok g')
    (hr : Rollout.new flag percentage salt = .ok r) (ws : List Window) :
    (final (feed env) (RolloutController.new r g) ws).rollout.percentage ≤
      (final (feed env) (RolloutController.new r g') ws).rollout.percentage := by
  have hstart : ∀ {l g}, HealthGate.new stages l = .ok g →
      GateTracks stages (max l 1) (RolloutController.new r g) Climb.start ∧
        ClimbSound stages (max l 1) Climb.start := by
    intro l g hg
    obtain ⟨hne, rfl⟩ := HealthGate.new_eq_ok_iff.mp hg
    exact start_gateTracks hne l r
  have htrails : Trails stages (max limit 1) (max limit' 1) percentage []
      (RolloutController.new r g) [] (RolloutController.new r g') :=
    ⟨new_resumed hg hr, new_resumed hg' hr,
      ⟨_, _, hstart hg, hstart hg', Or.inr ⟨Nat.le_refl _, Nat.le_refl _, fun h => h⟩,
        fun hexp => by cases hexp⟩, fun h => h⟩
  have hfinal := related_history_final (J := Trails stages (max limit 1) (max limit' 1) percentage)
    htrails (fun _ _ _ _ w h => feed_trails env ho (max_one_mono hlimit) hshared h w) ws
  exact percentage_le_of_trails ho hfinal

theorem tolerance_exposes_more_after_breach :
    (final (feed .exact) (RolloutController.new (sampleRollout 8) sampleGate)
        [sampleWindow 50]).rollout.percentage ≤
      (final (feed .exact) (RolloutController.new (sampleRollout 8)
        { sampleGate with failureLimit := 3 }) [sampleWindow 50]).rollout.percentage :=
  @tolerance_exposes_more .exact [sampleStage 5, sampleStage 25] 1 3 8 sampleGate
    { sampleGate with failureLimit := 3 } ⟨"checkout"⟩ "c1" (sampleRollout 8)
    ⟨by simp [sampleStage], by simp [sampleStage]⟩
    (by
      intro s hs t ht
      simp only [List.mem_cons, List.not_mem_nil, or_false] at hs ht
      rcases hs with rfl | rfl <;> rcases ht with rfl | rfl <;> exact ⟨rfl, rfl, rfl, rfl⟩)
    (by decide) rfl rfl rfl [sampleWindow 50]

end FlagKit
