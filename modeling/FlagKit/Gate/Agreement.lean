import FlagKit.Gate.Verdicts

/-!
# The gate and the rollout agree

`Kept` is what every window keeps, whatever the stages are: the configuration, an
index inside the stage list and a high water mark equal to the percentage.
`Agreement` is what a gate over ordered stages adds: the rollout exposes the
percentage of the stage the gate stands on, or nothing at all since a rollback.
-/

namespace FlagKit

open Machine RolloutController

variable (env : FloatEnv)

/-! ## What every window keeps -/

theorem Rollout.advance_mark {r : Rollout} (hmark : r.highWaterMark = r.percentage)
    (hle : r.percentage ≤ 100) (percentage : UInt8) :
    (r.advance percentage).2.highWaterMark = (r.advance percentage).2.percentage ∧
      (r.advance percentage).2.percentage ≤ 100 := by
  rcases r.advance_cases percentage with ⟨h100, _, h⟩ | ⟨_, e, h⟩
  · rw [h]
    exact ⟨rfl, h100⟩
  · rw [h]
    exact ⟨hmark, hle⟩

structure Kept (c₀ c : RolloutController) : Prop where
  index_lt : c.gate.stageIndex < c.gate.stages.length
  mark_eq : c.rollout.highWaterMark = c.rollout.percentage
  percentage_le : c.rollout.percentage ≤ 100
  flag_eq : c.flag = c₀.flag
  rollout_flag_eq : c.rollout.flag = c₀.rollout.flag
  salt_eq : c.rollout.salt = c₀.rollout.salt
  stages_eq : c.gate.stages = c₀.gate.stages
  limit_eq : c.gate.failureLimit = c₀.gate.failureLimit

theorem feed_kept {c₀ c : RolloutController} (h : Kept c₀ c) (w : Window) :
    Kept c₀ (c.feed env w).2 := by
  rcases c.feed_cases env w with ⟨failures, hnext⟩ | ⟨_, hnext⟩ | ⟨_, hup, hnext⟩
  · rw [hnext]
    exact { h with }
  · rw [hnext]
    exact { h with
      index_lt := Nat.zero_lt_of_lt h.index_lt
      mark_eq := rfl
      percentage_le := UInt8.zero_le }
  · have hmark := Rollout.advance_mark h.mark_eq h.percentage_le
      (stagePercentage c.gate.stages (c.gate.stageIndex + 1))
    have hfixed := Rollout.advance_fixed c.rollout
      (stagePercentage c.gate.stages (c.gate.stageIndex + 1))
    rw [hnext]
    exact { h with
      index_lt := hup
      mark_eq := hmark.1
      percentage_le := hmark.2
      rollout_flag_eq := hfixed.1.trans h.rollout_flag_eq
      salt_eq := hfixed.2.trans h.salt_eq }

theorem new_kept {flag : FlagName} {percentage : UInt8} {salt : String} {r : Rollout}
    {g : HealthGate} (hr : Rollout.new flag percentage salt = .ok r)
    (hindex : g.stageIndex < g.stages.length) :
    Kept (RolloutController.new r g) (RolloutController.new r g) := by
  obtain ⟨hle, rfl⟩ := Rollout.new_eq_ok_iff.mp hr
  exact ⟨hindex, rfl, hle, rfl, rfl, rfl, rfl, rfl⟩

/-! ## Agreement -/

/-- What holds of a state reached from `c₀` by the steps `es`. -/
structure Agreement (c₀ : RolloutController) (es : List Observed) (c : RolloutController) :
    Prop extends Kept c₀ c where
  position : c.rollout.percentage = c.gate.stage.percentage ∨
    c.rollout.percentage = 0 ∧ c.gate.stageIndex = 0 ∧
      ∃ e ∈ es, Observed.decision e = some .rollback
  accepted : ∀ w e, c.dropped env w ≠ some (.error e)

variable {stages : List Stage} {limit : UInt32}

/-- A tracked climber that has lost its exposure has a rollback behind it. -/
def RolledBack (stages : List Stage) (limit : UInt32) (es : List Observed)
    (c : RolloutController) : Prop :=
  ∃ s, Climbing stages limit c s ∧
    (s.exposed = false → ∃ e ∈ es, Observed.decision e = some .rollback)

theorem feed_rolledBack (ho : Ordered stages) {es : List Observed} {c : RolloutController}
    (h : RolledBack stages limit es c) (w : Window) :
    RolledBack stages limit (es ++ [event (feed env) c w]) (c.feed env w).2 := by
  obtain ⟨s, hclimb, hback⟩ := h
  refine ⟨_, feed_climbing env ho hclimb w, fun hexp => ?_⟩
  have hdec := (feed_gateTracks env hclimb.1.toGateTracks hclimb.2 w).1
  rcases climbStep_unexposed hexp with hbefore | hnow
  · obtain ⟨e, he, hroll⟩ := hback hbefore
    exact ⟨e, List.mem_append_left _ he, hroll⟩
  · exact ⟨event (feed env) c w, by simp, hdec.trans hnow⟩

/-- No promotion of a tracked controller is refused. -/
theorem accepted_of_climbing (ho : Ordered stages) {c : RolloutController} {s : Climb}
    (h : Climbing stages limit c s) (w : Window) (e : AdvanceError) :
    c.dropped env w ≠ some (.error e) := by
  intro hdrop
  obtain ⟨hup, hres⟩ := dropped_eq_some env hdrop
  have hrung := h.1.rung_eq
  rw [h.1.stages_eq] at hup hres
  rw [hrung, advance_of_tracks ho h.1 (by omega)] at hres
  cases hres

theorem agreement_of_rolledBack (ho : Ordered stages) {es : List Observed}
    {c₀ c : RolloutController} (hkept : Kept c₀ c) (h : RolledBack stages limit es c) :
    Agreement env c₀ es c := by
  obtain ⟨s, hclimb, hback⟩ := h
  refine { hkept with position := ?_, accepted := accepted_of_climbing env ho hclimb }
  have hpct := hclimb.1.percentage_eq
  rw [exposed, Climb.exposure] at hpct
  by_cases hexp : s.exposed = true
  · left
    rw [if_pos hexp] at hpct
    rw [stage_percentage hkept.index_lt, hclimb.1.stages_eq, hclimb.1.rung_eq]
    exact hpct
  · right
    rw [if_neg hexp] at hpct
    have hfalse : s.exposed = false := by simpa using hexp
    exact ⟨hpct, hclimb.1.rung_eq.trans (hclimb.2.unexposed hfalse), hback hfalse⟩

/-- A fresh or repositioned gate and a rollout at its stage start in agreement. -/
theorem start_climbing {g g' : HealthGate} {flag : FlagName} {salt : String} {r : Rollout}
    (hg : HealthGate.new stages limit = .ok g)
    (hg' : g' = g ∨ ∃ index, g' = (g.restoreStage index).2)
    (hr : Rollout.new flag g'.stage.percentage salt = .ok r) :
    g'.stageIndex < g'.stages.length ∧
      Climbing stages (max limit 1) (RolloutController.new r g') ⟨g'.stageIndex, true, 0⟩ := by
  obtain ⟨hne, rfl⟩ := HealthGate.new_eq_ok_iff.mp hg
  obtain ⟨_, rfl⟩ := Rollout.new_eq_ok_iff.mp hr
  have hpos := List.length_pos_iff.mpr hne
  obtain ⟨index, hindex, rfl⟩ : ∃ index, index < stages.length ∧
      g' = ⟨stages, hne, max limit 1, 0, index⟩ := by
    rcases hg' with rfl | ⟨index, rfl⟩
    · exact ⟨0, hpos, rfl⟩
    · exact ⟨min index (stages.length - 1), by omega, rfl⟩
  have hstage := stage_percentage (g := ⟨stages, hne, max limit 1, 0, index⟩) hindex
  refine ⟨hindex, ⟨⟨rfl, rfl, rfl, rfl⟩, hstage, rfl⟩, hindex, max_one_toNat_pos limit, ?_⟩
  intro hf
  cases hf

/-- Over ordered stages a controller that starts in agreement stays in agreement,
through every order of promotions, holds and rollbacks. -/
theorem gate_and_rollout_agree {g g' : HealthGate} {flag : FlagName} {salt : String}
    {r : Rollout} (ho : Ordered stages) (hg : HealthGate.new stages limit = .ok g)
    (hg' : g' = g ∨ ∃ index, g' = (g.restoreStage index).2)
    (hr : Rollout.new flag g'.stage.percentage salt = .ok r) (ws : List Window) :
    Agreement env (RolloutController.new r g') (trace (feed env) (RolloutController.new r g') ws)
      (final (feed env) (RolloutController.new r g') ws) := by
  obtain ⟨hindex, hclimb⟩ := start_climbing hg hg' hr
  have hkept := invariant_final (J := Kept (RolloutController.new r g'))
    (fun _ w h => feed_kept env h w) (new_kept hr hindex) ws
  have hstart : RolledBack stages (max limit 1) [] (RolloutController.new r g') :=
    ⟨_, hclimb, fun hf => by cases hf⟩
  have hback := history_final (J := RolledBack stages (max limit 1)) hstart
    (fun _ _ w h => feed_rolledBack env ho h w) ws
  exact agreement_of_rolledBack env ho hkept hback

theorem gate_and_rollout_agree_restored :
    Agreement .exact (RolloutController.new (sampleRollout 25) (sampleGate.restoreStage 7).2)
      (trace (feed .exact)
        (RolloutController.new (sampleRollout 25) (sampleGate.restoreStage 7).2)
        [sampleWindow 50])
      (final (feed .exact)
        (RolloutController.new (sampleRollout 25) (sampleGate.restoreStage 7).2)
        [sampleWindow 50]) :=
  @gate_and_rollout_agree .exact [sampleStage 5, sampleStage 25] 1 sampleGate
    (sampleGate.restoreStage 7).2 ⟨"checkout"⟩ "c1" (sampleRollout 25)
    ⟨by simp [sampleStage], by simp [sampleStage]⟩ rfl (Or.inr ⟨7, rfl⟩) rfl [sampleWindow 50]

end FlagKit
