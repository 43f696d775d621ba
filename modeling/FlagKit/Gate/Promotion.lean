import FlagKit.Gate.Agreement

/-!
# What a promotion does to the exposure

Two things are expected of the exposure when a window moves the gate to its next
stage.  The rollout should expose that stage, since a controller is there so that
the two cannot disagree, and it should come from the stage before.

Neither holds of every run.  `advance` refuses a stage below what is already
exposed and `observe` does not look at the answer, so a gate whose stages do not
grow from the rollout's percentage moves on alone.  And after a rollback the gate
stands on its first stage while nothing is exposed, so the next promotion goes to
the second stage.  The theorems say that these are the only two ways.
-/

namespace FlagKit

open Machine RolloutController

variable (env : FloatEnv)

variable {stages : List Stage} {limit : UInt32} {c : RolloutController} {w : Window}

/-- A window on which the gate moves to its next stage. -/
def StepsUp (c : RolloutController) (w : Window) : Prop :=
  c.gate.stage.evidence env w = some .healthy ∧ c.gate.stageIndex + 1 < c.gate.stages.length

/-- Other windows leave the gate on its stage or send it back, and expose no more
than before. -/
theorem feed_not_up (h : ¬ StepsUp env c w) :
    (c.feed env w).2.gate.stageIndex ≠ c.gate.stageIndex + 1 ∧
      (c.feed env w).2.rollout.percentage ≤ c.rollout.percentage := by
  rcases c.feed_cases env w with ⟨failures, hnext⟩ | ⟨_, hnext⟩ | ⟨hk, hup, _⟩
  · rw [hnext]
    exact ⟨show c.gate.stageIndex ≠ _ by omega, UInt8.le_refl _⟩
  · rw [hnext]
    exact ⟨show 0 ≠ _ by omega, UInt8.zero_le⟩
  · exact absurd ⟨hk, hup⟩ h

/-! ## The stage promoted to -/

/-- The step moved the gate to its next stage. -/
def MovedUp (e : Observed) : Prop := e.after.gate.stageIndex = e.before.gate.stageIndex + 1

/-- The rollout exposes the stage the gate stands on. -/
def InStep (c : RolloutController) : Prop := c.rollout.percentage = c.gate.stage.percentage

/-- The next stage is below what the rollout already exposes. -/
def PassesBelow (c : RolloutController) (w : Window) : Prop :=
  StepsUp env c w ∧
    stagePercentage c.gate.stages (c.gate.stageIndex + 1) < c.rollout.percentage

/-- One step: a promotion leaves the two in step unless it passes below. -/
theorem feed_inStep_iff (hle : ∀ s ∈ c.gate.stages, s.percentage ≤ 100)
    (hmark : c.rollout.highWaterMark = c.rollout.percentage) :
    (MovedUp (event (feed env) c w) → InStep (c.feed env w).2) ↔ ¬ PassesBelow env c w := by
  by_cases hup : StepsUp env c w
  · have hnext := (feed_healthy_up env hup.1 hup.2).2
    have hstage := stage_percentage
      (g := { c.gate with consecutiveFailures := 0, stageIndex := c.gate.stageIndex + 1 }) hup.2
    rw [MovedUp, event_after, event_before, InStep, hnext, hstage]
    rcases Rollout.advance_cases c.rollout
        (stagePercentage c.gate.stages (c.gate.stageIndex + 1)) with
      ⟨_, hge, hadv⟩ | ⟨hrefused, e, hadv⟩
    · rw [hadv]
      refine iff_of_true (fun _ => rfl) (fun hbelow => ?_)
      rw [hmark] at hge
      exact UInt8.not_lt.mpr hge hbelow.2
    · rw [hadv]
      have hbelow : stagePercentage c.gate.stages (c.gate.stageIndex + 1) <
          c.rollout.percentage := by
        rw [← hmark]
        rcases hrefused with h100 | hlt
        · exact absurd (stagePercentage_le hle _) (UInt8.not_le.mpr h100)
        · exact hlt
      refine iff_of_false (fun hin => ?_) (fun hnot => hnot ⟨hup, hbelow⟩)
      have heq : c.rollout.percentage =
          stagePercentage c.gate.stages (c.gate.stageIndex + 1) := hin rfl
      rw [← heq] at hbelow
      exact UInt8.lt_irrefl _ hbelow
  · exact iff_of_true (fun hmoved => absurd hmoved (feed_not_up env hup).1)
      (fun hbelow => hup hbelow.1)

/-- A rollout at 50 over stages 5 and 25: the first healthy window moves the gate
to 25 and leaves the exposure at 50. -/
theorem gate_and_exposure_disagree :
    ¬ ∀ (env : FloatEnv) (stages : List Stage) (limit : UInt32) (g : HealthGate)
        (flag : FlagName) (percentage : UInt8) (salt : String) (r : Rollout) (ws : List Window),
      (∀ s ∈ stages, s.percentage ≤ 100) →
      HealthGate.new stages limit = .ok g → Rollout.new flag percentage salt = .ok r →
      ∀ e ∈ trace (feed env) (RolloutController.new r g) ws, MovedUp e → InStep e.after := by
  intro h
  have hstep := h .exact [sampleStage 5, sampleStage 25] 1 sampleGate ⟨"checkout"⟩ 50 "c1"
    (sampleRollout 50) [sampleWindow 0] (by simp [sampleStage]) rfl rfl
    _ (List.mem_singleton_self _)
  revert hstep
  unfold MovedUp InStep
  decide +kernel

/-- Whatever the stages and the starting percentage, every promotion of a run
leaves gate and exposure in step exactly when none passes below the exposure. -/
theorem promotions_in_step_iff {g : HealthGate} {flag : FlagName} {percentage : UInt8}
    {salt : String} {r : Rollout} (hle : ∀ s ∈ stages, s.percentage ≤ 100)
    (hg : HealthGate.new stages limit = .ok g) (hr : Rollout.new flag percentage salt = .ok r)
    (ws : List Window) :
    (∀ e ∈ trace (feed env) (RolloutController.new r g) ws, MovedUp e → InStep e.after) ↔
      ∀ e ∈ trace (feed env) (RolloutController.new r g) ws,
        ¬ PassesBelow env e.before e.input := by
  obtain ⟨hne, rfl⟩ := HealthGate.new_eq_ok_iff.mp hg
  have hkept := new_kept (g := ⟨stages, hne, max limit 1, 0, 0⟩) hr
    (List.length_pos_iff.mpr hne)
  refine forall_trace_congr (J := Kept _) (fun _ w h => feed_kept env h w) (fun c w h => ?_)
    hkept ws
  refine feed_inStep_iff env ?_ h.mark_eq
  rw [h.stages_eq]
  exact hle

theorem promotions_in_step_of_standard_start :
    InStep (final (feed .exact) (RolloutController.new (sampleRollout 5) sampleGate)
      [sampleWindow 0]) :=
  (@promotions_in_step_iff .exact [sampleStage 5, sampleStage 25] 1 sampleGate ⟨"checkout"⟩ 5 "c1"
    (sampleRollout 5) (by simp [sampleStage]) rfl rfl [sampleWindow 0]).mpr (by
      intro e he hbelow
      rw [List.mem_singleton.mp he] at hbelow
      exact absurd hbelow.2 (by decide)) _ (List.mem_singleton_self _) (by
        unfold MovedUp
        decide +kernel)

end FlagKit
