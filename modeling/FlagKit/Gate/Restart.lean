import FlagKit.Gate.Agreement

/-!
# Restarting a controller

A process that persists the flag, the percentage, the salt, the stage index and the
failure count can rebuild its controller with the public constructors.  The high
water mark is not among what is persisted: `Rollout::new` sets it to the
percentage.  That is what it is in every reachable state (`Kept`), so the rebuilt
controller is the one that was persisted.
-/

namespace FlagKit

open Machine RolloutController

variable (env : FloatEnv)

structure Persisted where
  flag : FlagName
  percentage : UInt8
  salt : String
  stageIndex : Nat
  consecutiveFailures : UInt32
  deriving DecidableEq

def RolloutController.persist (c : RolloutController) : Persisted :=
  { flag := c.flag
    percentage := c.rollout.percentage
    salt := c.rollout.salt
    stageIndex := c.gate.stageIndex
    consecutiveFailures := c.gate.consecutiveFailures }

/-- What the caller does after a restart; `none` when a constructor refuses. -/
def rebuild (stages : List Stage) (failureLimit : UInt32) (p : Persisted) :
    Option RolloutController :=
  match Rollout.new p.flag p.percentage p.salt, HealthGate.new stages failureLimit with
  | .ok rollout, .ok gate =>
    let (_, gate) := gate.restoreStage p.stageIndex
    let gate := gate.restoreStreak p.consecutiveFailures
    some (RolloutController.new rollout gate)
  | _, _ => none

/-- What a caller sees of a run: at each window the verdict and the decision
returned, if the call returned, then the exposure and the stage index left. -/
def observations (c : RolloutController) (ws : List Window) :
    List (Option (Verdict × Decision) × UInt8 × Nat) :=
  (trace (feed env) c ws).map fun e =>
    (e.output, e.after.rollout.percentage, e.after.gate.stageIndex)

variable {stages : List Stage} {limit : UInt32}

variable {r : Rollout} {g : HealthGate} {c : RolloutController}

/-- The rollout half: the mark that is not persisted is the percentage. -/
theorem new_persisted_rollout (h : Kept (RolloutController.new r g) c) :
    Rollout.new c.flag c.rollout.percentage c.rollout.salt = .ok c.rollout := by
  have hflag : c.flag = c.rollout.flag := h.flag_eq.trans h.rollout_flag_eq.symm
  refine Rollout.new_eq_ok_iff.mpr ⟨h.percentage_le, ?_⟩
  show Rollout.mk c.rollout.flag c.rollout.percentage c.rollout.salt c.rollout.highWaterMark = _
  rw [h.mark_eq, hflag]

/-- The gate half: the index is in range, so `restore_stage` does not clamp it. -/
theorem restored_gate (hg : HealthGate.new stages limit = .ok g)
    (h : Kept (RolloutController.new r g) c) :
    (g.restoreStage c.gate.stageIndex).2.restoreStreak c.gate.consecutiveFailures = c.gate := by
  obtain ⟨hne, rfl⟩ := HealthGate.new_eq_ok_iff.mp hg
  have hindex := h.index_lt
  have hstages : c.gate.stages = stages := h.stages_eq
  rw [hstages] at hindex
  apply HealthGate.ext
  · exact hstages.symm
  · exact h.limit_eq.symm
  · rfl
  · show min c.gate.stageIndex (stages.length - 1) = c.gate.stageIndex
    omega

theorem rebuild_persist (hg : HealthGate.new stages limit = .ok g)
    (h : Kept (RolloutController.new r g) c) : rebuild stages limit c.persist = some c := by
  have hflag : c.rollout.flag = c.flag := h.rollout_flag_eq.trans h.flag_eq.symm
  simp only [rebuild, persist, new_persisted_rollout h, hg, restored_gate hg h]
  show some (RolloutController.mk c.rollout.flag c.rollout c.gate) = some c
  rw [hflag]

/-- Restarting at any point of a run cannot be observed: the rebuilt controller
exists, shows the exposure and the stage index of the one it replaces, and answers
every further run of windows alike. -/
theorem restart_transparent {g : HealthGate} {flag : FlagName} {percentage : UInt8}
    {salt : String} {r : Rollout} (hg : HealthGate.new stages limit = .ok g)
    (hr : Rollout.new flag percentage salt = .ok r) (ws : List Window) :
    ∃ c, rebuild stages limit (final (feed env) (RolloutController.new r g) ws).persist = some c ∧
      c.rollout.percentage =
        (final (feed env) (RolloutController.new r g) ws).rollout.percentage ∧
      c.gate.stageIndex = (final (feed env) (RolloutController.new r g) ws).gate.stageIndex ∧
      ∀ more, observations env c more =
        observations env (final (feed env) (RolloutController.new r g) ws) more := by
  have hindex : g.stageIndex < g.stages.length := by
    obtain ⟨hne, rfl⟩ := HealthGate.new_eq_ok_iff.mp hg
    exact List.length_pos_iff.mpr hne
  have hkept := invariant_final (J := Kept (RolloutController.new r g))
    (fun _ w h => feed_kept env h w) (new_kept hr hindex) ws
  exact ⟨_, rebuild_persist hg hkept, rfl, rfl, fun _ => rfl⟩

theorem restart_transparent_mid_streak :
    ∃ c, rebuild [sampleStage 5] 3
        (final (feed .exact) (RolloutController.new (sampleRollout 5)
          ⟨[sampleStage 5], List.cons_ne_nil _ _, 3, 0, 0⟩)
          [sampleWindow 50, sampleWindow 50]).persist = some c :=
  (@restart_transparent .exact [sampleStage 5] 3
    ⟨[sampleStage 5], List.cons_ne_nil _ _, 3, 0, 0⟩ ⟨"checkout"⟩ 5 "c1" (sampleRollout 5) rfl rfl
    [sampleWindow 50, sampleWindow 50]).imp fun _ h => h.1

end FlagKit
