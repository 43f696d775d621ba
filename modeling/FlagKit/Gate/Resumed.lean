import FlagKit.Gate.Restart
import FlagKit.Gate.Earned

/-!
# Resuming under another configuration

`rebuild` accepts any persisted values and any stages, so a restart may bring a new
stage list to an old exposure.  The gate then climbs from the index it was given,
and the rollout refuses every promotion below what it already exposes.  Until the
first rollback the exposure is the larger of the two, and it never shrinks; from the
first rollback on the persisted percentage is forgotten and the exposure is the one
the stages prescribe.
-/

namespace FlagKit

open Machine RolloutController

variable (env : FloatEnv)

theorem max_of_le {a b : UInt8} (h : a ≤ b) : max a b = b := if_pos h

theorem max_of_not_le {a b : UInt8} (h : ¬ a ≤ b) : max a b = a := if_neg h

theorem le_max_start (a b : UInt8) : a ≤ max a b := by
  by_cases h : a ≤ b
  · rw [max_of_le h]
    exact h
  · rw [max_of_not_le h]
    exact UInt8.le_refl a

theorem le_max_stage (a b : UInt8) : b ≤ max a b := by
  by_cases h : a ≤ b
  · rw [max_of_le h]
    exact UInt8.le_refl b
  · rw [max_of_not_le h]
    exact UInt8.le_of_lt (UInt8.not_le.mp h)

theorem max_start_mono (a : UInt8) {b c : UInt8} (h : b ≤ c) : max a b ≤ max a c := by
  by_cases hab : a ≤ b
  · rw [max_of_le hab]
    exact UInt8.le_trans h (le_max_stage a c)
  · rw [max_of_not_le hab]
    exact le_max_start a c

theorem max_max_of_le {a b c : UInt8} (h : b ≤ c) : max (max a b) c = max a c := by
  by_cases hab : a ≤ b
  · rw [max_of_le hab, max_of_le h, max_of_le (UInt8.le_trans hab h)]
  · rw [max_of_not_le hab]

/-- While the mark is the percentage, `advance` keeps the larger of the two. -/
theorem Rollout.advance_percentage {r : Rollout} (hmark : r.highWaterMark = r.percentage)
    {target : UInt8} (h100 : target ≤ 100) :
    (r.advance target).2.percentage = max r.percentage target := by
  rcases r.advance_cases target with ⟨_, hle, h⟩ | ⟨hor, e, h⟩
  · rw [h, ← hmark, max_of_le hle]
  · have hlt : target < r.percentage := by
      rcases hor with hgt | hlt
      · exact absurd h100 (UInt8.not_le.mpr hgt)
      · rwa [hmark] at hlt
    rw [h]
    exact (max_of_not_le (UInt8.not_le.mpr hlt)).symm

theorem Rollout.advance_mark_eq {r : Rollout} (hmark : r.highWaterMark = r.percentage)
    (target : UInt8) : (r.advance target).2.highWaterMark = (r.advance target).2.percentage := by
  rcases r.advance_cases target with ⟨_, _, h⟩ | ⟨_, e, h⟩
  · rw [h]
  · rw [h]
    exact hmark

/-- What a controller resumed at stage `index` with `percentage` exposes when its gate
stands on stage `i`. -/
def resumedExposure (stages : List Stage) (index : Nat) (percentage : UInt8) (rolled : Bool)
    (i : Nat) : UInt8 :=
  if rolled then if i = 0 then 0 else stagePercentage stages i
  else if i = index then percentage
  else max percentage (stagePercentage stages i)

variable {stages : List Stage} {limit : UInt32} {index : Nat} {percentage : UInt8}

/-- A promotion takes the larger of what is exposed and the next stage. -/
theorem resumedExposure_up (ho : Ordered stages) {rolled : Bool} {i : Nat}
    (hup : i + 1 < stages.length) (hge : rolled = false → index ≤ i) :
    max (resumedExposure stages index percentage rolled i) (stagePercentage stages (i + 1)) =
      resumedExposure stages index percentage rolled (i + 1) := by
  have hmono := ho.percentage_mono (Nat.le_add_right i 1) hup
  unfold resumedExposure
  cases rolled with
  | true =>
    rw [if_pos rfl, if_pos rfl, if_neg (Nat.succ_ne_zero i)]
    by_cases hzero : i = 0
    · rw [if_pos hzero]
      exact max_of_le UInt8.zero_le
    · rw [if_neg hzero]
      exact max_of_le hmono
  | false =>
    have hle := hge rfl
    have hpast : ¬ i + 1 = index := by omega
    rw [if_neg Bool.false_ne_true, if_neg Bool.false_ne_true, if_neg hpast]
    by_cases hat : i = index
    · rw [if_pos hat]
    · rw [if_neg hat]
      exact max_max_of_le hmono

structure Resumed (stages : List Stage) (index : Nat) (percentage : UInt8)
    (es : List Observed) (c : RolloutController) : Prop where
  stages_eq : c.gate.stages = stages
  index_lt : c.gate.stageIndex < stages.length
  index_ge : rolledBack es = false → index ≤ c.gate.stageIndex
  mark_eq : c.rollout.highWaterMark = c.rollout.percentage
  exposure : c.rollout.percentage =
    resumedExposure stages index percentage (rolledBack es) c.gate.stageIndex

theorem feed_resumed (ho : Ordered stages) {es : List Observed} {c : RolloutController}
    (h : Resumed stages index percentage es c) (w : Window) :
    Resumed stages index percentage (es ++ [event (feed env) c w]) (c.feed env w).2 := by
  have hindex := h.index_lt
  rcases c.feed_outcomes env w with ⟨hdec, failures, hnext⟩ | ⟨hdec, _, hnext⟩ |
    ⟨hdec, _, hup, hnext⟩
  · have hrolled := rolledBack_concat es (e := event (feed env) c w) hdec
    rw [hnext]
    refine ⟨h.stages_eq, hindex, ?_, h.mark_eq, ?_⟩
    · rw [hrolled]
      exact h.index_ge
    · rw [hrolled]
      exact h.exposure
  · have hrolled := rolledBack_rollback es (e := event (feed env) c w) hdec
    rw [hnext]
    refine ⟨h.stages_eq, Nat.zero_lt_of_lt hindex, fun hnot => ?_, rfl, ?_⟩
    · rw [hrolled] at hnot
      cases hnot
    · rw [hrolled]
      rfl
  · have hrolled := rolledBack_concat es (e := event (feed env) c w) hdec
    rw [h.stages_eq] at hup hnext
    rw [hnext]
    refine ⟨h.stages_eq, hup, fun hnot => ?_, Rollout.advance_mark_eq h.mark_eq _, ?_⟩
    · rw [hrolled] at hnot
      exact Nat.le_succ_of_le (h.index_ge hnot)
    · rw [hrolled, ← resumedExposure_up ho hup h.index_ge, ← h.exposure]
      exact Rollout.advance_percentage h.mark_eq (ho.percentage_le _)

/-- A fresh controller stands on the first stage and exposes its starting percentage. -/
theorem new_resumed {g : HealthGate} {flag : FlagName} {salt : String} {r : Rollout}
    (hg : HealthGate.new stages limit = .ok g) (hr : Rollout.new flag percentage salt = .ok r) :
    Resumed stages 0 percentage [] (RolloutController.new r g) := by
  obtain ⟨_, rfl⟩ := Rollout.new_eq_ok_iff.mp hr
  obtain ⟨hne, rfl⟩ := HealthGate.new_eq_ok_iff.mp hg
  exact ⟨rfl, List.length_pos_iff.mpr hne, fun _ => Nat.le_refl 0, rfl, rfl⟩

theorem rebuild_resumed {p : Persisted} {c : RolloutController}
    (hc : rebuild stages limit p = some c) :
    Resumed stages (min p.stageIndex (stages.length - 1)) p.percentage [] c := by
  unfold rebuild at hc
  cases hr : Rollout.new p.flag p.percentage p.salt with
  | error e => simp [hr] at hc
  | ok r =>
    cases hg : HealthGate.new stages limit with
    | error e => simp [hr, hg] at hc
    | ok g =>
      obtain ⟨_, rfl⟩ := Rollout.new_eq_ok_iff.mp hr
      obtain ⟨hne, rfl⟩ := HealthGate.new_eq_ok_iff.mp hg
      have hpos := List.length_pos_iff.mpr hne
      simp only [hr, hg, Option.some.injEq] at hc
      rw [← hc]
      refine ⟨rfl, ?_, fun _ => Nat.le_refl _, rfl, ?_⟩
      · show min p.stageIndex (stages.length - 1) < stages.length
        omega
      · show p.percentage = _
        simp [resumedExposure, rolledBack, RolloutController.new, HealthGate.restoreStage,
          HealthGate.restoreStreak]

/-- Every exposure of a run resumed from persisted values: the larger of the
percentage persisted and the stage climbed to, until a rollback; the stage climbed to
since, or nothing, after it. -/
theorem resumed_exposure (ho : Ordered stages) {p : Persisted} {c₀ : RolloutController}
    (hc₀ : rebuild stages limit p = some c₀) (ws : List Window) :
    (final (feed env) c₀ ws).rollout.percentage =
      resumedExposure stages (min p.stageIndex (stages.length - 1)) p.percentage
        (rolledBack (trace (feed env) c₀ ws)) (final (feed env) c₀ ws).gate.stageIndex :=
  (history_final (J := Resumed stages (min p.stageIndex (stages.length - 1)) p.percentage)
    (rebuild_resumed hc₀) (fun _ _ w h => feed_resumed env ho h w) ws).exposure

/-- Persisted at 50 percent under other stages, the exposure is not cut to 25. -/
theorem resumed_exposure_kept :
    (final (feed .exact) (RolloutController.new (sampleRollout 50) sampleGate)
      [sampleWindow 0]).rollout.percentage = 50 := by
  have h := @resumed_exposure .exact [sampleStage 5, sampleStage 25] 1
    ⟨by simp [sampleStage], by simp [sampleStage]⟩ ⟨⟨"checkout"⟩, 50, "c1", 0, 0⟩
    (RolloutController.new (sampleRollout 50) sampleGate) rfl [sampleWindow 0]
  refine h.trans ?_
  decide +kernel

end FlagKit
