import FlagKit.Gate.Cohort
import FlagKit.Gate.Explained
import FlagKit.Gate.Resumed

/-!
# What one subject sees

A subject sees a rollout switch on and off.  Over the windows of a controller it is
switched off by a rollback and by nothing else, and switched on by a promotion and by
nothing else: holds, refused promotions and promotions at the top move nobody.
-/

namespace FlagKit

open Machine RolloutController

variable (finish : DefaultHasher) (env : FloatEnv)

/-- The mark is the percentage. -/
def Level (c : RolloutController) : Prop := c.rollout.highWaterMark = c.rollout.percentage

theorem feed_level {c : RolloutController} (h : Level c) (w : Window) :
    Level (c.feed env w).2 := by
  rcases c.feed_outcomes env w with ⟨_, _, hnext⟩ | ⟨_, _, hnext⟩ | ⟨_, _, _, hnext⟩
  · rw [hnext]
    exact h
  · rw [hnext]
    rfl
  · rw [hnext]
    exact Rollout.advance_mark_eq h _

/-- Only a rollback lowers the exposure. -/
theorem feed_percentage_ge {c : RolloutController} (h : Level c) {w : Window}
    (hdec : Observed.decision (event (feed env) c w) ≠ some .rollback) :
    c.rollout.percentage ≤ (c.feed env w).2.rollout.percentage := by
  rcases c.feed_outcomes env w with ⟨_, _, hnext⟩ | ⟨hroll, _, _⟩ | ⟨_, _, _, hnext⟩
  · rw [hnext]
    exact UInt8.le_refl _
  · exact absurd hroll hdec
  · rw [hnext]
    rcases c.rollout.advance_cases (stagePercentage c.gate.stages (c.gate.stageIndex + 1)) with
      ⟨_, hle, hadv⟩ | ⟨_, _, hadv⟩
    · rw [hadv, ← h]
      exact hle
    · rw [hadv]
      exact UInt8.le_refl _

/-- Only a promotion raises it. -/
theorem feed_percentage_le {c : RolloutController} {w : Window}
    (hdec : Observed.evidence env (event (feed env) c w) ≠ some .healthy) :
    (c.feed env w).2.rollout.percentage ≤ c.rollout.percentage := by
  rcases c.feed_outcomes env w with ⟨_, _, hnext⟩ | ⟨_, _, hnext⟩ | ⟨_, hk, _, _⟩
  · rw [hnext]
    exact UInt8.le_refl _
  · rw [hnext]
    exact UInt8.zero_le
  · exact absurd hk hdec

theorem exists_rollback {c : RolloutController} (h : Level c) {ws : List Window}
    (hlt : (final (feed env) c ws).rollout.percentage < c.rollout.percentage) :
    ∃ e ∈ trace (feed env) c ws, Observed.decision e = some .rollback := by
  by_contra hnone
  have hle := preserved_final (J := Level)
    (R := fun c c' => c.rollout.percentage ≤ c'.rollout.percentage)
    (P := fun e => Observed.decision e ≠ some .rollback) (fun _ => UInt8.le_refl _)
    (fun _ _ _ => UInt8.le_trans) (fun _ w h => feed_level env h w)
    (fun _ _ h hdec => feed_percentage_ge env h hdec) h
    (fun e he hroll => hnone ⟨e, he, hroll⟩)
  exact UInt8.not_lt.mpr hle hlt

theorem exists_healthy {c : RolloutController} {ws : List Window}
    (hlt : c.rollout.percentage < (final (feed env) c ws).rollout.percentage) :
    ∃ e ∈ trace (feed env) c ws, Observed.evidence env e = some .healthy := by
  by_contra hnone
  have hle := preserved_final (J := fun _ => True)
    (R := fun c c' => c'.rollout.percentage ≤ c.rollout.percentage)
    (P := fun e => Observed.evidence env e ≠ some .healthy) (fun _ => UInt8.le_refl _)
    (fun _ _ _ h h' => UInt8.le_trans h' h) (fun _ _ h => h)
    (fun _ _ _ hdec => feed_percentage_le env hdec) trivial
    (fun e he hk => hnone ⟨e, he, hk⟩)
  exact UInt8.not_lt.mpr hle hlt

/-- The cohorts of one run are compared by their percentages. -/
theorem percentage_lt_of_mem {r r' : Rollout} (h : Rollout.SameDraw r r') {userId : String}
    (hmem : userId ∈ r.cohort finish) (hnot : userId ∉ r'.cohort finish) :
    r'.percentage < r.percentage := by
  rw [← UInt8.not_le]
  exact fun hle => hnot (Rollout.cohort_subset finish h hle hmem)

theorem final_sameDraw (c : RolloutController) (ws : List Window) :
    Rollout.SameDraw c.rollout (final (feed env) c ws).rollout :=
  invariant_final (J := fun c' => Rollout.SameDraw c.rollout c'.rollout)
    (fun c' w h => h.trans (feed_sameDraw env c' w)) (Rollout.sameDraw_refl _) ws

/-- Between two points of a run of a fresh controller, over any stages: a subject that
lost the feature was there for a rollback, decided on as many breaches in a row as the
failure limit asks for, and a subject that gained it was there for a healthy window. -/
theorem subjects_switched {stages : List Stage} {limit : UInt32} {g : HealthGate}
    {flag : FlagName} {percentage : UInt8} {salt : String} {r : Rollout}
    (hg : HealthGate.new stages limit = .ok g) (hr : Rollout.new flag percentage salt = .ok r)
    (ws mid : List Window) {c c' : RolloutController}
    (hc : c = final (feed env) (RolloutController.new r g) ws) (hc' : c' = final (feed env) c mid)
    (userId : String) :
    (userId ∈ c.rollout.cohort finish → userId ∉ c'.rollout.cohort finish →
      ∃ h e t, trace (feed env) c mid = h ++ e :: t ∧ Observed.decision e = some .rollback ∧
        Observed.evidence env e = some .breach ∧
        Climb.breachesSince (history env (trace (feed env) (RolloutController.new r g) ws ++ h)) +
          1 = (max limit 1).toNat) ∧
    (userId ∉ c.rollout.cohort finish → userId ∈ c'.rollout.cohort finish →
      ∃ e ∈ trace (feed env) c mid, Observed.decision e = some .promote ∧
        Observed.evidence env e = some .healthy) := by
  have hsame : Rollout.SameDraw c.rollout c'.rollout := by
    rw [hc']
    exact final_sameDraw env c mid
  constructor
  · intro hmem hnot
    have hlevel : Level c := by
      obtain ⟨_, hr'⟩ := Rollout.new_eq_ok_iff.mp hr
      have hstart : Level (RolloutController.new r g) := by rw [hr']; rfl
      rw [hc]
      exact invariant_final (J := Level) (fun _ w h => feed_level env h w) hstart ws
    have hlt := percentage_lt_of_mem finish hsame hmem hnot
    rw [hc'] at hlt
    obtain ⟨e, he, hroll⟩ := exists_rollback env hlevel hlt
    obtain ⟨h, t, hsplit⟩ := List.append_of_mem he
    have hall : trace (feed env) (RolloutController.new r g) (ws ++ mid) =
        (trace (feed env) (RolloutController.new r g) ws ++ h) ++ e :: t := by
      rw [trace_append, ← hc, hsplit, List.append_assoc]
    exact ⟨h, e, t, hsplit, hroll, (rollback_split_iff env hg r (ws ++ mid) hall).mp hroll⟩
  · intro hnot hmem
    have hlt := percentage_lt_of_mem finish hsame.symm hmem hnot
    rw [hc'] at hlt
    obtain ⟨e, he, hhealthy⟩ := exists_healthy env hlt
    obtain ⟨_, hev⟩ := invariant_trace (J := fun _ => True) (fun _ _ h => h) trivial he
    refine ⟨e, he, ?_, hhealthy⟩
    rw [hev] at hhealthy ⊢
    rw [Observed.decision, event_output, decided_feed]
    exact (HealthGate.observe_promote_iff env _ _).mpr hhealthy

theorem subjects_switched_off :
    ∃ h e t, trace (feed .exact) (RolloutController.new (sampleRollout 8) sampleGate)
      [sampleWindow 50] = h ++ e :: t ∧ Observed.decision e = some .rollback := by
  obtain ⟨h, e, t, hsplit, hroll, _⟩ :=
    (@subjects_switched (fun _ => 7) .exact [sampleStage 5, sampleStage 25] 1 sampleGate
      ⟨"checkout"⟩ 8 "c1" (sampleRollout 8) rfl rfl [] [sampleWindow 50] _ _ rfl rfl "u1").1
      (by
        rw [Rollout.mem_cohort]
        decide +kernel)
      (by
        rw [Rollout.mem_cohort]
        decide +kernel)
  exact ⟨h, e, t, hsplit, hroll⟩

end FlagKit
