import FlagKit.Gate.Agreement
import FlagKit.Machine.Balance
import Mathlib.Algebra.Order.BigOperators.Group.List
import Mathlib.Data.List.DropRight
import Mathlib.Data.List.Forall2

/-!
# Exposure is earned

Wherever the gate stands, it got there on evidence.  Since the last rollback each
stage below has seen a window of its own that it found healthy, in the order of the
stages, so the time observed and the requests counted add up to what those stages
ask for.  What the rollout exposes is what it started with, nothing after a rollback,
or the percentage of a stage the gate has climbed to since.

None of this needs the stages to be in order.
-/

namespace FlagKit

open Machine RolloutController

variable (env : FloatEnv)

/-- The steps after the last rollback. -/
def sinceRollback (es : List Observed) : List Observed :=
  es.rtakeWhile (fun e => Observed.decision e ≠ some .rollback)

theorem sinceRollback_rollback (es : List Observed) {e : Observed}
    (h : Observed.decision e = some .rollback) : sinceRollback (es ++ [e]) = [] := by
  rw [sinceRollback, List.rtakeWhile_concat, if_neg (by simpa using h)]

theorem sinceRollback_concat (es : List Observed) {e : Observed}
    (h : Observed.decision e ≠ some .rollback) :
    sinceRollback (es ++ [e]) = sinceRollback es ++ [e] := by
  rw [sinceRollback, List.rtakeWhile_concat, if_pos (by simpa using h)]
  rfl

def rolledBack (es : List Observed) : Bool :=
  es.any (fun e => Observed.decision e = some .rollback)

theorem rolledBack_rollback (es : List Observed) {e : Observed}
    (h : Observed.decision e = some .rollback) : rolledBack (es ++ [e]) = true := by
  simp [rolledBack, h]

theorem rolledBack_concat (es : List Observed) {e : Observed}
    (h : Observed.decision e ≠ some .rollback) : rolledBack (es ++ [e]) = rolledBack es := by
  simp [rolledBack, h]

theorem rolledBack_append (es : List Observed) (e : Observed) :
    rolledBack (es ++ [e]) = true ↔
      rolledBack es = true ∨ Observed.decision e = some .rollback := by
  simp [rolledBack]

/-- What the rollout exposes before any promotion since the last rollback. -/
def footing (r : Rollout) (es : List Observed) : UInt8 :=
  if rolledBack es then 0 else r.percentage

/-- The windows that carried the gate up the stages `passed`. -/
def Passed (passed : List Stage) (es : List Observed) : Prop :=
  ∃ windows, windows.Sublist (es.map Event.input) ∧
    List.Forall₂ (fun s w => Stage.evidence env s w = some .healthy) passed windows

theorem Passed.concat {passed : List Stage} {es : List Observed} (h : Passed env passed es)
    (e : Observed) : Passed env passed (es ++ [e]) := by
  obtain ⟨windows, hsub, hhealthy⟩ := h
  refine ⟨windows, hsub.trans ?_, hhealthy⟩
  rw [List.map_append]
  exact List.sublist_append_left _ _

theorem Passed.climb {passed : List Stage} {es : List Observed} (h : Passed env passed es)
    {s : Stage} {e : Observed} (hs : s.evidence env e.input = some .healthy) :
    Passed env (passed ++ [s]) (es ++ [e]) := by
  obtain ⟨windows, hsub, hhealthy⟩ := h
  refine ⟨windows ++ [e.input], ?_, List.rel_append hhealthy (.cons hs .nil)⟩
  rw [List.map_append]
  exact hsub.append (List.Sublist.refl _)

/-- A lower bound on each stage is a lower bound on the sum. -/
theorem Passed.sum_le {passed : List Stage} {es : List Observed} (h : Passed env passed es)
    {f : Stage → Nat} {g : Window → Nat}
    (hone : ∀ s w, Stage.evidence env s w = some .healthy → f s ≤ g w) :
    (passed.map f).sum ≤ total (fun e => g e.input) es := by
  obtain ⟨windows, hsub, hhealthy⟩ := h
  have hpaid : (passed.map f).sum ≤ (windows.map g).sum := by
    induction hhealthy with
    | nil => exact Nat.le_refl 0
    | cons hs _ ih => exact Nat.add_le_add (hone _ _ hs) (ih (List.sublist_of_cons_sublist hsub))
  have htotal : total (fun e => g e.input) es = ((es.map Event.input).map g).sum := by
    clear hsub
    induction es with
    | nil => rfl
    | cons e es ih => rw [total_cons, ih, List.map_cons, List.map_cons, List.sum_cons]
  rw [htotal]
  exact Nat.le_trans hpaid ((hsub.map g).sum_le_sum (fun _ _ => Nat.zero_le _))

structure Earned (stages : List Stage) (r : Rollout) (es : List Observed)
    (c : RolloutController) : Prop where
  stages_eq : c.gate.stages = stages
  index_lt : c.gate.stageIndex < stages.length
  passed : Passed env (stages.take c.gate.stageIndex) (sinceRollback es)
  exposure : c.rollout.percentage = footing r es ∨
    ∃ j, 0 < j ∧ j ≤ c.gate.stageIndex ∧ c.rollout.percentage = stagePercentage stages j

variable {stages : List Stage} {limit : UInt32}

theorem feed_earned {r : Rollout} {es : List Observed} {c : RolloutController}
    (h : Earned env stages r es c) (w : Window) :
    Earned env stages r (es ++ [event (feed env) c w]) (c.feed env w).2 := by
  have hindex := h.index_lt
  rcases c.feed_outcomes env w with ⟨hdec, failures, hnext⟩ | ⟨hdec, _, hnext⟩ |
    ⟨hdec, hk, hup, hnext⟩
  · rw [hnext]
    refine ⟨h.stages_eq, hindex, ?_, ?_⟩
    · rw [sinceRollback_concat es (e := event (feed env) c w) hdec]
      exact h.passed.concat env _
    · rw [footing, rolledBack_concat es (e := event (feed env) c w) hdec]
      exact h.exposure
  · rw [hnext]
    refine ⟨h.stages_eq, Nat.zero_lt_of_lt hindex, ?_, Or.inl ?_⟩
    · rw [sinceRollback_rollback es (e := event (feed env) c w) hdec]
      exact ⟨[], List.Sublist.refl _, .nil⟩
    · rw [footing, rolledBack_rollback es (e := event (feed env) c w) hdec]
      rfl
  · have hstage := stage_getElem? (g := c.gate) (by rw [h.stages_eq]; exact hindex)
    rw [h.stages_eq] at hup hstage
    have htake : stages.take (c.gate.stageIndex + 1) =
        stages.take c.gate.stageIndex ++ [c.gate.stage] := by
      rw [List.take_add_one, hstage]
      rfl
    rw [hnext]
    refine ⟨h.stages_eq, hup, ?_, ?_⟩
    · show Passed env (stages.take (c.gate.stageIndex + 1)) _
      rw [sinceRollback_concat es (e := event (feed env) c w) hdec, htake]
      exact h.passed.climb env hk
    · rw [footing, rolledBack_concat es (e := event (feed env) c w) hdec]
      -- a refused promotion moves the gate and leaves the exposure
      rcases c.rollout.advance_cases (stagePercentage c.gate.stages (c.gate.stageIndex + 1)) with
        ⟨_, _, hadv⟩ | ⟨_, err, hadv⟩
      · right
        refine ⟨c.gate.stageIndex + 1, Nat.succ_pos _, Nat.le_refl _, ?_⟩
        rw [hadv, h.stages_eq]
      · rw [hadv]
        rcases h.exposure with hfoot | ⟨j, hj, hle, hpct⟩
        · exact Or.inl hfoot
        · exact Or.inr ⟨j, hj, Nat.le_succ_of_le hle, hpct⟩

theorem earned_final {g : HealthGate} (hg : HealthGate.new stages limit = .ok g) (r : Rollout)
    (ws : List Window) :
    Earned env stages r (trace (feed env) (RolloutController.new r g) ws)
      (final (feed env) (RolloutController.new r g) ws) := by
  obtain ⟨hne, rfl⟩ := HealthGate.new_eq_ok_iff.mp hg
  have hstart : Earned env stages r [] (RolloutController.new r ⟨stages, hne, max limit 1, 0, 0⟩) :=
    ⟨rfl, List.length_pos_iff.mpr hne, ⟨[], List.Sublist.refl _, .nil⟩, Or.inl rfl⟩
  exact history_final (J := Earned env stages r) hstart (fun _ _ w h => feed_earned env h w) ws

/-- Wherever a fresh controller stands after any run, every stage below was passed on
a healthy window of its own since the last rollback, so the time and the requests
observed since then add up to what those stages ask for, and the exposure is the
footing or the percentage of a stage passed to since. -/
theorem exposure_earned {g : HealthGate} (hg : HealthGate.new stages limit = .ok g) (r : Rollout)
    (ws : List Window) {c : RolloutController} {es : List Observed}
    (hc : c = final (feed env) (RolloutController.new r g) ws)
    (hes : es = trace (feed env) (RolloutController.new r g) ws) :
    Passed env (stages.take c.gate.stageIndex) (sinceRollback es) ∧
      ((stages.take c.gate.stageIndex).map Stage.minDuration).sum ≤
        total (fun e => e.input.observedFor) (sinceRollback es) ∧
      ((stages.take c.gate.stageIndex).map (fun s => s.minSamples.toNat)).sum ≤
        total (fun e => e.input.snapshot.total.toNat) (sinceRollback es) ∧
      (c.rollout.percentage = footing r es ∨
        ∃ j, 0 < j ∧ j ≤ c.gate.stageIndex ∧
          c.rollout.percentage = stagePercentage stages j) := by
  have hearned := earned_final env hg r ws
  rw [← hc, ← hes] at hearned
  refine ⟨hearned.passed, ?_, ?_, hearned.exposure⟩
  · exact hearned.passed.sum_le env (g := Window.observedFor)
      fun s w hk => (HealthGate.evidence_eq_healthy_iff env).mp hk |>.1
  · exact hearned.passed.sum_le env (g := fun w => w.snapshot.total.toNat)
      fun s w hk => UInt64.le_iff_toNat_le.mp ((HealthGate.evidence_eq_healthy_iff env).mp hk).2.1

theorem exposure_earned_at_top :
    100 ≤ total (fun e => e.input.snapshot.total.toNat)
      (sinceRollback (trace (feed .exact) (RolloutController.new (sampleRollout 5) sampleGate)
        [sampleWindow 50, sampleWindow 0])) := by
  have h := (@exposure_earned .exact [sampleStage 5, sampleStage 25] 1 sampleGate rfl
    (sampleRollout 5) [sampleWindow 50, sampleWindow 0] _ _ rfl rfl).2.2.1
  refine Nat.le_trans ?_ h
  decide +kernel

end FlagKit
