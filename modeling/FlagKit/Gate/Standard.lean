import FlagKit.Gate.Resumed
import FlagKit.Gate.Worse

/-!
# The standard progression

`HealthGate::standard` is 5, 25, 50 and 100 percent, each with ten minutes, a hundred
requests, an error budget of one percent and no latency ceiling.  Its stages are in order
and share their bounds, so what is proved of such gates holds of it.

A rollout under it exposes what it started with, or nothing after a rollback, until it is
promoted.  From then on its promotions since the last rollback are counted by its
exposure, as long as that is not above what it started with: one makes it 25 percent, two
50, three or more 100.  Each of them was paid for by a window of ten minutes and a hundred
requests at least, with an error rate within the budget (`standard_progression`).  The
five percent of the first stage are never set.
-/

namespace FlagKit

open Machine RolloutController

variable (env : FloatEnv)

/-- The stage `Stage::new` gives for a percentage in range. -/
def standardStage (percentage : UInt8) : Stage where
  percentage
  minDuration := Duration.fromSecs 600
  minSamples := 100
  maxErrorRate := env.round (1 / 100)
  maxLatencyP99Ms := .posInf

def standardStages : List Stage := [5, 25, 50, 100].map (standardStage env)

namespace HealthGate

theorem standard_eq (limit : UInt32) : standard env limit = new (standardStages env) limit := rfl

theorem standard_ordered : Ordered (standardStages env) where
  sorted := by
    rw [standardStages, List.pairwise_map]
    show [5, 25, 50, 100].Pairwise (fun a b : UInt8 => a ≤ b)
    decide
  le_hundred := by
    intro s hs
    obtain ⟨p, hp, rfl⟩ := List.mem_map.mp hs
    have hall : ∀ p ∈ ([5, 25, 50, 100] : List UInt8), p ≤ 100 := by
      simp only [List.forall_mem_cons]
      exact ⟨by decide, by decide, by decide, by decide, List.forall_mem_nil _⟩
    exact hall p hp

theorem standard_sameBounds : ∀ s ∈ standardStages env, ∀ t ∈ standardStages env,
    SameBounds s t := by
  intro s hs t ht
  obtain ⟨p, -, rfl⟩ := List.mem_map.mp hs
  obtain ⟨q, -, rfl⟩ := List.mem_map.mp ht
  exact ⟨rfl, rfl, rfl, rfl⟩

end HealthGate

/-- A window that every stage of the standard gate finds healthy. -/
structure Clean (w : Window) : Prop where
  ten_minutes : Duration.fromSecs 600 ≤ w.observedFor
  hundred_requests : 100 ≤ w.snapshot.total
  within_budget : ∀ r, w.snapshot.errorRate env = some r → r.gt (env.round (1 / 100)) = false

theorem clean_of_healthy {s : Stage} (hs : s ∈ standardStages env) {w : Window}
    (h : s.evidence env w = some .healthy) : Clean env w := by
  obtain ⟨p, -, rfl⟩ := List.mem_map.mp hs
  obtain ⟨hlong, hmany, p99, -, hbreached⟩ := (HealthGate.evidence_eq_healthy_iff env).mp h
  refine ⟨hlong, hmany, fun r hr => ?_⟩
  rw [Stage.breached, Bool.or_eq_false_iff, hr] at hbreached
  exact hbreached.1

/-! ## Promotions counted -/

def promotions (es : List Observed) : Nat :=
  es.countP (fun e => Observed.decision e = some .promote)

/-- The history counts the promotions of the steps since the last rollback. -/
theorem feed_promotesSince {es : List Observed}
    (h : Climb.promotesSince (history env es) = promotions (sinceRollback es))
    (c : RolloutController) (w : Window) :
    Climb.promotesSince (history env (es ++ [event (feed env) c w])) =
      promotions (sinceRollback (es ++ [event (feed env) c w])) := by
  have hev : Observed.evidence env (event (feed env) c w) = c.gate.stage.evidence env w := rfl
  cases hdec : Observed.decision (event (feed env) c w) with
  | none =>
    have hk := (c.decided_feed_eq_none_iff env w).mp hdec
    rw [history_of_panic (hev.trans hk), sinceRollback_concat es (by simp [hdec]), h]
    simp [promotions, hdec]
  | some d =>
    have hanswered : Observed.decision (event (feed env) c w) ≠ none := by simp [hdec]
    obtain ⟨k, hk⟩ := Option.ne_none_iff_exists'.mp
      (mt (c.decided_feed_eq_none_iff env w).mpr hanswered)
    rw [history_of_answer (hev.trans hk) hdec]
    cases d with
    | rollback =>
      rw [Climb.promotesSince_rollback, sinceRollback_rollback es hdec]
      rfl
    | promote =>
      rw [Climb.promotesSince_promote, sinceRollback_concat es (by simp [hdec]), h]
      simp [promotions, hdec]
    | hold =>
      rw [Climb.promotesSince_hold, sinceRollback_concat es (by simp [hdec]), h]
      simp [promotions, hdec]

theorem promotesSince_trace (c : RolloutController) (ws : List Window) :
    Climb.promotesSince (history env (trace (feed env) c ws)) =
      promotions (sinceRollback (trace (feed env) c ws)) :=
  history_final (s := c)
    (J := fun es _ => Climb.promotesSince (history env es) = promotions (sinceRollback es)) rfl
    (fun _ c w h => feed_promotesSince env h c w) ws

/-- The stage index of a fresh gate counts the promotions since the last rollback. -/
theorem index_eq_promotions {stages : List Stage} {limit : UInt32} {g : HealthGate}
    (hg : HealthGate.new stages limit = .ok g) (r : Rollout) (ws : List Window) :
    (final (feed env) (RolloutController.new r g) ws).gate.stageIndex =
      min (promotions (sinceRollback (trace (feed env) (RolloutController.new r g) ws)))
        (stages.length - 1) := by
  obtain ⟨hne, rfl⟩ := HealthGate.new_eq_ok_iff.mp hg
  obtain ⟨s, htracks, hcounted⟩ := history_final (J := HistoryTracked env stages (max limit 1))
    (start_historyTracked env hne limit r) (fun _ _ w h => feed_historyTracked env h w) ws
  rw [htracks.rung_eq, hcounted.rung_eq, promotesSince_trace]

/-! ## The progression -/

/-- What a rollout exposes after `k` promotions since the last rollback. -/
def standardExposure (footing : UInt8) : Nat → UInt8
  | 0 => footing
  | 1 => max footing 25
  | 2 => max footing 50
  | _ => max footing 100

theorem resumedExposure_standard (percentage : UInt8) (rolled : Bool) (k : Nat) :
    resumedExposure (standardStages env) 0 percentage rolled (min k 3) =
      standardExposure (if rolled then 0 else percentage) k := by
  rcases k with _ | _ | _ | k
  · cases rolled <;> rfl
  · cases rolled <;> rfl
  · cases rolled <;> rfl
  · have hmin : min (k + 1 + 1 + 1) 3 = 3 := by omega
    rw [hmin]
    cases rolled <;> rfl

/-- In every run under the standard gate, from any starting percentage, the exposure is
that of the promotions since the last rollback, and each of them was decided on a clean
window. -/
theorem standard_progression {limit : UInt32} {g : HealthGate} {flag : FlagName}
    {percentage : UInt8} {salt : String} {r : Rollout}
    (hg : HealthGate.standard env limit = .ok g) (hr : Rollout.new flag percentage salt = .ok r)
    (ws : List Window) {c : RolloutController} {es : List Observed}
    (hc : c = final (feed env) (RolloutController.new r g) ws)
    (hes : es = trace (feed env) (RolloutController.new r g) ws) :
    c.rollout.percentage = standardExposure (footing r es) (promotions (sinceRollback es)) ∧
      ∀ e ∈ sinceRollback es, Observed.decision e = some .promote → Clean env e.input := by
  rw [HealthGate.standard_eq] at hg
  have hindex := index_eq_promotions env hg r ws
  have hresumed := history_final (J := Resumed (standardStages env) 0 percentage)
    (new_resumed hg hr)
    (fun _ _ w h => feed_resumed env (HealthGate.standard_ordered env) h w) ws
  rw [← hc, ← hes] at hindex hresumed
  constructor
  · have hstart : r.percentage = percentage := by
      obtain ⟨_, rfl⟩ := Rollout.new_eq_ok_iff.mp hr
      rfl
    rw [hresumed.exposure, hindex, footing, hstart]
    exact resumedExposure_standard env percentage _ _
  · intro e he hdec
    have hmem : e ∈ trace (feed env) (RolloutController.new r g) ws := by
      rw [← hes]
      exact (List.rtakeWhile_suffix _ es).subset he
    obtain ⟨hne, rfl⟩ := HealthGate.new_eq_ok_iff.mp hg
    obtain ⟨hkept, hev⟩ := invariant_trace (J := Kept (RolloutController.new r _))
      (fun _ w h => feed_kept env h w) (new_kept hr (List.length_pos_iff.mpr hne)) hmem
    rw [hev, Observed.decision, event_output, decided_feed,
      HealthGate.observe_promote_iff] at hdec
    have hstages : e.before.gate.stages = standardStages env := hkept.stages_eq
    refine clean_of_healthy env (s := e.before.gate.stage) ?_ hdec
    rw [← hstages]
    exact List.get_mem _ _

/-- Ten quiet minutes. -/
def quietWindow : Window := ⟨⟨200, 0, []⟩, Duration.fromSecs 600⟩

def standardGate : HealthGate := ⟨standardStages .exact, List.cons_ne_nil _ _, 3, 0, 0⟩

/-- A rollout that starts at half of the users stays there for two promotions. -/
theorem standard_progression_from_half :
    (final (feed .exact) (RolloutController.new (sampleRollout 50) standardGate)
      [quietWindow, quietWindow]).rollout.percentage = 50 :=
  ((@standard_progression .exact 3 standardGate ⟨"checkout"⟩ 50 "c1" (sampleRollout 50) rfl rfl
    [quietWindow, quietWindow] _ _ rfl rfl).1).trans (by decide +kernel)

end FlagKit
