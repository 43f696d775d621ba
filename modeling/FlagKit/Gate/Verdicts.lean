import FlagKit.Gate.Tracks

/-!
# Verdicts over whole runs

One counter, reset in five places, summarises an unbounded history: the decision
on a window is a function of what the window says and of the breaches since the
last promotion or rollback, and the stage index counts the promotions since the
last rollback.  A window with too little evidence is not there at all.

Latency samples may be NaN, and the sort behind the p99 may panic on them, also in a
window that is held or is over its error budget.  Then there is no verdict.
-/

namespace FlagKit

open Machine RolloutController

variable (env : FloatEnv)

/-- A step of a controller run; a call that panics has no output. -/
abbrev Observed := Event RolloutController Window (Option (Verdict × Decision))

/-- What the window of a step said about the stage it was judged against. -/
def Observed.evidence (e : Observed) : Option Evidence := evidenceIn env e.before e.input

/-- The same by the numbers of the window alone, whether or not they can be sorted. -/
def Observed.reading (e : Observed) : Evidence := e.before.gate.stage.reading env e.input

def Observed.decision (e : Observed) : Option Decision := decided e.output

/-- The history a run leaves: the evidence and the decision of each step that
returned. -/
def history (es : List Observed) : List (Evidence × Decision) :=
  es.filterMap fun e => do return (← Observed.evidence env e, ← Observed.decision e)

/-- The steps of a run whose window carried enough evidence. -/
def evidenced (c : RolloutController) (ws : List Window) : List Observed :=
  (trace (feed env) c ws).filter (fun e => Observed.reading env e ≠ .insufficient)

variable {env}

theorem history_of_panic {es : List Observed} {e : Observed}
    (hk : Observed.evidence env e = none) : history env (es ++ [e]) = history env es := by
  simp [history, hk]

theorem history_of_answer {es : List Observed} {e : Observed} {k : Evidence} {d : Decision}
    (hk : Observed.evidence env e = some k) (hd : Observed.decision e = some d) :
    history env (es ++ [e]) = history env es ++ [(k, d)] := by
  simp [history, hk, hd]

variable (env)

variable {stages : List Stage} {limit : UInt32}

/-- Some climber tracks the gate and has counted the history. -/
def HistoryTracked (stages : List Stage) (limit : UInt32) (es : List Observed)
    (c : RolloutController) : Prop :=
  ∃ s, GateTracks stages limit c s ∧
    Climb.Counted stages.length limit.toNat (history env es) s

theorem feed_historyTracked {es : List Observed} {c : RolloutController}
    (h : HistoryTracked env stages limit es c) (w : Window) :
    HistoryTracked env stages limit (es ++ [event (feed env) c w]) (c.feed env w).2 := by
  obtain ⟨s, htracks, hcounted⟩ := h
  obtain ⟨hdec, hnext⟩ := feed_gateTracks env htracks hcounted.sound w
  refine ⟨_, hnext, ?_⟩
  have hev : Observed.evidence env (event (feed env) c w) = evidenceIn env c w := rfl
  cases hk : evidenceIn env c w with
  | none =>
    rw [history_of_panic (hev.trans hk)]
    exact hcounted
  | some k =>
    rw [hk] at hdec
    rw [history_of_answer (hev.trans hk) hdec]
    exact Climb.step_counted hcounted k

theorem start_historyTracked (hne : stages ≠ []) (limit : UInt32) (r : Rollout) :
    HistoryTracked env stages (max limit 1) []
      (RolloutController.new r ⟨stages, hne, max limit 1, 0, 0⟩) :=
  ⟨Climb.start, (start_gateTracks hne limit r).1,
    Climb.start_counted (List.length_pos_iff.mpr hne) (max_one_toNat_pos limit)⟩

/-- The steps before a step of a run have been counted when it is taken. -/
theorem historyTracked_of_split {g : HealthGate} {r : Rollout} {ws : List Window}
    {h t : List Observed} {e : Observed} (hg : HealthGate.new stages limit = .ok g)
    (hsplit : trace (feed env) (RolloutController.new r g) ws = h ++ e :: t) :
    ∃ c w, w ∈ ws ∧ e = event (feed env) c w ∧
      HistoryTracked env stages (max limit 1) h c := by
  obtain ⟨hne, rfl⟩ := HealthGate.new_eq_ok_iff.mp hg
  obtain ⟨pre, w, post, hws, rfl, rfl⟩ := trace_split hsplit
  exact ⟨_, w, by simp [hws], rfl,
    history_final (J := HistoryTracked env stages (max limit 1))
      (start_historyTracked env hne limit r) (fun _ _ w h => feed_historyTracked env h w) pre⟩

/-! ## One verdict -/

/-- The decision of the step `e` is read off its window and the steps `h` before it. -/
structure DecisionExact (stages : List Stage) (limit : UInt32) (h : List Observed)
    (e : Observed) : Prop where
  verdict : e.output.map (fun answer => answer.1.decision) = Observed.decision e
  promote : Observed.decision e = some .promote ↔ Observed.reading env e = .healthy
  rollback : Observed.decision e = some .rollback ↔
    Observed.reading env e = .breach ∧ Climb.breachesSince (history env h) + 1 = limit.toNat
  hold : Observed.decision e = some .hold ↔
    Observed.reading env e ≠ .healthy ∧
      ¬ (Observed.reading env e = .breach ∧
        Climb.breachesSince (history env h) + 1 = limit.toNat)
  index : e.after.gate.stageIndex =
    min (Climb.promotesSince (history env (h ++ [e]))) (stages.length - 1)

/-- One step: exact when it returns. -/
theorem feed_decisionExact {h : List Observed} {c : RolloutController} {w : Window}
    {k : Evidence} (htracked : HistoryTracked env stages limit h c)
    (hk : c.gate.stage.evidence env w = some k) :
    DecisionExact env stages limit h (event (feed env) c w) := by
  obtain ⟨s', hs', hcounted'⟩ := feed_historyTracked env htracked w
  obtain ⟨s, hs, hcounted⟩ := htracked
  obtain ⟨hpromote, hrollback, hhold⟩ := Climb.counted_decision hcounted k
  have hdec : Observed.decision (event (feed env) c w) =
      some (Climb.step stages.length limit.toNat s k).1 := by
    have htracks := (feed_gateTracks env hs hcounted.sound w).1
    rw [evidenceIn, hk] at htracks
    exact htracks
  have hreading : Observed.reading env (event (feed env) c w) = k :=
    Stage.reading_of_evidence env hk
  constructor
  · rw [Observed.decision, decided, event_output, feed_answer, Option.map_map, Option.map_map]
    rfl
  · rw [hdec, hreading, Option.some.injEq]
    exact hpromote
  · rw [hdec, hreading, Option.some.injEq]
    exact hrollback
  · rw [hdec, hreading, Option.some.injEq]
    exact hhold
  · rw [event_after, hs'.rung_eq]
    exact hcounted'.rung_eq

/-- Every window asks for a decision, so a call that panics is exact in no history. -/
theorem decision_of_decisionExact {h : List Observed} {e : Observed}
    (hexact : DecisionExact env stages limit h e) : Observed.decision e ≠ none := by
  intro hnone
  obtain ⟨_, hpromote, hrollback, hhold, _⟩ := hexact
  simp only [hnone, reduceCtorEq, false_iff] at hpromote hrollback hhold
  exact hhold ⟨hpromote, hrollback⟩

/-! ## Runs -/

theorem feed_idle {c : RolloutController} {w : Window}
    (h : decide (Observed.reading env (event (feed env) c w) ≠ .insufficient) = false) :
    (c.feed env w).2 = c := by
  have hreading : c.gate.stage.reading env w = .insufficient := not_not.mp (of_decide_eq_false h)
  cases hk : c.gate.stage.evidence env w with
  | none => rw [feed_panics env hk]
  | some k =>
    rw [Stage.reading_of_evidence env hk] at hreading
    rw [hreading] at hk
    exact (feed_insufficient env hk).2

theorem delete_insufficient (c : RolloutController) (ws : List Window) :
    trace (feed env) c ((evidenced env c ws).map Event.input) = evidenced env c ws ∧
      final (feed env) c ((evidenced env c ws).map Event.input) = final (feed env) c ws :=
  trace_delete_idle (fun _ _ => feed_idle env) c ws

/-- The semantics of a run.  The decision of every step is read off its window and
the history before it, the stage index off the history, and deleting the windows
with insufficient evidence leaves the other steps and the final state as they were. -/
structure VerdictsExact (stages : List Stage) (limit : UInt32) (c : RolloutController)
    (ws : List Window) : Prop where
  decisions : ∀ h e t, trace (feed env) c ws = h ++ e :: t → DecisionExact env stages limit h e
  trace_eq : trace (feed env) c ((evidenced env c ws).map Event.input) = evidenced env c ws
  final_eq : final (feed env) c ((evidenced env c ws).map Event.input) = final (feed env) c ws

/-- A fresh controller without a tolerance is given a window over its error budget
and samples that cannot be sorted.  It does not roll back. -/
theorem over_budget_window_panics :
    ¬ ∀ (env : FloatEnv) (stages : List Stage) (limit : UInt32) (g : HealthGate) (r : Rollout)
        (ws : List Window), HealthGate.new stages limit = .ok g → 1 ≤ limit →
      VerdictsExact env stages limit (RolloutController.new r g) ws := by
  intro h
  have hexact := h .strict [sampleStage 5, sampleStage 25] 1 sampleGate (sampleRollout 5)
    [unsortableWindow] rfl (by decide)
  refine decision_of_decisionExact .strict (hexact.decisions [] _ [] rfl) ?_
  have hk : sampleGate.stage.evidence .strict unsortableWindow = none :=
    (Stage.evidence_eq_none_iff .strict).mpr (not_sorts_unsortable 200 50)
  have hfeed := feed_panics .strict
    (c := RolloutController.new (sampleRollout 5) sampleGate) hk
  rw [Observed.decision, event_output, hfeed]
  rfl

/-- The verdicts of a run are exact when every window's samples can be sorted, and
only then. -/
theorem verdicts_exact_iff {g : HealthGate} {r : Rollout}
    (hg : HealthGate.new stages limit = .ok g) (hl : 1 ≤ limit) (ws : List Window) :
    VerdictsExact env stages limit (RolloutController.new r g) ws ↔
      ∀ w ∈ ws, w.snapshot.Sorts env := by
  constructor
  · intro hexact w hw
    by_contra hsorts
    obtain ⟨pre, post, rfl⟩ := List.append_of_mem hw
    have hsplit := trace_append (feed env) (RolloutController.new r g) pre (w :: post)
    refine decision_of_decisionExact env (hexact.decisions _ _ _ hsplit) ?_
    rw [Observed.decision, event_output,
      feed_panics env ((Stage.evidence_eq_none_iff env).mpr hsorts)]
    rfl
  · intro hsorts
    obtain ⟨htrace, hfinal⟩ := delete_insufficient env (RolloutController.new r g) ws
    refine ⟨fun h e t hsplit => ?_, htrace, hfinal⟩
    obtain ⟨c, w, hw, rfl, htracked⟩ := historyTracked_of_split env hg hsplit
    rw [max_one_eq hl] at htracked
    exact feed_decisionExact env htracked (Stage.evidence_of_sorts env _ (hsorts w hw))

theorem verdicts_exact_first_breach :
    VerdictsExact .exact [sampleStage 5, sampleStage 25] 1
      (RolloutController.new (sampleRollout 5) sampleGate) [sampleWindow 50] :=
  (@verdicts_exact_iff .exact [sampleStage 5, sampleStage 25] 1 sampleGate (sampleRollout 5) rfl
    (by decide) [sampleWindow 50]).mpr (by
      intro w hw
      rw [List.mem_singleton.mp hw]
      exact Or.inl rfl)

end FlagKit
