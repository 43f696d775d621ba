import FlagKit.Gate.Climb
import FlagKit.Lifecycle.Rollout

/-!
# The rollout controller

`RolloutController::observe` feeds a window to its gate and moves the rollout on a
promotion or a rollback.  A window means one of three things to the stage it is
judged against, `Stage.evidence`, or nothing when the sort of its samples panics.  The
theorems `feed_*` say what each of them does to the whole controller.  Nothing after
this file unfolds `observe` of the controller.
-/

namespace FlagKit

open Machine

variable (env : FloatEnv)

structure RolloutController where
  flag : FlagName
  rollout : Rollout
  gate : HealthGate
  deriving DecidableEq

namespace RolloutController

def new (rollout : Rollout) (gate : HealthGate) : RolloutController :=
  { flag := rollout.flag, rollout, gate }

def observe (c : RolloutController) (snapshot : HealthSnapshot) (observedFor : Duration) :
    Option ((Verdict × Decision) × RolloutController) := do
  let (verdict, gate) ← c.gate.observe env snapshot observedFor
  let decision := verdict.decision
  match decision with
  | .promote =>
    match gate.advance with
    | (.ok _, gate) =>
      -- the result of `Rollout::advance` is dropped, so a refusal goes unnoticed
      let (_, rollout) := c.rollout.advance gate.stage.percentage
      return ((verdict, decision), { c with gate, rollout })
    | (.error _, gate) => return ((verdict, decision), { c with gate })
  | .rollback =>
    return ((verdict, decision),
      { c with rollout := c.rollout.resetExposure, gate := gate.restart })
  | .hold => return ((verdict, decision), { c with gate })

/-- `observe` as the step of a machine whose inputs are windows.  The sort panics before
anything is written. -/
def feed (c : RolloutController) (w : Window) : Option (Verdict × Decision) × RolloutController :=
  tries (fun c w => c.observe env w.snapshot w.observedFor) c w

/-- The decision of a call that returned. -/
def decided (answer : Option (Verdict × Decision)) : Option Decision := answer.map Prod.snd

end RolloutController

/-! ## Evidence -/

/-- The sort of the samples returns. -/
def HealthSnapshot.Sorts (s : HealthSnapshot) : Prop :=
  s.latenciesMs = [] ∨ ∃ l, env.sortBy F64.cmpOrEqual s.latenciesMs = some l

theorem HealthSnapshot.latencyP99Ms_eq_none_iff (s : HealthSnapshot) :
    s.latencyP99Ms env = none ↔ ¬ s.Sorts env := by
  by_cases hempty : s.latenciesMs = []
  · simp [latencyP99Ms, Sorts, hempty]
  · cases hsort : env.sortBy F64.cmpOrEqual s.latenciesMs <;>
      simp [latencyP99Ms, Sorts, hempty, hsort]

/-- The comparison orders numbers, so only NaN can make the sort panic. -/
theorem HealthSnapshot.sorts_of_nan_not_mem {s : HealthSnapshot} (h : F64.nan ∉ s.latenciesMs) :
    s.Sorts env := by
  obtain ⟨l, hl, _⟩ := env.sortBy_sorted (totalOn_cmpOrEqual h)
  exact Or.inr ⟨l, hl⟩

namespace Stage

def breached (s : Stage) (snapshot : HealthSnapshot) (p99 : Option F64) : Bool :=
  (snapshot.errorRate env).any (fun r => r.gt s.maxErrorRate) ||
    p99.any (fun p => p.gt s.maxLatencyP99Ms)

/-- What a window says of the stage; nothing when the sort of its samples panics. -/
def evidence (s : Stage) (w : Window) : Option Evidence := do
  let p99 ← w.snapshot.latencyP99Ms env
  return if w.observedFor < s.minDuration ∨ w.snapshot.total < s.minSamples then .insufficient
    else if s.breached env w.snapshot p99 then .breach
    else .healthy

theorem evidence_of_p99 (s : Stage) {w : Window} {p99 : Option F64}
    (h : w.snapshot.latencyP99Ms env = some p99) :
    s.evidence env w = some
      (if w.observedFor < s.minDuration ∨ w.snapshot.total < s.minSamples then .insufficient
        else if s.breached env w.snapshot p99 then .breach
        else .healthy) := by
  rw [evidence, h]
  rfl

theorem evidence_eq_none_iff {s : Stage} {w : Window} :
    s.evidence env w = none ↔ ¬ w.snapshot.Sorts env := by
  rw [← HealthSnapshot.latencyP99Ms_eq_none_iff, evidence]
  cases w.snapshot.latencyP99Ms env <;> simp

/-- What the numbers of a window say of the stage; a p99 that panics exceeds nothing. -/
def reading (s : Stage) (w : Window) : Evidence :=
  if w.observedFor < s.minDuration ∨ w.snapshot.total < s.minSamples then .insufficient
  else if s.breached env w.snapshot (w.snapshot.latencyP99Ms env).join then .breach
  else .healthy

theorem evidence_of_sorts (s : Stage) {w : Window} (h : w.snapshot.Sorts env) :
    s.evidence env w = some (s.reading env w) := by
  rw [← not_not (a := w.snapshot.Sorts env), ← HealthSnapshot.latencyP99Ms_eq_none_iff] at h
  obtain ⟨p99, hp99⟩ := Option.ne_none_iff_exists'.mp h
  rw [evidence_of_p99 env s hp99, reading, hp99]
  rfl

theorem reading_of_evidence {s : Stage} {w : Window} {k : Evidence}
    (h : s.evidence env w = some k) : s.reading env w = k := by
  by_cases hs : w.snapshot.Sorts env
  · rw [evidence_of_sorts env s hs] at h
    exact Option.some.inj h
  · rw [(evidence_eq_none_iff env).mpr hs] at h
    cases h

/-- Evidence comes with the p99 it was read from. -/
theorem p99_of_evidence {s : Stage} {w : Window} {k : Evidence}
    (h : s.evidence env w = some k) : ∃ p99, w.snapshot.latencyP99Ms env = some p99 := by
  rw [← Option.ne_none_iff_exists']
  intro hnone
  rw [evidence, hnone] at h
  cases h

end Stage

/-- Below its greatest value the increment of a counter does not wrap. -/
theorem toNat_add_one {n : UInt32} (h : n.toNat + 1 ≠ 2 ^ 32) : (n + 1).toNat = n.toNat + 1 := by
  have hlt := n.toNat_lt
  rw [UInt32.toNat_add, UInt32.toNat_one]
  omega

namespace HealthGate

theorem observe_panics {g : HealthGate} {w : Window} (h : g.stage.evidence env w = none) :
    g.observe env w.snapshot w.observedFor = none := by
  rw [Stage.evidence_eq_none_iff, ← HealthSnapshot.latencyP99Ms_eq_none_iff] at h
  by_cases hsoon : w.observedFor < g.stage.minDuration
  · simp [observe, hsoon, holdVerdict, h]
  · by_cases hfew : w.snapshot.total < g.stage.minSamples
    · simp [observe, hsoon, hfew, holdVerdict, h]
    · simp [observe, hsoon, hfew, h]

theorem observe_insufficient {g : HealthGate} {w : Window}
    (h : g.stage.evidence env w = some .insufficient) :
    ∃ v, g.observe env w.snapshot w.observedFor = some (v, g) ∧ v.decision = .hold := by
  obtain ⟨p99, hp99⟩ := Stage.p99_of_evidence env h
  rw [Stage.evidence_of_p99 env _ hp99, Option.some.injEq] at h
  by_cases hsoon : w.observedFor < g.stage.minDuration
  · simp [observe, hsoon, holdVerdict, hp99]
  · by_cases hfew : w.snapshot.total < g.stage.minSamples
    · simp [observe, hsoon, hfew, holdVerdict, hp99]
    · by_cases hb : g.stage.breached env w.snapshot p99 = true <;> simp [hsoon, hfew, hb] at h

/-- With enough evidence, what the window does is decided by whether the stage is
breached. -/
theorem evidence_sufficient {s : Stage} {w : Window} {p99 : Option F64}
    (hp99 : w.snapshot.latencyP99Ms env = some p99)
    (h : s.evidence env w ≠ some .insufficient) :
    ¬ w.observedFor < s.minDuration ∧ ¬ w.snapshot.total < s.minSamples ∧
      (s.evidence env w = some .breach ↔ s.breached env w.snapshot p99 = true) := by
  rw [Stage.evidence_of_p99 env s hp99] at h ⊢
  by_cases hcond : w.observedFor < s.minDuration ∨ w.snapshot.total < s.minSamples
  · simp [hcond] at h
  · rw [not_or] at hcond
    refine ⟨hcond.1, hcond.2, ?_⟩
    by_cases hb : s.breached env w.snapshot p99 = true <;> simp [hcond, hb]

theorem observe_breach {g : HealthGate} {w : Window}
    (h : g.stage.evidence env w = some .breach) :
    (g.failureLimit ≤ g.consecutiveFailures + 1 →
      ∃ v, g.observe env w.snapshot w.observedFor =
        some (v, { g with consecutiveFailures := 0 }) ∧ v.decision = .rollback) ∧
    (¬ g.failureLimit ≤ g.consecutiveFailures + 1 →
      ∃ v, g.observe env w.snapshot w.observedFor =
        some (v, { g with consecutiveFailures := g.consecutiveFailures + 1 }) ∧
          v.decision = .hold) := by
  obtain ⟨p99, hp99⟩ := Stage.p99_of_evidence env h
  obtain ⟨hsoon, hfew, hiff⟩ := evidence_sufficient env hp99 (s := g.stage) (by rw [h]; simp)
  have hb := hiff.mp h
  rw [Stage.breached, Bool.or_eq_true] at hb
  refine ⟨fun hl => ?_, fun hl => ?_⟩ <;> simp [observe, hsoon, hfew, hp99, hb, hl]

theorem observe_healthy {g : HealthGate} {w : Window}
    (h : g.stage.evidence env w = some .healthy) :
    ∃ v, g.observe env w.snapshot w.observedFor =
      some (v, { g with consecutiveFailures := 0 }) ∧ v.decision = .promote := by
  obtain ⟨p99, hp99⟩ := Stage.p99_of_evidence env h
  obtain ⟨hsoon, hfew, hiff⟩ := evidence_sufficient env hp99 (s := g.stage) (by rw [h]; simp)
  have hb : ¬ g.stage.breached env w.snapshot p99 = true := by
    rw [← hiff, h]
    simp
  rw [Stage.breached, Bool.or_eq_true] at hb
  simp [observe, hsoon, hfew, hp99, hb]

/-- The decision of a call of `observe`, if it returns. -/
def decides (g : HealthGate) (w : Window) : Option Decision :=
  (g.observe env w.snapshot w.observedFor).map fun r => r.1.decision

/-- A gate promotes on the windows its stage finds healthy, and on no others. -/
theorem observe_promote_iff (g : HealthGate) (w : Window) :
    g.decides env w = some .promote ↔ g.stage.evidence env w = some .healthy := by
  unfold decides
  cases h : g.stage.evidence env w with
  | none => simp [observe_panics env h]
  | some k =>
    cases k with
    | insufficient =>
      obtain ⟨v, hobs, hdec⟩ := observe_insufficient env h
      simp [hobs, hdec]
    | breach =>
      by_cases hl : g.failureLimit ≤ g.consecutiveFailures + 1
      · obtain ⟨v, hobs, hdec⟩ := (observe_breach env h).1 hl
        simp [hobs, hdec]
      · obtain ⟨v, hobs, hdec⟩ := (observe_breach env h).2 hl
        simp [hobs, hdec]
    | healthy =>
      obtain ⟨v, hobs, hdec⟩ := observe_healthy env h
      simp [hobs, hdec]

theorem evidence_eq_healthy_iff {s : Stage} {w : Window} :
    s.evidence env w = some .healthy ↔ s.minDuration ≤ w.observedFor ∧
      s.minSamples ≤ w.snapshot.total ∧
      ∃ p99, w.snapshot.latencyP99Ms env = some p99 ∧ s.breached env w.snapshot p99 = false := by
  rw [← Nat.not_lt, ← UInt64.not_lt]
  constructor
  · intro h
    obtain ⟨p99, hp99⟩ := Stage.p99_of_evidence env h
    obtain ⟨hsoon, hfew, hiff⟩ := evidence_sufficient env hp99 (s := s) (by rw [h]; simp)
    refine ⟨hsoon, hfew, p99, hp99, ?_⟩
    rw [h] at hiff
    simpa using hiff
  · intro h
    obtain ⟨hsoon, hfew, p99, hp99, hb⟩ := h
    rw [Stage.evidence_of_p99 env s hp99, if_neg (not_or.mpr ⟨hsoon, hfew⟩), hb]
    rfl

/-- A gate answers every window whose p99 is known. -/
theorem observe_answers {g : HealthGate} {w : Window} {p99 : Option F64}
    (h : w.snapshot.latencyP99Ms env = some p99) :
    ∃ v g', g.observe env w.snapshot w.observedFor = some (v, g') := by
  simp only [observe, holdVerdict, h, Option.bind_eq_bind, Option.bind_some, Option.pure_def]
  split_ifs <;> exact ⟨_, _, rfl⟩

/-- Every verdict reports the p99 of its window. -/
theorem observe_latencyP99Ms {g g' : HealthGate} {w : Window} {v : Verdict}
    (h : g.observe env w.snapshot w.observedFor = some (v, g')) :
    w.snapshot.latencyP99Ms env = some v.latencyP99Ms := by
  cases hp99 : w.snapshot.latencyP99Ms env with
  | none =>
    have hk : g.stage.evidence env w = none := by rw [Stage.evidence, hp99]; rfl
    rw [observe_panics env hk] at h
    cases h
  | some p99 =>
    simp only [observe, holdVerdict, hp99, Option.bind_eq_bind, Option.bind_some,
      Option.pure_def] at h
    split_ifs at h <;> cases h <;> rfl

theorem advance_top {g : HealthGate} (h : g.stages.length ≤ g.stageIndex + 1) :
    g.advance = (.error (.percentageOutOfRange 100), g) := by
  simp [advance, isComplete, h]

theorem advance_up {g : HealthGate} (h : g.stageIndex + 1 < g.stages.length) :
    g.advance = (.ok { g with stageIndex := g.stageIndex + 1 }.stage,
      { g with stageIndex := g.stageIndex + 1 }) := by
  have htop : ¬ g.stages.length ≤ g.stageIndex + 1 := by omega
  simp [advance, isComplete, htop]

theorem new_eq_ok_iff {stages : List Stage} {failureLimit : UInt32} {g : HealthGate} :
    new stages failureLimit = .ok g ↔
      ∃ h : stages ≠ [], g = ⟨stages, h, max failureLimit 1, 0, 0⟩ := by
  by_cases h : stages = []
  · simp [new, h]
  · simp [new, h, eq_comm]

end HealthGate

/-! ## One window -/

namespace RolloutController

variable {c : RolloutController} {w : Window}

/-- The percentage of stage `i`, zero past the end of the list. -/
def stagePercentage (stages : List Stage) (i : Nat) : UInt8 :=
  ((stages[i]?).map Stage.percentage).getD 0

theorem stage_getElem? {g : HealthGate} (h : g.stageIndex < g.stages.length) :
    g.stages[g.stageIndex]? = some g.stage := by
  have hmin : min g.stageIndex (g.stages.length - 1) = g.stageIndex := by omega
  simp [HealthGate.stage, hmin, List.getElem?_eq_getElem h]

theorem stage_percentage {g : HealthGate} (h : g.stageIndex < g.stages.length) :
    g.stage.percentage = stagePercentage g.stages g.stageIndex := by
  rw [stagePercentage, stage_getElem? h]
  rfl

/-- A call that panics answers nothing and changes nothing. -/
theorem feed_panics (h : c.gate.stage.evidence env w = none) : c.feed env w = (none, c) := by
  have hobs := HealthGate.observe_panics env h
  apply tries_of_eq_none
  simp [observe, hobs]

theorem feed_insufficient (h : c.gate.stage.evidence env w = some .insufficient) :
    decided (c.feed env w).1 = some .hold ∧ (c.feed env w).2 = c := by
  obtain ⟨v, hobs, hdec⟩ := HealthGate.observe_insufficient env h
  simp [feed, tries, observe, decided, hobs, hdec]

theorem feed_breach_hold (h : c.gate.stage.evidence env w = some .breach)
    (hl : ¬ c.gate.failureLimit ≤ c.gate.consecutiveFailures + 1) :
    decided (c.feed env w).1 = some .hold ∧
      (c.feed env w).2 =
        { c with gate :=
          { c.gate with consecutiveFailures := c.gate.consecutiveFailures + 1 } } := by
  obtain ⟨v, hobs, hdec⟩ := (HealthGate.observe_breach env h).2 hl
  simp [feed, tries, observe, decided, hobs, hdec]

theorem feed_breach_rollback (h : c.gate.stage.evidence env w = some .breach)
    (hl : c.gate.failureLimit ≤ c.gate.consecutiveFailures + 1) :
    decided (c.feed env w).1 = some .rollback ∧
      (c.feed env w).2 =
        { c with rollout := c.rollout.resetExposure, gate := c.gate.restart } := by
  obtain ⟨v, hobs, hdec⟩ := (HealthGate.observe_breach env h).1 hl
  simp [feed, tries, observe, decided, hobs, hdec, HealthGate.restart]

theorem feed_healthy_top (h : c.gate.stage.evidence env w = some .healthy)
    (htop : c.gate.stages.length ≤ c.gate.stageIndex + 1) :
    decided (c.feed env w).1 = some .promote ∧
      (c.feed env w).2 = { c with gate := { c.gate with consecutiveFailures := 0 } } := by
  obtain ⟨v, hobs, hdec⟩ := HealthGate.observe_healthy env h
  have hadv := HealthGate.advance_top (g := { c.gate with consecutiveFailures := 0 }) htop
  simp [feed, tries, observe, decided, hobs, hdec, hadv]

theorem feed_healthy_up (h : c.gate.stage.evidence env w = some .healthy)
    (hup : c.gate.stageIndex + 1 < c.gate.stages.length) :
    decided (c.feed env w).1 = some .promote ∧
      (c.feed env w).2 =
        { c with
          gate := { c.gate with consecutiveFailures := 0, stageIndex := c.gate.stageIndex + 1 }
          rollout :=
            (c.rollout.advance (stagePercentage c.gate.stages (c.gate.stageIndex + 1))).2 } := by
  obtain ⟨v, hobs, hdec⟩ := HealthGate.observe_healthy env h
  have hadv := HealthGate.advance_up (g := { c.gate with consecutiveFailures := 0 }) hup
  have hpct := stage_percentage
    (g := { c.gate with consecutiveFailures := 0, stageIndex := c.gate.stageIndex + 1 }) hup
  simp [feed, tries, observe, decided, hobs, hdec, hadv, hpct]

/-- A window changes the streak alone, takes the exposure back, or moves the gate and
the rollout to the next stage; a rollback is decided in the second case only. -/
theorem feed_outcomes (c : RolloutController) (w : Window) :
    (decided (c.feed env w).1 ≠ some .rollback ∧ ∃ failures, (c.feed env w).2 =
      { c with gate := { c.gate with consecutiveFailures := failures } }) ∨
    (decided (c.feed env w).1 = some .rollback ∧ c.gate.stage.evidence env w = some .breach ∧
      (c.feed env w).2 =
        { c with rollout := c.rollout.resetExposure, gate := c.gate.restart }) ∨
    (decided (c.feed env w).1 ≠ some .rollback ∧ c.gate.stage.evidence env w = some .healthy ∧
      c.gate.stageIndex + 1 < c.gate.stages.length ∧ (c.feed env w).2 =
        { c with
          gate := { c.gate with consecutiveFailures := 0, stageIndex := c.gate.stageIndex + 1 }
          rollout :=
            (c.rollout.advance (stagePercentage c.gate.stages (c.gate.stageIndex + 1))).2 }) := by
  cases hk : c.gate.stage.evidence env w with
  | none =>
    rw [feed_panics env hk]
    exact Or.inl ⟨by simp [decided], c.gate.consecutiveFailures, rfl⟩
  | some k =>
    cases k with
    | insufficient =>
      obtain ⟨hdec, hnext⟩ := feed_insufficient env hk
      exact Or.inl ⟨by simp [hdec], c.gate.consecutiveFailures, hnext⟩
    | breach =>
      by_cases hl : c.gate.failureLimit ≤ c.gate.consecutiveFailures + 1
      · obtain ⟨hdec, hnext⟩ := feed_breach_rollback env hk hl
        exact Or.inr (Or.inl ⟨hdec, rfl, hnext⟩)
      · obtain ⟨hdec, hnext⟩ := feed_breach_hold env hk hl
        exact Or.inl ⟨by simp [hdec], _, hnext⟩
    | healthy =>
      by_cases hup : c.gate.stageIndex + 1 < c.gate.stages.length
      · obtain ⟨hdec, hnext⟩ := feed_healthy_up env hk hup
        exact Or.inr (Or.inr ⟨by simp [hdec], rfl, hup, hnext⟩)
      · obtain ⟨hdec, hnext⟩ := feed_healthy_top env hk (Nat.not_lt.mp hup)
        exact Or.inl ⟨by simp [hdec], 0, hnext⟩

theorem feed_cases (c : RolloutController) (w : Window) :
    (∃ failures, (c.feed env w).2 =
      { c with gate := { c.gate with consecutiveFailures := failures } }) ∨
    (c.gate.stage.evidence env w = some .breach ∧ (c.feed env w).2 =
      { c with rollout := c.rollout.resetExposure, gate := c.gate.restart }) ∨
    (c.gate.stage.evidence env w = some .healthy ∧
      c.gate.stageIndex + 1 < c.gate.stages.length ∧ (c.feed env w).2 =
        { c with
          gate := { c.gate with consecutiveFailures := 0, stageIndex := c.gate.stageIndex + 1 }
          rollout :=
            (c.rollout.advance (stagePercentage c.gate.stages (c.gate.stageIndex + 1))).2 }) :=
  (c.feed_outcomes env w).imp And.right (Or.imp And.right And.right)

/-- The controller passes on the verdict of its gate and the decision in it. -/
theorem feed_answer (c : RolloutController) (w : Window) :
    (c.feed env w).1 = (c.gate.observe env w.snapshot w.observedFor).map
      fun r => (r.1, r.1.decision) := by
  cases hobs : c.gate.observe env w.snapshot w.observedFor with
  | none => simp [feed, tries, observe, hobs]
  | some r =>
    cases hdec : r.1.decision with
    | promote =>
      rcases hadv : r.2.advance with ⟨e | s, g⟩ <;>
        simp [feed, tries, observe, hobs, hdec, hadv]
    | hold => simp [feed, tries, observe, hobs, hdec]
    | rollback => simp [feed, tries, observe, hobs, hdec]

theorem decided_feed (c : RolloutController) (w : Window) :
    decided (c.feed env w).1 = c.gate.decides env w := by
  rw [feed_answer, decided, Option.map_map]
  rfl

/-- A call returns a decision unless the sort of the samples panics. -/
theorem decided_feed_eq_none_iff (c : RolloutController) (w : Window) :
    decided (c.feed env w).1 = none ↔ c.gate.stage.evidence env w = none := by
  rw [decided_feed, HealthGate.decides, Option.map_eq_none_iff]
  constructor
  · intro hobs
    by_contra hk
    obtain ⟨k, hk⟩ := Option.ne_none_iff_exists'.mp hk
    obtain ⟨p99, hp99⟩ := Stage.p99_of_evidence env hk
    obtain ⟨v, g', hsome⟩ := HealthGate.observe_answers env (g := c.gate) hp99
    rw [hsome] at hobs
    cases hobs
  · exact HealthGate.observe_panics env

/-! ## The result that is dropped -/

/-- What the call of `Rollout::advance` in `observe` returns, when it is made. -/
def dropped (c : RolloutController) (w : Window) : Option (Except AdvanceError Unit) := do
  let (verdict, gate) ← c.gate.observe env w.snapshot w.observedFor
  match verdict.decision with
  | .promote =>
    match gate.advance with
    | (.ok _, gate) => some (c.rollout.advance gate.stage.percentage).1
    | (.error _, _) => none
  | .rollback => none
  | .hold => none

/-- The call is made on a healthy window below the top stage, and on no other. -/
theorem dropped_eq_some {res : Except AdvanceError Unit} (h : c.dropped env w = some res) :
    c.gate.stageIndex + 1 < c.gate.stages.length ∧
      res = (c.rollout.advance (stagePercentage c.gate.stages (c.gate.stageIndex + 1))).1 := by
  cases hk : c.gate.stage.evidence env w with
  | none => simp [dropped, HealthGate.observe_panics env hk] at h
  | some k =>
    cases k with
    | insufficient =>
      obtain ⟨v, hobs, hdec⟩ := HealthGate.observe_insufficient env hk
      simp [dropped, hobs, hdec] at h
    | breach =>
      by_cases hl : c.gate.failureLimit ≤ c.gate.consecutiveFailures + 1
      · obtain ⟨v, hobs, hdec⟩ := (HealthGate.observe_breach env hk).1 hl
        simp [dropped, hobs, hdec] at h
      · obtain ⟨v, hobs, hdec⟩ := (HealthGate.observe_breach env hk).2 hl
        simp [dropped, hobs, hdec] at h
    | healthy =>
      obtain ⟨v, hobs, hdec⟩ := HealthGate.observe_healthy env hk
      by_cases hup : c.gate.stageIndex + 1 < c.gate.stages.length
      · have hadv := HealthGate.advance_up (g := { c.gate with consecutiveFailures := 0 }) hup
        have hpct := stage_percentage
          (g := { c.gate with consecutiveFailures := 0, stageIndex := c.gate.stageIndex + 1 }) hup
        simp [dropped, hobs, hdec, hadv, hpct] at h
        exact ⟨hup, h.symm⟩
      · have hadv := HealthGate.advance_top (g := { c.gate with consecutiveFailures := 0 })
          (Nat.not_lt.mp hup)
        simp [dropped, hobs, hdec, hadv] at h

end RolloutController

/-! ## Sample inputs -/

/-- A stage judged on 100 requests that tolerates no error. -/
def sampleStage (percentage : UInt8) : Stage := ⟨percentage, 0, 100, .fin 0, .posInf⟩

/-- A gate over 5 and 25 percent that rolls back on the first breach. -/
def sampleGate : HealthGate := ⟨[sampleStage 5, sampleStage 25], List.cons_ne_nil _ _, 1, 0, 0⟩

def sampleRollout (percentage : UInt8) : Rollout := ⟨⟨"checkout"⟩, percentage, "c1", percentage⟩

/-- 200 requests, some of them failed. -/
def sampleWindow (errors : UInt64) : Window := ⟨⟨200, errors, []⟩, 0⟩

/-- 24 falling latencies with every third a NaN, on which the sort of the standard
library panics. -/
def unsortable : List F64 :=
  (List.range 24).map fun i : Nat => if i % 3 = 2 then .nan else .fin (24 - i : Nat)

/-- NaN is level with 24 and with 23. -/
theorem not_totalOn_unsortable : ¬ TotalOn F64.cmpOrEqual unsortable := by
  intro h
  have h24 : F64.fin 24 ∈ unsortable := by decide +kernel
  have hnan : F64.nan ∈ unsortable := by decide +kernel
  have h23 : F64.fin 23 ∈ unsortable := by decide +kernel
  have hle := h.2 _ h24 _ hnan _ h23 (by decide) (by decide)
  rw [F64.cmpOrEqual_ne_gt_iff F64.noConfusion F64.noConfusion] at hle
  exact absurd hle (by decide +kernel)

theorem not_sorts_unsortable (total errors : UInt64) :
    ¬ HealthSnapshot.Sorts .strict ⟨total, errors, unsortable⟩ := by
  rintro (hempty | ⟨l, hl⟩)
  · exact absurd hempty (by simp [unsortable])
  · exact absurd ((FloatEnv.strict_sortBy_eq_none not_totalOn_unsortable).symm.trans hl) (by simp)

/-- A window over its error budget whose latencies cannot be sorted. -/
def unsortableWindow : Window := ⟨⟨200, 50, unsortable⟩, 0⟩

end FlagKit
