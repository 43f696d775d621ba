import FlagKit.Gate.Verdicts

/-!
# Every verdict carries its reason

A verdict reports a reason, both figures and a failure count.  They are enough to
check the decision: the reason names the first test of the stage that stopped the
window, the figures are those of the window, and the decision is a rollback exactly
when the count reported has reached the failure limit.  The count itself is the
number of breaches since the last promotion or rollback, this window included.
-/

namespace FlagKit

open Machine RolloutController

variable (env : FloatEnv)

namespace HealthGate

variable (g : HealthGate) (w : Window)

/-- The four tests of `observe`, in the order it makes them. -/
structure ReasonNames (s : Stage) (w : Window) (v : Verdict) : Prop where
  tooSoon : v.reason = .tooSoon ↔ w.observedFor < s.minDuration
  tooFew : v.reason = .tooFewSamples ↔
    s.minDuration ≤ w.observedFor ∧ w.snapshot.total < s.minSamples
  errorRate : v.reason = .errorRateTooHigh ↔
    s.minDuration ≤ w.observedFor ∧ s.minSamples ≤ w.snapshot.total ∧
      v.errorRate.any (fun r => r.gt s.maxErrorRate) = true
  latency : v.reason = .latencyTooHigh ↔
    s.minDuration ≤ w.observedFor ∧ s.minSamples ≤ w.snapshot.total ∧
      v.errorRate.any (fun r => r.gt s.maxErrorRate) = false ∧
      v.latencyP99Ms.any (fun p => p.gt s.maxLatencyP99Ms) = true
  healthy : v.reason = .healthy ↔ v.decision = .promote
  unused : v.reason ≠ .consecutiveFailures

variable {env g w} {g' : HealthGate} {v : Verdict}

theorem observe_errorRate (h : g.observe env w.snapshot w.observedFor = some (v, g')) :
    v.errorRate = w.snapshot.errorRate env := by
  have hp99 := observe_latencyP99Ms env h
  generalize v.latencyP99Ms = p99 at hp99
  simp only [observe, holdVerdict, hp99, Option.bind_eq_bind, Option.bind_some,
    Option.pure_def] at h
  split_ifs at h <;> cases h <;> rfl

theorem observe_reasonNames (h : g.observe env w.snapshot w.observedFor = some (v, g')) :
    ReasonNames g.stage w v := by
  have hp99 := observe_latencyP99Ms env h
  generalize v.latencyP99Ms = p99 at hp99
  by_cases hsoon : w.observedFor < g.stage.minDuration
  · have hnot : ¬ g.stage.minDuration ≤ w.observedFor := Nat.not_le.mpr hsoon
    simp only [observe, hsoon, holdVerdict, hp99] at h
    cases h
    constructor <;> simp [hsoon, hnot]
  · have hlong : g.stage.minDuration ≤ w.observedFor := Nat.not_lt.mp hsoon
    by_cases hfew : w.snapshot.total < g.stage.minSamples
    · have hnot : ¬ g.stage.minSamples ≤ w.snapshot.total := UInt64.not_le.mpr hfew
      simp only [observe, hsoon, hfew, holdVerdict, hp99] at h
      cases h
      constructor <;> simp [hsoon, hlong, hfew, hnot]
    · have hmany : g.stage.minSamples ≤ w.snapshot.total := UInt64.not_lt.mp hfew
      cases hrate : (w.snapshot.errorRate env).any (fun r => r.gt g.stage.maxErrorRate) <;>
        cases hlat : p99.any (fun p => p.gt g.stage.maxLatencyP99Ms) <;>
        by_cases hl : g.failureLimit ≤ g.consecutiveFailures + 1 <;>
        simp [observe, hsoon, hfew, hp99, hrate, hlat, hl] at h <;>
        obtain ⟨rfl, -⟩ := h <;>
        constructor <;>
        simp [hsoon, hlong, hfew, hmany, hrate, hlat]

/-- The failure count a verdict reports. -/
def reported (g : HealthGate) : Evidence → UInt32
  | .insufficient => g.consecutiveFailures
  | .breach => g.consecutiveFailures + 1
  | .healthy => 0

theorem observe_reported (h : g.observe env w.snapshot w.observedFor = some (v, g')) :
    v.consecutiveFailures = g.reported (g.stage.reading env w) := by
  have hp99 := observe_latencyP99Ms env h
  generalize v.latencyP99Ms = p99 at hp99
  simp only [observe, holdVerdict, hp99, Option.bind_eq_bind, Option.bind_some,
    Option.pure_def] at h
  unfold Stage.reading Stage.breached
  rw [hp99]
  by_cases hsoon : w.observedFor < g.stage.minDuration
  · simp only [hsoon, if_true] at h
    cases h
    simp [hsoon, reported]
  · by_cases hfew : w.snapshot.total < g.stage.minSamples
    · simp only [hsoon, hfew, if_true, if_false] at h
      cases h
      simp [hfew, reported]
    · simp only [hsoon, hfew, if_false, or_self, Option.join_some] at h ⊢
      split_ifs at h ⊢ <;> cases h <;> rfl

end HealthGate

/-- A controller that answers passes on the verdict of its gate. -/
theorem RolloutController.observe_of_answer {c : RolloutController} {w : Window} {v : Verdict}
    {d : Decision} (h : (c.feed env w).1 = some (v, d)) :
    d = v.decision ∧ ∃ g', c.gate.observe env w.snapshot w.observedFor = some (v, g') := by
  rw [feed_answer, Option.map_eq_some_iff] at h
  obtain ⟨⟨v', g'⟩, hobs, heq⟩ := h
  cases heq
  exact ⟨rfl, g', hobs⟩

/-- The breaches a window leaves behind it: none when it is healthy. -/
def breachesThrough (es : List Observed) (e : Observed) : Nat :=
  match Observed.reading env e with
  | .insufficient => Climb.breachesSince (history env es)
  | .breach => Climb.breachesSince (history env es) + 1
  | .healthy => 0

/-- What the verdict of a step tells, after the steps `es`. -/
structure Explained (limit : UInt32) (es : List Observed) (e : Observed) (v : Verdict) :
    Prop where
  names : HealthGate.ReasonNames e.before.gate.stage e.input v
  errorRate_eq : v.errorRate = e.input.snapshot.errorRate env
  latencyP99Ms_eq : e.input.snapshot.latencyP99Ms env = some v.latencyP99Ms
  failures_eq : v.consecutiveFailures.toNat = breachesThrough env es e
  rollback_iff : v.decision = .rollback ↔ v.consecutiveFailures = limit
  below : v.decision ≠ .rollback → v.consecutiveFailures < limit

variable {stages : List Stage} {limit : UInt32}

theorem reported_toNat {c : RolloutController} {s : Climb} (h : GateTracks stages limit c s)
    (hs : ClimbSound stages limit s) (k : Evidence) :
    (c.gate.reported k).toNat =
      match k with
      | .insufficient => s.streak
      | .breach => s.streak + 1
      | .healthy => 0 := by
  have hlt := hs.streak_lt
  rw [← h.streak_eq] at hlt ⊢
  cases k with
  | insufficient => rfl
  | breach => exact toNat_add_one_of_lt hlt
  | healthy => rfl

theorem feed_explained {es : List Observed} {c : RolloutController}
    (h : HistoryTracked env stages limit es c) {w : Window} {v : Verdict} {d : Decision}
    (hanswer : (c.feed env w).1 = some (v, d)) :
    d = v.decision ∧ Explained env limit es (event (feed env) c w) v := by
  obtain ⟨rfl, g', hobs⟩ := observe_of_answer env hanswer
  refine ⟨rfl, ?_⟩
  have hsorts : w.snapshot.Sorts env := by
    by_contra hnot
    rw [HealthGate.observe_panics env ((Stage.evidence_eq_none_iff env).mpr hnot)] at hobs
    cases hobs
  have hk := Stage.evidence_of_sorts env c.gate.stage hsorts
  have hexact := feed_decisionExact env h hk
  obtain ⟨s, htracks, hcounted⟩ := h
  have hreported := HealthGate.observe_reported hobs
  have hreport := reported_toNat htracks hcounted.sound (c.gate.stage.reading env w)
  have hrollback := hexact.rollback
  have hlt := hcounted.sound.streak_lt
  have hstreak := hcounted.streak_eq
  rw [Observed.decision, decided, event_output, hanswer] at hrollback
  simp only [Option.map_some, Option.some.injEq] at hrollback
  -- the count reaches the limit on a breach and on nothing else
  have hlimit : (c.gate.reported (c.gate.stage.reading env w)).toNat ≤ limit.toNat ∧
      ((c.gate.reported (c.gate.stage.reading env w)).toNat = limit.toNat ↔
        v.decision = .rollback) := by
    rw [hrollback, hreport]
    show _ ∧ (_ ↔ c.gate.stage.reading env w = .breach ∧ _)
    cases c.gate.stage.reading env w with
    | insufficient =>
      refine ⟨show s.streak ≤ _ by omega, iff_of_false (show s.streak ≠ _ by omega) ?_⟩
      exact fun hf => by cases hf.1
    | breach =>
      refine ⟨show s.streak + 1 ≤ _ by omega, ?_⟩
      rw [← hstreak]
      exact ⟨fun he => ⟨rfl, he⟩, fun he => he.2⟩
    | healthy =>
      refine ⟨Nat.zero_le _, iff_of_false (show 0 ≠ _ by omega) ?_⟩
      exact fun hf => by cases hf.1
  constructor
  · exact HealthGate.observe_reasonNames hobs
  · exact HealthGate.observe_errorRate hobs
  · exact HealthGate.observe_latencyP99Ms env hobs
  · rw [hreported, hreport, hstreak]
    rfl
  · rw [hreported, ← UInt32.toNat_inj]
    exact hlimit.2.symm
  · intro hne
    rw [hreported, UInt32.lt_iff_toNat_lt]
    exact Nat.lt_of_le_of_ne hlimit.1 (fun he => hne (hlimit.2.mp he))

/-- A rollback is decided on the breach that completes the count. -/
theorem rollback_split_iff {g : HealthGate} (hg : HealthGate.new stages limit = .ok g)
    (r : Rollout) (ws : List Window) {h t : List Observed} {e : Observed}
    (hsplit : trace (feed env) (RolloutController.new r g) ws = h ++ e :: t) :
    Observed.decision e = some .rollback ↔
      Observed.evidence env e = some .breach ∧
        Climb.breachesSince (history env h) + 1 = (max limit 1).toNat := by
  obtain ⟨c, w, _, rfl, s, htracks, hcounted⟩ := historyTracked_of_split env hg hsplit
  have hdec := (feed_gateTracks env htracks hcounted.sound w).1
  have hev : Observed.evidence env (event (feed env) c w) = evidenceIn env c w := rfl
  rw [Observed.decision, event_output, hdec, hev]
  cases evidenceIn env c w with
  | none => simp
  | some k =>
    rw [climbStep_some, Option.some.injEq, Option.some.injEq]
    exact (Climb.counted_decision hcounted k).2.1

/-- In every run of a fresh controller each verdict returned explains its decision. -/
theorem verdicts_explained {g : HealthGate} (hg : HealthGate.new stages limit = .ok g)
    (r : Rollout) (ws : List Window) {h t : List Observed} {e : Observed}
    (hsplit : trace (feed env) (RolloutController.new r g) ws = h ++ e :: t) {v : Verdict}
    {d : Decision} (hanswer : e.output = some (v, d)) :
    d = v.decision ∧ Explained env (max limit 1) h e v := by
  obtain ⟨c, w, _, rfl, htracked⟩ := historyTracked_of_split env hg hsplit
  exact feed_explained env htracked hanswer

theorem verdicts_explained_breach :
    ∃ v, Explained .exact 1 []
      (event (feed .exact) (RolloutController.new (sampleRollout 5) sampleGate)
        (sampleWindow 50)) v :=
  ⟨⟨.rollback, .errorRateTooHigh, some (.fin (1 / 4)), none, 1⟩,
    (@verdicts_explained .exact [sampleStage 5, sampleStage 25] 1 sampleGate rfl (sampleRollout 5)
      [sampleWindow 50] [] [] _ rfl _ .rollback (by decide +kernel)).2⟩

end FlagKit
