import FlagKit.Gate.Controller

/-!
# The failure streak under every caller

The fields of a gate that its callers can write are the failure limit, the streak and
the stage, in any order between windows.  The gate of `Gate/Health.lean` wraps as a
release build does.  Here the same operations are written once more as a build with
overflow checks runs them, where `none` is also the panic of an overflow.  The two agree
on every operation but one: a breach that finds the streak at its greatest value
(`checkedCall_eq_iff`).  No window leads there, since a streak that is held stays below
the limit, so it takes a `restoreStreak` of that value.

A breach over the error budget is lost in both builds when its latency samples cannot be
sorted.
-/

namespace FlagKit

open Machine

/-! ## Checked operations -/

def u32Max : UInt32 := 4294967295

def u32CheckedAdd (a b : UInt32) : Option UInt32 :=
  if a.toNat + b.toNat < 2 ^ 32 then some (a + b) else none

def usizeCheckedAdd (a b : Nat) : Option Nat := if a + b < 2 ^ 64 then some (a + b) else none

def usizeCheckedSub (a b : Nat) : Option Nat := if b ≤ a then some (a - b) else none

theorem u32CheckedAdd_one_eq_none_iff {n : UInt32} :
    u32CheckedAdd n 1 = none ↔ n.toNat + 1 = 2 ^ 32 := by
  have hlt := n.toNat_lt
  rw [u32CheckedAdd, ite_eq_right_iff]
  simp only [UInt32.toNat_one, reduceCtorEq, imp_false]
  omega

theorem u32CheckedAdd_one {n : UInt32} (h : n.toNat + 1 ≠ 2 ^ 32) :
    u32CheckedAdd n 1 = some (n + 1) := by
  have hlt := n.toNat_lt
  rw [u32CheckedAdd, if_pos]
  rw [UInt32.toNat_one]
  omega

theorem usizeCheckedAdd_eq {a b : Nat} (h : a + b < 2 ^ 64) : usizeCheckedAdd a b = some (a + b) :=
  if_pos h

theorem usizeCheckedSub_eq {a b : Nat} (h : b ≤ a) : usizeCheckedSub a b = some (a - b) := if_pos h

variable (env : FloatEnv)

namespace HealthSnapshot

def checkedLatencyP99Ms (s : HealthSnapshot) : Option (Option F64) :=
  if s.latenciesMs.isEmpty then some none
  else do
    let sorted ← env.sortBy F64.cmpOrEqual s.latenciesMs
    let i ← usizeCheckedSub (min (p99Rank env sorted.length) sorted.length) 1
    return sorted[i]?

end HealthSnapshot

namespace HealthGate

def checkedStage (g : HealthGate) : Option Stage := do
  let last ← usizeCheckedSub g.stages.length 1
  g.stages[min g.stageIndex last]?

def checkedIsComplete (g : HealthGate) : Option Bool := do
  let next ← usizeCheckedAdd g.stageIndex 1
  return decide (next ≥ g.stages.length)

def checkedHold (g : HealthGate) (reason : Reason) (snapshot : HealthSnapshot) :
    Option Verdict := do
  let latencyP99Ms ← snapshot.checkedLatencyP99Ms env
  return { decision := .hold
           reason
           errorRate := snapshot.errorRate env
           latencyP99Ms
           consecutiveFailures := g.consecutiveFailures }

def checkedObserve (g : HealthGate) (snapshot : HealthSnapshot) (observedFor : Duration) :
    Option (Verdict × HealthGate) := do
  let stage ← g.checkedStage
  if observedFor < stage.minDuration then
    return (← g.checkedHold env .tooSoon snapshot, g)
  else if snapshot.total < stage.minSamples then
    return (← g.checkedHold env .tooFewSamples snapshot, g)
  else
    let errorRate := snapshot.errorRate env
    let p99 ← snapshot.checkedLatencyP99Ms env
    let breached :=
      errorRate.any (fun r => r.gt stage.maxErrorRate) ||
        p99.any (fun p => p.gt stage.maxLatencyP99Ms)
    if breached then
      let failures ← u32CheckedAdd g.consecutiveFailures 1
      let reason : Reason :=
        if errorRate.any (fun r => r.gt stage.maxErrorRate) then .errorRateTooHigh
        else .latencyTooHigh
      if failures ≥ g.failureLimit then
        return ({ decision := .rollback
                  reason
                  errorRate
                  latencyP99Ms := p99
                  consecutiveFailures := failures },
                { g with consecutiveFailures := 0 })
      else
        return ({ decision := .hold
                  reason
                  errorRate
                  latencyP99Ms := p99
                  consecutiveFailures := failures },
                { g with consecutiveFailures := failures })
    else
      return ({ decision := .promote
                reason := .healthy
                errorRate
                latencyP99Ms := p99
                consecutiveFailures := 0 },
              { g with consecutiveFailures := 0 })

def checkedAdvance (g : HealthGate) : Option (Except StageError Stage × HealthGate) := do
  if ← g.checkedIsComplete then
    return (.error (.percentageOutOfRange 100), g)
  else
    let next ← usizeCheckedAdd g.stageIndex 1
    let g' := { g with stageIndex := next }
    return (.ok (← g'.checkedStage), g')

def checkedRestoreStage (g : HealthGate) (stageIndex : Nat) : Option (Stage × HealthGate) := do
  let last ← usizeCheckedSub g.stages.length 1
  let g' := { g with stageIndex := min stageIndex last }
  return (← g'.checkedStage, g')

/-! ## What a caller can do -/

inductive Op where
  | observe (w : Window)
  | advance
  | restoreStage (stageIndex : Nat)
  | restoreStreak (consecutiveFailures : UInt32)
  | restart
  | setFailureLimit (failureLimit : UInt32)
  deriving DecidableEq

inductive Reply where
  | verdict (v : Verdict)
  | advanced (result : Except StageError Stage)
  | restored (stage : Stage)
  | done

def call (g : HealthGate) : Op → Option (Reply × HealthGate)
  | .observe w => (g.observe env w.snapshot w.observedFor).map fun r => (.verdict r.1, r.2)
  | .advance => some (.advanced g.advance.1, g.advance.2)
  | .restoreStage i => some (.restored (g.restoreStage i).1, (g.restoreStage i).2)
  | .restoreStreak n => some (.done, g.restoreStreak n)
  | .restart => some (.done, g.restart)
  | .setFailureLimit limit => some (.done, { g with failureLimit := limit })

def checkedCall (g : HealthGate) : Op → Option (Reply × HealthGate)
  | .observe w => (g.checkedObserve env w.snapshot w.observedFor).map
      fun r => (.verdict r.1, r.2)
  | .advance => g.checkedAdvance.map fun r => (.advanced r.1, r.2)
  | .restoreStage i => (g.checkedRestoreStage i).map fun r => (.restored r.1, r.2)
  | .restoreStreak n => some (.done, g.restoreStreak n)
  | .restart => some (.done, g.restart)
  | .setFailureLimit limit => some (.done, { g with failureLimit := limit })

/-- A call of a release build as the step of a machine; a panic leaves the gate alone. -/
def step (g : HealthGate) (op : Op) : Option Reply × HealthGate := tries (call env) g op

/-! ## Where the two agree -/

section Agree

variable {env}

theorem checkedLatencyP99Ms_eq (s : HealthSnapshot) :
    s.checkedLatencyP99Ms env = s.latencyP99Ms env := by
  cases hempty : s.latenciesMs.isEmpty with
  | true => simp [HealthSnapshot.checkedLatencyP99Ms, HealthSnapshot.latencyP99Ms, hempty]
  | false =>
    cases hsort : env.sortBy F64.cmpOrEqual s.latenciesMs with
    | none =>
      simp [HealthSnapshot.checkedLatencyP99Ms, HealthSnapshot.latencyP99Ms, hempty, hsort]
    | some sorted =>
      have hlen := (env.sortBy_perm hsort).length_eq
      have hpos : 0 < s.latenciesMs.length := by
        rw [List.length_pos_iff, ← List.isEmpty_eq_false_iff]
        exact hempty
      have hrank : 1 ≤ HealthSnapshot.p99Rank env s.latenciesMs.length :=
        F64.one_le_toUsize_max _
      have hsub : 1 ≤ min (HealthSnapshot.p99Rank env s.latenciesMs.length)
          s.latenciesMs.length := by
        omega
      simp [HealthSnapshot.checkedLatencyP99Ms, HealthSnapshot.latencyP99Ms, hempty, hsort, hlen,
        usizeCheckedSub_eq hsub]

theorem checkedStage_eq (g : HealthGate) : g.checkedStage = some g.stage := by
  have hpos : 1 ≤ g.stages.length := List.length_pos_iff.mpr g.nonempty
  have hlt := g.clamp_lt g.stageIndex
  simp [checkedStage, stage, usizeCheckedSub_eq hpos, List.getElem?_eq_getElem hlt]

theorem checkedIsComplete_eq {g : HealthGate} (h : g.stageIndex + 1 < 2 ^ 64) :
    g.checkedIsComplete = some g.isComplete := by
  rw [checkedIsComplete, usizeCheckedAdd_eq h]
  rfl

theorem checkedHold_eq (g : HealthGate) (reason : Reason) (snapshot : HealthSnapshot) :
    g.checkedHold env reason snapshot = g.holdVerdict env reason snapshot := by
  rw [checkedHold, checkedLatencyP99Ms_eq]
  rfl

theorem checkedAdvance_eq {g : HealthGate} (h : g.stageIndex + 1 < 2 ^ 64) :
    g.checkedAdvance = some g.advance := by
  rw [checkedAdvance, checkedIsComplete_eq h]
  cases hc : g.isComplete with
  | true => simp [advance, hc]
  | false => simp [advance, hc, usizeCheckedAdd_eq h, checkedStage_eq]

theorem checkedRestoreStage_eq (g : HealthGate) (stageIndex : Nat) :
    g.checkedRestoreStage stageIndex = some (g.restoreStage stageIndex) := by
  have hpos : 1 ≤ g.stages.length := List.length_pos_iff.mpr g.nonempty
  simp [checkedRestoreStage, restoreStage, usizeCheckedSub_eq hpos, checkedStage_eq]

/-- What is left to check in a window: the increment, when its stage is breached. -/
theorem checkedObserve_cases (g : HealthGate) (w : Window) :
    g.checkedObserve env w.snapshot w.observedFor =
      if g.stage.evidence env w = some .breach then
        (u32CheckedAdd g.consecutiveFailures 1).bind fun _ =>
          g.observe env w.snapshot w.observedFor
      else g.observe env w.snapshot w.observedFor := by
  unfold checkedObserve Stage.evidence observe Stage.breached
  simp only [checkedStage_eq, checkedHold_eq, checkedLatencyP99Ms_eq, Option.bind_eq_bind,
    Option.bind_some, Option.pure_def]
  cases hp99 : w.snapshot.latencyP99Ms env with
  | none => simp
  | some p99 =>
    simp only [Option.bind_some, Option.some.injEq]
    by_cases hsoon : w.observedFor < g.stage.minDuration
    · simp only [hsoon, true_or, if_true, reduceCtorEq, if_false]
    · by_cases hfew : w.snapshot.total < g.stage.minSamples
      · simp only [hsoon, hfew, or_true, if_true, if_false, reduceCtorEq]
      · simp only [hsoon, hfew, or_false, if_false]
        generalize (w.snapshot.errorRate env).any (fun r => r.gt g.stage.maxErrorRate) = failing
        generalize p99.any (fun p => p.gt g.stage.maxLatencyP99Ms) = slow
        cases hb : failing || slow with
        | false => simp
        | true =>
          simp only [if_true]
          by_cases hmax : g.consecutiveFailures.toNat + 1 = 2 ^ 32
          · rw [u32CheckedAdd_one_eq_none_iff.mpr hmax]
            rfl
          · rw [u32CheckedAdd_one hmax]
            by_cases hl : g.failureLimit ≤ g.consecutiveFailures + 1
            · simp [hl]
            · simp [hl]

end Agree

/-! ## One operation -/

/-- A breach arrives and the streak has its greatest value. -/
def Saturated (g : HealthGate) : Op → Prop
  | .observe w => g.stage.evidence env w = some .breach ∧
      g.consecutiveFailures.toNat + 1 = 2 ^ 32
  | _ => False

/-- A breach arrives that cannot be counted: the streak has its greatest value, or the
samples cannot be sorted. -/
def Uncountable (g : HealthGate) : Op → Prop
  | .observe w => g.stage.reading env w = .breach ∧
      (g.consecutiveFailures.toNat + 1 = 2 ^ 32 ∨ ¬ w.snapshot.Sorts env)
  | _ => False

/-- The index is in range, and a `Vec` has a length that a `usize` can hold. -/
structure InRange (g : HealthGate) : Prop where
  index_lt : g.stageIndex < g.stages.length
  length_lt : g.stages.length < 2 ^ 64

/-- What an operation can do to the fields of a gate. -/
structure StepOf (g : HealthGate) (op : Op) (g' : HealthGate) : Prop where
  stages_eq : g'.stages = g.stages
  index_lt : g.stageIndex < g.stages.length → g'.stageIndex < g.stages.length
  streak : g'.consecutiveFailures = g.consecutiveFailures ∨ g'.consecutiveFailures = 0 ∨
    g'.consecutiveFailures < g.failureLimit ∨ op = .restoreStreak g'.consecutiveFailures

theorem step_observe {g g' : HealthGate} {w : Window} {v : Verdict}
    (h : g.observe env w.snapshot w.observedFor = some (v, g')) :
    step env g (.observe w) = (some (.verdict v), g') :=
  tries_of_eq_some (by rw [call, h]; rfl)

theorem step_observe_panics {g : HealthGate} {w : Window}
    (h : g.stage.evidence env w = none) : step env g (.observe w) = (none, g) :=
  tries_of_eq_none (by rw [call, observe_panics env h]; rfl)

theorem observe_stepOf (g : HealthGate) (w : Window) :
    StepOf g (.observe w) (step env g (.observe w)).2 := by
  cases hk : g.stage.evidence env w with
  | none =>
    rw [step_observe_panics env hk]
    exact ⟨rfl, id, Or.inl rfl⟩
  | some k =>
    cases k with
    | insufficient =>
      obtain ⟨v, hobs, _⟩ := observe_insufficient env hk
      rw [step_observe env hobs]
      exact ⟨rfl, id, Or.inl rfl⟩
    | breach =>
      by_cases hl : g.failureLimit ≤ g.consecutiveFailures + 1
      · obtain ⟨v, hobs, _⟩ := (observe_breach env hk).1 hl
        rw [step_observe env hobs]
        exact ⟨rfl, id, Or.inr (Or.inl rfl)⟩
      · obtain ⟨v, hobs, _⟩ := (observe_breach env hk).2 hl
        rw [step_observe env hobs]
        exact ⟨rfl, id, Or.inr (Or.inr (Or.inl (UInt32.not_le.mp hl)))⟩
    | healthy =>
      obtain ⟨v, hobs, _⟩ := observe_healthy env hk
      rw [step_observe env hobs]
      exact ⟨rfl, id, Or.inr (Or.inl rfl)⟩

theorem step_stepOf (g : HealthGate) (op : Op) : StepOf g op (step env g op).2 := by
  cases op with
  | observe w => exact observe_stepOf env g w
  | advance =>
    by_cases hup : g.stageIndex + 1 < g.stages.length
    · rw [step, tries, call, advance_up hup]
      exact ⟨rfl, fun _ => hup, Or.inl rfl⟩
    · rw [step, tries, call, advance_top (Nat.not_lt.mp hup)]
      exact ⟨rfl, id, Or.inl rfl⟩
  | restoreStage i => exact ⟨rfl, fun _ => g.clamp_lt i, Or.inl rfl⟩
  | restoreStreak n => exact ⟨rfl, id, Or.inr (Or.inr (Or.inr rfl))⟩
  | restart => exact ⟨rfl, Nat.zero_lt_of_lt, Or.inr (Or.inl rfl)⟩
  | setFailureLimit limit => exact ⟨rfl, id, Or.inl rfl⟩

variable {env}

theorem checkedCall_eq_iff {g : HealthGate} (h : InRange g) (op : Op) :
    checkedCall env g op = call env g op ↔ ¬ Saturated env g op := by
  have hnext : g.stageIndex + 1 < 2 ^ 64 := Nat.lt_of_le_of_lt h.index_lt h.length_lt
  cases op with
  | observe w =>
    rw [checkedCall, call, checkedObserve_cases]
    by_cases hb : g.stage.evidence env w = some .breach
    · by_cases hmax : g.consecutiveFailures.toNat + 1 = 2 ^ 32
      · obtain ⟨p99, hp99⟩ := Stage.p99_of_evidence env hb
        obtain ⟨v, g', hobs⟩ := observe_answers env (g := g) hp99
        rw [if_pos hb, u32CheckedAdd_one_eq_none_iff.mpr hmax, hobs]
        exact iff_of_false (fun hnone => by cases hnone) (not_not_intro ⟨hb, hmax⟩)
      · rw [if_pos hb, u32CheckedAdd_one hmax]
        exact iff_of_true rfl fun hsat => hmax hsat.2
    · rw [if_neg hb]
      exact iff_of_true rfl fun hsat => hb hsat.1
  | advance =>
    rw [checkedCall, checkedAdvance_eq hnext]
    exact iff_of_true rfl id
  | restoreStage i =>
    rw [checkedCall, checkedRestoreStage_eq]
    exact iff_of_true rfl id
  | restoreStreak n => exact iff_of_true rfl id
  | restart => exact iff_of_true rfl id
  | setFailureLimit limit => exact iff_of_true rfl id

theorem step_inRange {g : HealthGate} (h : InRange g) (op : Op) :
    InRange (step env g op).2 := by
  obtain ⟨hstages, hindex, -⟩ := step_stepOf env g op
  constructor
  · rw [hstages]
    exact hindex h.index_lt
  · rw [hstages]
    exact h.length_lt

/-- The streak stays below its greatest value: what is held is below the limit. -/
theorem step_streak_ne {g : HealthGate} (h : g.consecutiveFailures.toNat + 1 ≠ 2 ^ 32) {op : Op}
    (hop : op ≠ .restoreStreak u32Max) :
    (step env g op).2.consecutiveFailures.toNat + 1 ≠ 2 ^ 32 := by
  rcases (step_stepOf env g op).streak with hsame | hzero | hbelow | hrestored
  · rw [hsame]
    exact h
  · rw [hzero]
    decide
  · have hlt := UInt32.lt_iff_toNat_lt.mp hbelow
    have hlimit := g.failureLimit.toNat_lt
    omega
  · intro hmax
    refine hop (hrestored.trans (congrArg Op.restoreStreak (UInt32.toNat_inj.mp ?_)))
    have hval : u32Max.toNat + 1 = 2 ^ 32 := by decide
    omega

theorem breach_counted {g : HealthGate} {w : Window}
    (h : g.stage.evidence env w = some .breach)
    (hmax : g.consecutiveFailures.toNat + 1 ≠ 2 ^ 32) :
    ∃ v, (step env g (.observe w)).1 = some (.verdict v) ∧
      if g.failureLimit.toNat ≤ g.consecutiveFailures.toNat + 1 then
        v.decision = .rollback ∧ (step env g (.observe w)).2.consecutiveFailures = 0
      else
        v.decision = .hold ∧ (step env g (.observe w)).2.consecutiveFailures.toNat =
          g.consecutiveFailures.toNat + 1 := by
  have hnext := toNat_add_one hmax
  obtain ⟨hrollback, hhold⟩ := observe_breach env h
  rw [UInt32.le_iff_toNat_le, hnext] at hrollback hhold
  by_cases hl : g.failureLimit.toNat ≤ g.consecutiveFailures.toNat + 1
  · obtain ⟨v, hobs, hdec⟩ := hrollback hl
    rw [step_observe env hobs]
    refine ⟨v, rfl, ?_⟩
    rw [if_pos hl]
    exact ⟨hdec, rfl⟩
  · obtain ⟨v, hobs, hdec⟩ := hhold hl
    rw [step_observe env hobs]
    refine ⟨v, rfl, ?_⟩
    rw [if_neg hl]
    exact ⟨hdec, hnext⟩

/-! ## Every run -/

variable (env)

/-- The step overflows nowhere and leaves the index in range, and if it was a breach it
was counted as the natural numbers count. -/
structure StreakExact (e : Event HealthGate Op (Option Reply)) : Prop where
  no_overflow : checkedCall env e.before e.input = call env e.before e.input
  index_lt : e.after.stageIndex < e.after.stages.length
  counted : ∀ w, e.input = .observe w → e.before.stage.reading env w = .breach →
    ∃ v, e.output = some (.verdict v) ∧
      if e.before.failureLimit.toNat ≤ e.before.consecutiveFailures.toNat + 1 then
        v.decision = .rollback ∧ e.after.consecutiveFailures = 0
      else
        v.decision = .hold ∧
          e.after.consecutiveFailures.toNat = e.before.consecutiveFailures.toNat + 1

variable {env}

theorem uncountable_of_saturated {g : HealthGate} {op : Op} (h : Saturated env g op) :
    Uncountable env g op := by
  cases op with
  | observe w => exact ⟨Stage.reading_of_evidence env h.1, Or.inl h.2⟩
  | _ => exact h

/-- A breach that cannot be counted is not: it overflows or the call panics. -/
theorem not_streakExact {g : HealthGate} (h : InRange g) {op : Op}
    (hbad : Uncountable env g op) : ¬ StreakExact env (event (step env) g op) := by
  intro hexact
  cases op with
  | observe w =>
    obtain ⟨hb, hbad⟩ := hbad
    by_cases hsorts : w.snapshot.Sorts env
    · have hk := Stage.evidence_of_sorts env g.stage hsorts
      rw [hb] at hk
      refine (checkedCall_eq_iff h (.observe w)).mp hexact.no_overflow ⟨hk, ?_⟩
      exact hbad.resolve_right (not_not_intro hsorts)
    · obtain ⟨v, hout, _⟩ := hexact.counted w rfl hb
      rw [event_output, step_observe_panics env ((Stage.evidence_eq_none_iff env).mpr hsorts)]
        at hout
      cases hout
  | _ => exact hbad

theorem streakExact_event_iff {g : HealthGate} (h : InRange g) (op : Op) :
    StreakExact env (event (step env) g op) ↔ ¬ Uncountable env g op := by
  constructor
  · intro hexact hbad
    exact not_streakExact h hbad hexact
  · intro hbad
    have hsat : ¬ Saturated env g op := mt uncountable_of_saturated hbad
    refine ⟨(checkedCall_eq_iff h op).mpr hsat, (step_inRange h op).index_lt, ?_⟩
    intro w hw hb
    rw [event_input] at hw
    rw [event_before] at hb
    rw [hw] at hbad ⊢
    have hsorts : w.snapshot.Sorts env := by
      by_contra hsorts
      exact hbad ⟨hb, Or.inr hsorts⟩
    have hk := Stage.evidence_of_sorts env g.stage hsorts
    rw [hb] at hk
    exact breach_counted hk fun hmax => hbad ⟨hb, Or.inl hmax⟩

theorem new_inRange {stages : List Stage} {failureLimit : UInt32} {g : HealthGate}
    (hg : HealthGate.new stages failureLimit = .ok g) (hlen : stages.length < 2 ^ 64) :
    InRange g ∧ g.consecutiveFailures = 0 := by
  obtain ⟨hne, rfl⟩ := HealthGate.new_eq_ok_iff.mp hg
  exact ⟨⟨List.length_pos_iff.mpr hne, hlen⟩, rfl⟩

/-- The first breach of a gate whose streak was restored to the greatest value. -/
theorem greatest_streak_overflows :
    ¬ ∀ (env : FloatEnv) (stages : List Stage) (failureLimit : UInt32) (g : HealthGate),
      HealthGate.new stages failureLimit = .ok g → stages.length < 2 ^ 64 → ∀ ops : List Op,
        ∀ e ∈ trace (step env) g ops, StreakExact env e := by
  intro h
  have hlast := h .exact [sampleStage 5, sampleStage 25] 1 sampleGate rfl (by decide)
    [.restoreStreak u32Max, .observe (sampleWindow 50)]
    (event (step .exact) (sampleGate.restoreStreak u32Max) (.observe (sampleWindow 50)))
    (List.mem_cons_of_mem _ (List.mem_singleton_self _))
  have hrange : InRange (sampleGate.restoreStreak u32Max) := ⟨by decide, by decide⟩
  have hbad : Uncountable .exact (sampleGate.restoreStreak u32Max) (.observe (sampleWindow 50)) :=
    ⟨by decide +kernel, Or.inl (by decide)⟩
  exact not_streakExact hrange hbad hlast

/-- A run counts exactly when no breach in it finds the greatest streak or has samples
that cannot be sorted.  A caller that never restores that streak never gets there. -/
theorem streak_exact_iff {stages : List Stage} {failureLimit : UInt32} {g : HealthGate}
    (hg : HealthGate.new stages failureLimit = .ok g) (hlen : stages.length < 2 ^ 64)
    (ops : List Op) :
    ((∀ e ∈ trace (step env) g ops, StreakExact env e) ↔
      ∀ e ∈ trace (step env) g ops, ¬ Uncountable env e.before e.input) ∧
    ((∀ op ∈ ops, op ≠ .restoreStreak u32Max) →
      (∀ w, .observe w ∈ ops → w.snapshot.Sorts env) →
      ∀ e ∈ trace (step env) g ops, StreakExact env e) := by
  obtain ⟨hrange, hzero⟩ := new_inRange hg hlen
  have hstep : ∀ s op, InRange s → InRange (step env s op).2 := fun _ op h => step_inRange h op
  constructor
  · exact forall_trace_congr hstep (fun s op h => streakExact_event_iff h op) hrange ops
  · intro hops hsorts e he
    obtain ⟨pre, op, post, hsplit, rfl⟩ := mem_trace he
    have hpre : ∀ op ∈ pre, op ≠ .restoreStreak u32Max := by
      intro op hop
      refine hops op ?_
      rw [hsplit]
      exact List.mem_append_left _ hop
    have hstart : g.consecutiveFailures.toNat + 1 ≠ 2 ^ 32 := by
      rw [hzero]
      decide
    have hstreak : ∀ (s : HealthGate) (op : Op), s.consecutiveFailures.toNat + 1 ≠ 2 ^ 32 →
        op ≠ .restoreStreak u32Max →
        (step env s op).2.consecutiveFailures.toNat + 1 ≠ 2 ^ 32 :=
      fun _ _ h hop => step_streak_ne h hop
    have hbelow := invariant_final_of hstreak hstart hpre
    refine (streakExact_event_iff (invariant_final hstep hrange pre) op).mpr fun hbad => ?_
    cases op with
    | observe w =>
      refine hbad.2.elim hbelow fun hnot => hnot (hsorts w ?_)
      simp [hsplit]
    | _ => exact hbad

theorem streak_exact_after_restore :
    StreakExact .exact
      (event (step .exact) (sampleGate.restoreStreak 7) (.observe (sampleWindow 50))) :=
  (@streak_exact_iff .exact [sampleStage 5, sampleStage 25] 1 sampleGate rfl (by decide)
    [.restoreStreak 7, .observe (sampleWindow 50)]).2 (by decide) (by
      intro w hw
      have hempty : w.snapshot.latenciesMs = [] := by
        simp only [List.mem_cons, Op.observe.injEq, reduceCtorEq, List.not_mem_nil, or_false,
          false_or] at hw
        rw [hw]
        rfl
      exact Or.inl hempty) _ (List.mem_cons_of_mem _ List.mem_cons_self)

end HealthGate
end FlagKit
