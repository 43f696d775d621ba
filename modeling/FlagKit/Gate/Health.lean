import FlagKit.Numeric.F64

/-!
# Health gates

A gate walks a list of stages.  Each observation window is judged against the
current stage: too little evidence holds, a breach of the error rate or of the
p99 latency counts towards the failure limit, and a healthy window promotes.

The counter is a `u32` and its increment wraps, as in a release build.  What sorts the
samples panics when the sort does, and `none` is that panic.  A window length is
counted in nanoseconds.  The stage list of a gate is private and `new`
refuses an empty one, so a gate carries the proof that its list is not empty; the
index is clamped where the source clamps it.
-/

namespace FlagKit

inductive Decision where
  | promote
  | hold
  | rollback
  deriving DecidableEq

inductive Reason where
  | healthy
  | tooSoon
  | tooFewSamples
  | errorRateTooHigh
  | latencyTooHigh
  | consecutiveFailures
  deriving DecidableEq

structure Verdict where
  decision : Decision
  reason : Reason
  errorRate : Option F64
  latencyP99Ms : Option F64
  consecutiveFailures : UInt32
  deriving DecidableEq

/-- A length of time in nanoseconds. -/
abbrev Duration := Nat

def Duration.fromSecs (secs : Nat) : Duration := secs * 1000000000

/-! ## Stages -/

inductive StageError where
  | percentageOutOfRange (percentage : UInt8)
  | errorRateOutOfRange (rate : F64)
  deriving DecidableEq

structure Stage where
  percentage : UInt8
  minDuration : Duration
  minSamples : UInt64
  maxErrorRate : F64
  maxLatencyP99Ms : F64
  deriving DecidableEq

namespace Stage

variable (env : FloatEnv)

def new (percentage : UInt8) : Except StageError Stage :=
  if percentage > 100 then .error (.percentageOutOfRange percentage)
  else .ok
    { percentage
      minDuration := Duration.fromSecs 600
      minSamples := 100
      maxErrorRate := env.round (1 / 100)
      maxLatencyP99Ms := .posInf }

def withMinDuration (s : Stage) (d : Duration) : Stage := { s with minDuration := d }

def withMinSamples (s : Stage) (n : UInt64) : Stage := { s with minSamples := n }

def withMaxErrorRate (s : Stage) (rate : F64) : Except StageError Stage :=
  if (F64.fin 0).le rate && rate.le (.fin 1) then .ok { s with maxErrorRate := rate }
  else .error (.errorRateOutOfRange rate)

def withMaxLatencyP99Ms (s : Stage) (ms : F64) : Stage := { s with maxLatencyP99Ms := ms }

end Stage

/-! ## Observation windows -/

structure HealthSnapshot where
  total : UInt64
  errors : UInt64
  latenciesMs : List F64
  deriving DecidableEq

namespace HealthSnapshot

variable (env : FloatEnv)

def errorRate (s : HealthSnapshot) : Option F64 :=
  if s.total = 0 then none
  else some (env.div (env.ofNat s.errors.toNat) (env.ofNat s.total.toNat))

/-- `((len as f64) * 0.99).ceil().max(1.0) as usize`. -/
def p99Rank (len : Nat) : Nat :=
  (((env.mul (env.ofNat len) (env.round (99 / 100))).ceil).max (.fin 1)).toUsize

def latencyP99Ms (s : HealthSnapshot) : Option (Option F64) :=
  if s.latenciesMs.isEmpty then some none
  else do
    let sorted ← env.sortBy F64.cmpOrEqual s.latenciesMs
    return sorted[min (p99Rank env sorted.length) sorted.length - 1]?

end HealthSnapshot

/-- The arguments of one `observe` call. -/
structure Window where
  snapshot : HealthSnapshot
  observedFor : Duration
  deriving DecidableEq

/-! ## The gate -/

@[ext]
structure HealthGate where
  stages : List Stage
  nonempty : stages ≠ []
  failureLimit : UInt32
  consecutiveFailures : UInt32
  stageIndex : Nat
  deriving DecidableEq

namespace HealthGate

variable (env : FloatEnv)

def new (stages : List Stage) (failureLimit : UInt32) : Except StageError HealthGate :=
  if h : stages = [] then .error (.percentageOutOfRange 0)
  else .ok
    { stages
      nonempty := h
      failureLimit := max failureLimit 1
      consecutiveFailures := 0
      stageIndex := 0 }

/-- The conventional 5, 25, 50, 100 progression. -/
def standard (failureLimit : UInt32) : Except StageError HealthGate := do
  let stages ← [5, 25, 50, 100].mapM (Stage.new env)
  new stages failureLimit

theorem clamp_lt (g : HealthGate) (index : Nat) : min index (g.stages.length - 1) < g.stages.length := by
  have := List.length_pos_iff.mpr g.nonempty
  omega

def stage (g : HealthGate) : Stage :=
  g.stages.get ⟨min g.stageIndex (g.stages.length - 1), g.clamp_lt g.stageIndex⟩

def isComplete (g : HealthGate) : Bool := decide (g.stageIndex + 1 ≥ g.stages.length)

def holdVerdict (g : HealthGate) (reason : Reason) (snapshot : HealthSnapshot) :
    Option Verdict := do
  let latencyP99Ms ← snapshot.latencyP99Ms env
  return { decision := .hold
           reason
           errorRate := snapshot.errorRate env
           latencyP99Ms
           consecutiveFailures := g.consecutiveFailures }

def observe (g : HealthGate) (snapshot : HealthSnapshot) (observedFor : Duration) :
    Option (Verdict × HealthGate) := do
  let stage := g.stage
  if observedFor < stage.minDuration then
    return (← g.holdVerdict env .tooSoon snapshot, g)
  else if snapshot.total < stage.minSamples then
    return (← g.holdVerdict env .tooFewSamples snapshot, g)
  else
    let errorRate := snapshot.errorRate env
    let p99 ← snapshot.latencyP99Ms env
    let breached :=
      errorRate.any (fun r => r.gt stage.maxErrorRate) ||
        p99.any (fun p => p.gt stage.maxLatencyP99Ms)
    if breached then
      let failures := g.consecutiveFailures + 1
      let reason : Reason :=
        if errorRate.any (fun r => r.gt stage.maxErrorRate) then .errorRateTooHigh
        else .latencyTooHigh
      if failures ≥ g.failureLimit then
        return ({ decision := .rollback
                  reason
                  errorRate
                  latencyP99Ms := p99
                  consecutiveFailures := failures },
                { g with consecutiveFailures := 0 })
      else
        return ({ decision := .hold
                  reason
                  errorRate
                  latencyP99Ms := p99
                  consecutiveFailures := failures },
                { g with consecutiveFailures := failures })
    else
      return ({ decision := .promote
                reason := .healthy
                errorRate
                latencyP99Ms := p99
                consecutiveFailures := 0 },
              { g with consecutiveFailures := 0 })

def advance (g : HealthGate) : Except StageError Stage × HealthGate :=
  if g.isComplete then (.error (.percentageOutOfRange 100), g)
  else
    let g' := { g with stageIndex := g.stageIndex + 1 }
    (.ok g'.stage, g')

def restoreStreak (g : HealthGate) (consecutiveFailures : UInt32) : HealthGate :=
  { g with consecutiveFailures }

def restoreStage (g : HealthGate) (stageIndex : Nat) : Stage × HealthGate :=
  let g' := { g with stageIndex := min stageIndex (g.stages.length - 1) }
  (g'.stage, g')

def restart (g : HealthGate) : HealthGate :=
  { g with stageIndex := 0, consecutiveFailures := 0 }

end HealthGate
end FlagKit
