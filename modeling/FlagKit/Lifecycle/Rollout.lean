import FlagKit.Eval.Bucket

/-!
# Rollouts

A `Rollout` holds the exposed percentage of one flag, the salt of the current
cohort and a private high water mark.  The methods that take `&mut self` return
their result together with the rollout they leave, so a rejected call is one that
returns an error and the rollout it was given.
-/

namespace FlagKit

variable (finish : DefaultHasher)

def bucketSalted (flagName userId salt : String) : UInt8 :=
  bucketOf finish (hashBytes flagName ++ hashBytes salt ++ hashBytes userId)

def bucketSaltedWithOrg (flagName userId salt : String) (orgId : Option String) : UInt8 :=
  bucketOf finish (hashBytes flagName ++ hashBytes salt ++ hashBytes userId ++
    match orgId with
    | some org => hashBytes org
    | none => [])

structure RolloutDecision where
  enabled : Bool
  bucket : UInt8
  deriving DecidableEq

/-- A salted percentage decision; the empty salt is the unsalted bucket. -/
def rolloutDecision (flagName userId : String) (percentage : UInt8) (salt : String) :
    RolloutDecision :=
  let bucket :=
    if salt.isEmpty then bucket finish flagName userId
    else bucketSalted finish flagName userId salt
  { enabled := decide (percentage ≥ 100) || decide (bucket < percentage), bucket }

theorem rolloutDecision_bucket_lt (flagName userId : String) (percentage : UInt8) (salt : String) :
    (rolloutDecision finish flagName userId percentage salt).bucket < 100 := by
  by_cases h : salt.isEmpty = true
  · simp only [rolloutDecision, h, if_true]
    exact bucket_lt finish flagName userId
  · simp only [rolloutDecision, h, if_false, Bool.false_eq_true]
    exact bucketOf_lt finish _

/-- The special case for 100 percent decides nothing the bucket does not. -/
theorem rolloutDecision_enabled (flagName userId : String) (percentage : UInt8) (salt : String) :
    (rolloutDecision finish flagName userId percentage salt).enabled =
      decide ((rolloutDecision finish flagName userId percentage salt).bucket < percentage) := by
  have hlt := rolloutDecision_bucket_lt finish flagName userId percentage salt
  show (decide (percentage ≥ 100) || decide (_ < percentage)) = _
  by_cases h : percentage ≥ 100
  · rw [decide_eq_true h, decide_eq_true (UInt8.lt_of_lt_of_le hlt h)]
    rfl
  · rw [decide_eq_false h, Bool.false_or]
    rfl

def inRollout (flagName userId : String) (percentage : UInt8) : Bool :=
  decide (bucket finish flagName userId < percentage)

def inRolloutForOrg (flagName userId : String) (orgId : Option String) (percentage : UInt8) :
    Bool :=
  decide (bucketWithOrg finish flagName userId orgId < percentage)

structure PercentError where
  percentage : UInt8
  deriving DecidableEq

inductive AdvanceError where
  | outOfRange (percentage : UInt8)
  | wouldRegress (requested highWaterMark : UInt8)
  deriving DecidableEq

structure Rollout where
  flag : FlagName
  percentage : UInt8
  salt : String
  highWaterMark : UInt8
  deriving DecidableEq

namespace Rollout

def new (flag : FlagName) (percentage : UInt8) (salt : String) : Except PercentError Rollout :=
  if percentage > 100 then .error ⟨percentage⟩
  else .ok { flag, percentage, highWaterMark := percentage, salt }

def advance (r : Rollout) (percentage : UInt8) : Except AdvanceError Unit × Rollout :=
  if percentage > 100 then (.error (.outOfRange percentage), r)
  else if percentage < r.highWaterMark then
    (.error (.wouldRegress percentage r.highWaterMark), r)
  else (.ok (), { r with percentage := percentage, highWaterMark := percentage })

/-- The gate is asked after the rollout has moved: a failing gate reports `false`
from a rollout that has already advanced. -/
def advanceIfHealthy (r : Rollout) (target : UInt8) (gate : UInt8 → Bool) : Bool × Rollout :=
  match r.advance target with
  | (.ok (), r') => (gate r'.percentage, r')
  | (.error _, r') => (false, r')

def rollback (r : Rollout) (percentage : UInt8) : Except PercentError Unit × Rollout :=
  if percentage > 100 then (.error ⟨percentage⟩, r)
  else (.ok (), { r with percentage := percentage })

def resetExposure (r : Rollout) : Rollout := { r with percentage := 0, highWaterMark := 0 }

def newCycle (r : Rollout) (salt : String) : Rollout :=
  { r with salt := salt, percentage := 0, highWaterMark := 0 }

def evaluate (r : Rollout) (userId : String) : RolloutDecision :=
  rolloutDecision finish r.flag.asStr userId r.percentage r.salt

theorem new_eq_ok_iff {flag : FlagName} {percentage : UInt8} {salt : String} {r : Rollout} :
    new flag percentage salt = .ok r ↔ percentage ≤ 100 ∧ r = ⟨flag, percentage, salt, percentage⟩ := by
  by_cases h : percentage > 100
  · have hle : ¬ percentage ≤ 100 := UInt8.not_le.mpr h
    simp [new, h, hle]
  · have hle : percentage ≤ 100 := UInt8.not_lt.mp h
    simp [new, h, hle, eq_comm]

theorem advance_eq_ok {r : Rollout} {percentage : UInt8} (h100 : percentage ≤ 100)
    (hmark : r.highWaterMark ≤ percentage) :
    r.advance percentage =
      (.ok (), { r with percentage := percentage, highWaterMark := percentage }) := by
  rw [advance, if_neg (UInt8.not_lt.mpr h100), if_neg (UInt8.not_lt.mpr hmark)]

/-- Everything `advance` can do: move both fields, or refuse and change nothing. -/
theorem advance_cases (r : Rollout) (percentage : UInt8) :
    (percentage ≤ 100 ∧ r.highWaterMark ≤ percentage ∧
      r.advance percentage =
        (.ok (), { r with percentage := percentage, highWaterMark := percentage })) ∨
    ((100 < percentage ∨ percentage < r.highWaterMark) ∧
      ∃ e, r.advance percentage = (.error e, r)) := by
  by_cases h100 : percentage > 100
  · exact Or.inr ⟨Or.inl h100, _, by rw [advance, if_pos h100]⟩
  · by_cases hmark : percentage < r.highWaterMark
    · exact Or.inr ⟨Or.inr hmark, _, by rw [advance, if_neg h100, if_pos hmark]⟩
    · have h100' := UInt8.not_lt.mp h100
      have hmark' := UInt8.not_lt.mp hmark
      exact Or.inl ⟨h100', hmark', advance_eq_ok h100' hmark'⟩

theorem advance_fixed (r : Rollout) (percentage : UInt8) :
    (r.advance percentage).2.flag = r.flag ∧ (r.advance percentage).2.salt = r.salt := by
  rcases r.advance_cases percentage with ⟨_, _, h⟩ | ⟨_, e, h⟩ <;> simp [h]

theorem advanceIfHealthy_snd (r : Rollout) (target : UInt8) (gate : UInt8 → Bool) :
    (r.advanceIfHealthy target gate).2 = (r.advance target).2 := by
  rcases advance_cases r target with ⟨_, _, h⟩ | ⟨_, e, h⟩ <;> simp [advanceIfHealthy, h]

end Rollout

/-! ## Calls on a rollout -/

/-- A call of one of the mutating methods of a rollout. -/
inductive RolloutOp where
  | advance (percentage : UInt8)
  | advanceIfHealthy (target : UInt8) (gate : UInt8 → Bool)
  | rollback (percentage : UInt8)
  | resetExposure
  | newCycle (salt : String)

namespace Rollout

/-- Make one call; the output is whether the call reported success. -/
def step (r : Rollout) : RolloutOp → Bool × Rollout
  | .advance percentage => ((r.advance percentage).1.isOk, (r.advance percentage).2)
  | .advanceIfHealthy target gate => r.advanceIfHealthy target gate
  | .rollback percentage => ((r.rollback percentage).1.isOk, (r.rollback percentage).2)
  | .resetExposure => (true, r.resetExposure)
  | .newCycle salt => (true, r.newCycle salt)

end Rollout
end FlagKit
