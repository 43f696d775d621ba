import FlagKit.Gate.Controller
import FlagKit.Machine.Run
import Mathlib.Data.Set.Basic

/-!
# Sticky, nested cohorts

The cohort of a rollout is the set of users it is enabled for.  It is read off two
things: the bucket of a user, which depends on the flag and the salt only, and the
percentage, a threshold on the bucket.  So the cohorts of one cycle form a chain,
and the percentage alone says which of them is exposed.

Every call of a rollout but `new_cycle` and every window of a controller leaves the
flag and the salt alone.
-/

namespace FlagKit

open Machine

variable (finish : DefaultHasher)

namespace Rollout

def cohort (r : Rollout) : Set String := {userId | (r.evaluate finish userId).enabled = true}

/-- The two rollouts draw their buckets alike. -/
def SameDraw (r r' : Rollout) : Prop := r'.flag = r.flag ∧ r'.salt = r.salt

theorem sameDraw_refl (r : Rollout) : SameDraw r r := ⟨rfl, rfl⟩

theorem SameDraw.trans {r s t : Rollout} (h : SameDraw r s) (h' : SameDraw s t) :
    SameDraw r t := ⟨h'.1.trans h.1, h'.2.trans h.2⟩

theorem SameDraw.symm {r s : Rollout} (h : SameDraw r s) : SameDraw s r :=
  ⟨h.1.symm, h.2.symm⟩

theorem evaluate_bucket_lt (r : Rollout) (userId : String) :
    (r.evaluate finish userId).bucket < 100 :=
  rolloutDecision_bucket_lt finish _ _ _ _

theorem mem_cohort {r : Rollout} {userId : String} :
    userId ∈ r.cohort finish ↔ (r.evaluate finish userId).bucket < r.percentage := by
  show (r.evaluate finish userId).enabled = true ↔ _
  rw [evaluate, rolloutDecision_enabled, decide_eq_true_iff]

theorem SameDraw.bucket_eq {r r' : Rollout} (h : SameDraw r r') (userId : String) :
    (r'.evaluate finish userId).bucket = (r.evaluate finish userId).bucket := by
  simp only [evaluate, rolloutDecision, h.1, h.2]

/-! ## Two rollouts of one draw -/

/-- What a subject sees at two points of one cycle. -/
structure SameCohorts (r r' : Rollout) : Prop where
  bucket_eq : ∀ userId, (r'.evaluate finish userId).bucket = (r.evaluate finish userId).bucket
  bucket_lt : ∀ userId, (r.evaluate finish userId).bucket < 100
  nested : r.percentage ≤ r'.percentage → ∀ userId,
    (r.evaluate finish userId).enabled = true → (r'.evaluate finish userId).enabled = true
  sticky : r.percentage = r'.percentage → ∀ userId,
    (r.evaluate finish userId).enabled = (r'.evaluate finish userId).enabled
  nobody : r.percentage = 0 → ∀ userId, (r.evaluate finish userId).enabled = false
  everybody : r.percentage = 100 → ∀ userId, (r.evaluate finish userId).enabled = true

theorem cohort_subset {r r' : Rollout} (h : SameDraw r r') (hle : r.percentage ≤ r'.percentage) :
    r.cohort finish ⊆ r'.cohort finish := by
  intro userId hmem
  rw [mem_cohort] at hmem ⊢
  rw [h.bucket_eq]
  exact UInt8.lt_of_lt_of_le hmem hle

theorem cohort_eq {r r' : Rollout} (h : SameDraw r r') (heq : r.percentage = r'.percentage) :
    r.cohort finish = r'.cohort finish :=
  Set.Subset.antisymm (cohort_subset finish h (UInt8.le_of_eq heq))
    (cohort_subset finish h.symm (UInt8.le_of_eq heq.symm))

theorem cohort_zero {r : Rollout} (h : r.percentage = 0) : r.cohort finish = ∅ := by
  ext userId
  rw [mem_cohort, h]
  exact iff_of_false UInt8.not_lt_zero (Set.notMem_empty userId)

theorem cohort_hundred {r : Rollout} (h : r.percentage = 100) :
    r.cohort finish = Set.univ := by
  ext userId
  rw [mem_cohort, h]
  exact iff_of_true (evaluate_bucket_lt finish r userId) (Set.mem_univ userId)

theorem sameCohorts_of_sameDraw {r r' : Rollout} (h : SameDraw r r') :
    SameCohorts finish r r' where
  bucket_eq := h.bucket_eq finish
  bucket_lt := evaluate_bucket_lt finish r
  nested hle _ hmem := cohort_subset finish h hle hmem
  sticky heq userId := Bool.eq_iff_iff.mpr (Set.ext_iff.mp (cohort_eq finish h heq) userId)
  nobody h0 userId := by
    have hnot : userId ∉ r.cohort finish := by
      rw [cohort_zero finish h0]
      exact Set.notMem_empty userId
    exact Bool.eq_false_iff.mpr hnot
  everybody h100 userId := by
    have hmem : userId ∈ r.cohort finish := by
      rw [cohort_hundred finish h100]
      exact Set.mem_univ userId
    exact hmem

/-! ## Calls of one cycle -/

/-- Every call but the one that redraws the cohort. -/
def SameCycle : RolloutOp → Prop
  | .newCycle _ => False
  | .advance _ | .advanceIfHealthy _ _ | .rollback _ | .resetExposure => True

theorem step_sameDraw (r : Rollout) {op : RolloutOp} (hop : SameCycle op) :
    SameDraw r (r.step op).2 := by
  cases op with
  | advance percentage => exact r.advance_fixed percentage
  | advanceIfHealthy target gate =>
    show SameDraw r (r.advanceIfHealthy target gate).2
    rw [advanceIfHealthy_snd]
    exact r.advance_fixed target
  | rollback percentage =>
    by_cases h : percentage > 100 <;> simp [step, rollback, h, SameDraw]
  | resetExposure => exact sameDraw_refl r
  | newCycle salt => exact hop.elim

end Rollout

theorem feed_sameDraw (env : FloatEnv) (c : RolloutController) (w : Window) :
    Rollout.SameDraw c.rollout (c.feed env w).2.rollout := by
  rcases c.feed_cases env w with ⟨failures, hnext⟩ | ⟨_, hnext⟩ | ⟨_, _, hnext⟩
  · rw [hnext]
    exact Rollout.sameDraw_refl _
  · rw [hnext]
    exact Rollout.sameDraw_refl _
  · rw [hnext]
    exact c.rollout.advance_fixed _

/-! ## Runs -/

theorem sameCohorts_of_runs {σ ι ο : Type} (step : σ → ι → ο × σ) (rollout : σ → Rollout)
    {Q : ι → Prop} (hstep : ∀ s i, Q i → Rollout.SameDraw (rollout s) (rollout (step s i).2))
    (s : σ) {is : List ι} (his : ∀ i ∈ is, Q i) {pre pre' : List ι} (hpre : pre <+: is)
    (hpre' : pre' <+: is) :
    Rollout.SameCohorts finish (rollout (final step s pre)) (rollout (final step s pre')) := by
  have hrun : ∀ js, js <+: is → Rollout.SameDraw (rollout s) (rollout (final step s js)) := by
    intro js hjs
    exact invariant_final_of (J := fun t => Rollout.SameDraw (rollout s) (rollout t))
      (fun t i ht hi => ht.trans (hstep t i hi)) (Rollout.sameDraw_refl _)
      (fun i hi => his i (hjs.subset hi))
  apply Rollout.sameCohorts_of_sameDraw
  exact (hrun pre hpre).symm.trans (hrun pre' hpre')

/-- Within a cycle the cohorts are sticky and nested, between any two points of any
sequence of calls on a rollout, or of windows fed to a controller. -/
theorem cohorts_sticky (env : FloatEnv) :
    (∀ (r : Rollout) (ops : List RolloutOp), (∀ op ∈ ops, Rollout.SameCycle op) →
      ∀ pre pre', pre <+: ops → pre' <+: ops →
        Rollout.SameCohorts finish (final Rollout.step r pre) (final Rollout.step r pre')) ∧
    ∀ (c : RolloutController) (ws pre pre' : List Window), pre <+: ws → pre' <+: ws →
      Rollout.SameCohorts finish (final (RolloutController.feed env) c pre).rollout
        (final (RolloutController.feed env) c pre').rollout := by
  constructor
  · intro r ops hops pre pre' hpre hpre'
    exact sameCohorts_of_runs finish Rollout.step (fun r => r)
      (fun r _ hop => r.step_sameDraw hop) r hops hpre hpre'
  · intro c ws pre pre' hpre hpre'
    exact sameCohorts_of_runs finish (RolloutController.feed env) RolloutController.rollout
      (Q := fun _ => True) (fun c w _ => feed_sameDraw env c w) c (fun _ _ => trivial) hpre hpre'

/-- A rollback to 5 and a climb back to 50 expose the cohort exposed at 50 before. -/
theorem cohorts_sticky_after_reclimb :
    Rollout.SameCohorts (fun _ => 7) (final Rollout.step (sampleRollout 5) [.advance 50])
      (final Rollout.step (sampleRollout 5) [.advance 50, .rollback 5, .advance 50]) :=
  (@cohorts_sticky (fun _ => 7) .exact).1 (sampleRollout 5)
    [.advance 50, .rollback 5, .advance 50] (by simp [Rollout.SameCycle]) _ _
    ⟨_, rfl⟩ (List.prefix_refl _)

end FlagKit
