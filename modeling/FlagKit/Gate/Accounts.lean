import FlagKit.Gate.Verdicts
import FlagKit.Machine.Balance

/-!
# What a rollback costs

Every breach is paid into the streak and every rollback takes the failure limit out
of it.  Only a healthy window loses anything: it forgives the streak it finds.  The
account balances over every run, so a run with many breaches and few healthy windows
rolls back often, and no run rolls back without the breaches to pay for it.

A call that panics on samples it cannot sort returns nothing and is charged nothing.
-/

namespace FlagKit

open Machine RolloutController

variable (env : FloatEnv)

/-- One step of a climber, as an account of its streak. -/
theorem Climb.step_balance {height limit : Nat} {s : Climb} (h : Sound height limit s)
    (k : Evidence) :
    s.streak + (if k = .breach then 1 else 0) =
      (if (step height limit s k).1 = .rollback then limit else 0) +
        (if k = .healthy then s.streak else 0) + (step height limit s k).2.streak := by
  have hlt := h.streak_lt
  cases k with
  | insufficient => simp [step]
  | healthy => by_cases hr : s.rung + 1 < height <;> simp [step, up, hr]
  | breach =>
    by_cases hs : limit ≤ s.streak + 1
    · simp only [step, hs, if_true, fallen, reduceCtorEq, if_false]
      omega
    · simp [step, hs]

variable {stages : List Stage} {limit : UInt32}

theorem climbStep_balance {s : Climb} (h : ClimbSound stages limit s)
    (evidence : Option Evidence) :
    s.streak + (if evidence = some .breach then 1 else 0) =
      (if (climbStep stages limit s evidence).1 = some .rollback then limit.toNat else 0) +
        (if evidence = some .healthy then s.streak else 0) +
        (climbStep stages limit s evidence).2.streak := by
  cases evidence with
  | none => simp
  | some k =>
    have hstep := Climb.step_balance h k
    simpa only [climbStep_some, Option.some.injEq] using hstep

/-- The failure counter of a controller, as a number. -/
def streak (c : RolloutController) : Nat := c.gate.consecutiveFailures.toNat

def breaches (es : List Observed) : Nat :=
  es.countP (fun e => Observed.evidence env e = some .breach)

def rollbacks (es : List Observed) : Nat :=
  es.countP (fun e => Observed.decision e = some .rollback)

def healthies (es : List Observed) : Nat :=
  es.countP (fun e => Observed.evidence env e = some .healthy)

/-- The streaks that healthy windows wiped out. -/
def forgiven (es : List Observed) : Nat :=
  total (fun e => if Observed.evidence env e = some .healthy then streak e.before else 0) es

/-- Some sound climber tracks the gate. -/
def GateClimbing (stages : List Stage) (limit : UInt32) (c : RolloutController) : Prop :=
  ∃ s, GateTracks stages limit c s ∧ ClimbSound stages limit s

theorem feed_gateClimbing {c : RolloutController} (h : GateClimbing stages limit c) (w : Window) :
    GateClimbing stages limit (c.feed env w).2 := by
  obtain ⟨s, htracks, hsound⟩ := h
  exact ⟨_, (feed_gateTracks env htracks hsound w).2, climbStep_sound hsound _⟩

theorem final_gateClimbing {g : HealthGate} (hg : HealthGate.new stages limit = .ok g)
    (r : Rollout) (ws : List Window) :
    GateClimbing stages (max limit 1) (final (feed env) (RolloutController.new r g) ws) := by
  obtain ⟨hne, rfl⟩ := HealthGate.new_eq_ok_iff.mp hg
  exact invariant_final (J := GateClimbing stages (max limit 1))
    (fun _ w h => feed_gateClimbing env h w) ⟨_, start_gateTracks hne limit r⟩ ws

theorem streak_lt {c : RolloutController} (h : GateClimbing stages limit c) :
    streak c < limit.toNat := by
  obtain ⟨s, htracks, hsound⟩ := h
  rw [streak, htracks.streak_eq]
  exact hsound.streak_lt

theorem feed_balance {c : RolloutController} (h : GateClimbing stages limit c) (w : Window) :
    streak c + (if Observed.evidence env (event (feed env) c w) = some .breach then 1 else 0) =
      ((if Observed.decision (event (feed env) c w) = some .rollback then limit.toNat else 0) +
        if Observed.evidence env (event (feed env) c w) = some .healthy then streak c else 0) +
        streak (c.feed env w).2 := by
  obtain ⟨s, htracks, hsound⟩ := h
  obtain ⟨hdec, hnext⟩ := feed_gateTracks env htracks hsound w
  have hstep := climbStep_balance hsound (evidenceIn env c w)
  rw [← hdec, ← htracks.streak_eq, ← hnext.streak_eq] at hstep
  exact hstep

/-- The account of a run. -/
theorem final_balance {c : RolloutController} (h : GateClimbing stages limit c)
    (ws : List Window) :
    streak c + breaches env (trace (feed env) c ws) =
      limit.toNat * rollbacks (trace (feed env) c ws) + forgiven env (trace (feed env) c ws) +
        streak (final (feed env) c ws) := by
  have hrun := balance_final (J := GateClimbing stages limit) (φ := streak)
    (f := fun e => if Observed.evidence env e = some .breach then 1 else 0)
    (g := fun e => (if Observed.decision e = some .rollback then limit.toNat else 0) +
      if Observed.evidence env e = some .healthy then streak e.before else 0)
    (fun _ w h => feed_gateClimbing env h w) (fun _ w h => feed_balance env h w) h ws
  rw [total_ite, Nat.one_mul, total_add, total_ite] at hrun
  exact hrun

/-- A healthy window forgives less than the failure limit. -/
theorem forgiven_le {c : RolloutController} (h : GateClimbing stages limit c)
    (ws : List Window) :
    forgiven env (trace (feed env) c ws) ≤
      (limit.toNat - 1) * healthies env (trace (feed env) c ws) := by
  rw [healthies, ← total_ite]
  refine total_le fun e he => ?_
  have hbefore := (invariant_trace (J := GateClimbing stages limit)
    (fun _ w h => feed_gateClimbing env h w) h he).1
  have hlt := streak_lt hbefore
  by_cases hk : Observed.evidence env e = some .healthy
  · rw [if_pos hk, if_pos hk]
    omega
  · rw [if_neg hk, if_neg hk]

theorem forgiven_eq_zero {es : List Observed}
    (h : ∀ e ∈ es, Observed.evidence env e ≠ some .healthy) : forgiven env es = 0 :=
  total_eq_zero fun e he => if_neg (h e he)

/-- From every reachable state and over every further run, the rollbacks are paid for
by breaches: they never take more than was there, the breaches left unpaid are fewer
than one limit for each healthy window and one more, and without a healthy window the
number of rollbacks and the streak left are the quotient and the remainder. -/
theorem rollbacks_paid {g : HealthGate} {r : Rollout}
    (hg : HealthGate.new stages limit = .ok g) (ws more : List Window)
    {c : RolloutController} (hc : c = final (feed env) (RolloutController.new r g) ws)
    {es : List Observed} (hes : es = trace (feed env) c more) :
    (max limit 1).toNat * rollbacks es + streak (final (feed env) c more) ≤
        streak c + breaches env es ∧
      streak c + breaches env es ≤
        (max limit 1).toNat * rollbacks es + streak (final (feed env) c more) +
          ((max limit 1).toNat - 1) * healthies env es ∧
      streak (final (feed env) c more) < (max limit 1).toNat ∧
      ((∀ e ∈ es, Observed.evidence env e ≠ some .healthy) →
        rollbacks es = (streak c + breaches env es) / (max limit 1).toNat ∧
          streak (final (feed env) c more) =
            (streak c + breaches env es) % (max limit 1).toNat) := by
  have hclimb : GateClimbing stages (max limit 1) c := by
    rw [hc]
    exact final_gateClimbing env hg r ws
  have hbalance := final_balance env hclimb more
  have hforgiven := forgiven_le env hclimb more
  have hlt := streak_lt (invariant_final (J := GateClimbing stages (max limit 1))
    (fun _ w h => feed_gateClimbing env h w) hclimb more)
  rw [← hes] at hbalance hforgiven
  refine ⟨by omega, by omega, hlt, fun hnone => ?_⟩
  rw [forgiven_eq_zero env hnone, Nat.add_zero] at hbalance
  rw [hbalance, Nat.mul_add_div (max_one_toNat_pos limit), Nat.mul_add_mod,
    Nat.div_eq_of_lt hlt, Nat.mod_eq_of_lt hlt]
  exact ⟨rfl, rfl⟩

theorem rollbacks_paid_two_breaches :
    rollbacks (trace (feed .exact) (RolloutController.new (sampleRollout 5) sampleGate)
      [sampleWindow 50, sampleWindow 50]) = 2 := by
  have h := ((@rollbacks_paid .exact [sampleStage 5, sampleStage 25] 1 sampleGate
    (sampleRollout 5) rfl [] [sampleWindow 50, sampleWindow 50] _ rfl _ rfl).2.2.2 (by
      decide +kernel)).1
  rw [final_nil] at h
  rw [h]
  decide +kernel

end FlagKit
