import FlagKit.Lifecycle.Rollout
import FlagKit.Machine.Run

/-!
# Health-gated promotion

`advance_if_healthy` is documented to advance only while its gate passes and to
return whether it promoted.  The rollout moves before the gate is asked, so a target
that `advance` accepts is kept when the gate then fails: the call returns `false` and
the exposure and the mark are those of the promotion that was refused.

The answer itself is right on every call (`advanceIfHealthy_eq_true_iff`).  What
fails is "refused, so nothing moved".
-/

namespace FlagKit

open Machine

/-- The arguments of one `advance_if_healthy` call. -/
structure GatedCall where
  target : UInt8
  gate : UInt8 → Bool

namespace Rollout

/-- `advance_if_healthy` as the step of a machine. -/
def gatedStep (r : Rollout) (c : GatedCall) : Bool × Rollout :=
  r.advanceIfHealthy c.target c.gate

/-- The target is one `advance` takes. -/
def Accepts (r : Rollout) (c : GatedCall) : Prop := c.target ≤ 100 ∧ r.highWaterMark ≤ c.target

instance (r : Rollout) (c : GatedCall) : Decidable (r.Accepts c) :=
  inferInstanceAs (Decidable (_ ∧ _))

/-- Everything a call can do: the gate decides the answer, not the move. -/
theorem gatedStep_cases (r : Rollout) (c : GatedCall) :
    (r.Accepts c ∧ r.gatedStep c =
      (c.gate c.target, { r with percentage := c.target, highWaterMark := c.target })) ∨
    (¬ r.Accepts c ∧ r.gatedStep c = (false, r)) := by
  rcases r.advance_cases c.target with ⟨h100, hmark, h⟩ | ⟨hno, e, h⟩
  · exact Or.inl ⟨⟨h100, hmark⟩, by simp [gatedStep, advanceIfHealthy, h]⟩
  · refine Or.inr ⟨fun hacc => ?_, by simp [gatedStep, advanceIfHealthy, h]⟩
    rcases hno with hbig | hlow
    · exact UInt8.not_le.mpr hbig hacc.1
    · exact UInt8.not_le.mpr hlow hacc.2

/-- A call promotes the whole way or changes nothing. -/
structure AllOrNothing (r : Rollout) (c : GatedCall) : Prop where
  answer : (r.gatedStep c).1 = true ↔
    c.target ≤ 100 ∧ r.highWaterMark ≤ c.target ∧ c.gate c.target = true
  all : (r.gatedStep c).1 = true →
    (r.gatedStep c).2.percentage = c.target ∧ (r.gatedStep c).2.highWaterMark = c.target
  nothing : (r.gatedStep c).1 = false → (r.gatedStep c).2 = r

/-- An accepted target the gate refuses, that is not where the rollout stands. -/
def Leaks (r : Rollout) (c : GatedCall) : Prop :=
  r.Accepts c ∧ c.gate c.target = false ∧ ¬ (r.percentage = c.target ∧ r.highWaterMark = c.target)

/-- An accepted target the gate refuses, that is not the percentage exposed. -/
def Drifts (r : Rollout) (c : GatedCall) : Prop :=
  r.Accepts c ∧ c.gate c.target = false ∧ r.percentage ≠ c.target

instance (r : Rollout) (c : GatedCall) : Decidable (r.Drifts c) :=
  inferInstanceAs (Decidable (_ ∧ _ ∧ _))

instance (r : Rollout) (c : GatedCall) : Decidable (r.Leaks c) :=
  inferInstanceAs (Decidable (_ ∧ _ ∧ _))

theorem advanceIfHealthy_eq_true_iff (r : Rollout) (c : GatedCall) :
    (r.gatedStep c).1 = true ↔
      c.target ≤ 100 ∧ r.highWaterMark ≤ c.target ∧ c.gate c.target = true := by
  rcases r.gatedStep_cases c with ⟨hacc, h⟩ | ⟨hacc, h⟩
  · rw [h]
    exact ⟨fun hgate => ⟨hacc.1, hacc.2, hgate⟩, fun hall => hall.2.2⟩
  · rw [h]
    refine iff_of_false Bool.false_ne_true (fun hall => hacc ⟨hall.1, hall.2.1⟩)

theorem moved_eq_self_iff {r : Rollout} {p : UInt8} :
    { r with percentage := p, highWaterMark := p } = r ↔
      r.percentage = p ∧ r.highWaterMark = p := by
  cases r
  simp [eq_comm]

theorem allOrNothing_iff (r : Rollout) (c : GatedCall) : AllOrNothing r c ↔ ¬ r.Leaks c := by
  have hanswer := r.advanceIfHealthy_eq_true_iff c
  rcases r.gatedStep_cases c with ⟨hacc, h⟩ | ⟨hacc, h⟩
  · constructor
    · intro hall hleak
      have hstay := hall.nothing (by rw [h]; exact hleak.2.1)
      rw [h] at hstay
      exact hleak.2.2 (moved_eq_self_iff.mp hstay)
    · intro hleak
      refine ⟨hanswer, fun _ => by rw [h]; exact ⟨rfl, rfl⟩, fun hfalse => ?_⟩
      rw [h] at hfalse ⊢
      by_cases hstand : r.percentage = c.target ∧ r.highWaterMark = c.target
      · exact moved_eq_self_iff.mpr hstand
      · exact absurd ⟨hacc, hfalse, hstand⟩ hleak
  · refine iff_of_true ⟨hanswer, fun htrue => ?_, fun _ => by rw [h]⟩ (fun hleak => hacc hleak.1)
    rw [h] at htrue
    cases htrue

/-! ## Runs of calls -/

/-- The target of the last call that returned `true`, or the percentage before. -/
def lastPromoted (start : UInt8) (es : List (Event Rollout GatedCall Bool)) : UInt8 :=
  ((es.filter Event.output).getLast?.map (fun e => e.input.target)).getD start

theorem lastPromoted_concat (start : UInt8) (es : List (Event Rollout GatedCall Bool))
    (e : Event Rollout GatedCall Bool) :
    lastPromoted start (es ++ [e]) =
      if e.output = true then e.input.target else lastPromoted start es := by
  by_cases h : e.output = true
  · simp [lastPromoted, List.filter_append, h]
  · simp [lastPromoted, List.filter_append, h]

/-- One call keeps the percentage the last promoted one unless it drifts, and then
it never does. -/
theorem gatedStep_lastPromoted {start : UInt8} {es : List (Event Rollout GatedCall Bool)}
    {r : Rollout} (h : r.percentage = lastPromoted start es) (c : GatedCall) :
    (r.gatedStep c).2.percentage = lastPromoted start (es ++ [event gatedStep r c]) ↔
      ¬ r.Drifts c := by
  rw [lastPromoted_concat, event_output, event_input]
  rcases r.gatedStep_cases c with ⟨hacc, hstep⟩ | ⟨hacc, hstep⟩
  · rw [hstep, ← h]
    cases hgate : c.gate c.target with
    | true => exact iff_of_true rfl (fun hdrift => by rw [hdrift.2.1] at hgate; cases hgate)
    | false =>
      show c.target = r.percentage ↔ _
      constructor
      · intro heq hdrift
        exact hdrift.2.2 heq.symm
      · intro hdrift
        by_contra hne
        exact hdrift ⟨hacc, hgate, Ne.symm hne⟩
  · rw [hstep, ← h]
    exact iff_of_true rfl (fun hdrift => hacc hdrift.1)

/-- From 5 percent, a target of 50 whose gate fails returns `false` and exposes 50. -/
theorem refused_promotion_moves :
    ¬ ∀ (flag : FlagName) (percentage : UInt8) (salt : String) (r : Rollout)
        (ops : List RolloutOp), Rollout.new flag percentage salt = .ok r →
      ∀ c, AllOrNothing (final step r ops) c := by
  intro h
  have hall := h ⟨"my_flag"⟩ 5 "c1" ⟨⟨"my_flag"⟩, 5, "c1", 5⟩ [] rfl ⟨50, fun _ => false⟩
  exact absurd (hall.nothing rfl) (by decide)

/-- In every rollout a call is all-or-nothing exactly when it does not leak.  Along
a sequence of calls the percentage is always the last one promoted exactly when no
call of the sequence drifts. -/
theorem gated_promotion_iff (r : Rollout) :
    (∀ c, AllOrNothing r c ↔ ¬ r.Leaks c) ∧
    ∀ calls, (∀ pre, pre <+: calls → (final gatedStep r pre).percentage =
        lastPromoted r.percentage (trace gatedStep r pre)) ↔
      ∀ e ∈ trace gatedStep r calls, ¬ e.before.Drifts e.input := by
  refine ⟨r.allOrNothing_iff, fun calls => ?_⟩
  exact forall_prefix_history_iff
    (J := fun es t => t.percentage = lastPromoted r.percentage es)
    (Q := fun t c => ¬ t.Drifts c) (fun _ _ c ht => gatedStep_lastPromoted ht c) rfl calls

end Rollout
end FlagKit
