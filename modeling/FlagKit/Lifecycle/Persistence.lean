import FlagKit.Lifecycle.Rollout
import FlagKit.Machine.Run

/-!
# Persisting a rollout

The percentage, the salt and the mark of a rollout can be read, but no constructor
takes a mark.  A rollout is still restored exactly by its public methods: create it
at the mark and roll it back to the percentage.  Creating it at the percentage, the
obvious way, loses the mark, and that shows in some later call unless the mark is the
percentage: the mark is all that a sequence of calls can find out.
-/

namespace FlagKit

open Machine

namespace Rollout

/-- Both percentages of a rollout are in range. -/
structure InRange (r : Rollout) : Prop where
  percentage_le : r.percentage ≤ 100
  mark_le : r.highWaterMark ≤ 100

theorem advance_inRange {r : Rollout} (h : InRange r) (p : UInt8) : InRange (r.advance p).2 := by
  rcases r.advance_cases p with ⟨h100, _, heq⟩ | ⟨_, e, heq⟩
  · rw [heq]
    exact ⟨h100, h100⟩
  · rw [heq]
    exact h

theorem rollback_cases (r : Rollout) (p : UInt8) :
    (p ≤ 100 ∧ r.rollback p = (.ok (), { r with percentage := p })) ∨
      (100 < p ∧ r.rollback p = (.error ⟨p⟩, r)) := by
  by_cases h : p > 100
  · exact Or.inr ⟨h, by rw [rollback, if_pos h]⟩
  · exact Or.inl ⟨UInt8.not_lt.mp h, by rw [rollback, if_neg h]⟩

theorem step_inRange {r : Rollout} (h : InRange r) (op : RolloutOp) : InRange (r.step op).2 := by
  cases op with
  | advance p => exact advance_inRange h p
  | advanceIfHealthy target gate =>
    show InRange (r.advanceIfHealthy target gate).2
    rw [advanceIfHealthy_snd]
    exact advance_inRange h target
  | rollback p =>
    show InRange (r.rollback p).2
    rcases r.rollback_cases p with ⟨h100, heq⟩ | ⟨_, heq⟩
    · rw [heq]
      exact ⟨h100, h.mark_le⟩
    · rw [heq]
      exact h
  | resetExposure => exact ⟨UInt8.zero_le, UInt8.zero_le⟩
  | newCycle salt => exact ⟨UInt8.zero_le, UInt8.zero_le⟩

/-- Both stay in range through every sequence of calls. -/
theorem inRange_final {flag : FlagName} {percentage : UInt8} {salt : String} {r : Rollout}
    (hr : new flag percentage salt = .ok r) (ops : List RolloutOp) :
    InRange (final step r ops) := by
  obtain ⟨h100, rfl⟩ := new_eq_ok_iff.mp hr
  exact invariant_final (J := InRange) (fun _ op h => step_inRange h op) ⟨h100, h100⟩ ops

/-- What a sequence of calls reports: which of them succeeded. -/
def answers (r : Rollout) (ops : List RolloutOp) : List Bool :=
  (trace step r ops).map Event.output

/-- Rollouts with one mark answer a call alike and are left with one mark. -/
theorem step_sameMark {r r' : Rollout} (h : r.highWaterMark = r'.highWaterMark)
    (op : RolloutOp) :
    (r.step op).1 = (r'.step op).1 ∧
      (r.step op).2.highWaterMark = (r'.step op).2.highWaterMark := by
  have hadv : ∀ p, (r.advance p).1 = (r'.advance p).1 ∧
      (r.advance p).2.highWaterMark = (r'.advance p).2.highWaterMark ∧
      ((r.advance p).1 = .ok () →
        (r.advance p).2.percentage = (r'.advance p).2.percentage) := by
    intro p
    rcases r'.advance_cases p with ⟨h100, hmark, heq⟩ | ⟨_, e, heq⟩
    · rw [heq, advance_eq_ok h100 (by rw [h]; exact hmark)]
      exact ⟨rfl, rfl, fun _ => rfl⟩
    · unfold advance at heq ⊢
      rw [h]
      by_cases h100 : p > 100
      · simp [h100, h]
      · by_cases hmark : p < r'.highWaterMark
        · simp [h100, hmark, h]
        · simp [h100, hmark] at heq
  cases op with
  | advance p =>
    refine ⟨?_, (hadv p).2.1⟩
    show (r.advance p).1.isOk = (r'.advance p).1.isOk
    rw [(hadv p).1]
  | advanceIfHealthy target gate =>
    obtain ⟨hres, hmark, hpct⟩ := hadv target
    refine ⟨?_, ?_⟩
    · show (r.advanceIfHealthy target gate).1 = (r'.advanceIfHealthy target gate).1
      unfold advanceIfHealthy
      rcases ha : r.advance target with ⟨e | u, s⟩ <;>
        rcases ha' : r'.advance target with ⟨e' | u', s'⟩ <;>
        simp_all
    · show (r.advanceIfHealthy target gate).2.highWaterMark =
        (r'.advanceIfHealthy target gate).2.highWaterMark
      rw [advanceIfHealthy_snd, advanceIfHealthy_snd]
      exact hmark
  | rollback p =>
    show (r.rollback p).1.isOk = (r'.rollback p).1.isOk ∧
      (r.rollback p).2.highWaterMark = (r'.rollback p).2.highWaterMark
    by_cases h100 : p > 100 <;> simp [rollback, h100, h]
  | resetExposure => exact ⟨rfl, rfl⟩
  | newCycle salt => exact ⟨rfl, rfl⟩

theorem answers_eq_of_mark {r r' : Rollout} (h : r.highWaterMark = r'.highWaterMark)
    (ops : List RolloutOp) : answers r ops = answers r' ops :=
  (related_outputs (R := fun r r' : Rollout => r.highWaterMark = r'.highWaterMark)
    (Q := fun _ => True) (fun _ _ op h _ => step_sameMark h op) h (fun _ _ => trivial)).1

/-- One call tells two marks apart: an advance to the lower of them. -/
theorem answers_advance_mark {r r' : Rollout} (h : InRange r)
    (hlt : r.highWaterMark < r'.highWaterMark) :
    answers r [.advance r.highWaterMark] ≠ answers r' [.advance r.highWaterMark] := by
  have hok : (r.advance r.highWaterMark).1.isOk = true := by
    rw [advance_eq_ok h.mark_le (UInt8.le_refl _)]
    rfl
  have herr : (r'.advance r.highWaterMark).1.isOk = false := by
    rw [advance, if_neg (UInt8.not_lt.mpr h.mark_le), if_pos hlt]
    rfl
  intro heq
  have hout : (r.advance r.highWaterMark).1.isOk = (r'.advance r.highWaterMark).1.isOk :=
    (List.cons.inj heq).1
  rw [hok, herr] at hout
  cases hout

/-- The mark is what the calls can find out about a rollout. -/
theorem answers_eq_iff {r r' : Rollout} (h : InRange r) (h' : InRange r') :
    (∀ ops, answers r ops = answers r' ops) ↔ r.highWaterMark = r'.highWaterMark := by
  constructor
  · intro hall
    by_contra hne
    rcases UInt8.lt_or_lt_of_ne hne with hlt | hgt
    · exact answers_advance_mark h hlt (hall _)
    · exact answers_advance_mark h' hgt (hall _).symm
  · exact fun hmark => answers_eq_of_mark hmark

end Rollout

/-- Two ways to restore a rollout after any sequence of calls.  Created at the mark
and rolled back to the percentage it is the rollout that was persisted; created at the
percentage it answers every further sequence of calls alike exactly when the mark was
the percentage. -/
theorem rollout_restored {flag : FlagName} {percentage : UInt8} {salt : String} {r₀ r : Rollout}
    (hr : Rollout.new flag percentage salt = .ok r₀) (ops : List RolloutOp)
    (hrun : r = final Rollout.step r₀ ops) :
    (∃ s, Rollout.new r.flag r.highWaterMark r.salt = .ok s ∧
      s.rollback r.percentage = (.ok (), r)) ∧
    ∃ s, Rollout.new r.flag r.percentage r.salt = .ok s ∧
      ((∀ more, s.answers more = r.answers more) ↔ r.percentage = r.highWaterMark) := by
  have hrange : Rollout.InRange r := by
    rw [hrun]
    exact Rollout.inRange_final hr ops
  constructor
  · refine ⟨_, Rollout.new_eq_ok_iff.mpr ⟨hrange.mark_le, rfl⟩, ?_⟩
    rw [Rollout.rollback, if_neg (UInt8.not_lt.mpr hrange.percentage_le)]
  · refine ⟨_, Rollout.new_eq_ok_iff.mpr ⟨hrange.percentage_le, rfl⟩, ?_⟩
    exact Rollout.answers_eq_iff ⟨hrange.percentage_le, hrange.percentage_le⟩ hrange

theorem rollout_restored_after_rollback :
    ∃ s, Rollout.new ⟨"checkout"⟩ 50 "c1" = .ok s ∧
      s.rollback 5 = (.ok (), ⟨⟨"checkout"⟩, 5, "c1", 50⟩) :=
  (@rollout_restored ⟨"checkout"⟩ 5 "c1" ⟨⟨"checkout"⟩, 5, "c1", 5⟩
    ⟨⟨"checkout"⟩, 5, "c1", 50⟩ rfl
    [.advance 50, .rollback 5] rfl).1

end FlagKit
