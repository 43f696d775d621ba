import FlagKit.Lifecycle.Rollout
import FlagKit.Machine.Run

/-!
# The high water mark

The mark is documented as the highest percentage reached so far, and `advance`
compares with it so that exposure never shrinks by promotion.  `Tracked` adds to
a rollout what the mark should be the maximum of: the percentages held since the
rollout was created or its mark was last cleared.

Four of the five calls keep the mark exact.  `rollback` does not look at the mark,
so a rollback to a percentage above it leaves the mark below the percentage.  That
is the only way to lose exactness (`mark_exact_iff`).
-/

namespace FlagKit

open Machine

/-- A rollout and the percentages it has held since its creation or its last
reset, newest first. -/
structure Tracked where
  rollout : Rollout
  held : List UInt8

namespace Tracked

def start (r : Rollout) : Tracked := { rollout := r, held := [r.percentage] }

def heldAfter (held : List UInt8) (percentage : UInt8) : RolloutOp → List UInt8
  | .resetExposure | .newCycle _ => [percentage]
  | .advance _ | .advanceIfHealthy _ _ | .rollback _ => percentage :: held

def step (t : Tracked) (op : RolloutOp) : Bool × Tracked :=
  let (ok, r) := t.rollout.step op
  (ok, { rollout := r, held := heldAfter t.held r.percentage op })

end Tracked

/-- The mark is the largest percentage held, nothing is above 100 and no
successful `advance` lowers the percentage. -/
structure MarkExact (t : Tracked) : Prop where
  held_le : ∀ p ∈ t.held, p ≤ t.rollout.highWaterMark
  mark_held : t.rollout.highWaterMark ∈ t.held
  percentage_le : t.rollout.percentage ≤ t.rollout.highWaterMark
  mark_le : t.rollout.highWaterMark ≤ 100
  advance_grows : ∀ p, (t.rollout.advance p).1 = .ok () →
    t.rollout.percentage ≤ (t.rollout.advance p).2.percentage

/-- A rollback that is accepted and goes above the mark. -/
def Overshoots (r : Rollout) : RolloutOp → Prop
  | .rollback p => p ≤ 100 ∧ r.highWaterMark < p
  | _ => False

instance (r : Rollout) : (op : RolloutOp) → Decidable (Overshoots r op)
  | .rollback p => inferInstanceAs (Decidable (p ≤ 100 ∧ r.highWaterMark < p))
  | .advance _ | .advanceIfHealthy _ _ | .resetExposure | .newCycle _ => isFalse id

theorem advance_grows_of_le {r : Rollout} (h : r.percentage ≤ r.highWaterMark) (p : UInt8)
    (hok : (r.advance p).1 = .ok ()) : r.percentage ≤ (r.advance p).2.percentage := by
  rcases r.advance_cases p with ⟨_, hmark, heq⟩ | ⟨_, e, heq⟩
  · rw [heq]
    exact UInt8.le_trans h hmark
  · rw [heq] at hok
    cases hok

theorem markExact_start {r : Rollout} (hmark : r.highWaterMark = r.percentage)
    (h100 : r.percentage ≤ 100) : MarkExact (Tracked.start r) where
  held_le p hp := by
    rw [Tracked.start, List.mem_singleton] at hp
    rw [hp]
    exact UInt8.le_of_eq hmark.symm
  mark_held := by simp [Tracked.start, hmark]
  percentage_le := UInt8.le_of_eq hmark.symm
  mark_le := by
    show r.highWaterMark ≤ 100
    rw [hmark]
    exact h100
  advance_grows := advance_grows_of_le (UInt8.le_of_eq hmark.symm)

/-- A call that leaves the mark alone keeps it exact when the new percentage is
not above it. -/
theorem markExact_push {t : Tracked} (h : MarkExact t) {r : Rollout}
    (hmark : r.highWaterMark = t.rollout.highWaterMark) (hp : r.percentage ≤ r.highWaterMark) :
    MarkExact { rollout := r, held := r.percentage :: t.held } where
  held_le p hmem := by
    rcases List.mem_cons.mp hmem with rfl | hmem
    · exact hp
    · show p ≤ r.highWaterMark
      rw [hmark]
      exact h.held_le p hmem
  mark_held := List.mem_cons_of_mem _ (by rw [hmark]; exact h.mark_held)
  percentage_le := hp
  mark_le := by
    show r.highWaterMark ≤ 100
    rw [hmark]
    exact h.mark_le
  advance_grows := advance_grows_of_le hp

/-- A call that raises the percentage and the mark together keeps it exact. -/
theorem markExact_raise {t : Tracked} (h : MarkExact t) {r : Rollout}
    (hmark : r.highWaterMark = r.percentage) (hle : t.rollout.highWaterMark ≤ r.percentage)
    (h100 : r.percentage ≤ 100) :
    MarkExact { rollout := r, held := r.percentage :: t.held } where
  held_le p hmem := by
    show p ≤ r.highWaterMark
    rw [hmark]
    rcases List.mem_cons.mp hmem with rfl | hmem
    · exact UInt8.le_refl _
    · exact UInt8.le_trans (h.held_le p hmem) hle
  mark_held := by simp [hmark]
  percentage_le := UInt8.le_of_eq hmark.symm
  mark_le := by
    show r.highWaterMark ≤ 100
    rw [hmark]
    exact h100
  advance_grows := advance_grows_of_le (UInt8.le_of_eq hmark.symm)

theorem markExact_advance {t : Tracked} (h : MarkExact t) (p : UInt8) :
    MarkExact { rollout := (t.rollout.advance p).2,
                held := (t.rollout.advance p).2.percentage :: t.held } := by
  rcases t.rollout.advance_cases p with ⟨h100, hmark, heq⟩ | ⟨_, e, heq⟩
  · rw [heq]
    exact markExact_raise h rfl hmark h100
  · rw [heq]
    exact markExact_push h rfl h.percentage_le

/-- One call keeps the mark exact unless it is an overshooting rollback, and that
one never does. -/
theorem step_markExact {t : Tracked} (h : MarkExact t) (op : RolloutOp) :
    MarkExact (t.step op).2 ↔ ¬ Overshoots t.rollout op := by
  cases op with
  | advance p => exact iff_of_true (markExact_advance h p) (fun hf => hf)
  | advanceIfHealthy target gate =>
    refine iff_of_true ?_ (fun hf => hf)
    have hadv := markExact_advance h target
    rw [← Rollout.advanceIfHealthy_snd _ _ gate] at hadv
    exact hadv
  | resetExposure => exact iff_of_true (markExact_start rfl UInt8.zero_le) (fun hf => hf)
  | newCycle salt => exact iff_of_true (markExact_start rfl UInt8.zero_le) (fun hf => hf)
  | rollback p =>
    by_cases h100 : p > 100
    · have hstay : (t.step (.rollback p)).2 =
          { rollout := t.rollout, held := t.rollout.percentage :: t.held } := by
        simp [Tracked.step, Rollout.step, Rollout.rollback, h100, Tracked.heldAfter]
      rw [hstay]
      refine iff_of_true (markExact_push h rfl h.percentage_le) (fun hf => ?_)
      exact UInt8.not_le.mpr h100 hf.1
    · have hmove : (t.step (.rollback p)).2 =
          { rollout := { t.rollout with percentage := p }, held := p :: t.held } := by
        simp [Tracked.step, Rollout.step, Rollout.rollback, h100, Tracked.heldAfter]
      rw [hmove]
      constructor
      · intro hexact hover
        exact UInt8.not_le.mpr hover.2 hexact.percentage_le
      · intro hover
        have hp : p ≤ t.rollout.highWaterMark := by
          rcases UInt8.le_total p t.rollout.highWaterMark with hle | hge
          · exact hle
          · by_cases hlt : t.rollout.highWaterMark < p
            · exact absurd ⟨UInt8.not_lt.mp h100, hlt⟩ hover
            · exact UInt8.not_lt.mp hlt
        exact markExact_push h (r := { t.rollout with percentage := p }) rfl hp

/-- A rollback from 50 to 80 leaves a mark of 50 under a percentage of 80, and an
advance to 60 then succeeds and lowers the percentage. -/
theorem mark_not_exact_after_rollback_up :
    ¬ ∀ (flag : FlagName) (percentage : UInt8) (salt : String) (r : Rollout)
        (ops : List RolloutOp), Rollout.new flag percentage salt = .ok r →
      MarkExact (final Tracked.step (Tracked.start r) ops) := by
  intro h
  have hexact := h ⟨"checkout"⟩ 50 "c1" ⟨⟨"checkout"⟩, 50, "c1", 50⟩ [.rollback 80] rfl
  exact absurd (hexact.advance_grows 60 rfl) (by decide)

/-- From a new rollout, the mark is exact in every state a sequence of calls
reaches exactly when no call in it is an accepted rollback above the mark. -/
theorem mark_exact_iff {flag : FlagName} {percentage : UInt8} {salt : String} {r : Rollout}
    (hr : Rollout.new flag percentage salt = .ok r) (ops : List RolloutOp) :
    (∀ pre, pre <+: ops → MarkExact (final Tracked.step (Tracked.start r) pre)) ↔
      ∀ e ∈ trace Tracked.step (Tracked.start r) ops, ¬ Overshoots e.before.rollout e.input := by
  obtain ⟨h100, rfl⟩ := Rollout.new_eq_ok_iff.mp hr
  exact forall_prefix_iff (P := MarkExact) (Q := fun t op => ¬ Overshoots t.rollout op)
    (fun _ op ht => step_markExact ht op) (markExact_start rfl h100) ops

theorem mark_exact_of_climb :
    MarkExact (final Tracked.step (Tracked.start ⟨⟨"checkout"⟩, 5, "c1", 5⟩)
      [.advance 50, .rollback 5, .resetExposure, .advance 5]) :=
  (@mark_exact_iff ⟨"checkout"⟩ 5 "c1" _ rfl
    [.advance 50, .rollback 5, .resetExposure, .advance 5]).mpr (by decide) _
      (List.prefix_refl _)

end FlagKit
