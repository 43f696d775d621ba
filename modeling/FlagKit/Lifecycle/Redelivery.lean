import FlagKit.Lifecycle.Persistence

/-!
# Promotions in any order

Promotions of one rollout may be asked for in several places, arrive in any order and
arrive twice.  Which of them are accepted depends on the order.  Where they leave the
rollout does not: it stands at the highest target it would have taken at the start, or it
has not moved (`Settled`).  The gate of `advance_if_healthy` decides the answer and not
the move, so it plays no part in this.

A rollback keeps the mark, and the mark is a target `advance` takes.  So a promotion from
before a rollback that arrives again after it is refused, except the one to the highest
target: that one undoes the rollback (`promotions_delivered`).
-/

namespace FlagKit

open Machine

/-- A call that promotes. -/
inductive Promotion where
  | advance (percentage : UInt8)
  | advanceIfHealthy (target : UInt8) (gate : UInt8 → Bool)

namespace Promotion

def op : Promotion → RolloutOp
  | .advance percentage => .advance percentage
  | .advanceIfHealthy target gate => .advanceIfHealthy target gate

def target : Promotion → UInt8
  | .advance percentage => percentage
  | .advanceIfHealthy target _ => target

end Promotion

namespace Rollout

def promote (r : Rollout) (c : Promotion) : Bool × Rollout := r.step c.op

theorem promote_snd (r : Rollout) (c : Promotion) : (r.promote c).2 = (r.advance c.target).2 := by
  cases c with
  | advance percentage => rfl
  | advanceIfHealthy target gate => exact advanceIfHealthy_snd r target gate

/-- An advance to the target is accepted. -/
def Takes (r : Rollout) (p : UInt8) : Prop := r.highWaterMark ≤ p ∧ p ≤ 100

def movedTo (r : Rollout) (p : UInt8) : Rollout := { r with percentage := p, highWaterMark := p }

theorem advance_snd_cases (r : Rollout) (p : UInt8) :
    (r.Takes p ∧ (r.advance p).2 = r.movedTo p) ∨ (¬ r.Takes p ∧ (r.advance p).2 = r) := by
  rcases r.advance_cases p with ⟨h100, hmark, heq⟩ | ⟨hno, e, heq⟩
  · exact Or.inl ⟨⟨hmark, h100⟩, by rw [heq]; rfl⟩
  · refine Or.inr ⟨fun htakes => ?_, by rw [heq]⟩
    rcases hno with hbig | hlow
    · exact UInt8.not_le.mpr hbig htakes.2
    · exact UInt8.not_le.mpr hlow htakes.1

/-! ## Where promotions lead -/

/-- Where promotions to these targets leave a rollout. -/
inductive Settled (r : Rollout) (targets : List UInt8) : Rollout → Prop where
  | stayed (hnone : ∀ p ∈ targets, ¬ r.Takes p) : Settled r targets r
  | moved (p : UInt8) (hp : p ∈ targets) (htakes : r.Takes p)
      (htop : ∀ q ∈ targets, r.Takes q → q ≤ p) : Settled r targets (r.movedTo p)

variable {r s s' : Rollout} {targets targets' : List UInt8}

/-- It depends on what the targets are, not on their order or number. -/
theorem Settled.eq_of_same (h : Settled r targets s) (h' : Settled r targets' s')
    (hsame : ∀ p, p ∈ targets ↔ p ∈ targets') : s = s' := by
  cases h with
  | stayed hnone =>
    cases h' with
    | stayed => rfl
    | moved q hq htakes _ => exact absurd htakes (hnone q ((hsame q).mpr hq))
  | moved p hp htakes htop =>
    cases h' with
    | stayed hnone => exact absurd htakes (hnone p ((hsame p).mp hp))
    | moved q hq htakes' htop' =>
      have hle := htop' p ((hsame p).mp hp) htakes
      have hge := htop q ((hsame q).mpr hq) htakes'
      rw [UInt8.le_antisymm hle hge]

/-- One more promotion. -/
theorem Settled.advance (h : Settled r targets s) (p : UInt8) :
    Settled r (targets ++ [p]) (s.advance p).2 := by
  cases h with
  | stayed hnone =>
    rcases r.advance_snd_cases p with ⟨htakes, heq⟩ | ⟨hno, heq⟩
    · rw [heq]
      refine .moved p (by simp) htakes fun q hq hq' => ?_
      rcases List.mem_append.mp hq with hold | hnew
      · exact absurd hq' (hnone q hold)
      · rw [List.mem_singleton.mp hnew]
        exact UInt8.le_refl p
    · rw [heq]
      refine .stayed fun q hq => ?_
      rcases List.mem_append.mp hq with hold | hnew
      · exact hnone q hold
      · rw [List.mem_singleton.mp hnew]
        exact hno
  | moved top hp htakes htop =>
    rcases (r.movedTo top).advance_snd_cases p with ⟨htakes', heq⟩ | ⟨hno, heq⟩
    · -- the new target is at or above the highest so far
      have hle : top ≤ p := htakes'.1
      rw [heq]
      refine .moved p (by simp) ⟨UInt8.le_trans htakes.1 hle, htakes'.2⟩ fun q hq hq' => ?_
      rcases List.mem_append.mp hq with hold | hnew
      · exact UInt8.le_trans (htop q hold hq') hle
      · rw [List.mem_singleton.mp hnew]
        exact UInt8.le_refl p
    · rw [heq]
      refine .moved top (List.mem_append_left _ hp) htakes fun q hq hq' => ?_
      rcases List.mem_append.mp hq with hold | hnew
      · exact htop q hold hq'
      · rw [List.mem_singleton.mp hnew] at hq' ⊢
        rcases UInt8.le_total p top with hle | hge
        · exact hle
        · exact absurd ⟨hge, hq'.2⟩ hno

theorem settled_final (r : Rollout) (cs : List Promotion) :
    Settled r (cs.map Promotion.target) (final promote r cs) := by
  induction cs using List.reverseRecOn with
  | nil => exact .stayed fun p hp => by cases hp
  | append_singleton cs c ih =>
    rw [List.map_append, List.map_singleton, final_concat, promote_snd]
    exact ih.advance c.target

/-! ## Arriving again -/

/-- No target that was asked for lies above the mark. -/
theorem Settled.le_mark (h : Settled r targets s) {p : UInt8} (hp : p ∈ targets)
    (h100 : p ≤ 100) : p ≤ s.highWaterMark := by
  have hbelow : ¬ r.Takes p → p ≤ r.highWaterMark := by
    intro hno
    rcases UInt8.le_total p r.highWaterMark with hle | hge
    · exact hle
    · exact absurd ⟨hge, h100⟩ hno
  cases h with
  | stayed hnone => exact hbelow (hnone p hp)
  | moved top _ htakes htop =>
    by_cases htakes' : r.Takes p
    · exact htop p hp htakes'
    · exact UInt8.le_trans (hbelow htakes') htakes.1

theorem Settled.inRange (h : Settled r targets s) (hr : InRange r) : InRange s := by
  cases h with
  | stayed => exact hr
  | moved p _ htakes _ => exact ⟨htakes.2, htakes.2⟩

/-- Late repetitions after a rollback do nothing, or undo it. -/
theorem Settled.repeated (h : Settled r targets s) (hr : InRange r) {q : UInt8} (hq : q ≤ 100)
    {cs : List Promotion} (hcs : ∀ c ∈ cs, c.target ∈ targets) :
    final promote (s.rollback q).2 cs =
      if s.highWaterMark ∈ cs.map Promotion.target then s.movedTo s.highWaterMark
      else (s.rollback q).2 := by
  have hrolled : (s.rollback q).2 = { s with percentage := q } := by
    rw [rollback, if_neg (UInt8.not_lt.mpr hq)]
  have hagain := settled_final (s.rollback q).2 cs
  rw [hrolled] at hagain ⊢
  generalize final promote { s with percentage := q } cs = t at hagain ⊢
  cases hagain with
  | stayed hnone =>
    rw [if_neg fun hmem => hnone _ hmem ⟨UInt8.le_refl _, (h.inRange hr).mark_le⟩]
  | moved p hp htakes _ =>
    obtain ⟨c, hc, hcp⟩ := List.mem_map.mp hp
    have hle : p ≤ s.highWaterMark := h.le_mark (by rw [← hcp]; exact hcs c hc) htakes.2
    have hmark : p = s.highWaterMark := UInt8.le_antisymm hle htakes.1
    rw [← hmark, if_pos hp]
    rfl

/-- What can be said of promotions however they are delivered. -/
structure Delivered (r : Rollout) (cs : List Promotion) : Prop where
  settled : Settled r (cs.map Promotion.target) (final promote r cs)
  any_order : ∀ cs', (∀ p, p ∈ cs.map Promotion.target ↔ p ∈ cs'.map Promotion.target) →
    final promote r cs' = final promote r cs
  repeated : ∀ q ≤ 100, ∀ cs', (∀ c ∈ cs', c.target ∈ cs.map Promotion.target) →
    final promote ((final promote r cs).rollback q).2 cs' =
      if (final promote r cs).highWaterMark ∈ cs'.map Promotion.target then
        (final promote r cs).movedTo (final promote r cs).highWaterMark
      else ((final promote r cs).rollback q).2

/-- For every rollout that can be reached and any promotions. -/
theorem promotions_delivered {flag : FlagName} {percentage : UInt8} {salt : String}
    (hnew : new flag percentage salt = .ok r) (ops : List RolloutOp) (cs : List Promotion) :
    Delivered (final step r ops) cs := by
  have hrange := inRange_final hnew ops
  have hsettled := settled_final (final step r ops) cs
  refine ⟨hsettled, fun cs' hsame => ?_, fun q hq cs' hcs' => hsettled.repeated hrange hq hcs'⟩
  exact (settled_final _ cs').eq_of_same hsettled fun p => (hsame p).symm

/-- The promotion to 50 arrives again after the rollback to 5. -/
theorem promotions_delivered_twice :
    final promote ((final promote ⟨⟨"checkout"⟩, 5, "c1", 5⟩
        [.advance 25, .advanceIfHealthy 50 fun _ => true]).rollback 5).2
      [.advance 25, .advance 50] = ⟨⟨"checkout"⟩, 50, "c1", 50⟩ :=
  (@promotions_delivered ⟨⟨"checkout"⟩, 5, "c1", 5⟩ ⟨"checkout"⟩ 5 "c1" rfl []
    [.advance 25, .advanceIfHealthy 50 fun _ => true]).repeated 5 (by decide)
      [.advance 25, .advance 50] (by simp [Promotion.target])

end Rollout
end FlagKit
