import FlagKit.Gate.Health
import FlagKit.Machine.Run

/-!
# Climbing a ladder on evidence

What a gated rollout is for, without stages, percentages or clocks.  A climber
stands on one of `height` rungs.  Healthy evidence moves it up one rung, except
from the top.  A breach adds to a streak, and the breach that brings the streak to
`limit` drops the climber to the bottom rung with nothing exposed; the next climb
is to rung one.  Insufficient evidence is ignored.

Two facts are proved about every run.  The streak and the rung are counts over the
history of the run (`step_counted`).  A climber shown worse evidence at every step
never stands above one shown better evidence (`step_worse`).  The second needs
care: the worse climber falls first and then has the shorter streak.  What makes
up for it is that it has nothing left to lose.
-/

namespace FlagKit

/-- What a window says about the stage it is judged against. -/
inductive Evidence where
  | insufficient
  | breach
  | healthy
  deriving DecidableEq

/-- The rung, whether that rung is exposed, and the breaches since the last
promotion or fall. -/
structure Climb where
  rung : Nat
  exposed : Bool
  streak : Nat
  deriving DecidableEq

namespace Climb

def start : Climb := { rung := 0, exposed := true, streak := 0 }

def fallen : Climb := { rung := 0, exposed := false, streak := 0 }

def up (height : Nat) (s : Climb) : Climb :=
  if s.rung + 1 < height then { rung := s.rung + 1, exposed := true, streak := 0 }
  else { s with streak := 0 }

def step (height limit : Nat) (s : Climb) : Evidence → Decision × Climb
  | .insufficient => (.hold, s)
  | .breach =>
    if limit ≤ s.streak + 1 then (.rollback, fallen)
    else (.hold, { s with streak := s.streak + 1 })
  | .healthy => (.promote, s.up height)

/-- The states a run can reach. -/
structure Sound (height limit : Nat) (s : Climb) : Prop where
  rung_lt : s.rung < height
  streak_lt : s.streak < limit
  unexposed : s.exposed = false → s.rung = 0

variable {height limit : Nat}

theorem start_sound (hh : 0 < height) (hl : 0 < limit) : Sound height limit start :=
  ⟨hh, hl, fun h => by cases h⟩

theorem up_sound {s : Climb} (h : Sound height limit s) : Sound height limit (s.up height) := by
  have := h.rung_lt
  have := h.streak_lt
  unfold up
  by_cases hr : s.rung + 1 < height
  · rw [if_pos hr]
    exact ⟨hr, show 0 < limit by omega, fun hf => by cases hf⟩
  · rw [if_neg hr]
    exact ⟨h.rung_lt, show 0 < limit by omega, h.unexposed⟩

theorem step_sound {s : Climb} (h : Sound height limit s) (k : Evidence) :
    Sound height limit (step height limit s k).2 := by
  have := h.rung_lt
  have := h.streak_lt
  cases k with
  | insufficient => exact h
  | healthy => exact up_sound h
  | breach =>
    unfold step
    by_cases hs : limit ≤ s.streak + 1
    · simp only [hs, if_true]
      exact ⟨show 0 < height by omega, show 0 < limit by omega, fun _ => rfl⟩
    · simp only [hs, if_false]
      exact ⟨h.rung_lt, show s.streak + 1 < limit by omega, h.unexposed⟩

/-! ## Counting over the history -/

/-- The breaches after the last promotion or fall. -/
def breachesSince (h : List (Evidence × Decision)) : Nat :=
  (h.reverse.takeWhile (fun e => e.2 = .hold)).countP (fun e => e.1 = .breach)

/-- The promotions after the last fall. -/
def promotesSince (h : List (Evidence × Decision)) : Nat :=
  (h.reverse.takeWhile (fun e => e.2 ≠ .rollback)).countP (fun e => e.2 = .promote)

@[simp] theorem breachesSince_hold (h : List (Evidence × Decision)) (k : Evidence) :
    breachesSince (h ++ [(k, .hold)]) = breachesSince h + if k = .breach then 1 else 0 := by
  simp [breachesSince, List.countP_cons]

@[simp] theorem breachesSince_promote (h : List (Evidence × Decision)) (k : Evidence) :
    breachesSince (h ++ [(k, .promote)]) = 0 := by
  simp [breachesSince]

@[simp] theorem breachesSince_rollback (h : List (Evidence × Decision)) (k : Evidence) :
    breachesSince (h ++ [(k, .rollback)]) = 0 := by
  simp [breachesSince]

@[simp] theorem promotesSince_hold (h : List (Evidence × Decision)) (k : Evidence) :
    promotesSince (h ++ [(k, .hold)]) = promotesSince h := by
  simp [promotesSince]

@[simp] theorem promotesSince_promote (h : List (Evidence × Decision)) (k : Evidence) :
    promotesSince (h ++ [(k, .promote)]) = promotesSince h + 1 := by
  simp [promotesSince]

@[simp] theorem promotesSince_rollback (h : List (Evidence × Decision)) (k : Evidence) :
    promotesSince (h ++ [(k, .rollback)]) = 0 := by
  simp [promotesSince]

/-- The state counts what the history says. -/
structure Counted (height limit : Nat) (h : List (Evidence × Decision)) (s : Climb) : Prop where
  sound : Sound height limit s
  streak_eq : s.streak = breachesSince h
  rung_eq : s.rung = min (promotesSince h) (height - 1)

theorem start_counted (hh : 0 < height) (hl : 0 < limit) : Counted height limit [] start :=
  ⟨start_sound hh hl, rfl, by simp [start, promotesSince]⟩

theorem step_counted {h : List (Evidence × Decision)} {s : Climb} (hc : Counted height limit h s)
    (k : Evidence) :
    Counted height limit (h ++ [(k, (step height limit s k).1)]) (step height limit s k).2 := by
  have hsound := step_sound hc.sound k
  have hrung := hc.rung_eq
  have hlt := hc.sound.rung_lt
  have hstreak := hc.streak_eq
  cases k with
  | insufficient =>
    refine ⟨hsound, ?_, ?_⟩
    · simp [step, hstreak]
    · simpa [step] using hrung
  | healthy =>
    refine ⟨hsound, ?_, ?_⟩
    · by_cases hr : s.rung + 1 < height <;> simp [step, up, hr]
    · by_cases hr : s.rung + 1 < height
      · simp only [step, up, hr, if_true, promotesSince_promote]
        omega
      · simp only [step, up, hr, if_false, promotesSince_promote]
        omega
  | breach =>
    by_cases hs : limit ≤ s.streak + 1
    · refine ⟨hsound, ?_, ?_⟩
      · simp [step, hs, fallen]
      · simp [step, hs, fallen]
    · refine ⟨hsound, ?_, ?_⟩
      · simp only [step, hs, if_false, breachesSince_hold, if_true]
        omega
      · simpa [step, hs] using hrung

/-- The decision on each kind of evidence, read off the history alone. -/
theorem counted_decision {h : List (Evidence × Decision)} {s : Climb}
    (hc : Counted height limit h s) (k : Evidence) :
    ((step height limit s k).1 = .promote ↔ k = .healthy) ∧
      ((step height limit s k).1 = .rollback ↔
        k = .breach ∧ breachesSince h + 1 = limit) ∧
      ((step height limit s k).1 = .hold ↔
        k ≠ .healthy ∧ ¬ (k = .breach ∧ breachesSince h + 1 = limit)) := by
  have hstreak := hc.streak_eq
  have hlt := hc.sound.streak_lt
  cases k with
  | insufficient => simp [step]
  | healthy => simp [step]
  | breach =>
    by_cases hs : limit ≤ s.streak + 1
    · have : breachesSince h + 1 = limit := by omega
      simp [step, hs, this]
    · have : ¬ breachesSince h + 1 = limit := by omega
      simp [step, hs, this]

/-- Only a fall ends exposure. -/
theorem step_unexposed {s : Climb} {k : Evidence}
    (h : (step height limit s k).2.exposed = false) :
    s.exposed = false ∨ (step height limit s k).1 = .rollback := by
  cases k with
  | insufficient => exact Or.inl h
  | healthy =>
    by_cases hr : s.rung + 1 < height
    · simp [step, up, hr] at h
    · simp only [step, up, hr, if_false] at h
      exact Or.inl h
  | breach =>
    by_cases hs : limit ≤ s.streak + 1
    · exact Or.inr (by simp [step, hs])
    · simp only [step, hs, if_false] at h
      exact Or.inl h

/-! ## Healthy evidence alone -/

theorem final_replicate_healthy {s : Climb} (hs : s.rung < height) (n : Nat) :
    (Machine.final (step height limit) s (List.replicate n .healthy)).rung =
      min (s.rung + n) (height - 1) := by
  induction n generalizing s with
  | zero =>
    show s.rung = _
    omega
  | succ n ih =>
    rw [List.replicate_succ, Machine.final_cons]
    show (Machine.final (step height limit) (s.up height) _).rung = _
    by_cases hr : s.rung + 1 < height
    · rw [up, if_pos hr, ih hr]
      show min (s.rung + 1 + n) _ = _
      omega
    · rw [up, if_neg hr, ih (s := { s with streak := 0 }) hs]
      show min (s.rung + n) _ = _
      omega

theorem final_replicate_top {s : Climb} (hs : height ≤ s.rung + 1) (n : Nat) :
    (Machine.final (step height limit) s (List.replicate n .healthy)).exposed = s.exposed := by
  induction n generalizing s with
  | zero => rfl
  | succ n ih =>
    rw [List.replicate_succ, Machine.final_cons]
    show (Machine.final (step height limit) (s.up height) _).exposed = _
    rw [up, if_neg (Nat.not_lt.mpr hs), ih (s := { s with streak := 0 }) hs]

/-! ## Worse evidence -/

/-- `k` is at least as bad as `k'`: the same, or a breach for a healthy window. -/
def AsBad (k k' : Evidence) : Prop := k = k' ∨ (k = .breach ∧ k' = .healthy)

/-- `s` is behind `t`: it has fallen and exposes nothing, or it stands no higher
with a streak no shorter. -/
def Behind (s t : Climb) : Prop :=
  (s.exposed = false ∧ s.rung = 0) ∨
    (t.streak ≤ s.streak ∧ s.rung ≤ t.rung ∧ (s.exposed = true → t.exposed = true))

theorem behind_fallen (t : Climb) : Behind fallen t := Or.inl ⟨rfl, rfl⟩

theorem behind_up {s t : Climb} (h : Behind s t) (ht : Sound height limit t) :
    Behind (s.up height) (t.up height) := by
  have htr := ht.rung_lt
  unfold up
  by_cases hs : s.rung + 1 < height
  · -- `s` gains a rung; `t` gains one too or is at the top, where it is exposed
    right
    rw [if_pos hs]
    by_cases htu : t.rung + 1 < height
    · rw [if_pos htu]
      refine ⟨Nat.le_refl 0, ?_, fun _ => rfl⟩
      show s.rung + 1 ≤ t.rung + 1
      rcases h with ⟨_, h0⟩ | ⟨_, hle, _⟩ <;> omega
    · rw [if_neg htu]
      refine ⟨Nat.le_refl 0, show s.rung + 1 ≤ t.rung by omega, fun _ => ?_⟩
      show t.exposed = true
      by_contra hexp
      have := ht.unexposed (by simpa using hexp)
      omega
  · rw [if_neg hs]
    rcases h with ⟨hexp, h0⟩ | ⟨_, hle, hexp⟩
    · exact Or.inl ⟨hexp, h0⟩
    · right
      have htu : ¬ t.rung + 1 < height := by omega
      rw [if_neg htu]
      exact ⟨Nat.le_refl 0, hle, hexp⟩

/-- Falling behind on a breach: `s` adds to its streak or falls. -/
theorem behind_breach_up {s t : Climb} (h : Behind s t) :
    Behind (step height limit s .breach).2 (t.up height) := by
  by_cases hs : limit ≤ s.streak + 1
  · simp only [step, hs, if_true]
    exact behind_fallen _
  · simp only [step, hs, if_false]
    rcases h with hfell | ⟨_, hle, hexp⟩
    · exact Or.inl hfell
    · right
      unfold up
      by_cases htu : t.rung + 1 < height
      · rw [if_pos htu]
        exact ⟨Nat.zero_le _, show s.rung ≤ t.rung + 1 by omega, fun _ => rfl⟩
      · rw [if_neg htu]
        exact ⟨Nat.zero_le _, hle, hexp⟩

theorem behind_breach_breach {limit' : Nat} (hlimit : limit ≤ limit') {s t : Climb}
    (h : Behind s t) :
    Behind (step height limit s .breach).2 (step height limit' t .breach).2 := by
  by_cases hs : limit ≤ s.streak + 1
  · simp only [step, hs, if_true]
    exact behind_fallen _
  · simp only [step, hs, if_false]
    rcases h with hfell | ⟨hstreak, hle, hexp⟩
    · exact Or.inl hfell
    · -- the streak of `t` is no longer than that of `s`, so `t` does not fall either
      have ht : ¬ limit' ≤ t.streak + 1 := by omega
      simp only [ht, if_false]
      exact Or.inr ⟨show t.streak + 1 ≤ s.streak + 1 by omega, hle, hexp⟩

/-- Being behind is kept by evidence at least as bad under a limit no larger. -/
theorem step_behind {limit' : Nat} (hlimit : limit ≤ limit') {s t : Climb} (h : Behind s t)
    (ht : Sound height limit' t) {k k' : Evidence} (hk : AsBad k k') :
    Behind (step height limit s k).2 (step height limit' t k').2 := by
  rcases hk with rfl | ⟨rfl, rfl⟩
  · cases k with
    | insufficient => exact h
    | breach => exact behind_breach_breach hlimit h
    | healthy => exact behind_up h ht
  · exact behind_breach_up h

theorem step_worse {s t : Climb} (h : Behind s t) (ht : Sound height limit t) {k k' : Evidence}
    (hk : AsBad k k') : Behind (step height limit s k).2 (step height limit t k').2 :=
  step_behind (Nat.le_refl limit) h ht hk

/-- The climber behind has fallen before the one ahead does, or falls with it. -/
theorem falls_of_behind {limit' : Nat} (hlimit : limit ≤ limit') {s t : Climb} (h : Behind s t)
    {k : Evidence} (hfall : (step height limit' t k).1 = .rollback) :
    s.exposed = false ∨ (step height limit s k).1 = .rollback := by
  cases k with
  | insufficient => cases hfall
  | healthy => cases hfall
  | breach =>
    rcases h with ⟨hexp, _⟩ | ⟨hstreak, _, _⟩
    · exact Or.inl hexp
    · have ht : limit' ≤ t.streak + 1 := by
        by_contra hlow
        simp [step, hlow] at hfall
      have hs : limit ≤ s.streak + 1 := by omega
      exact Or.inr (by simp [step, hs])

/-- What a state exposes when rung `i` exposes `p i`. -/
def exposure {α : Type} (nothing : α) (p : Nat → α) (s : Climb) : α :=
  if s.exposed then p s.rung else nothing

theorem exposure_le_of_behind {α : Type} [LE α] {nothing : α} (hleast : ∀ a : α, nothing ≤ a)
    {p : Nat → α} {s t : Climb} (h : Behind s t) (ht : t.rung < height)
    (hmono : ∀ i j, i ≤ j → j < height → p i ≤ p j) :
    exposure nothing p s ≤ exposure nothing p t := by
  unfold exposure
  by_cases hs : s.exposed = true
  · rcases h with ⟨hexp, _⟩ | ⟨_, hle, hexp⟩
    · simp [hexp] at hs
    · rw [if_pos hs, if_pos (hexp hs)]
      exact hmono _ _ hle ht
  · rw [if_neg hs]
    exact hleast _

end Climb
end FlagKit
