import FlagKit.Gate.Controller

/-!
# The controller climbs

The controller is a refinement of the climb.  `GateTracks` relates the gate alone
to a climber: the stage index is the rung and the failure counter the streak.  It
needs nothing of the stage list.  `Tracks` adds the rollout: its percentage is what
the climber exposes and its high water mark is that same percentage.  It needs the
stage percentages to be non-decreasing and at most 100, which is what makes
`Rollout::advance` accept every promotion.
-/

namespace FlagKit

open Machine RolloutController

variable (env : FloatEnv)

/-- The climb of a gate with these stages and this limit; a call that panics is no
step of it. -/
def climbStep (stages : List Stage) (limit : UInt32) :
    Climb → Option Evidence → Option Decision × Climb :=
  tries fun s evidence => evidence.map (Climb.step stages.length limit.toNat s)

abbrev ClimbSound (stages : List Stage) (limit : UInt32) : Climb → Prop :=
  Climb.Sound stages.length limit.toNat

/-- The evidence of a window in the state it arrives in. -/
def evidenceIn (c : RolloutController) (w : Window) : Option Evidence :=
  c.gate.stage.evidence env w

/-! ## The gate -/

structure GateTracks (stages : List Stage) (limit : UInt32) (c : RolloutController) (s : Climb) :
    Prop where
  stages_eq : c.gate.stages = stages
  limit_eq : c.gate.failureLimit = limit
  rung_eq : c.gate.stageIndex = s.rung
  streak_eq : c.gate.consecutiveFailures.toNat = s.streak

variable {stages : List Stage} {limit : UInt32} {c : RolloutController} {s : Climb}

@[simp] theorem climbStep_none : climbStep stages limit s none = (none, s) := rfl

@[simp] theorem climbStep_some (k : Evidence) :
    climbStep stages limit s (some k) =
      (some (Climb.step stages.length limit.toNat s k).1,
        (Climb.step stages.length limit.toNat s k).2) := rfl

theorem climbStep_sound (h : ClimbSound stages limit s) (evidence : Option Evidence) :
    ClimbSound stages limit (climbStep stages limit s evidence).2 := by
  cases evidence with
  | none => exact h
  | some k => exact Climb.step_sound h k

theorem final_climbStep_replicate (k : Evidence) (n : Nat) :
    final (climbStep stages limit) s (List.replicate n (some k)) =
      final (Climb.step stages.length limit.toNat) s (List.replicate n k) := by
  induction n generalizing s with
  | zero => rfl
  | succ n ih => exact ih

theorem climbStep_unexposed {evidence : Option Evidence}
    (h : (climbStep stages limit s evidence).2.exposed = false) :
    s.exposed = false ∨ (climbStep stages limit s evidence).1 = some .rollback := by
  cases evidence with
  | none => exact Or.inl h
  | some k => exact (Climb.step_unexposed h).imp_right (congrArg some)

/-- Below the limit the increment of the counter does not wrap. -/
theorem toNat_add_one_of_lt {n limit : UInt32} (h : n.toNat < limit.toNat) :
    (n + 1).toNat = n.toNat + 1 := by
  have hlimit := limit.toNat_lt
  exact toNat_add_one (by omega)

theorem limit_le_iff (h : GateTracks stages limit c s) (hs : ClimbSound stages limit s) :
    c.gate.failureLimit ≤ c.gate.consecutiveFailures + 1 ↔ limit.toNat ≤ s.streak + 1 := by
  have hlt := hs.streak_lt
  rw [← h.streak_eq] at hlt
  rw [h.limit_eq, UInt32.le_iff_toNat_le, toNat_add_one_of_lt hlt, h.streak_eq]

theorem up_lt_iff (h : GateTracks stages limit c s) :
    c.gate.stageIndex + 1 < c.gate.stages.length ↔ s.rung + 1 < stages.length := by
  rw [h.rung_eq, h.stages_eq]

theorem feed_gateTracks (h : GateTracks stages limit c s) (hs : ClimbSound stages limit s)
    (w : Window) :
    decided (c.feed env w).1 = (climbStep stages limit s (evidenceIn env c w)).1 ∧
      GateTracks stages limit (c.feed env w).2
        (climbStep stages limit s (evidenceIn env c w)).2 := by
  have hlt := hs.streak_lt
  cases hk : evidenceIn env c w with
  | none =>
    rw [feed_panics env hk]
    exact ⟨rfl, h⟩
  | some k =>
    rw [climbStep_some]
    cases k with
    | insufficient =>
      obtain ⟨hdec, hnext⟩ := feed_insufficient env hk
      rw [hnext]
      exact ⟨hdec, h⟩
    | breach =>
      by_cases hl : limit.toNat ≤ s.streak + 1
      · obtain ⟨hdec, hnext⟩ := feed_breach_rollback env hk ((limit_le_iff h hs).mpr hl)
        simp only [Climb.step, hl, if_true]
        rw [hnext]
        exact ⟨hdec, h.stages_eq, h.limit_eq, rfl, rfl⟩
      · obtain ⟨hdec, hnext⟩ := feed_breach_hold env hk (mt (limit_le_iff h hs).mp hl)
        simp only [Climb.step, hl, if_false]
        rw [hnext]
        refine ⟨hdec, h.stages_eq, h.limit_eq, h.rung_eq, ?_⟩
        rw [← h.streak_eq] at hlt ⊢
        exact toNat_add_one_of_lt hlt
    | healthy =>
      simp only [Climb.step, Climb.up]
      by_cases hup : s.rung + 1 < stages.length
      · obtain ⟨hdec, hnext⟩ := feed_healthy_up env hk ((up_lt_iff h).mpr hup)
        rw [hnext, if_pos hup]
        exact ⟨hdec, h.stages_eq, h.limit_eq, congrArg (· + 1) h.rung_eq, rfl⟩
      · have htop := Nat.not_lt.mp (mt (up_lt_iff h).mp hup)
        obtain ⟨hdec, hnext⟩ := feed_healthy_top env hk htop
        rw [hnext, if_neg hup]
        exact ⟨hdec, h.stages_eq, h.limit_eq, h.rung_eq, rfl⟩

/-! ## The rollout -/

/-- What a gate needs of its stages so that no promotion is refused. -/
structure Ordered (stages : List Stage) : Prop where
  sorted : stages.Pairwise (fun a b => a.percentage ≤ b.percentage)
  le_hundred : ∀ s ∈ stages, s.percentage ≤ 100

theorem stagePercentage_eq {i : Nat} (h : i < stages.length) :
    stagePercentage stages i = stages[i].percentage := by
  simp [stagePercentage, List.getElem?_eq_getElem h]

theorem Ordered.percentage_mono (ho : Ordered stages) {i j : Nat} (hij : i ≤ j)
    (hj : j < stages.length) : stagePercentage stages i ≤ stagePercentage stages j := by
  rw [stagePercentage_eq (Nat.lt_of_le_of_lt hij hj), stagePercentage_eq hj]
  rcases Nat.lt_or_eq_of_le hij with hlt | rfl
  · exact List.pairwise_iff_getElem.mp ho.sorted i j _ hj hlt
  · exact UInt8.le_refl _

theorem stagePercentage_le (hle : ∀ s ∈ stages, s.percentage ≤ 100) (i : Nat) :
    stagePercentage stages i ≤ 100 := by
  by_cases hi : i < stages.length
  · rw [stagePercentage_eq hi]
    exact hle _ (List.getElem_mem hi)
  · simp [stagePercentage, List.getElem?_eq_none (Nat.not_lt.mp hi)]

theorem Ordered.percentage_le (ho : Ordered stages) (i : Nat) : stagePercentage stages i ≤ 100 :=
  stagePercentage_le ho.le_hundred i

/-- The percentage a climber exposes. -/
def exposed (stages : List Stage) (s : Climb) : UInt8 := s.exposure 0 (stagePercentage stages)

structure Tracks (stages : List Stage) (limit : UInt32) (c : RolloutController) (s : Climb) :
    Prop extends GateTracks stages limit c s where
  percentage_eq : c.rollout.percentage = exposed stages s
  mark_eq : c.rollout.highWaterMark = c.rollout.percentage

/-- The promotion to rung `i + 1` is never refused. -/
theorem advance_of_tracks (ho : Ordered stages) (h : Tracks stages limit c s)
    (hup : s.rung + 1 < stages.length) :
    c.rollout.advance (stagePercentage stages (s.rung + 1)) =
      (.ok (), { c.rollout with
        percentage := stagePercentage stages (s.rung + 1)
        highWaterMark := stagePercentage stages (s.rung + 1) }) := by
  apply Rollout.advance_eq_ok (ho.percentage_le _)
  rw [h.mark_eq, h.percentage_eq, exposed, Climb.exposure]
  by_cases hs : s.exposed = true
  · rw [if_pos hs]
    exact ho.percentage_mono (Nat.le_add_right _ 1) hup
  · rw [if_neg hs]
    exact UInt8.zero_le

theorem feed_tracks (ho : Ordered stages) (h : Tracks stages limit c s)
    (hs : ClimbSound stages limit s) (w : Window) :
    Tracks stages limit (c.feed env w).2 (climbStep stages limit s (evidenceIn env c w)).2 := by
  have hgate := h.toGateTracks
  suffices hroll :
      (c.feed env w).2.rollout.percentage =
          exposed stages (climbStep stages limit s (evidenceIn env c w)).2 ∧
        (c.feed env w).2.rollout.highWaterMark = (c.feed env w).2.rollout.percentage from
    ⟨(feed_gateTracks env hgate hs w).2, hroll.1, hroll.2⟩
  cases hk : evidenceIn env c w with
  | none =>
    rw [feed_panics env hk]
    exact ⟨h.percentage_eq, h.mark_eq⟩
  | some k =>
    rw [climbStep_some]
    cases k with
    | insufficient =>
      rw [(feed_insufficient env hk).2]
      exact ⟨h.percentage_eq, h.mark_eq⟩
    | breach =>
      by_cases hl : limit.toNat ≤ s.streak + 1
      · rw [(feed_breach_rollback env hk ((limit_le_iff hgate hs).mpr hl)).2]
        simp only [Climb.step, hl, if_true]
        exact ⟨rfl, rfl⟩
      · rw [(feed_breach_hold env hk (mt (limit_le_iff hgate hs).mp hl)).2]
        simp only [Climb.step, hl, if_false]
        exact ⟨h.percentage_eq, h.mark_eq⟩
    | healthy =>
      simp only [Climb.step, Climb.up]
      by_cases hup : s.rung + 1 < stages.length
      · have hnext := (feed_healthy_up env hk ((up_lt_iff hgate).mpr hup)).2
        rw [h.rung_eq, h.stages_eq, advance_of_tracks ho h hup] at hnext
        rw [hnext, if_pos hup]
        exact ⟨rfl, rfl⟩
      · have htop := Nat.not_lt.mp (mt (up_lt_iff hgate).mp hup)
        rw [(feed_healthy_top env hk htop).2, if_neg hup]
        exact ⟨h.percentage_eq, h.mark_eq⟩

/-! ## Fresh controllers -/

theorem max_one_toNat_pos (limit : UInt32) : 0 < (max limit 1).toNat := by
  have hle : (1 : UInt32) ≤ max limit 1 := by
    show 1 ≤ if limit ≤ 1 then 1 else limit
    by_cases h : limit ≤ 1
    · rw [if_pos h]
      exact UInt32.le_refl _
    · rw [if_neg h]
      exact UInt32.le_of_lt (UInt32.not_le.mp h)
  exact UInt32.le_iff_toNat_le.mp hle

theorem max_one_eq {limit : UInt32} (h : 1 ≤ limit) : max limit 1 = limit := by
  show (if limit ≤ 1 then 1 else limit) = limit
  by_cases hle : limit ≤ 1
  · rw [if_pos hle]
    exact UInt32.le_antisymm h hle
  · rw [if_neg hle]

/-- A fresh gate starts the climb, whatever rollout it is given. -/
theorem start_gateTracks (hne : stages ≠ []) (limit : UInt32) (r : Rollout) :
    GateTracks stages (max limit 1) (RolloutController.new r ⟨stages, hne, max limit 1, 0, 0⟩)
        Climb.start ∧
      ClimbSound stages (max limit 1) Climb.start :=
  ⟨⟨rfl, rfl, rfl, rfl⟩,
    Climb.start_sound (List.length_pos_iff.mpr hne) (max_one_toNat_pos limit)⟩

/-! ## Runs -/

/-- A sound climber the controller tracks. -/
def Climbing (stages : List Stage) (limit : UInt32) (c : RolloutController) (s : Climb) : Prop :=
  Tracks stages limit c s ∧ ClimbSound stages limit s

theorem feed_climbing (ho : Ordered stages) (h : Climbing stages limit c s) (w : Window) :
    Climbing stages limit (c.feed env w).2 (climbStep stages limit s (evidenceIn env c w)).2 :=
  ⟨feed_tracks env ho h.1 h.2 w, climbStep_sound h.2 _⟩

theorem final_climbing (ho : Ordered stages) (h : Climbing stages limit c s) (ws : List Window) :
    Climbing stages limit (final (feed env) c ws)
      (final (climbStep stages limit) s (labels (feed env) (evidenceIn env) c ws)) :=
  simulated_final (R := Climbing stages limit) (fun _ _ w h => feed_climbing env ho h w) h ws

end FlagKit
