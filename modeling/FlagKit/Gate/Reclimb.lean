import FlagKit.Gate.Promotion

/-!
# The climb after a rollback

A rollback restarts the gate at its first stage and exposes nothing.  From there
the next promotion moves the gate, and with it the exposure, to the second stage.
The first stage is never exposed again: a run that rolled back skips it
(`stages_in_order_iff`), and with a single stage there is nothing to be promoted to
and the exposure stays at zero (`reaches_last_stage_iff`).
-/

namespace FlagKit

open Machine RolloutController

variable (env : FloatEnv)

variable {stages : List Stage} {limit : UInt32} {c : RolloutController} {w : Window}

/-- A tracked controller exposes the stage its gate stands on, or has its gate on
the first stage and exposes less than that. -/
theorem exposure_cases {s : Climb} (h : Climbing stages limit c s) :
    c.rollout.percentage = stagePercentage stages c.gate.stageIndex ∨
      c.gate.stageIndex = 0 ∧ c.rollout.percentage = 0 ∧ 0 < stagePercentage stages 0 := by
  have hpct := h.1.percentage_eq
  rw [exposed, Climb.exposure] at hpct
  by_cases hexp : s.exposed = true
  · left
    rw [if_pos hexp] at hpct
    rw [hpct, h.1.rung_eq]
  · rw [if_neg hexp] at hpct
    have hrung : c.gate.stageIndex = 0 :=
      h.1.rung_eq.trans (h.2.unexposed (by simpa using hexp))
    by_cases hzero : stagePercentage stages 0 = 0
    · left
      rw [hpct, hrung, hzero]
    · exact Or.inr ⟨hrung, hpct, UInt8.pos_iff_ne_zero.mpr hzero⟩

theorem index_lt_of_climbing {s : Climb} (h : Climbing stages limit c s) :
    c.gate.stageIndex < stages.length := by
  rw [h.1.rung_eq]
  exact h.2.rung_lt

/-! ## One stage at a time -/

structure StrictlyOrdered (stages : List Stage) : Prop where
  sorted : stages.Pairwise (fun a b => a.percentage < b.percentage)
  le_hundred : ∀ s ∈ stages, s.percentage ≤ 100

theorem StrictlyOrdered.ordered (ho : StrictlyOrdered stages) : Ordered stages :=
  ⟨ho.sorted.imp (fun h => UInt8.le_of_lt h), ho.le_hundred⟩

theorem StrictlyOrdered.percentage_lt (ho : StrictlyOrdered stages) {i j : Nat} (hij : i < j)
    (hj : j < stages.length) : stagePercentage stages i < stagePercentage stages j := by
  rw [stagePercentage_eq (Nat.lt_trans hij hj), stagePercentage_eq hj]
  exact List.pairwise_iff_getElem.mp ho.sorted i j _ hj hij

theorem StrictlyOrdered.index_lt (ho : StrictlyOrdered stages) {i j : Nat}
    (hi : i < stages.length) (h : stagePercentage stages i < stagePercentage stages j) :
    i < j := by
  by_contra hge
  have hle := ho.ordered.percentage_mono (Nat.not_lt.mp hge) hi
  exact UInt8.not_lt.mpr hle h

theorem StrictlyOrdered.index_eq (ho : StrictlyOrdered stages) {i j : Nat}
    (hi : i < stages.length) (hj : j < stages.length)
    (h : stagePercentage stages i = stagePercentage stages j) : i = j := by
  rcases Nat.lt_trichotomy i j with hlt | heq | hgt
  · have hne := ho.percentage_lt hlt hj
    rw [h] at hne
    exact absurd hne (UInt8.lt_irrefl _)
  · exact heq
  · have hne := ho.percentage_lt hgt hi
    rw [h] at hne
    exact absurd hne (UInt8.lt_irrefl _)

/-- A step that raised the exposure raised it to the next stage percentage, and the
stage before, if there is one, was exposed and judged healthy. -/
structure OneStageUp (stages : List Stage) (e : Observed) : Prop where
  is_stage : ∃ s ∈ stages, s.percentage = e.after.rollout.percentage
  is_next : ∀ s ∈ stages, e.before.rollout.percentage < s.percentage →
    e.after.rollout.percentage ≤ s.percentage
  judged : ∀ i s, stages[i]? = some s → i + 1 < stages.length →
    stagePercentage stages (i + 1) = e.after.rollout.percentage →
    e.before.rollout.percentage = s.percentage ∧ s.evidence env e.input = some .healthy

/-- The step raised the exposure. -/
def Raised (e : Observed) : Prop := e.before.rollout.percentage < e.after.rollout.percentage

/-- The gate moves up although its first stage is not exposed. -/
def SkipsFirst (c : RolloutController) (w : Window) : Prop :=
  StepsUp env c w ∧ c.rollout.percentage < stagePercentage c.gate.stages 0

theorem feed_up_percentage (ho : Ordered stages) {s : Climb} (h : Climbing stages limit c s)
    (hup : StepsUp env c w) :
    (c.feed env w).2.rollout.percentage = stagePercentage stages (c.gate.stageIndex + 1) := by
  have hlt := hup.2
  rw [h.1.stages_eq, h.1.rung_eq] at hlt
  rw [(feed_healthy_up env hup.1 hup.2).2, h.1.stages_eq, h.1.rung_eq,
    advance_of_tracks ho h.1 hlt]

theorem oneStageUp_of_exposed (ho : StrictlyOrdered stages) {s : Climb}
    (h : Climbing stages limit c s) (hup : StepsUp env c w)
    (hpct : c.rollout.percentage = stagePercentage stages c.gate.stageIndex) :
    OneStageUp env stages (event (feed env) c w) := by
  have hafter := feed_up_percentage env ho.ordered h hup
  have hlt := hup.2
  rw [h.1.stages_eq] at hlt
  refine ⟨⟨stages[c.gate.stageIndex + 1], List.getElem_mem hlt, ?_⟩, ?_, ?_⟩
  · rw [event_after, hafter, stagePercentage_eq hlt]
  · intro t ht hbelow
    obtain ⟨j, hj, rfl⟩ := List.mem_iff_getElem.mp ht
    rw [event_before, hpct, ← stagePercentage_eq hj] at hbelow
    rw [event_after, hafter, ← stagePercentage_eq hj]
    exact ho.ordered.percentage_mono (ho.index_lt (by omega) hbelow) hj
  · intro i t ht hi heq
    rw [event_after, hafter] at heq
    -- stage percentages are distinct, so stage `i` is the one the gate stood on
    have hindex : i = c.gate.stageIndex := by
      have := ho.index_eq hi hlt heq
      omega
    subst hindex
    have hstage := stage_getElem? (g := c.gate) (by rw [h.1.stages_eq]; omega)
    rw [h.1.stages_eq, ht, Option.some.injEq] at hstage
    refine ⟨?_, ?_⟩
    · rw [event_before, hpct, stagePercentage, ht]
      rfl
    · rw [event_input, hstage]
      exact hup.1

/-- One step: the exposure climbs one stage at a time unless the step skips the
first. -/
theorem feed_oneStageUp_iff (ho : StrictlyOrdered stages) {s : Climb}
    (h : Climbing stages limit c s) :
    (Raised (event (feed env) c w) → OneStageUp env stages (event (feed env) c w)) ↔
      ¬ SkipsFirst env c w := by
  by_cases hup : StepsUp env c w
  · have hlt := hup.2
    rw [h.1.stages_eq] at hlt
    rcases exposure_cases h with hpct | ⟨hindex, hzero, hfirst⟩
    · refine iff_of_true (fun _ => oneStageUp_of_exposed env ho h hup hpct) (fun hskip => ?_)
      have hbelow := hskip.2
      rw [hpct, h.1.stages_eq] at hbelow
      have hmono := ho.ordered.percentage_mono (Nat.zero_le c.gate.stageIndex)
        (index_lt_of_climbing h)
      exact UInt8.not_lt.mpr hmono hbelow
    · have hafter := feed_up_percentage env ho.ordered h hup
      rw [hindex] at hafter hlt
      have hsecond := ho.percentage_lt Nat.zero_lt_one hlt
      refine iff_of_false (fun hone => ?_) (fun hnot => hnot ⟨hup, ?_⟩)
      · have hraised : Raised (event (feed env) c w) := by
          rw [Raised, event_before, event_after, hzero, hafter]
          exact UInt8.lt_trans hfirst hsecond
        have hpos : 0 < stages.length := by omega
        have hnext := (hone hraised).is_next stages[0] (List.getElem_mem hpos)
        rw [event_before, event_after, hzero, hafter, ← stagePercentage_eq hpos] at hnext
        exact UInt8.not_lt.mpr (hnext hfirst) hsecond
      · rw [hzero, h.1.stages_eq]
        exact hfirst
  · refine iff_of_true (fun hraised => ?_) (fun hskip => hup hskip.1)
    exact absurd hraised (UInt8.not_lt.mpr (feed_not_up env hup).2)

/-- Some sound climber tracks the controller. -/
def Climbable (stages : List Stage) (limit : UInt32) (c : RolloutController) : Prop :=
  ∃ s, Climbing stages limit c s

theorem feed_climbable (ho : Ordered stages) (h : Climbable stages limit c) (w : Window) :
    Climbable stages limit (c.feed env w).2 := by
  obtain ⟨s, hs⟩ := h
  exact ⟨_, feed_climbing env ho hs w⟩

/-- The first stage of a fresh gate is exposed. -/
theorem start_climbable {first : Stage} {rest : List Stage} {g : HealthGate} {flag : FlagName}
    {salt : String} {r : Rollout} (hg : HealthGate.new (first :: rest) limit = .ok g)
    (hr : Rollout.new flag first.percentage salt = .ok r) :
    Climbable (first :: rest) (max limit 1) (RolloutController.new r g) := by
  obtain ⟨hne, rfl⟩ := HealthGate.new_eq_ok_iff.mp hg
  exact ⟨_, (start_climbing hg (Or.inl rfl) hr).2⟩

/-- With stages 5 and 25 a breach and then a healthy window take the exposure from
5 to 0 and from 0 to 25. -/
theorem first_stage_skipped :
    ¬ ∀ (env : FloatEnv) (first : Stage) (rest : List Stage) (limit : UInt32) (g : HealthGate)
        (flag : FlagName) (salt : String) (r : Rollout) (ws : List Window),
      StrictlyOrdered (first :: rest) → HealthGate.new (first :: rest) limit = .ok g →
      Rollout.new flag first.percentage salt = .ok r →
      ∀ e ∈ trace (feed env) (RolloutController.new r g) ws,
        Raised e → OneStageUp env (first :: rest) e := by
  intro h
  have hstep := h .exact (sampleStage 5) [sampleStage 25] 1 sampleGate ⟨"checkout"⟩ "c1"
    (sampleRollout 5) [sampleWindow 50, sampleWindow 0]
    ⟨by simp [sampleStage], by simp [sampleStage]⟩ rfl rfl
    _ (List.mem_cons_of_mem _ (List.mem_singleton_self _))
  have hraised : Raised (event (feed .exact)
      (feed .exact (RolloutController.new (sampleRollout 5) sampleGate) (sampleWindow 50)).2
      (sampleWindow 0)) := by
    unfold Raised
    decide +kernel
  have hnext := (hstep hraised).is_next (sampleStage 5) List.mem_cons_self
  revert hnext
  decide +kernel

/-- In a run over strictly increasing stages every rise goes to the next stage, and
comes from the stage before, exactly when no step skips the first stage. -/
theorem stages_in_order_iff {first : Stage} {rest : List Stage} {g : HealthGate}
    {flag : FlagName} {salt : String} {r : Rollout} (ho : StrictlyOrdered (first :: rest))
    (hg : HealthGate.new (first :: rest) limit = .ok g)
    (hr : Rollout.new flag first.percentage salt = .ok r) (ws : List Window) :
    (∀ e ∈ trace (feed env) (RolloutController.new r g) ws,
        Raised e → OneStageUp env (first :: rest) e) ↔
      ∀ e ∈ trace (feed env) (RolloutController.new r g) ws,
        ¬ SkipsFirst env e.before e.input := by
  refine forall_trace_congr (J := Climbable (first :: rest) (max limit 1))
    (fun _ w h => feed_climbable env ho.ordered h w) (fun c w h => ?_) (start_climbable hg hr) ws
  obtain ⟨s, hs⟩ := h
  exact feed_oneStageUp_iff env ho hs

theorem stages_in_order_of_first_promotion :
    OneStageUp .exact [sampleStage 5, sampleStage 25]
      (event (feed .exact) (RolloutController.new (sampleRollout 5) sampleGate)
        (sampleWindow 0)) :=
  (@stages_in_order_iff .exact 1 (sampleStage 5) [sampleStage 25] sampleGate ⟨"checkout"⟩ "c1"
    (sampleRollout 5) ⟨by simp [sampleStage], by simp [sampleStage]⟩ rfl rfl
    [sampleWindow 0]).mpr (by
      intro e he hskip
      rw [List.mem_singleton.mp he] at hskip
      exact absurd hskip.2 (by decide)) _ (List.mem_singleton_self _) (by
        unfold Raised
        decide +kernel)

/-! ## The way back to the top -/

/-- A climber at the top of a ladder with more than one rung is exposed. -/
theorem exposed_at_top {s : Climb} (h : ClimbSound stages limit s)
    (htop : s.rung = stages.length - 1) (htwo : 2 ≤ stages.length) : s.exposed = true := by
  by_contra hexp
  have := h.unexposed (by simpa using hexp)
  omega

/-- With one stage healthy windows change nothing. -/
theorem final_single_percentage (ho : Ordered stages) {s : Climb}
    (h : Climbing stages limit c s) (hone : stages.length = 1) {hs : List Window}
    (hhealthy : ∀ e ∈ trace (feed env) c hs, Observed.evidence env e = some .healthy) :
    (final (feed env) c hs).rollout.percentage = c.rollout.percentage := by
  have hlt := h.2.rung_lt
  have hfinal := final_climbing env ho h hs
  rw [labels_eq_replicate (k := some .healthy) hhealthy, final_climbStep_replicate] at hfinal
  have hrung := hfinal.2.rung_lt
  have hexp : (final (Climb.step stages.length limit.toNat) s
      (List.replicate hs.length .healthy)).exposed = s.exposed :=
    Climb.final_replicate_top (by omega) hs.length
  rw [hfinal.1.percentage_eq, h.1.percentage_eq]
  unfold exposed Climb.exposure
  rw [hexp]
  have hsame : (final (Climb.step stages.length limit.toNat) s
      (List.replicate hs.length .healthy)).rung = s.rung := by omega
  rw [hsame]

/-- A single stage is exposed unless a rollback has taken its exposure away. -/
theorem single_exposed_iff {s : Climb} (h : Climbing stages limit c s)
    (hone : stages.length = 1) :
    c.rollout.percentage = stagePercentage stages 0 ↔
      c.rollout.percentage ≠ 0 ∨ stagePercentage stages 0 = 0 := by
  have hindex : c.gate.stageIndex = 0 := by
    have hlt := index_lt_of_climbing h
    omega
  rcases exposure_cases h with hpct | ⟨_, hzero, hpos⟩
  · rw [hindex] at hpct
    refine iff_of_true hpct ?_
    by_cases hz : stagePercentage stages 0 = 0
    · exact Or.inr hz
    · left
      rw [hpct]
      exact hz
  · have hne := UInt8.pos_iff_ne_zero.mp hpos
    rw [hzero]
    refine iff_of_false (fun heq => hne heq.symm) ?_
    intro hcase
    rcases hcase with h0 | h0
    · exact h0 rfl
    · exact hne h0

/-- With more stages a healthy window for each of them ends on the last. -/
theorem final_many_percentage (ho : Ordered stages) {s : Climb}
    (h : Climbing stages limit c s) (htwo : 2 ≤ stages.length) {hs : List Window}
    (hlen : hs.length = stages.length)
    (hhealthy : ∀ e ∈ trace (feed env) c hs, Observed.evidence env e = some .healthy) :
    (final (feed env) c hs).rollout.percentage = stagePercentage stages (stages.length - 1) := by
  have hlt := h.2.rung_lt
  have hfinal := final_climbing env ho h hs
  rw [labels_eq_replicate (k := some .healthy) hhealthy, hlen, final_climbStep_replicate]
    at hfinal
  have htop : (final (Climb.step stages.length limit.toNat) s
      (List.replicate stages.length .healthy)).rung = stages.length - 1 := by
    rw [Climb.final_replicate_healthy hlt]
    omega
  have hpct := hfinal.1.percentage_eq
  rw [exposed, Climb.exposure, if_pos (exposed_at_top hfinal.2 htop htwo), htop] at hpct
  exact hpct

/-- A single stage rolled back is not exposed again, however healthy it is. -/
theorem last_stage_not_reached :
    ¬ ∀ (env : FloatEnv) (first : Stage) (rest : List Stage) (limit : UInt32) (g : HealthGate)
        (flag : FlagName) (salt : String) (r : Rollout) (ws hs : List Window),
      Ordered (first :: rest) → HealthGate.new (first :: rest) limit = .ok g →
      Rollout.new flag first.percentage salt = .ok r → hs.length = (first :: rest).length →
      (∀ e ∈ trace (feed env) (final (feed env) (RolloutController.new r g) ws) hs,
        Observed.evidence env e = some .healthy) →
      (final (feed env) (RolloutController.new r g) (ws ++ hs)).rollout.percentage =
        ((first :: rest).getLast (List.cons_ne_nil _ _)).percentage := by
  intro h
  have hlast := h .exact (sampleStage 5) [] 1 ⟨[sampleStage 5], List.cons_ne_nil _ _, 1, 0, 0⟩
    ⟨"checkout"⟩ "c1" (sampleRollout 5) [sampleWindow 50] [sampleWindow 0]
    ⟨by simp, by simp [sampleStage]⟩ rfl rfl rfl (by
      intro e he
      rw [List.mem_singleton.mp he]
      decide +kernel)
  revert hlast
  decide +kernel

/-- From every reachable state, as many healthy windows as there are stages lead to
the last stage exactly when there are two stages, something is exposed, or the
first stage exposes nothing. -/
theorem reaches_last_stage_iff {first : Stage} {rest : List Stage} {g : HealthGate}
    {flag : FlagName} {salt : String} {r : Rollout} (ho : Ordered (first :: rest))
    (hg : HealthGate.new (first :: rest) limit = .ok g)
    (hr : Rollout.new flag first.percentage salt = .ok r) (ws hs : List Window)
    (hlen : hs.length = (first :: rest).length)
    (hhealthy : ∀ e ∈ trace (feed env) (final (feed env) (RolloutController.new r g) ws) hs,
      Observed.evidence env e = some .healthy) :
    (final (feed env) (RolloutController.new r g) (ws ++ hs)).rollout.percentage =
        ((first :: rest).getLast (List.cons_ne_nil _ _)).percentage ↔
      2 ≤ (first :: rest).length ∨
        (final (feed env) (RolloutController.new r g) ws).rollout.percentage ≠ 0 ∨
        first.percentage = 0 := by
  obtain ⟨s, hclimb⟩ := invariant_final (J := Climbable (first :: rest) (max limit 1))
    (fun _ w h => feed_climbable env ho h w) (start_climbable hg hr) ws
  have hlast : ((first :: rest).getLast (List.cons_ne_nil _ _)).percentage =
      stagePercentage (first :: rest) ((first :: rest).length - 1) := by
    rw [List.getLast_eq_getElem, ← stagePercentage_eq]
  rw [final_append, hlast]
  by_cases htwo : 2 ≤ (first :: rest).length
  · exact iff_of_true (final_many_percentage env ho hclimb htwo hlen hhealthy) (Or.inl htwo)
  · have hone : (first :: rest).length = 1 := by
      rw [List.length_cons] at htwo ⊢
      omega
    rw [final_single_percentage env ho hclimb hone hhealthy, or_iff_right htwo, hone]
    exact single_exposed_iff hclimb hone

theorem reaches_last_stage_of_two :
    (final (feed .exact) (RolloutController.new (sampleRollout 5) sampleGate)
      ([sampleWindow 50] ++ [sampleWindow 0, sampleWindow 0])).rollout.percentage = 25 :=
  (@reaches_last_stage_iff .exact 1 (sampleStage 5) [sampleStage 25] sampleGate ⟨"checkout"⟩ "c1"
    (sampleRollout 5) ⟨by simp [sampleStage], by simp [sampleStage]⟩ rfl rfl
    [sampleWindow 50] [sampleWindow 0, sampleWindow 0] rfl (by
      intro e he
      rcases List.mem_cons.mp he with rfl | he
      · decide +kernel
      · rw [List.mem_singleton.mp he]
        decide +kernel)).mpr (Or.inl (by decide))

end FlagKit
