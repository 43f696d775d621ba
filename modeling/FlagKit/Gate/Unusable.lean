import FlagKit.Gate.Percentile

/-!
# Unusable latency evidence

Neither a sample nor a ceiling is checked for NaN, and the breach test is one `>`
whose failure is taken as healthy.  A NaN ceiling is never exceeded.  A NaN sample
compares equal to everything, so the comparison is not an order, the sort may leave
NaN at the nearest rank, and NaN exceeds no ceiling.

`LatencyBacked` is what a promotion ought to mean, whatever the sort does with
samples it cannot compare.  `latency_backed_iff` says for which windows it does.  The
error rate and the rank are the ones computed, with whatever rounding.
-/

namespace FlagKit

/-- Where the comparison is total a stable sort has one result. -/
def FloatEnv.Stable (env : FloatEnv) : Prop :=
  ∀ cmp l, TotalOn cmp l → env.sortBy cmp l = FloatEnv.exact.sortBy cmp l

theorem FloatEnv.exact_stable : FloatEnv.exact.Stable := fun _ _ _ => rfl

/-! ## Samples that cannot be compared -/

/-- All samples that are numbers are one number. -/
def Alike (l : List F64) : Prop := ∀ a ∈ l, ∀ b ∈ l, a ≠ .nan → b ≠ .nan → a = b

theorem cmpOrEqual_nan_left (a : F64) : F64.cmpOrEqual .nan a = .eq := by
  cases a <;> rfl

theorem cmpOrEqual_nan_right (a : F64) : F64.cmpOrEqual a .nan = .eq := by
  cases a <;> rfl

theorem cmpOrEqual_self (a : F64) : F64.cmpOrEqual a a = .eq := by
  cases a <;> simp [F64.cmpOrEqual, F64.partialCmp, F64.lt]

theorem cmpOrEqual_of_alike {l : List F64} (h : Alike l) {a b : F64} (ha : a ∈ l) (hb : b ∈ l) :
    F64.cmpOrEqual a b = .eq := by
  by_cases ha' : a = .nan
  · rw [ha', cmpOrEqual_nan_left]
  · by_cases hb' : b = .nan
    · rw [hb', cmpOrEqual_nan_right]
    · rw [h a ha b hb ha' hb', cmpOrEqual_self]

theorem totalOn_of_alike {l : List F64} (h : Alike l) : TotalOn F64.cmpOrEqual l := by
  refine ⟨fun a ha b hb => Or.inl ?_, fun a ha b _ c hc _ _ => ?_⟩
  · simp [cmpOrEqual_of_alike h ha hb]
  · simp [cmpOrEqual_of_alike h ha hc]

/-- NaN stands between any two samples, so a total comparison makes them equal. -/
theorem alike_of_totalOn {l : List F64} (hnan : F64.nan ∈ l) (h : TotalOn F64.cmpOrEqual l) :
    Alike l := by
  have hle : ∀ a ∈ l, ∀ b ∈ l, a ≠ .nan → b ≠ .nan → a.le b = true := by
    intro a ha b hb ha' hb'
    rw [← F64.cmpOrEqual_ne_gt_iff ha' hb']
    apply h.2 a ha .nan hnan b hb
    · simp [cmpOrEqual_nan_right]
    · simp [cmpOrEqual_nan_left]
  intro a ha b hb ha' hb'
  exact F64.le_antisymm (hle a ha b hb ha' hb') (hle b hb a ha hb' ha')

/-- Samples that are alike stay in the order they were recorded in. -/
theorem sortBy_of_alike {env : FloatEnv} (hstable : env.Stable) {l : List F64} (h : Alike l) :
    env.sortBy F64.cmpOrEqual l = some l := by
  rw [hstable _ _ (totalOn_of_alike h)]
  refine congrArg some (List.Pairwise.insertionSort_eq ?_)
  rw [List.pairwise_iff_forall_sublist]
  intro a b hab
  have ha : a ∈ l := hab.subset List.mem_cons_self
  have hb : b ∈ l := hab.subset (List.mem_cons_of_mem a List.mem_cons_self)
  simp [cmpOrEqual_of_alike h ha hb]

/-- The two machines round alike. -/
def SameRounding (env env' : FloatEnv) : Prop := env'.round = env.round

/-- On a list it cannot order, a sort may return any arrangement. -/
theorem exists_env_sortBy (env : FloatEnv) {cmp : F64 → F64 → Ordering} {l l' : List F64}
    (hperm : l'.Perm l) (hnot : ¬ TotalOn cmp l) :
    ∃ env' : FloatEnv, SameRounding env env' ∧ env'.Stable ∧ env'.sortBy cmp l = some l' := by
  classical
  refine ⟨{
    round := env.round
    sortBy := fun cmp' m =>
      if m = l ∧ ¬ TotalOn cmp' m then some l' else FloatEnv.exact.sortBy cmp' m
    sortBy_perm := fun {cmp' m m'} hm => ?_
    sortBy_sorted := fun {cmp' m} hm => ?_ }, rfl, fun cmp' m hm => ?_, ?_⟩
  · by_cases h : m = l ∧ ¬ TotalOn cmp' m
    · rw [if_pos h, Option.some.injEq] at hm
      rw [← hm, h.1]
      exact hperm
    · rw [if_neg h] at hm
      exact FloatEnv.exact.sortBy_perm hm
  · rw [if_neg (fun h => h.2 hm)]
    exact FloatEnv.exact.sortBy_sorted hm
  · exact if_neg (fun h => h.2 hm)
  · exact if_pos ⟨rfl, hnot⟩

/-- A machine with a stable sort, whatever the arithmetic. -/
theorem exists_env_stable (env : FloatEnv) :
    ∃ env' : FloatEnv, SameRounding env env' ∧ env'.Stable :=
  ⟨{ FloatEnv.exact with round := env.round }, rfl, fun _ _ _ => rfl⟩

theorem exists_perm_getElem {l : List F64} {x : F64} (hx : x ∈ l) {k : Nat} (hk : k < l.length) :
    ∃ l' : List F64, l'.Perm l ∧ l'[k]? = some x := by
  have hlen := List.length_erase_of_mem hx
  have hk' : k ≤ (l.erase x).length := by omega
  refine ⟨(l.erase x).insertIdx k x, ?_, ?_⟩
  · exact (List.perm_insertIdx x _ hk').trans (List.perm_cons_erase hx).symm
  · rw [List.getElem?_insertIdx_self, if_pos hk']

/-! ## Promotions and samples -/

/-- At least 99 of 100 samples are within the ceiling. -/
def MostWithin (l : List F64) (ceiling : F64) : Prop :=
  99 * l.length ≤ 100 * l.countP (fun x => x.le ceiling)

section Backed

variable (env : FloatEnv)

def LatencyBacked (g : HealthGate) (w : Window) : Prop :=
  ∀ env' : FloatEnv, SameRounding env env' → env'.Stable → g.decides env' w = some .promote →
    MostWithin w.snapshot.latenciesMs g.stage.maxLatencyP99Ms

def TooThin (s : Stage) (w : Window) : Prop :=
  w.observedFor < s.minDuration ∨ w.snapshot.total < s.minSamples

/-- The error rate computed for the window is above the budget. -/
def OverBudget (s : Stage) (w : Window) : Prop :=
  (w.snapshot.errorRate env).any (fun r => r.gt s.maxErrorRate) = true

/-- The place, counted from one, of the sample taken for the p99. -/
def p99Place (n : Nat) : Nat := min (HealthSnapshot.p99Rank env n) n

/-- The sample at the place of the p99 is above the ceiling. -/
def RankAbove (l : List F64) (ceiling : F64) : Prop :=
  ∃ x, l[p99Place env l.length - 1]? = some x ∧ x.gt ceiling = true

/-- Ceiling and samples are numbers, and the place of the p99 leaves at most one sample
in a hundred behind it or lies behind all samples within the ceiling. -/
structure Usable (l : List F64) (ceiling : F64) : Prop where
  ceiling_ne : ceiling ≠ .nan
  nan_not_mem : F64.nan ∉ l
  place : 99 * l.length ≤ 100 * p99Place env l.length ∨
    l.countP (fun x => x.le ceiling) < p99Place env l.length

end Backed

variable {env env' : FloatEnv}

theorem SameRounding.overBudget_iff (h : SameRounding env env') (s : Stage) (w : Window) :
    OverBudget env' s w ↔ OverBudget env s w := by
  unfold OverBudget HealthSnapshot.errorRate FloatEnv.ofNat FloatEnv.div
  rw [h]

theorem SameRounding.p99Place_eq (h : SameRounding env env') (n : Nat) :
    p99Place env' n = p99Place env n := by
  unfold p99Place HealthSnapshot.p99Rank FloatEnv.ofNat FloatEnv.mul
  rw [h]

theorem SameRounding.rankAbove_iff (h : SameRounding env env') (l : List F64) (ceiling : F64) :
    RankAbove env' l ceiling ↔ RankAbove env l ceiling := by
  rw [RankAbove, h.p99Place_eq]
  rfl

theorem SameRounding.usable_iff (h : SameRounding env env') (l : List F64) (ceiling : F64) :
    Usable env' l ceiling ↔ Usable env l ceiling := by
  have hplace := h.p99Place_eq l.length
  constructor
  · intro husable
    exact ⟨husable.ceiling_ne, husable.nan_not_mem, hplace ▸ husable.place⟩
  · intro husable
    exact ⟨husable.ceiling_ne, husable.nan_not_mem, hplace.symm ▸ husable.place⟩

theorem one_le_p99Place (env : FloatEnv) {n : Nat} (h : 0 < n) : 1 ≤ p99Place env n := by
  have hrank : 1 ≤ HealthSnapshot.p99Rank env n := F64.one_le_toUsize_max _
  unfold p99Place
  omega

theorem p99Place_le (env : FloatEnv) (n : Nat) : p99Place env n ≤ n := Nat.min_le_right _ _

theorem not_rankAbove_nan (l : List F64) : ¬ RankAbove env l .nan := by
  intro h
  obtain ⟨x, _, hgt⟩ := h
  cases x <;> cases hgt

/-- A window with samples promotes unless it is thin, over budget, cannot be sorted, or
has a sample above the ceiling at the place of the p99. -/
theorem promote_iff_rank (g : HealthGate) {w : Window} (hne : w.snapshot.latenciesMs ≠ []) :
    g.decides env w = some .promote ↔
      ¬ TooThin g.stage w ∧ ¬ OverBudget env g.stage w ∧
        ∃ sorted, env.sortBy F64.cmpOrEqual w.snapshot.latenciesMs = some sorted ∧
          ¬ RankAbove env sorted g.stage.maxLatencyP99Ms := by
  rw [HealthGate.observe_promote_iff, HealthGate.evidence_eq_healthy_iff, TooThin, not_or,
    Nat.not_lt, UInt64.not_lt, and_assoc]
  refine and_congr_right fun _ => and_congr_right fun _ => ?_
  cases hsort : env.sortBy F64.cmpOrEqual w.snapshot.latenciesMs with
  | none =>
    have hnone : w.snapshot.latencyP99Ms env = none := by
      rw [HealthSnapshot.latencyP99Ms_eq_none_iff, HealthSnapshot.Sorts, hsort]
      simp [hne]
    simp [hnone]
  | some sorted =>
    have hlen : sorted.length = w.snapshot.latenciesMs.length := (env.sortBy_perm hsort).length_eq
    have hpos := List.length_pos_iff.mpr hne
    have hplace := one_le_p99Place env hpos
    have hle := p99Place_le env w.snapshot.latenciesMs.length
    have hlt : p99Place env w.snapshot.latenciesMs.length - 1 < sorted.length := by omega
    rw [latencyP99Ms_eq hne hsort rfl hlt]
    simp only [Option.some.injEq, exists_eq_left', Stage.breached, Bool.or_eq_false_iff,
      Option.any_some, OverBudget, Bool.not_eq_true, RankAbove, hlen,
      List.getElem?_eq_getElem hlt]
    rfl

/-- NaN at the place of the p99 is above no ceiling, and a sort may leave it there. -/
theorem exists_env_not_rankAbove (env : FloatEnv) {l : List F64} (hnan : F64.nan ∈ l)
    (hnot : ¬ TotalOn F64.cmpOrEqual l) (ceiling : F64) :
    ∃ env' sorted, SameRounding env env' ∧ env'.Stable ∧
      env'.sortBy F64.cmpOrEqual l = some sorted ∧ ¬ RankAbove env sorted ceiling := by
  have hpos := List.length_pos_of_mem hnan
  have hplace := p99Place_le env l.length
  have hrank : p99Place env l.length - 1 < l.length := by omega
  obtain ⟨l', hperm, hget⟩ := exists_perm_getElem hnan hrank
  obtain ⟨env', hround, hstable, hsort⟩ := exists_env_sortBy env hperm hnot
  refine ⟨env', l', hround, hstable, hsort, fun habove => ?_⟩
  obtain ⟨x, hx, hgt⟩ := habove
  rw [hperm.length_eq, hget, Option.some.injEq] at hx
  rw [← hx] at hgt
  cases ceiling <;> cases hgt

/-- Among numbers the p99 is above the ceiling when fewer samples than its place are
within. -/
theorem rankAbove_iff_countP {l sorted : List F64} (hnan : F64.nan ∉ l) (hne : l ≠ [])
    {ceiling : F64} (hc : ceiling ≠ .nan)
    (hsort : env.sortBy F64.cmpOrEqual l = some sorted) :
    RankAbove env sorted ceiling ↔
      l.countP (fun x => x.le ceiling) < p99Place env l.length := by
  obtain ⟨sorted', hsort', hperm, hsorted⟩ := sortBy_le_sorted env hnan
  rw [hsort', Option.some.injEq] at hsort
  rw [← hsort]
  have hpos := List.length_pos_iff.mpr hne
  have hplace := one_le_p99Place env hpos
  have hle := p99Place_le env l.length
  have hlt : p99Place env l.length - 1 < sorted'.length := by
    rw [hperm.length_eq]
    omega
  have hx : sorted'[p99Place env l.length - 1] ≠ .nan := fun e =>
    hnan (hperm.mem_iff.mp (e ▸ List.getElem_mem hlt))
  have hcount := OrderStat.getElem_iff_lt_countP (p := fun x => x.le ceiling)
    (hsorted.imp fun hab => F64.le_trans hab) hlt
  rw [hperm.countP_eq] at hcount
  rw [RankAbove, hperm.length_eq, List.getElem?_eq_getElem hlt]
  simp only [Option.some.injEq, exists_eq_left', F64.gt]
  have hgt := F64.not_lt_iff_le hx hc
  constructor
  · intro habove
    by_contra hmany
    rw [hgt.mpr (hcount.mpr (by omega))] at habove
    cases habove
  · intro hfew
    by_contra hbelow
    rw [Bool.not_eq_true] at hbelow
    have := hcount.mp (hgt.mp hbelow)
    omega

/-- Usable samples with the p99 within the ceiling: 99 of 100 of them are. -/
theorem mostWithin_of_usable {l sorted : List F64} (hne : l ≠ []) {ceiling : F64}
    (husable : Usable env l ceiling) (hsort : env.sortBy F64.cmpOrEqual l = some sorted)
    (hrank : ¬ RankAbove env sorted ceiling) : MostWithin l ceiling := by
  obtain ⟨hc, hnan, hplace⟩ := husable
  rw [rankAbove_iff_countP hnan hne hc hsort] at hrank
  unfold MostWithin
  omega

/-- When every sort puts a sample above the ceiling at the place of the p99, the samples
are usable or stay where they are. -/
theorem usable_or_alike {l : List F64} (hne : l ≠ []) {ceiling : F64}
    (habove : ∀ env' sorted, SameRounding env env' → env'.Stable →
      env'.sortBy F64.cmpOrEqual l = some sorted → RankAbove env sorted ceiling) :
    Usable env l ceiling ∨ (Alike l ∧ RankAbove env l ceiling) := by
  obtain ⟨env', hround, hstable⟩ := exists_env_stable env
  by_cases htotal : TotalOn F64.cmpOrEqual l
  · obtain ⟨sorted, hsort, _⟩ := env'.sortBy_sorted htotal
    have hsorted := habove env' sorted hround hstable hsort
    by_cases hnan : F64.nan ∈ l
    · have halike := alike_of_totalOn hnan htotal
      rw [sortBy_of_alike hstable halike, Option.some.injEq] at hsort
      rw [← hsort] at hsorted
      exact Or.inr ⟨halike, hsorted⟩
    · have hc : ceiling ≠ .nan := by
        intro hc
        rw [hc] at hsorted
        exact not_rankAbove_nan _ hsorted
      rw [← hround.rankAbove_iff, rankAbove_iff_countP hnan hne hc hsort,
        hround.p99Place_eq] at hsorted
      exact Or.inl ⟨hc, hnan, Or.inr hsorted⟩
  · have hnan : F64.nan ∈ l := by
      by_contra hnan
      exact htotal (totalOn_cmpOrEqual hnan)
    obtain ⟨env', sorted, hround, hstable, hsort, hnot⟩ :=
      exists_env_not_rankAbove env hnan htotal ceiling
    exact absurd (habove env' sorted hround hstable hsort) hnot

/-- A ceiling of 200 ms and one sample, NaN. -/
theorem nan_latency_promotes :
    ¬ ∀ (env : FloatEnv) (g : HealthGate) (w : Window), LatencyBacked env g w := by
  intro h
  have hmost := h .exact ⟨[⟨5, 0, 100, .fin 0, .fin 200⟩], List.cons_ne_nil _ _, 1, 0, 0⟩
    ⟨⟨200, 0, [.nan]⟩, 0⟩ .exact rfl FloatEnv.exact_stable (by decide +kernel)
  exact absurd hmost (by unfold MostWithin; decide)

/-- With any rounding, a promotion of a window is backed by its samples exactly when
they are usable, or the window is too thin or over budget, or 99 of 100 samples are
within the ceiling anyway, or the samples are alike and the one taken for the p99 is
above it. -/
theorem latency_backed_iff (env : FloatEnv) (g : HealthGate) (w : Window) :
    LatencyBacked env g w ↔
      Usable env w.snapshot.latenciesMs g.stage.maxLatencyP99Ms ∨
      TooThin g.stage w ∨ OverBudget env g.stage w ∨
      MostWithin w.snapshot.latenciesMs g.stage.maxLatencyP99Ms ∨
      (Alike w.snapshot.latenciesMs ∧
        RankAbove env w.snapshot.latenciesMs g.stage.maxLatencyP99Ms) := by
  by_cases hne : w.snapshot.latenciesMs = []
  · have hmost : MostWithin w.snapshot.latenciesMs g.stage.maxLatencyP99Ms := by
      rw [MostWithin, hne]
      exact Nat.le_refl 0
    exact iff_of_true (fun _ _ _ _ => hmost) (Or.inr (Or.inr (Or.inr (Or.inl hmost))))
  constructor
  · intro h
    by_contra hcond
    simp only [not_or] at hcond
    obtain ⟨husable, hthin, hover, hmost, halike⟩ := hcond
    -- no sort promotes, so under every sort that returns the p99 is above the ceiling
    have habove : ∀ env' sorted, SameRounding env env' → env'.Stable →
        env'.sortBy F64.cmpOrEqual w.snapshot.latenciesMs = some sorted →
        RankAbove env sorted g.stage.maxLatencyP99Ms := by
      intro env' sorted hround hstable hsort
      by_contra hrank
      refine hmost (h env' hround hstable ((promote_iff_rank g hne).mpr
        ⟨hthin, ?_, sorted, hsort, ?_⟩))
      · rw [hround.overBudget_iff]
        exact hover
      · rw [hround.rankAbove_iff]
        exact hrank
    exact (usable_or_alike hne habove).elim husable halike
  · intro hcond env' hround hstable hpromote
    obtain ⟨hthin, hover, sorted, hsort, hrank⟩ := (promote_iff_rank g hne).mp hpromote
    rw [hround.overBudget_iff] at hover
    rcases hcond with husable | hcond | hcond | hcond | ⟨halike, habove⟩
    · rw [← hround.usable_iff] at husable
      exact mostWithin_of_usable hne husable hsort hrank
    · exact absurd hcond hthin
    · exact absurd hcond hover
    · exact hcond
    · rw [sortBy_of_alike hstable halike, Option.some.injEq] at hsort
      rw [← hsort, hround.rankAbove_iff] at hrank
      exact absurd habove hrank

end FlagKit
