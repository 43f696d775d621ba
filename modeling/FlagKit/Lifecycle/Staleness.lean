import FlagKit.Flag
import FlagKit.Numeric.F64

/-!
# Staleness

`FlagPolicy::classify` collects three independently guarded signals and turns them into
a verdict.  What it says of a flag grows with its evidence: an older flag, or a policy
with more rules switched on, has every kind of signal the other had and a verdict at
least as severe (`NoStaler`).  All of it follows from what each signal is fired by
(`mem_signals_iff`) and from the verdict being a function of the signals and of one bit
(`verdict_mono`).

`classify_flag` is documented to leave a flag without a timestamp unjudged by age.  It
does not look at the flag, so this is so for the permanent kinds only
(`unjudged_iff`).
-/

namespace FlagKit

inductive FlagKind where
  | release
  | experiment
  | operational
  | permission
  deriving DecidableEq

namespace FlagKind

def defaultLifetimeDays : FlagKind → Option UInt32
  | .release => some 30
  | .experiment => some 40
  | .operational => some 90
  | .permission => none

def isPermanent (k : FlagKind) : Bool := k.defaultLifetimeDays.isNone

def asStr : FlagKind → String
  | .release => "release"
  | .experiment => "experiment"
  | .operational => "operational"
  | .permission => "permission"

/-- The error carries the name that is not known. -/
def parse (s : String) : Except String FlagKind :=
  if s = "release" then .ok .release
  else if s = "experiment" then .ok .experiment
  else if s = "operational" then .ok .operational
  else if s = "permission" then .ok .permission
  else .error s

theorem parse_asStr (k : FlagKind) : parse k.asStr = .ok k := by
  cases k <;> rfl

/-- Only the names that are written are read. -/
theorem parse_eq_ok_iff {s : String} {k : FlagKind} : parse s = .ok k ↔ s = k.asStr := by
  constructor
  · intro h
    unfold parse at h
    split_ifs at h with h₁ h₂ h₃ h₄
    all_goals
      cases h
      assumption
  · intro h
    rw [h]
    exact parse_asStr k

end FlagKind

inductive StaleSignal where
  | agedPastDeadline (ageDays deadlineDays : UInt32)
  | fullyRolledOut
  | neverEvaluated
  deriving DecidableEq

/-- The wire name, which is the kind of a signal. -/
def StaleSignal.asStr : StaleSignal → String
  | .agedPastDeadline _ _ => "aged_past_deadline"
  | .fullyRolledOut => "fully_rolled_out"
  | .neverEvaluated => "never_evaluated"

inductive Staleness where
  | fresh
  | aging
  | stale
  | permanent
  deriving DecidableEq

def Staleness.isStale : Staleness → Bool
  | .stale => true
  | _ => false

def Staleness.asStr : Staleness → String
  | .fresh => "fresh"
  | .aging => "aging"
  | .stale => "stale"
  | .permanent => "permanent"

structure FlagFacts where
  kind : FlagKind
  ageDays : UInt32
  lastChangedAgeDays : Option UInt32
  percentage : UInt8
  lastEvaluatedAgeDays : Option UInt32
  evaluationTracked : Bool
  deriving DecidableEq

structure Classification where
  staleness : Staleness
  signals : List StaleSignal
  deriving DecidableEq

def Classification.isStale (c : Classification) : Bool := c.staleness.isStale

structure FlagPolicy where
  agingRatio : F64
  staleWhenFullyRolledOut : Bool
  staleWhenNeverEvaluated : Bool
  deriving DecidableEq

namespace FlagPolicy

variable (env : FloatEnv)

/-- `FlagPolicy::default`. -/
def standard : FlagPolicy :=
  { agingRatio := .fin (1 / 2)
    staleWhenFullyRolledOut := true
    staleWhenNeverEvaluated := true }

def ageOnly : FlagPolicy :=
  { standard with staleWhenFullyRolledOut := false, staleWhenNeverEvaluated := false }

def classify (p : FlagPolicy) (facts : FlagFacts) : Classification :=
  if facts.kind.isPermanent then { staleness := .permanent, signals := [] }
  else
    let deadline := facts.kind.defaultLifetimeDays.getD 4294967295
    let effectiveAge := facts.lastChangedAgeDays.getD facts.ageDays
    let signals : List StaleSignal :=
      (if effectiveAge ≥ deadline then [.agedPastDeadline effectiveAge deadline] else []) ++
      (if p.staleWhenNeverEvaluated && facts.evaluationTracked &&
          facts.lastEvaluatedAgeDays.isNone && facts.percentage == 0
        then [.neverEvaluated] else []) ++
      (if p.staleWhenFullyRolledOut && facts.percentage == 100 then [.fullyRolledOut] else [])
    let staleness : Staleness :=
      if !signals.isEmpty then .stale
      else if (env.mul (env.ofNat deadline.toNat) p.agingRatio).le (env.ofNat effectiveAge.toNat)
        then .aging
      else .fresh
    { staleness, signals }

def classifyFlag {T : Type} (p : FlagPolicy) (_flag : Flag T) (facts : FlagFacts) :
    Classification :=
  p.classify env facts

end FlagPolicy

/-! ## What each signal is fired by -/

/-- Age is measured from the last change when it is known. -/
def FlagFacts.effectiveAge (f : FlagFacts) : UInt32 := f.lastChangedAgeDays.getD f.ageDays

/-- An edit of this age is recorded; the last change is the later of the two. -/
def FlagFacts.recordEdit (f : FlagFacts) (ageDays : UInt32) : FlagFacts :=
  { f with lastChangedAgeDays := some (min ageDays (f.lastChangedAgeDays.getD ageDays)) }

def FlagKind.deadline (k : FlagKind) : UInt32 := k.defaultLifetimeDays.getD 4294967295

namespace FlagPolicy

def Fires (p : FlagPolicy) (f : FlagFacts) : StaleSignal → Prop
  | .agedPastDeadline age deadline =>
    age = f.effectiveAge ∧ deadline = f.kind.deadline ∧ f.kind.deadline ≤ f.effectiveAge
  | .neverEvaluated => p.staleWhenNeverEvaluated = true ∧ f.evaluationTracked = true ∧
      f.lastEvaluatedAgeDays = none ∧ f.percentage = 0
  | .fullyRolledOut => p.staleWhenFullyRolledOut = true ∧ f.percentage = 100

variable (env : FloatEnv)

def pastAging (p : FlagPolicy) (f : FlagFacts) : Bool :=
  (env.mul (env.ofNat f.kind.deadline.toNat) p.agingRatio).le (env.ofNat f.effectiveAge.toNat)

def firedSignals (p : FlagPolicy) (f : FlagFacts) : List StaleSignal :=
  (if f.effectiveAge ≥ f.kind.deadline
    then [.agedPastDeadline f.effectiveAge f.kind.deadline] else []) ++
  (if p.staleWhenNeverEvaluated && f.evaluationTracked &&
      f.lastEvaluatedAgeDays.isNone && f.percentage == 0
    then [.neverEvaluated] else []) ++
  (if p.staleWhenFullyRolledOut && f.percentage == 100 then [.fullyRolledOut] else [])

/-- The verdict is a function of the signals and of the threshold. -/
def verdict (signals : List StaleSignal) (aging : Bool) : Staleness :=
  if !signals.isEmpty then .stale else if aging then .aging else .fresh

variable {env} {p q : FlagPolicy} {f g : FlagFacts}

theorem classify_permanent (h : f.kind.isPermanent = true) :
    p.classify env f = { staleness := .permanent, signals := [] } := if_pos h

theorem classify_lasting (h : f.kind.isPermanent = false) :
    p.classify env f =
      { staleness := verdict (p.firedSignals f) (p.pastAging env f)
        signals := p.firedSignals f } := by
  rw [classify, if_neg (by rw [h]; exact Bool.false_ne_true)]
  rfl

theorem classify_staleness (h : f.kind.isPermanent = false) :
    (p.classify env f).staleness = verdict (p.classify env f).signals (p.pastAging env f) := by
  rw [classify_lasting h]

theorem mem_firedSignals_iff {s : StaleSignal} : s ∈ p.firedSignals f ↔ p.Fires f s := by
  unfold firedSignals
  cases s <;> simp [Fires, and_assoc, and_comm, and_left_comm]

theorem mem_signals_iff {s : StaleSignal} :
    s ∈ (p.classify env f).signals ↔ f.kind.isPermanent = false ∧ p.Fires f s := by
  cases h : f.kind.isPermanent with
  | true =>
    rw [classify_permanent h]
    simp
  | false =>
    rw [classify_lasting h, mem_firedSignals_iff]
    simp

theorem verdict_eq_stale_iff {ss : List StaleSignal} {aging : Bool} :
    verdict ss aging = .stale ↔ ss ≠ [] := by
  cases ss with
  | nil => cases aging <;> simp [verdict]
  | cons s ss => simp [verdict]

theorem verdict_eq_aging_iff {ss : List StaleSignal} {aging : Bool} :
    verdict ss aging = .aging ↔ ss = [] ∧ aging = true := by
  cases ss with
  | nil => cases aging <;> simp [verdict]
  | cons s ss => simp [verdict]

theorem stale_iff : (p.classify env f).staleness = .stale ↔ (p.classify env f).signals ≠ [] := by
  cases h : f.kind.isPermanent with
  | true =>
    rw [classify_permanent h]
    decide
  | false =>
    rw [classify_staleness h]
    exact verdict_eq_stale_iff

end FlagPolicy

/-! ## More evidence -/

/-- Verdicts by severity.  `permanent` stands apart. -/
def Staleness.le : Staleness → Staleness → Bool
  | .fresh, .fresh | .fresh, .aging | .fresh, .stale => true
  | .aging, .aging | .aging, .stale | .stale, .stale => true
  | .permanent, .permanent => true
  | _, _ => false

/-- The second verdict is at least as severe, and every kind of signal that fired for
the first fired for the second. -/
structure NoStaler (c d : Classification) : Prop where
  staleness_le : c.staleness.le d.staleness = true
  kinds : ∀ s ∈ c.signals, ∃ t ∈ d.signals, t.asStr = s.asStr

/-- Every `u32` is a binary64 value, so `as f64` keeps it. -/
def FloatEnv.ConvertsU32 (env : FloatEnv) : Prop :=
  ∀ n : UInt32, env.ofNat n.toNat = .fin n.toNat

theorem FloatEnv.exact_convertsU32 : FloatEnv.exact.ConvertsU32 := fun _ => rfl

namespace FlagPolicy

variable {env : FloatEnv} {p q : FlagPolicy} {f g : FlagFacts}

theorem verdict_mono {ss ts : List StaleSignal} {a b : Bool} (hs : ss ≠ [] → ts ≠ [])
    (hab : a = true → b = true) : (verdict ss a).le (verdict ts b) = true := by
  cases ts with
  | cons t ts =>
    have htop : verdict (t :: ts) b = .stale := rfl
    rw [htop]
    cases ss with
    | cons s ss => rfl
    | nil => cases a <;> rfl
  | nil =>
    have hnil : ss = [] := by
      by_contra hne
      exact hs hne rfl
    rw [hnil]
    cases a with
    | false => cases b <;> rfl
    | true =>
      rw [hab rfl]
      rfl

theorem noStaler_of_fires (hkind : f.kind = g.kind)
    (hfires : ∀ s, p.Fires f s → ∃ t, q.Fires g t ∧ t.asStr = s.asStr)
    (haging : p.pastAging env f = true → q.pastAging env g = true) :
    NoStaler (p.classify env f) (q.classify env g) := by
  cases h : f.kind.isPermanent with
  | true =>
    rw [classify_permanent h, classify_permanent (hkind ▸ h)]
    exact ⟨rfl, List.forall_mem_nil _⟩
  | false =>
    have hg : g.kind.isPermanent = false := hkind ▸ h
    have hkinds : ∀ s ∈ (p.classify env f).signals,
        ∃ t ∈ (q.classify env g).signals, t.asStr = s.asStr := by
      intro s hs
      obtain ⟨t, ht, hname⟩ := hfires s (mem_signals_iff.mp hs).2
      exact ⟨t, mem_signals_iff.mpr ⟨hg, ht⟩, hname⟩
    refine ⟨?_, hkinds⟩
    rw [classify_staleness h, classify_staleness hg]
    refine verdict_mono (fun hne => ?_) haging
    obtain ⟨s, hs⟩ := List.exists_mem_of_ne_nil _ hne
    obtain ⟨t, ht, _⟩ := hkinds s hs
    exact List.ne_nil_of_mem ht

theorem pastAging_mono (hconv : env.ConvertsU32) (hkind : f.kind = g.kind)
    (hage : f.effectiveAge ≤ g.effectiveAge) (h : p.pastAging env f = true) :
    p.pastAging env g = true := by
  have hle : (env.ofNat f.effectiveAge.toNat).le (env.ofNat g.effectiveAge.toNat) = true := by
    rw [hconv, hconv, F64.le, decide_eq_true_eq]
    exact_mod_cast UInt32.le_iff_toNat_le.mp hage
  rw [pastAging, ← hkind]
  exact F64.le_trans h hle

/-- The same facts but for an effective age that is not lower. -/
structure Older (f g : FlagFacts) : Prop where
  kind_eq : f.kind = g.kind
  percentage_eq : f.percentage = g.percentage
  evaluated_eq : f.lastEvaluatedAgeDays = g.lastEvaluatedAgeDays
  tracked_eq : f.evaluationTracked = g.evaluationTracked
  age_le : f.effectiveAge ≤ g.effectiveAge

theorem noStaler_of_older (hconv : env.ConvertsU32) (h : Older f g) :
    NoStaler (p.classify env f) (p.classify env g) := by
  refine noStaler_of_fires h.kind_eq (fun s hs => ?_) (pastAging_mono hconv h.kind_eq h.age_le)
  cases s with
  | agedPastDeadline age deadline =>
    obtain ⟨-, -, hdeadline⟩ := hs
    refine ⟨.agedPastDeadline g.effectiveAge g.kind.deadline, ⟨rfl, rfl, ?_⟩, rfl⟩
    rw [← h.kind_eq]
    exact UInt32.le_trans hdeadline h.age_le
  | neverEvaluated =>
    refine ⟨.neverEvaluated, ?_, rfl⟩
    rw [Fires, ← h.tracked_eq, ← h.evaluated_eq, ← h.percentage_eq]
    exact hs
  | fullyRolledOut =>
    refine ⟨.fullyRolledOut, ?_, rfl⟩
    rw [Fires, ← h.percentage_eq]
    exact hs

/-- The second policy has the rules of the first, and perhaps more of them. -/
structure Extends (p q : FlagPolicy) : Prop where
  ratio_eq : p.agingRatio = q.agingRatio
  rolled_out : p.staleWhenFullyRolledOut = true → q.staleWhenFullyRolledOut = true
  never_evaluated : p.staleWhenNeverEvaluated = true → q.staleWhenNeverEvaluated = true

theorem Extends.fires (h : Extends p q) {s : StaleSignal} (hs : p.Fires f s) : q.Fires f s := by
  cases s with
  | agedPastDeadline age deadline => exact hs
  | neverEvaluated => exact ⟨h.never_evaluated hs.1, hs.2⟩
  | fullyRolledOut => exact ⟨h.rolled_out hs.1, hs.2⟩

theorem noStaler_of_extends (h : Extends p q) :
    NoStaler (p.classify env f) (q.classify env f) ∧
      (p.classify env f).signals ⊆ (q.classify env f).signals := by
  constructor
  · refine noStaler_of_fires rfl (fun s hs => ⟨s, h.fires hs, rfl⟩) (fun haging => ?_)
    rw [pastAging, ← h.ratio_eq]
    exact haging
  · intro s hs
    obtain ⟨hkind, hfires⟩ := mem_signals_iff.mp hs
    exact mem_signals_iff.mpr ⟨hkind, h.fires hfires⟩

theorem recordEdit_older {ageDays : UInt32} (h : ageDays ≤ f.ageDays) :
    Older (f.recordEdit ageDays) f := by
  refine ⟨rfl, rfl, rfl, rfl, ?_⟩
  show min ageDays (f.lastChangedAgeDays.getD ageDays) ≤ f.lastChangedAgeDays.getD f.ageDays
  cases f.lastChangedAgeDays with
  | none => exact UInt32.le_trans Std.min_le_left h
  | some last => exact Std.min_le_right

/-- An older flag is judged no more mildly, an edit makes no flag staler, a rule switched
on takes nothing back, and it is the signals that make a flag stale. -/
theorem staleness_monotone (hconv : env.ConvertsU32) :
    (∀ (p : FlagPolicy) (f g : FlagFacts), Older f g →
      NoStaler (p.classify env f) (p.classify env g)) ∧
    (∀ (p : FlagPolicy) (f : FlagFacts) (ageDays : UInt32), ageDays ≤ f.ageDays →
      NoStaler (p.classify env (f.recordEdit ageDays)) (p.classify env f)) ∧
    (∀ (p q : FlagPolicy) (f : FlagFacts), Extends p q →
      NoStaler (p.classify env f) (q.classify env f) ∧
        (p.classify env f).signals ⊆ (q.classify env f).signals) ∧
    ∀ (p : FlagPolicy) (f : FlagFacts),
      (p.classify env f).staleness = .stale ↔ (p.classify env f).signals ≠ [] :=
  ⟨fun _ _ _ h => noStaler_of_older hconv h,
    fun _ _ _ h => noStaler_of_older hconv (recordEdit_older h),
    fun _ _ _ h => noStaler_of_extends h, fun _ _ => stale_iff⟩

/-- A release flag of 400 days that is at 10 percent, edited two days ago. -/
theorem staleness_monotone_edited :
    NoStaler
      (standard.classify .exact ⟨.release, 400, some 2, 10, some 1, true⟩)
      (standard.classify .exact ⟨.release, 400, none, 10, some 1, true⟩) :=
  (staleness_monotone FloatEnv.exact_convertsU32).2.1 standard
    ⟨.release, 400, none, 10, some 1, true⟩ 2 (by decide)

/-! ## A flag without a timestamp -/

variable {T : Type}

/-- Age plays no part in what `classify_flag` says. -/
structure Unjudged (env : FloatEnv) (p : FlagPolicy) (flag : Flag T) (f : FlagFacts) : Prop where
  not_aged : ∀ s ∈ (p.classifyFlag env flag f).signals, s.asStr ≠ "aged_past_deadline"
  not_aging : (p.classifyFlag env flag f).staleness ≠ .aging
  age_ignored : ∀ ageDays,
    p.classifyFlag env flag { f with ageDays } = p.classifyFlag env flag f
  fresh : f.kind.isPermanent = false →
    (∀ s ∈ (p.classifyFlag env flag f).signals, s.asStr = "aged_past_deadline") →
      (p.classifyFlag env flag f).staleness = .fresh

theorem aged_mem_iff (env : FloatEnv) (p : FlagPolicy) (flag : Flag T) (f : FlagFacts) :
    (∃ s ∈ (p.classifyFlag env flag f).signals, s.asStr = "aged_past_deadline") ↔
      f.kind.isPermanent = false ∧ f.kind.deadline ≤ f.effectiveAge := by
  constructor
  · intro hex
    obtain ⟨s, hs, hname⟩ := hex
    obtain ⟨hkind, hfires⟩ := mem_signals_iff.mp hs
    cases s with
    | agedPastDeadline age deadline => exact ⟨hkind, hfires.2.2⟩
    | fullyRolledOut => exact absurd hname (by decide)
    | neverEvaluated => exact absurd hname (by decide)
  · intro h
    exact ⟨.agedPastDeadline f.effectiveAge f.kind.deadline,
      mem_signals_iff.mpr ⟨h.1, rfl, rfl, h.2⟩, rfl⟩

theorem aging_iff (p : FlagPolicy) (flag : Flag T) (h : f.kind.isPermanent = false) :
    (p.classifyFlag env flag f).staleness = .aging ↔
      (¬ ∃ s, p.Fires f s) ∧ p.pastAging env f = true := by
  have hnil : (p.classify env f).signals = [] ↔ ¬ ∃ s, p.Fires f s := by
    rw [List.eq_nil_iff_forall_not_mem, not_exists]
    exact forall_congr' fun s => not_congr (mem_signals_iff.trans (and_iff_right h))
  rw [classifyFlag, classify_staleness h, ← hnil]
  exact verdict_eq_aging_iff

/-- Of a permanent flag everything is said without its age. -/
theorem unjudged_of_permanent (env : FloatEnv) (p : FlagPolicy) (flag : Flag T)
    (h : f.kind.isPermanent = true) :
    Unjudged env p flag f := by
  have hclass : ∀ ageDays, p.classifyFlag env flag { f with ageDays } =
      { staleness := .permanent, signals := [] } := fun ageDays => classify_permanent h
  have hself : p.classifyFlag env flag f = { staleness := .permanent, signals := [] } :=
    classify_permanent h
  refine ⟨?_, ?_, fun ageDays => (hclass ageDays).trans hself.symm, fun hnot => ?_⟩
  · rw [hself]
    exact List.forall_mem_nil _
  · rw [hself]
    decide
  · rw [h] at hnot
    cases hnot

/-- An old enough flag of any other kind is judged by its age. -/
theorem permanent_of_unjudged {flag : Flag T} (hchanged : f.lastChangedAgeDays = none)
    (h : Unjudged env p flag f) : f.kind.isPermanent = true := by
  rw [← Bool.not_eq_false]
  intro hkind
  have hage : f.kind.deadline ≤ ({ f with ageDays := f.kind.deadline } : FlagFacts).effectiveAge := by
    rw [FlagFacts.effectiveAge, hchanged]
    exact UInt32.le_refl _
  obtain ⟨s, hs, hname⟩ :=
    (aged_mem_iff env p flag { f with ageDays := f.kind.deadline }).mpr ⟨hkind, hage⟩
  rw [h.age_ignored] at hs
  exact h.not_aged s hs hname

theorem aged_flag_is_judged :
    ¬ ∀ (env : FloatEnv) (p : FlagPolicy) (flag : Flag Int64) (f : FlagFacts),
      flag.createdAt = none → f.lastChangedAgeDays = none → Unjudged env p flag f := by
  intro hall
  have h := hall .exact standard ⟨⟨"checkout"⟩, true, 50, none⟩
    ⟨.release, 400, none, 50, some 1, true⟩ rfl rfl
  exact absurd (permanent_of_unjudged rfl h) (by decide)

/-- Without a known change, age plays no part exactly for the permanent kinds, whatever
timestamp the flag carries.  At given facts nothing is said by age as long as the flag is
below its deadline, and another signal fires or the aging threshold is not reached. -/
theorem unjudged_iff (p : FlagPolicy) (flag : Flag T) (f : FlagFacts)
    (hchanged : f.lastChangedAgeDays = none) :
    (Unjudged env p flag f ↔ f.kind.isPermanent = true) ∧
    (((∀ s ∈ (p.classifyFlag env flag f).signals, s.asStr ≠ "aged_past_deadline") ∧
        (p.classifyFlag env flag f).staleness ≠ .aging) ↔
      f.kind.isPermanent = true ∨
        (f.ageDays < f.kind.deadline ∧ ((∃ s, p.Fires f s) ∨ p.pastAging env f = false))) := by
  refine ⟨⟨permanent_of_unjudged hchanged, unjudged_of_permanent env p flag⟩, ?_⟩
  cases hkind : f.kind.isPermanent with
  | true =>
    have h := unjudged_of_permanent env p flag hkind
    exact iff_of_true ⟨h.not_aged, h.not_aging⟩ (Or.inl rfl)
  | false =>
    have heff : f.effectiveAge = f.ageDays := by rw [FlagFacts.effectiveAge, hchanged]; rfl
    have haged := aged_mem_iff env p flag f
    rw [heff, and_iff_right hkind] at haged
    have hnone : (∀ s ∈ (p.classifyFlag env flag f).signals, s.asStr ≠ "aged_past_deadline") ↔
        f.ageDays < f.kind.deadline := by
      rw [← UInt32.not_le, ← haged]
      simp
    rw [hnone, Ne, aging_iff p flag hkind, not_and_or, not_not, Bool.not_eq_true]
    simp

theorem unjudged_of_permission :
    Unjudged .exact standard (⟨⟨"checkout"⟩, true, 50, none⟩ : Flag Int64)
      ⟨.permission, 400, none, 50, some 1, true⟩ :=
  (unjudged_iff standard (⟨⟨"checkout"⟩, true, 50, none⟩ : Flag Int64)
    ⟨.permission, 400, none, 50, some 1, true⟩ rfl).1.mpr rfl

end FlagPolicy
end FlagKit
