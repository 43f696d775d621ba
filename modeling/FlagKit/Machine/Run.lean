import Mathlib.Data.List.Infix

/-!
# Runs of a machine that answers each input

A machine is a function `step : σ → ι → ο × σ`: a state takes an input, gives an
output and becomes another state.  `final` is the state after a list of inputs
and `trace` the list of steps taken, each recorded with the state before it and
the state after it.

The rules below are the ones a statement about every run needs.  An invariant kept
by one step is kept by a run, also when it speaks of the steps already taken
(`history_final`).  A relation between two machines kept by one step is kept by
two runs (`related_final`), also when the input of the second machine is a label
read off the state of the first (`simulated_final`).

An operation that may panic is a step too (`tries`): the panic answers nothing.
-/

namespace FlagKit
namespace Machine

variable {σ ι ο τ κ π : Type}

structure Event (σ ι ο : Type) where
  before : σ
  input : ι
  output : ο
  after : σ

def event (step : σ → ι → ο × σ) (s : σ) (i : ι) : Event σ ι ο :=
  { before := s, input := i, output := (step s i).1, after := (step s i).2 }

def final (step : σ → ι → ο × σ) : σ → List ι → σ
  | s, [] => s
  | s, i :: is => final step (step s i).2 is

def trace (step : σ → ι → ο × σ) : σ → List ι → List (Event σ ι ο)
  | _, [] => []
  | s, i :: is => event step s i :: trace step (step s i).2 is

/-- An operation whose panic, `none`, comes before it writes anything. -/
def tries (f : σ → ι → Option (ο × σ)) (s : σ) (i : ι) : Option ο × σ :=
  match f s i with
  | some (o, t) => (some o, t)
  | none => (none, s)

theorem tries_of_eq_some {f : σ → ι → Option (ο × σ)} {s t : σ} {i : ι} {o : ο}
    (h : f s i = some (o, t)) : tries f s i = (some o, t) := by
  rw [tries, h]

theorem tries_of_eq_none {f : σ → ι → Option (ο × σ)} {s : σ} {i : ι} (h : f s i = none) :
    tries f s i = (none, s) := by
  rw [tries, h]

section Basic

variable (step : σ → ι → ο × σ)

@[simp] theorem final_nil (s : σ) : final step s [] = s := rfl

@[simp] theorem final_cons (s : σ) (i : ι) (is : List ι) :
    final step s (i :: is) = final step (step s i).2 is := rfl

@[simp] theorem trace_nil (s : σ) : trace step s [] = [] := rfl

@[simp] theorem trace_cons (s : σ) (i : ι) (is : List ι) :
    trace step s (i :: is) = event step s i :: trace step (step s i).2 is := rfl

@[simp] theorem event_before (s : σ) (i : ι) : (event step s i).before = s := rfl
@[simp] theorem event_input (s : σ) (i : ι) : (event step s i).input = i := rfl
@[simp] theorem event_output (s : σ) (i : ι) : (event step s i).output = (step s i).1 := rfl
@[simp] theorem event_after (s : σ) (i : ι) : (event step s i).after = (step s i).2 := rfl

theorem final_append (s : σ) (is js : List ι) :
    final step s (is ++ js) = final step (final step s is) js := by
  induction is generalizing s with
  | nil => rfl
  | cons i is ih => exact ih (step s i).2

theorem trace_append (s : σ) (is js : List ι) :
    trace step s (is ++ js) = trace step s is ++ trace step (final step s is) js := by
  induction is generalizing s with
  | nil => rfl
  | cons i is ih =>
    simp only [List.cons_append, trace_cons, final_cons]
    rw [ih]

theorem final_concat (s : σ) (is : List ι) (i : ι) :
    final step s (is ++ [i]) = (step (final step s is) i).2 := by
  rw [final_append]
  rfl

theorem trace_concat (s : σ) (is : List ι) (i : ι) :
    trace step s (is ++ [i]) = trace step s is ++ [event step (final step s is) i] := by
  rw [trace_append]
  rfl

end Basic

variable {step : σ → ι → ο × σ}

/-- A step of a run splits it: the inputs before, its own input, the inputs
after, and it is taken in the state the first of them lead to. -/
theorem trace_split {s : σ} {is : List ι} {h t : List (Event σ ι ο)} {e : Event σ ι ο}
    (hsplit : trace step s is = h ++ e :: t) :
    ∃ pre i post, is = pre ++ i :: post ∧ h = trace step s pre ∧
      e = event step (final step s pre) i := by
  induction is generalizing s h with
  | nil => simp at hsplit
  | cons i is ih =>
    cases h with
    | nil =>
      simp only [trace_cons, List.nil_append, List.cons.injEq] at hsplit
      exact ⟨[], i, is, rfl, rfl, hsplit.1.symm⟩
    | cons d h =>
      simp only [trace_cons, List.cons_append, List.cons.injEq] at hsplit
      obtain ⟨hd, hrest⟩ := hsplit
      obtain ⟨pre, j, post, his, hh, he⟩ := ih hrest
      refine ⟨i :: pre, j, post, by rw [his]; rfl, ?_, he⟩
      rw [trace_cons, hd, hh]

theorem mem_trace {s : σ} {is : List ι} {e : Event σ ι ο} (he : e ∈ trace step s is) :
    ∃ pre i post, is = pre ++ i :: post ∧ e = event step (final step s pre) i := by
  obtain ⟨h, t, hsplit⟩ := List.append_of_mem he
  obtain ⟨pre, i, post, his, _, hev⟩ := trace_split hsplit
  exact ⟨pre, i, post, his, hev⟩

/-- What a step of a run answers is decided by the inputs before it. -/
theorem answer_of_split {s : σ} {is : List ι} {pre post : List (ι × ο)} {i : ι} {o : ο}
    (h : (trace step s is).map (fun e => (e.input, e.output)) = pre ++ (i, o) :: post) :
    o = (step (final step s (pre.map Prod.fst)) i).1 := by
  induction is generalizing s pre with
  | nil => simp at h
  | cons j is ih =>
    rw [trace_cons, List.map_cons] at h
    cases pre with
    | nil =>
      rw [List.nil_append, List.cons.injEq, Prod.mk.injEq] at h
      obtain ⟨⟨rfl, rfl⟩, -⟩ := h
      rfl
    | cons p pre =>
      rw [List.cons_append, List.cons.injEq] at h
      obtain ⟨rfl, hrest⟩ := h
      have hans := ih hrest
      exact hans

/-! ## Invariants -/

/-- An invariant kept by the inputs that satisfy `Q`. -/
theorem invariant_final_of {J : σ → Prop} {Q : ι → Prop}
    (hstep : ∀ s i, J s → Q i → J (step s i).2) {s : σ} (hs : J s) {is : List ι}
    (his : ∀ i ∈ is, Q i) : J (final step s is) := by
  induction is generalizing s with
  | nil => exact hs
  | cons i is ih =>
    rw [List.forall_mem_cons] at his
    exact ih (hstep s i hs his.1) his.2

theorem invariant_final {J : σ → Prop} (hstep : ∀ s i, J s → J (step s i).2) {s : σ}
    (hs : J s) (is : List ι) : J (final step s is) :=
  invariant_final_of (Q := fun _ => True) (fun s i h _ => hstep s i h) hs (fun _ _ => trivial)

theorem invariant_trace {J : σ → Prop} (hstep : ∀ s i, J s → J (step s i).2) {s : σ}
    (hs : J s) {is : List ι} {e : Event σ ι ο} (he : e ∈ trace step s is) :
    J e.before ∧ e = event step e.before e.input := by
  obtain ⟨pre, i, _, _, hev⟩ := mem_trace he
  rw [hev]
  exact ⟨invariant_final hstep hs pre, rfl⟩

/-- A relation between the two states of a step, when the step satisfies `P`, relates
the two ends of a run whose steps all do. -/
theorem preserved_final {J : σ → Prop} {R : σ → σ → Prop} {P : Event σ ι ο → Prop}
    (hrefl : ∀ s, R s s) (htrans : ∀ s t u, R s t → R t u → R s u)
    (hkept : ∀ s i, J s → J (step s i).2)
    (hstep : ∀ s i, J s → P (event step s i) → R s (step s i).2) {s : σ} (hs : J s)
    {is : List ι} (h : ∀ e ∈ trace step s is, P e) : R s (final step s is) := by
  induction is generalizing s with
  | nil => exact hrefl s
  | cons i is ih =>
    rw [trace_cons, List.forall_mem_cons] at h
    exact htrans _ _ _ (hstep s i hs h.1) (ih (hkept s i hs) h.2)

theorem history_final {J : List (Event σ ι ο) → σ → Prop} {s : σ} (h0 : J [] s)
    (hstep : ∀ h t i, J h t → J (h ++ [event step t i]) (step t i).2) (is : List ι) :
    J (trace step s is) (final step s is) := by
  induction is using List.reverseRecOn with
  | nil => exact h0
  | append_singleton is i ih =>
    rw [trace_concat, final_concat]
    exact hstep _ _ i ih

/-- Two properties of a step that agree wherever the invariant holds agree over
a run. -/
theorem forall_trace_congr {J : σ → Prop} {P Q : Event σ ι ο → Prop}
    (hstep : ∀ s i, J s → J (step s i).2)
    (hPQ : ∀ s i, J s → (P (event step s i) ↔ Q (event step s i))) {s : σ} (hs : J s)
    (is : List ι) : (∀ e ∈ trace step s is, P e) ↔ ∀ e ∈ trace step s is, Q e := by
  refine forall₂_congr fun e he => ?_
  obtain ⟨hb, hev⟩ := invariant_trace hstep hs he
  rw [hev]
  exact hPQ _ _ hb

/-- A property of a state and the steps before it, whose survival of a step is
decided by `Q`, holds all along a run exactly when every step of the run satisfies
`Q`. -/
theorem forall_prefix_history_iff {J : List (Event σ ι ο) → σ → Prop} {Q : σ → ι → Prop}
    (hstep : ∀ h t i, J h t → (J (h ++ [event step t i]) (step t i).2 ↔ Q t i)) {s : σ}
    (hs : J [] s) (is : List ι) :
    (∀ pre, pre <+: is → J (trace step s pre) (final step s pre)) ↔
      ∀ e ∈ trace step s is, Q e.before e.input := by
  constructor
  · intro h e he
    obtain ⟨pre, i, post, his, hev⟩ := mem_trace he
    have hbefore := h pre ⟨i :: post, his.symm⟩
    have hafter := h (pre ++ [i]) ⟨post, by rw [his, List.append_assoc]; rfl⟩
    rw [trace_concat, final_concat] at hafter
    rw [hev]
    exact (hstep _ _ i hbefore).mp hafter
  · intro h pre hpre
    induction pre using List.reverseRecOn with
    | nil => exact hs
    | append_singleton pre i ih =>
      have hbefore := ih ((List.prefix_append pre [i]).trans hpre)
      obtain ⟨post, rfl⟩ := hpre
      rw [trace_concat, final_concat]
      refine (hstep _ _ i hbefore).mpr (h (event step (final step s pre) i) ?_)
      rw [trace_append, trace_concat]
      simp

theorem forall_prefix_iff {P : σ → Prop} {Q : σ → ι → Prop}
    (hstep : ∀ s i, P s → (P (step s i).2 ↔ Q s i)) {s : σ} (hs : P s) (is : List ι) :
    (∀ pre, pre <+: is → P (final step s pre)) ↔
      ∀ e ∈ trace step s is, Q e.before e.input :=
  forall_prefix_history_iff (J := fun _ t => P t) (fun _ t i ht => hstep t i ht) hs is

/-- Inputs that leave the state alone can be deleted from a run: the steps left
over are the ones that were kept, and the final state is the same. -/
theorem trace_delete_idle {keep : Event σ ι ο → Bool}
    (hidle : ∀ s i, keep (event step s i) = false → (step s i).2 = s) (s : σ) (is : List ι) :
    trace step s (((trace step s is).filter keep).map Event.input) = (trace step s is).filter keep ∧
      final step s (((trace step s is).filter keep).map Event.input) = final step s is := by
  induction is generalizing s with
  | nil => exact ⟨rfl, rfl⟩
  | cons i is ih =>
    cases hk : keep (event step s i) with
    | true =>
      simp only [trace_cons, List.filter_cons, hk, if_true, List.map_cons, event_input, final_cons]
      exact ⟨by rw [(ih (step s i).2).1], (ih (step s i).2).2⟩
    | false =>
      simp only [trace_cons, List.filter_cons, hk, if_false, Bool.false_eq_true, final_cons]
      rw [hidle s i hk]
      exact ih s

/-! ## Two machines -/

variable {step' : τ → κ → π × τ}

/-- A relation kept by one step of both machines, on inputs related by `Q`, is
kept by their runs. -/
theorem related_final {R : σ → τ → Prop} {Q : ι → κ → Prop}
    (hstep : ∀ s t i k, R s t → Q i k → R (step s i).2 (step' t k).2) {s : σ} {t : τ}
    (hst : R s t) {is : List ι} {ks : List κ} (hik : List.Forall₂ Q is ks) :
    R (final step s is) (final step' t ks) := by
  induction hik generalizing s t with
  | nil => exact hst
  | cons hq _ ih => exact ih (hstep s t _ _ hst hq)

/-- A relation between two machines and the steps they have taken, kept when both take
one more on the same input. -/
theorem related_history_final {step' : τ → ι → π × τ}
    {J : List (Event σ ι ο) → σ → List (Event τ ι π) → τ → Prop} {s : σ} {t : τ}
    (h0 : J [] s [] t)
    (hstep : ∀ h s k t i, J h s k t →
      J (h ++ [event step s i]) (step s i).2 (k ++ [event step' t i]) (step' t i).2)
    (is : List ι) : J (trace step s is) (final step s is) (trace step' t is) (final step' t is) := by
  induction is using List.reverseRecOn with
  | nil => exact h0
  | append_singleton is i ih =>
    rw [trace_concat, final_concat, trace_concat, final_concat]
    exact hstep _ _ _ _ i ih

/-- What `f` and `g` read of the answers of two machines is the same all through, when
it is in related states. -/
theorem related_answers {ρ : Type} {step' : τ → ι → π × τ} {f : ο → ρ} {g : π → ρ}
    {R : σ → τ → Prop} {Q : ι → Prop}
    (hstep : ∀ s t i, R s t → Q i →
      f (step s i).1 = g (step' t i).1 ∧ R (step s i).2 (step' t i).2) {s : σ} {t : τ}
    (hst : R s t) {is : List ι} (his : ∀ i ∈ is, Q i) :
    (trace step s is).map (fun e => f e.output) = (trace step' t is).map (fun e => g e.output) ∧
      R (final step s is) (final step' t is) := by
  induction is generalizing s t with
  | nil => exact ⟨rfl, hst⟩
  | cons i is ih =>
    rw [List.forall_mem_cons] at his
    obtain ⟨hout, hnext⟩ := hstep s t i hst his.1
    obtain ⟨houts, hfinal⟩ := ih hnext his.2
    refine ⟨?_, hfinal⟩
    rw [trace_cons, trace_cons, List.map_cons, List.map_cons, houts]
    exact congrArg (· :: _) hout

/-- Two machines that answer alike in related states answer alike all through. -/
theorem related_outputs {step' : τ → ι → ο × τ} {R : σ → τ → Prop} {Q : ι → Prop}
    (hstep : ∀ s t i, R s t → Q i →
      (step s i).1 = (step' t i).1 ∧ R (step s i).2 (step' t i).2) {s : σ} {t : τ}
    (hst : R s t) {is : List ι} (his : ∀ i ∈ is, Q i) :
    (trace step s is).map Event.output = (trace step' t is).map Event.output ∧
      R (final step s is) (final step' t is) :=
  related_answers (f := id) (g := id) hstep hst his

def labels (step : σ → ι → ο × σ) (label : σ → ι → κ) : σ → List ι → List κ
  | _, [] => []
  | s, i :: is => label s i :: labels step label (step s i).2 is

theorem labels_eq_replicate {label : σ → ι → κ} {k : κ} {s : σ} {is : List ι}
    (h : ∀ e ∈ trace step s is, label e.before e.input = k) :
    labels step label s is = List.replicate is.length k := by
  induction is generalizing s with
  | nil => rfl
  | cons i is ih =>
    rw [labels, List.length_cons, List.replicate_succ]
    rw [trace_cons, List.forall_mem_cons] at h
    rw [ih h.2]
    exact congrArg (· :: _) h.1

/-- The second machine follows the first when it is fed the labels of its
inputs. -/
theorem simulated_final {R : σ → τ → Prop} {label : σ → ι → κ}
    (hstep : ∀ s t i, R s t → R (step s i).2 (step' t (label s i)).2) {s : σ} {t : τ}
    (hst : R s t) (is : List ι) :
    R (final step s is) (final step' t (labels step label s is)) := by
  induction is generalizing s t with
  | nil => exact hst
  | cons i is ih => exact ih (hstep s t i hst)

/-! ## Projections -/

/-- A part of a machine that moves by itself: `φ` is the part, and an input either
means a step of it or leaves it alone. -/
theorem viewed_final {φ : σ → τ} {proj : ι → Option κ} {Q : ι → Prop}
    (hmoves : ∀ s i k, Q i → proj i = some k → φ (step s i).2 = (step' (φ s) k).2)
    (hidle : ∀ s i, Q i → proj i = none → φ (step s i).2 = φ s) (s : σ) {is : List ι}
    (his : ∀ i ∈ is, Q i) : φ (final step s is) = final step' (φ s) (is.filterMap proj) := by
  induction is generalizing s with
  | nil => rfl
  | cons i is ih =>
    rw [List.forall_mem_cons] at his
    rw [final_cons, ih (step s i).2 his.2]
    cases hi : proj i with
    | none => rw [List.filterMap_cons_none hi, hidle s i his.1 hi]
    | some k => rw [List.filterMap_cons_some hi, hmoves s i k his.1 hi, final_cons]

/-- A moment of the part is a moment of the whole. -/
theorem exists_prefix_filterMap {proj : ι → Option κ} {is : List ι} {ks : List κ}
    (h : ks <+: is.filterMap proj) : ∃ js, js <+: is ∧ js.filterMap proj = ks := by
  obtain ⟨rest, hrest⟩ := h
  obtain ⟨js, js', his, hjs, _⟩ := List.filterMap_eq_append_iff.mp hrest.symm
  exact ⟨js, ⟨js', his.symm⟩, hjs⟩

end Machine
end FlagKit
