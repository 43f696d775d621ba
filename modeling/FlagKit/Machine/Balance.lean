import FlagKit.Machine.Run

/-!
# Accounts kept along a run

Every step of a machine takes something in, pays something out and leaves the rest
in its state.  When one step balances so does a run: what was in the state and what
came in is what went out and what is still there.  No step is charged twice and
none is forgotten, so bounds on what comes in are bounds on what can go out.
-/

namespace FlagKit
namespace Machine

variable {σ ι ο : Type}

/-- The sum of `f` over the steps of a run. -/
def total (f : Event σ ι ο → Nat) : List (Event σ ι ο) → Nat
  | [] => 0
  | e :: es => f e + total f es

@[simp] theorem total_nil (f : Event σ ι ο → Nat) : total f [] = 0 := rfl

@[simp] theorem total_cons (f : Event σ ι ο → Nat) (e : Event σ ι ο) (es : List (Event σ ι ο)) :
    total f (e :: es) = f e + total f es := rfl

theorem total_add (f g : Event σ ι ο → Nat) (es : List (Event σ ι ο)) :
    total (fun e => f e + g e) es = total f es + total g es := by
  induction es with
  | nil => rfl
  | cons e es ih =>
    rw [total_cons, total_cons, total_cons, ih]
    omega

/-- A fixed amount for the steps that satisfy `p`. -/
theorem total_ite (p : Event σ ι ο → Prop) [DecidablePred p] (k : Nat)
    (es : List (Event σ ι ο)) :
    total (fun e => if p e then k else 0) es = k * es.countP (fun e => p e) := by
  induction es with
  | nil => rfl
  | cons e es ih =>
    rw [total_cons, ih, List.countP_cons]
    by_cases hp : p e
    · rw [if_pos hp, if_pos (decide_eq_true hp), Nat.mul_add]
      omega
    · rw [if_neg hp, if_neg (by simpa using hp), Nat.add_zero, Nat.zero_add]

theorem total_le {f g : Event σ ι ο → Nat} {es : List (Event σ ι ο)}
    (h : ∀ e ∈ es, f e ≤ g e) : total f es ≤ total g es := by
  induction es with
  | nil => exact Nat.le_refl 0
  | cons e es ih =>
    rw [List.forall_mem_cons] at h
    exact Nat.add_le_add h.1 (ih h.2)

theorem total_eq_zero {f : Event σ ι ο → Nat} {es : List (Event σ ι ο)}
    (h : ∀ e ∈ es, f e = 0) : total f es = 0 := by
  induction es with
  | nil => rfl
  | cons e es ih =>
    rw [List.forall_mem_cons] at h
    rw [total_cons, h.1, ih h.2]

/-- The account of a run: the state holds `φ`, a step pays in `f` and takes out `g`. -/
theorem balance_final {step : σ → ι → ο × σ} {J : σ → Prop} {φ : σ → Nat}
    {f g : Event σ ι ο → Nat} (hkept : ∀ s i, J s → J (step s i).2)
    (hstep : ∀ s i, J s → φ s + f (event step s i) = g (event step s i) + φ (step s i).2)
    {s : σ} (hs : J s) (is : List ι) :
    φ s + total f (trace step s is) = total g (trace step s is) + φ (final step s is) := by
  induction is generalizing s with
  | nil => exact Nat.add_comm _ _
  | cons i is ih =>
    have hone := hstep s i hs
    have hrest := ih (hkept s i hs)
    rw [trace_cons, total_cons, total_cons, final_cons]
    omega

end Machine
end FlagKit
