import Mathlib.Logic.Function.Basic

/-!
# Digests that take one byte at a time

A digest that folds a step over its input loses nothing in a place where the step loses
nothing: when the step is injective in the state and in the byte, two inputs that differ
in one byte have different digests, whatever stands before and after it.

The step of 64-bit FNV-1a is one.  An exclusive or with a byte can be undone, and the
prime is odd, so multiplication by it modulo `2 ^ 64` can be undone as well.
-/

namespace FlagKit

/-! ## One place changed -/

/-- The lists differ at place `i` and nowhere else. -/
def DifferAt {β : Type} (l l' : List β) (i : Nat) : Prop :=
  l[i]? ≠ l'[i]? ∧ ∀ j, j ≠ i → l[j]? = l'[j]?

theorem split_of_differAt {β : Type} {l l' : List β} {i : Nat} (hlen : l.length = l'.length)
    (h : DifferAt l l' i) :
    ∃ pre a b post, l = pre ++ a :: post ∧ l' = pre ++ b :: post ∧
      l[i]? = some a ∧ l'[i]? = some b ∧ a ≠ b := by
  obtain ⟨hne, hsame⟩ := h
  have hi : i < l.length := by
    by_contra hge
    rw [Nat.not_lt] at hge
    apply hne
    rw [List.getElem?_eq_none hge, List.getElem?_eq_none (hlen ▸ hge)]
  have hi' : i < l'.length := hlen ▸ hi
  rw [List.getElem?_eq_getElem hi, List.getElem?_eq_getElem hi', Ne, Option.some.injEq] at hne
  have hpre : l'.take i = l.take i := by
    apply List.ext_getElem?
    intro j
    rw [List.getElem?_take, List.getElem?_take]
    by_cases hj : j < i
    · rw [if_pos hj, if_pos hj, hsame j (Nat.ne_of_lt hj)]
    · rw [if_neg hj, if_neg hj]
  have hpost : l'.drop (i + 1) = l.drop (i + 1) := by
    apply List.ext_getElem?
    intro j
    rw [List.getElem?_drop, List.getElem?_drop, hsame (i + 1 + j) (by omega)]
  refine ⟨l.take i, l[i], l'[i], l.drop (i + 1), ?_, ?_, List.getElem?_eq_getElem hi,
    List.getElem?_eq_getElem hi', hne⟩
  · rw [← List.drop_eq_getElem_cons hi, List.take_append_drop]
  · rw [← hpre, ← hpost, ← List.drop_eq_getElem_cons hi', List.take_append_drop]

/-! ## Folds of an injective step -/

section Fold

variable {σ β : Type} {step : σ → β → σ}

theorem foldl_injective (hstate : ∀ b, Function.Injective (fun s => step s b)) (bs : List β) :
    Function.Injective (fun s => bs.foldl step s) := by
  induction bs with
  | nil => exact fun s t h => h
  | cons b bs ih =>
    intro s t h
    exact hstate b (ih h)

/-- One byte changed, the rest as it was. -/
theorem foldl_ne_of_one_byte (hstate : ∀ b, Function.Injective (fun s => step s b))
    (hbyte : ∀ s, Function.Injective (step s)) (s : σ) (pre post : List β) {a b : β}
    (h : a ≠ b) : (pre ++ a :: post).foldl step s ≠ (pre ++ b :: post).foldl step s := by
  rw [List.foldl_append, List.foldl_append, List.foldl_cons, List.foldl_cons]
  intro heq
  exact h (hbyte _ (foldl_injective hstate post heq))

end Fold

/-! ## FNV-1a -/

namespace Fnv1a

def offsetBasis : UInt64 := 0xcbf29ce484222325

def prime : UInt64 := 0x00000100000001b3

/-- The inverse of the prime modulo `2 ^ 64`. -/
def primeInv : UInt64 := 0xce965057aff6957b

theorem prime_mul_inv : prime * primeInv = 1 := by decide

def step (hash : UInt64) (byte : UInt8) : UInt64 := (hash ^^^ byte.toUInt64) * prime

def hash (bytes : List UInt8) : UInt64 := bytes.foldl step offsetBasis

theorem mul_prime_injective : Function.Injective (fun h : UInt64 => h * prime) := by
  intro g h heq
  have hundo : ∀ x : UInt64, x * prime * primeInv = x := by
    intro x
    rw [UInt64.mul_assoc, prime_mul_inv, UInt64.mul_one]
  calc g = g * prime * primeInv := (hundo g).symm
    _ = h * prime * primeInv := congrArg (· * primeInv) heq
    _ = h := hundo h

theorem step_state_injective (byte : UInt8) : Function.Injective (fun h => step h byte) := by
  intro g h heq
  exact (UInt64.xor_left_inj _).mp (mul_prime_injective heq)

theorem step_byte_injective (h : UInt64) : Function.Injective (step h) := by
  intro a b heq
  exact UInt8.toUInt64_inj.mp ((UInt64.xor_right_inj _).mp (mul_prime_injective heq))

theorem hash_ne_of_one_byte (pre post : List UInt8) {a b : UInt8} (h : a ≠ b) :
    hash (pre ++ a :: post) ≠ hash (pre ++ b :: post) :=
  foldl_ne_of_one_byte step_state_injective step_byte_injective offsetBasis pre post h

end Fnv1a
end FlagKit
