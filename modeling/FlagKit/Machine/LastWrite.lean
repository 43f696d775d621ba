import FlagKit.Machine.Run

/-!
# The last write wins

An observation of a machine that some inputs overwrite and the others leave alone is,
after any run, what the last input that overwrote it put there.
-/

namespace FlagKit
namespace Machine

variable {σ ι ο ν : Type}

/-- What the last input of a run that writes wrote. -/
def lastWrite (writes : ι → Option ν) (is : List ι) : Option ν := is.reverse.findSome? writes

@[simp] theorem lastWrite_nil (writes : ι → Option ν) : lastWrite writes [] = none := rfl

theorem lastWrite_concat (writes : ι → Option ν) (is : List ι) (i : ι) :
    lastWrite writes (is ++ [i]) = (writes i).or (lastWrite writes is) := by
  rw [lastWrite, List.reverse_append, List.reverse_singleton, List.singleton_append,
    List.findSome?_cons]
  cases h : writes i with
  | none => rfl
  | some v => rfl

theorem observed_final {step : σ → ι → ο × σ} {φ : σ → ν} {writes : ι → Option ν}
    (hstep : ∀ s i, φ (step s i).2 = (writes i).getD (φ s)) (s : σ) (is : List ι) :
    φ (final step s is) = (lastWrite writes is).getD (φ s) := by
  induction is using List.reverseRecOn with
  | nil => rfl
  | append_singleton is i ih =>
    rw [final_concat, hstep, ih, lastWrite_concat]
    cases writes i with
    | none => rfl
    | some v => rfl

end Machine
end FlagKit
