import FlagKit.Eval.Bucket
import FlagKit.Store.Interface

/-!
# The evaluator

`Evaluator` asks a store for a flag, or for all of them, and decides for one user.
The decision is written out twice in the source, each time with special cases for
0 and 100 percent.  Both copies are `Setting.admits`: since a bucket is below 100,
the comparison with the bucket already gives the special cases, and a percentage
above 100 admits everyone.  So what the evaluator answers is a function of the
catalog its store represents.
-/

namespace FlagKit

variable {σ τ T : Type} (finish : DefaultHasher)

namespace Evaluator

def enabled (S : FlagStore σ T) (s : σ) (name : FlagName) : Bool :=
  match S.get s name with
  | some flag => flag.enabled
  | none => false

/-- The organisation is accepted and ignored. -/
def enabledFor (S : FlagStore σ T) (s : σ) (name : FlagName) (userId : String)
    (_orgId : Option String) : Bool :=
  match S.get s name with
  | none => false
  | some flag =>
    if !flag.enabled then false
    else if flag.percentage = 0 then false
    else if flag.percentage = 100 then true
    else decide (bucket finish name.asStr userId < flag.percentage)

def enabledForAll (S : FlagStore σ T) (s : σ) (userId : String) (_orgId : Option String) :
    List (FlagName × Bool) :=
  (S.list s).map fun flag =>
    let enabled :=
      if !flag.enabled || flag.percentage = 0 then false
      else if flag.percentage = 100 then true
      else decide (bucket finish flag.name.asStr userId < flag.percentage)
    (flag.name, enabled)

end Evaluator

/-! ## The decision -/

/-- The flag is on and the bucket of the user is below its percentage. -/
def Setting.admits (v : Setting) (name : FlagName) (userId : String) : Bool :=
  v.enabled && decide (bucket finish name.asStr userId < v.percentage)

theorem special_cases_eq (flagName userId : String) (percentage : UInt8) :
    (if percentage = 0 then false
      else if percentage = 100 then true
      else decide (bucket finish flagName userId < percentage)) =
      decide (bucket finish flagName userId < percentage) := by
  by_cases h0 : percentage = 0
  · rw [if_pos h0, h0, decide_eq_false UInt8.not_lt_zero]
  · by_cases h100 : percentage = 100
    · rw [if_neg h0, if_pos h100, h100, decide_eq_true (bucket_lt finish flagName userId)]
    · rw [if_neg h0, if_neg h100]

namespace Represents

variable {S : FlagStore σ T} {s : σ} {m : Catalog}

theorem enabled_eq (h : Represents S s m) (name : FlagName) :
    Evaluator.enabled S s name = ((m name).map Setting.enabled).getD false := by
  cases hm : m name with
  | none => simp [Evaluator.enabled, h.get_eq_none hm]
  | some v =>
    obtain ⟨f, hget, _, rfl⟩ := h.get_eq_some hm
    simp [Evaluator.enabled, hget, Flag.setting]

theorem enabledFor_eq (h : Represents S s m) (name : FlagName) (userId : String)
    (orgId : Option String) :
    Evaluator.enabledFor finish S s name userId orgId =
      ((m name).map (fun v => v.admits finish name userId)).getD false := by
  cases hm : m name with
  | none => simp [Evaluator.enabledFor, h.get_eq_none hm]
  | some v =>
    obtain ⟨f, hget, _, rfl⟩ := h.get_eq_some hm
    simp only [Evaluator.enabledFor, hget, special_cases_eq]
    cases hf : f.enabled <;> simp [Setting.admits, Flag.setting, hf]

theorem enabledForAll_eq (S : FlagStore σ T) (s : σ) (userId : String) (orgId : Option String) :
    Evaluator.enabledForAll finish S s userId orgId =
      (S.list s).map (fun f => (f.name, f.setting.admits finish f.name userId)) := by
  unfold Evaluator.enabledForAll
  apply List.map_congr_left
  intro f _
  cases hf : f.enabled with
  | false => simp [Setting.admits, Flag.setting, hf]
  | true =>
    have hcases := special_cases_eq finish f.name.asStr userId f.percentage
    simp only [Bool.not_true, Bool.false_or, decide_eq_true_eq, hcases]
    simp [Setting.admits, Flag.setting, hf]

theorem mem_enabledForAll (h : Represents S s m) (userId : String) (orgId : Option String)
    (name : FlagName) (b : Bool) :
    (name, b) ∈ Evaluator.enabledForAll finish S s userId orgId ↔
      ∃ v, m name = some v ∧ v.admits finish name userId = b := by
  rw [enabledForAll_eq, List.mem_map]
  constructor
  · intro hex
    obtain ⟨f, hf, heq⟩ := hex
    rw [Prod.mk.injEq] at heq
    obtain ⟨rfl, hb⟩ := heq
    exact ⟨f.setting, (h.mem_list _ _).mp ⟨f, hf, rfl, rfl⟩, hb⟩
  · intro hex
    obtain ⟨v, hm, hb⟩ := hex
    obtain ⟨f, hf, rfl, rfl⟩ := (h.mem_list _ _).mpr hm
    exact ⟨f, hf, by rw [hb]⟩

theorem names_enabledForAll (S : FlagStore σ T) (s : σ) (userId : String)
    (orgId : Option String) :
    (Evaluator.enabledForAll finish S s userId orgId).map Prod.fst = (S.list s).map Flag.name := by
  rw [enabledForAll_eq, List.map_map]
  rfl

theorem enabledForAll_nodup (h : Represents S s m) (userId : String) (orgId : Option String) :
    (Evaluator.enabledForAll finish S s userId orgId).Nodup := by
  apply List.Nodup.of_map Prod.fst
  rw [names_enabledForAll]
  exact h.list_nodup

end Represents
end FlagKit
