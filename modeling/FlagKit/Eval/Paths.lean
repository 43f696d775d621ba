import FlagKit.Eval.Evaluator
import FlagKit.Lifecycle.Rollout
import FlagKit.Store.Memory

/-!
# Evaluation paths

The percentage decision exists in six copies: the two of the evaluator,
`rollout_decision`, `in_rollout`, `in_rollout_for_org` and `Rollout::evaluate`.
They treat 0 and 100 in different ways and agree on every flag of an in-memory
store.
-/

namespace FlagKit

open Machine

variable {T : Type} (finish : DefaultHasher)

theorem rolloutDecision_unsalted (flagName userId : String) (percentage : UInt8) :
    (rolloutDecision finish flagName userId percentage "").enabled =
      decide (bucket finish flagName userId < percentage) :=
  rolloutDecision_enabled finish flagName userId percentage ""

theorem inRolloutForOrg_none (flagName userId : String) (percentage : UInt8) :
    inRolloutForOrg finish flagName userId none percentage =
      decide (bucket finish flagName userId < percentage) := by
  rw [inRolloutForOrg, bucketWithOrg_none]

/-! ## Runs of the in-memory store -/

inductive MemoryOp (T : Type) where
  | set (flag : Flag T)
  | delete (name : FlagName)
  | clear

def MemoryFlagStore.step (s : MemoryFlagStore T) : MemoryOp T → Unit × MemoryFlagStore T
  | .set flag => ((), (s.set flag).2)
  | .delete name => ((), (s.delete name).2)
  | .clear => ((), s.clear)

/-- What the paths answer for a stored flag. -/
structure PathsAgree (order : ScanOrder (Flag T)) (s : MemoryFlagStore T) (f : Flag T)
    (userId : String) (orgId : Option String) : Prop where
  one_entry : ((Evaluator.enabledForAll finish (memoryFlagStore order) s userId orgId).map
    Prod.fst).count f.name = 1
  bulk : (f.name, Evaluator.enabledFor finish (memoryFlagStore order) s f.name userId orgId) ∈
    Evaluator.enabledForAll finish (memoryFlagStore order) s userId orgId
  decision : Evaluator.enabledFor finish (memoryFlagStore order) s f.name userId orgId =
    (f.enabled && (rolloutDecision finish f.name.asStr userId f.percentage "").enabled)
  in_rollout : Evaluator.enabledFor finish (memoryFlagStore order) s f.name userId orgId =
    (f.enabled && inRollout finish f.name.asStr userId f.percentage)
  in_rollout_for_org : Evaluator.enabledFor finish (memoryFlagStore order) s f.name userId orgId =
    (f.enabled && inRolloutForOrg finish f.name.asStr userId none f.percentage)
  rollout : f.percentage ≤ 100 → ∃ r, Rollout.new f.name f.percentage "" = .ok r ∧
    Evaluator.enabledFor finish (memoryFlagStore order) s f.name userId orgId =
      (f.enabled && (r.evaluate finish userId).enabled)

theorem enabledFor_stored (order : ScanOrder (Flag T)) {s : MemoryFlagStore T} {f : Flag T}
    (hf : s.get f.name = some f) (userId : String) (orgId : Option String) :
    Evaluator.enabledFor finish (memoryFlagStore order) s f.name userId orgId =
      (f.enabled && decide (bucket finish f.name.asStr userId < f.percentage)) := by
  have hcat : s.catalog f.name = some f.setting := by
    rw [MemoryFlagStore.catalog, hf]
    rfl
  rw [(s.represents order).enabledFor_eq, hcat]
  rfl

theorem pathsAgree_of_stored (order : ScanOrder (Flag T)) {s : MemoryFlagStore T} {f : Flag T}
    (hf : s.get f.name = some f) (userId : String) (orgId : Option String) :
    PathsAgree finish order s f userId orgId := by
  have hrep := s.represents order
  have hlist : f ∈ (memoryFlagStore order).list s := (s.mem_list order f).mpr hf
  have hcat : s.catalog f.name = some f.setting :=
    (hrep.mem_list _ _).mp ⟨f, hlist, rfl, rfl⟩
  have henabled := enabledFor_stored finish order hf userId orgId
  refine ⟨?_, ?_, ?_, henabled, ?_, fun h100 => ?_⟩
  · rw [Represents.names_enabledForAll]
    exact List.count_eq_one_of_mem hrep.list_nodup (List.mem_map_of_mem hlist)
  · rw [hrep.mem_enabledForAll, henabled]
    exact ⟨f.setting, hcat, rfl⟩
  · rw [henabled, rolloutDecision_unsalted]
  · rw [henabled, inRolloutForOrg_none]
  · refine ⟨_, Rollout.new_eq_ok_iff.mpr ⟨h100, rfl⟩, ?_⟩
    rw [henabled, ← rolloutDecision_unsalted]
    rfl

/-- In every state of the in-memory store the bulk evaluation names stored flags
only, and for a stored flag all paths agree. -/
theorem evaluation_paths_agree (order : ScanOrder (Flag T)) (ops : List (MemoryOp T))
    (userId : String) (orgId : Option String) :
    (∀ e ∈ Evaluator.enabledForAll finish (memoryFlagStore order)
        (final MemoryFlagStore.step MemoryFlagStore.new ops) userId orgId,
      ((final MemoryFlagStore.step MemoryFlagStore.new ops).get e.1).isSome = true) ∧
    ∀ f, (final MemoryFlagStore.step MemoryFlagStore.new ops).get f.name = some f →
      PathsAgree finish order (final MemoryFlagStore.step MemoryFlagStore.new ops) f userId
        orgId := by
  refine ⟨fun e he => ?_, fun f hf => pathsAgree_of_stored finish order hf userId orgId⟩
  have hrep := (final MemoryFlagStore.step MemoryFlagStore.new ops).represents order
  obtain ⟨v, hv, _⟩ := (hrep.mem_enabledForAll finish userId orgId e.1 e.2).mp he
  obtain ⟨f, hf, _⟩ := hrep.get_eq_some hv
  show ((memoryFlagStore order).get _ e.1).isSome = true
  rw [hf]
  rfl

theorem evaluation_paths_agree_above_hundred :
    Evaluator.enabledFor (fun _ => 7) (memoryFlagStore .stored)
        (final MemoryFlagStore.step MemoryFlagStore.new
          [.set (⟨⟨"checkout"⟩, true, 200, none⟩ : Flag Int)]) ⟨"checkout"⟩ "u1" none =
      (true && inRollout (fun _ => 7) "checkout" "u1" 200) :=
  ((@evaluation_paths_agree Int (fun _ => 7) .stored
    [.set ⟨⟨"checkout"⟩, true, 200, none⟩] "u1" none).2
      ⟨⟨"checkout"⟩, true, 200, none⟩ (by decide)).in_rollout

end FlagKit
