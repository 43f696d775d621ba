import FlagKit.Eval.Paths
import FlagKit.Machine.LastWrite
import FlagKit.Store.Visible

/-!
# What a store remembers

A store is a history of calls, of which it keeps the last write of each name.  For the
in-memory map that decides everything a reader can ask: lookups, the listing, its
length and every evaluation.  For the table, whatever it held before and whatever is
written to it, a write counts when its percentage was accepted, and it reads back as
nothing when its name is not valid.
-/

namespace FlagKit

open Machine

variable {σ T : Type} (finish : DefaultHasher)

/-- An evaluation reads one flag. -/
def decision (name : FlagName) (userId : String) (f : Flag T) : Bool :=
  f.enabled && decide (bucket finish name.asStr userId < f.percentage)

theorem enabledFor_get (S : FlagStore σ T) (s : σ) (name : FlagName) (userId : String)
    (orgId : Option String) :
    Evaluator.enabledFor finish S s name userId orgId =
      (S.get s name).any (decision finish name userId) := by
  unfold Evaluator.enabledFor
  cases S.get s name with
  | none => rfl
  | some f =>
    simp only [special_cases_eq]
    cases hf : f.enabled <;> simp [decision, hf]

/-! ## The in-memory store -/

namespace MemoryFlagStore

/-- What a call writes under a name; `none` inside is a removal. -/
def writes (name : FlagName) : MemoryOp T → Option (Option (Flag T))
  | .set flag => if flag.name = name then some (some flag) else none
  | .delete other => if other = name then some none else none
  | .clear => some none

theorem get_step (s : MemoryFlagStore T) (op : MemoryOp T) (name : FlagName) :
    (s.step op).2.get name = (writes name op).getD (s.get name) := by
  cases op with
  | set flag =>
    by_cases h : flag.name = name
    · rw [writes, if_pos h, ← h]
      exact s.get_set_self flag
    · rw [writes, if_neg h]
      exact s.get_set_ne (Ne.symm h)
  | delete other =>
    by_cases h : other = name
    · rw [writes, if_pos h, ← h]
      exact s.get_delete_self other
    · rw [writes, if_neg h]
      exact s.get_delete_ne (Ne.symm h)
  | clear => rfl

theorem get_final (s : MemoryFlagStore T) (ops : List (MemoryOp T)) (name : FlagName) :
    (final step s ops).get name = (lastWrite (writes name) ops).getD (s.get name) :=
  observed_final (φ := fun s => s.get name) (fun s op => s.get_step op name) s ops

/-- The store counts its names. -/
theorem len_eq (s : MemoryFlagStore T) {names : List FlagName} (hnodup : names.Nodup)
    (h : ∀ name, name ∈ names ↔ (s.get name).isSome) : s.len = names.length := by
  have hstored : ((s.list .stored).map Flag.name).Nodup := (s.represents .stored).list_nodup
  have hperm : ((s.list .stored).map Flag.name).Perm names := by
    rw [List.perm_ext_iff_of_nodup hstored hnodup]
    intro name
    rw [h name, List.mem_map, Option.isSome_iff_exists]
    constructor
    · intro hex
      obtain ⟨f, hf, rfl⟩ := hex
      exact ⟨f, (s.mem_list .stored f).mp hf⟩
    · intro hex
      obtain ⟨f, hf⟩ := hex
      obtain ⟨_, hname⟩ := (s.get_eq_some_iff name f).mp hf
      exact ⟨f, (s.mem_list .stored f).mpr (by rw [hname]; exact hf), hname⟩
  have hlen := hperm.length_eq
  rw [List.length_map] at hlen
  rw [← hlen]
  exact (List.length_map _).symm

theorem isEmpty_iff (s : MemoryFlagStore T) : s.isEmpty = true ↔ ∀ name, s.get name = none := by
  rw [isEmpty, List.isEmpty_iff]
  constructor
  · intro h name
    rw [Option.eq_none_iff_forall_ne_some]
    intro f hf
    obtain ⟨hmem, _⟩ := (s.get_eq_some_iff name f).mp hf
    rw [h] at hmem
    cases hmem
  · intro h
    rw [List.eq_nil_iff_forall_not_mem]
    intro e he
    have hget := (s.get_eq_some_iff e.2.name e.2).mpr ⟨List.mem_map_of_mem he, rfl⟩
    rw [h] at hget
    cases hget

end MemoryFlagStore

/-- What can be asked of an in-memory store, answered from a record of last writes. -/
structure Remembers (order : ScanOrder (Flag T)) (s : MemoryFlagStore T)
    (last : FlagName → Option (Flag T)) : Prop where
  get_eq : ∀ name, s.get name = last name
  mem_list : ∀ f, f ∈ s.list order ↔ last f.name = some f
  list_nodup : (s.list order).Nodup
  len_eq : ∀ names : List FlagName, names.Nodup → (∀ name, name ∈ names ↔ (last name).isSome) →
    s.len = names.length
  isEmpty_iff : s.isEmpty = true ↔ ∀ name, last name = none
  enabledFor_eq : ∀ name userId orgId,
    Evaluator.enabledFor finish (memoryFlagStore order) s name userId orgId =
      (last name).any (decision finish name userId)

theorem remembers_get (order : ScanOrder (Flag T)) (s : MemoryFlagStore T) :
    Remembers finish order s s.get where
  get_eq _ := rfl
  mem_list := s.mem_list order
  list_nodup := List.Nodup.of_map Flag.name (s.represents order).list_nodup
  len_eq _ hnodup h := s.len_eq hnodup h
  isEmpty_iff := s.isEmpty_iff
  enabledFor_eq name userId orgId :=
    enabledFor_get finish (memoryFlagStore order) s name userId orgId

/-- After any calls on a new in-memory store, every answer is read off the last write
of each name. -/
theorem memory_remembers (order : ScanOrder (Flag T)) (ops : List (MemoryOp T)) :
    Remembers finish order (final MemoryFlagStore.step MemoryFlagStore.new ops)
      (fun name => (lastWrite (MemoryFlagStore.writes name) ops).join) := by
  have hlast : (fun name => (lastWrite (MemoryFlagStore.writes name) ops).join) =
      (final MemoryFlagStore.step MemoryFlagStore.new ops).get := by
    funext name
    rw [MemoryFlagStore.get_final]
    cases lastWrite (MemoryFlagStore.writes name) ops with
    | none => rfl
    | some v => rfl
  rw [hlast]
  exact remembers_get finish order _

/-! ## The table -/

namespace SqliteFlagStore

variable (K : Validkit) (C : TimeCodec T)

/-- What a written flag reads back as at time `now`. -/
def readBack (now : T) (f : Flag T) : Option (Flag T) :=
  (FlagName.new K f.name.asStr).toOption.map fun name =>
    { f with
      name
      createdAt := f.createdAt.map fun t => (C.timestampOpt (C.timestamp t)).getD now }

theorem read_bound_eq_readBack (now : T) {f : Flag T} (hle : f.percentage ≤ 100) :
    read K C now (bound C f) = readBack K C now f := by
  have hcols : columns (bound C f) = some (f.name.asStr, boolAsI64 f.enabled,
      u8AsI64 f.percentage, f.createdAt.map C.timestamp) :=
    columns_eq_some_iff.mpr rfl
  rw [read, hcols, Option.bind_some, readBack, decode]
  cases FlagName.new K f.name.asStr with
  | error e => rfl
  | ok name => simp [u8TryFrom_u8AsI64, hle, boolAsI64_eq_zero, Except.toOption, Function.comp_def]

/-- What a call writes under a name, as a read at time `now` sees it. -/
def writes (now : T) (name : FlagName) : StoreOp T → Option (Option (Flag T))
  | .set flag =>
    if flag.name = name ∧ flag.percentage ≤ 100 then some (readBack K C now flag) else none
  | .delete other => if other = name then some none else none

theorem get_step (order : ScanOrder FlagRow) (now now' : T) (s : SqliteFlagStore)
    (op : StoreOp T) (name : FlagName) :
    ((sqliteFlagStore K C order now').step s op).2.get K C now name =
      (writes K C now name op).getD (s.get K C now name) := by
  cases op with
  | set flag =>
    show (s.set C flag).2.get K C now name = _
    by_cases hle : flag.percentage ≤ 100
    · by_cases hname : flag.name = name
      · rw [writes, if_pos ⟨hname, hle⟩, ← hname, get_set_self K C now hle,
          read_bound_eq_readBack K C now hle]
        rfl
      · rw [writes, if_neg (fun h => hname h.1), get_set_ne K C now hle (Ne.symm hname)]
        rfl
    · rw [writes, if_neg (fun h => hle h.2), set_refused C (UInt8.not_le.mp hle)]
      rfl
  | delete other =>
    show (s.delete other).2.get K C now name = _
    by_cases hname : other = name
    · rw [writes, if_pos hname, ← hname, get_delete_self]
      rfl
    · rw [writes, if_neg hname, get_delete_ne K C now (Ne.symm hname)]
      rfl

theorem get_final (order : ScanOrder FlagRow) (now now' : T) (s : SqliteFlagStore)
    (ops : List (StoreOp T)) (name : FlagName) :
    (final (sqliteFlagStore K C order now').step s ops).get K C now name =
      (lastWrite (writes K C now name) ops).getD (s.get K C now name) :=
  observed_final (φ := fun s : SqliteFlagStore => s.get K C now name)
    (fun s op => get_step K C order now now' s op name) s ops

/-- Whatever the table held and whatever is then written to it, a lookup finds the
last write of the name that was accepted, and every evaluation is decided by it. -/
theorem sqlite_remembers (order order' : ScanOrder FlagRow) (now now' : T) (s : SqliteFlagStore)
    (ops : List (StoreOp T)) (name : FlagName) :
    (final (sqliteFlagStore K C order now').step s ops).get K C now name =
        (lastWrite (writes K C now name) ops).getD (s.get K C now name) ∧
      ∀ userId orgId, Evaluator.enabledFor finish (sqliteFlagStore K C order' now)
          (final (sqliteFlagStore K C order now').step s ops) name userId orgId =
        ((lastWrite (writes K C now name) ops).getD (s.get K C now name)).any
          (decision finish name userId) := by
  have hget := get_final K C order now now' s ops name
  refine ⟨hget, fun userId orgId => ?_⟩
  rw [enabledFor_get, ← hget]
  rfl

end SqliteFlagStore
end FlagKit
