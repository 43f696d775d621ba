import FlagKit.Eval.Evaluator
import FlagKit.Store.Holds
import FlagKit.Store.Memory

/-!
# The two stores are interchangeable

Fed the same calls, the in-memory map and the flags table go through the same
catalogs and give the same replies.  What a reader and the evaluator see is a
function of the catalog, up to the order of lists, so they see the same.
-/

namespace FlagKit

open Machine

variable {σ τ T : Type} (finish : DefaultHasher)

/-! ## Answers -/

/-- Nothing evaluation can ask tells the two stores apart. -/
structure SameAnswers (S : FlagStore σ T) (s : σ) (S' : FlagStore τ T) (t : τ) : Prop where
  get_eq : ∀ name, (S.get s name).map (fun f => (f.name, f.setting)) =
    (S'.get t name).map (fun f => (f.name, f.setting))
  list_nodup : ((S.list s).map Flag.name).Nodup ∧ ((S'.list t).map Flag.name).Nodup
  mem_list : ∀ name v, (name, v) ∈ (S.list s).map (fun f => (f.name, f.setting)) ↔
    (name, v) ∈ (S'.list t).map (fun f => (f.name, f.setting))
  enabled_eq : ∀ name, Evaluator.enabled S s name = Evaluator.enabled S' t name
  enabledFor_eq : ∀ name userId orgId, Evaluator.enabledFor finish S s name userId orgId =
    Evaluator.enabledFor finish S' t name userId orgId
  enabledForAll_perm : ∀ userId orgId, (Evaluator.enabledForAll finish S s userId orgId).Perm
    (Evaluator.enabledForAll finish S' t userId orgId)

theorem sameAnswers_of_represents {S : FlagStore σ T} {s : σ} {S' : FlagStore τ T} {t : τ}
    {m : Catalog} (h : Represents S s m) (h' : Represents S' t m) :
    SameAnswers finish S s S' t where
  get_eq name := (h.get_eq name).trans (h'.get_eq name).symm
  list_nodup := ⟨h.list_nodup, h'.list_nodup⟩
  mem_list name v := (h.mem_list_iff name v).trans (h'.mem_list_iff name v).symm
  enabled_eq name := (h.enabled_eq name).trans (h'.enabled_eq name).symm
  enabledFor_eq name userId orgId :=
    (h.enabledFor_eq finish name userId orgId).trans (h'.enabledFor_eq finish name userId orgId).symm
  enabledForAll_perm userId orgId := by
    refine (List.perm_ext_iff_of_nodup (h.enabledForAll_nodup finish userId orgId)
      (h'.enabledForAll_nodup finish userId orgId)).mpr ?_
    intro p
    obtain ⟨name, b⟩ := p
    rw [h.mem_enabledForAll, h'.mem_enabledForAll]

/-! ## Calls -/

variable {K : Validkit} {C : TimeCodec T} (order : ScanOrder (Flag T))
  (order' : ScanOrder FlagRow) (now : T)

theorem memory_step (s : MemoryFlagStore T) (op : StoreOp T) :
    ((memoryFlagStore order).step s op).1 = (s.catalog.step op).1 ∧
      ((memoryFlagStore order).step s op).2.catalog = (s.catalog.step op).2 := by
  cases op with
  | set flag => exact ⟨rfl, s.catalog_set flag⟩
  | delete name =>
    refine ⟨?_, s.catalog_delete name⟩
    show Reply.delete (.ok (s.get name).isSome) = .delete (.ok ((s.get name).map _).isSome)
    rw [Option.isSome_map]

theorem sqlite_step {t : SqliteFlagStore} {m : Catalog} (h : Holds K C t m) {op : StoreOp T}
    (hop : op.Admissible K) :
    ((sqliteFlagStore K C order' now).step t op).1 = (m.step op).1 ∧
      Holds K C ((sqliteFlagStore K C order' now).step t op).2 (m.step op).2 := by
  cases op with
  | set flag =>
    refine ⟨?_, h.set hop.1 hop.2⟩
    show Reply.set (t.set C flag).1 = _
    rw [SqliteFlagStore.set, if_neg (UInt8.not_lt.mpr hop.2)]
    rfl
  | delete name =>
    refine ⟨?_, h.delete name⟩
    show Reply.delete (t.delete name).1 = _
    rw [h.delete_reply name]
    rfl

/-- The table holds the catalog of the map: one call. -/
theorem step_interchangeable {s : MemoryFlagStore T} {t : SqliteFlagStore}
    (h : Holds K C t s.catalog) {op : StoreOp T} (hop : op.Admissible K) :
    ((memoryFlagStore order).step s op).1 = ((sqliteFlagStore K C order' now).step t op).1 ∧
      Holds K C ((sqliteFlagStore K C order' now).step t op).2
        ((memoryFlagStore order).step s op).2.catalog := by
  obtain ⟨hreply, hcatalog⟩ := memory_step order s op
  obtain ⟨hreply', hholds⟩ := sqlite_step order' now h hop
  rw [hreply, hreply', hcatalog]
  exact ⟨rfl, hholds⟩

theorem run_interchangeable {ops : List (StoreOp T)} (hops : ∀ op ∈ ops, op.Admissible K) :
    (trace (memoryFlagStore order).step MemoryFlagStore.new ops).map Event.output =
        (trace (sqliteFlagStore K C order' now).step SqliteFlagStore.inMemory ops).map
          Event.output ∧
      Holds K C (final (sqliteFlagStore K C order' now).step SqliteFlagStore.inMemory ops)
        (final (memoryFlagStore order).step MemoryFlagStore.new ops).catalog := by
  refine related_outputs (R := fun (s : MemoryFlagStore T) t => Holds K C t s.catalog)
    (Q := StoreOp.Admissible K) (fun s t op h hop => ?_) holds_empty hops
  exact step_interchangeable order order' now h hop

/-- From empty stores, every sequence of admissible calls gets the same replies, and
after each of them the stores give the same answers, at any later time and in
whatever order either is scanned. -/
theorem stores_interchangeable (K : Validkit) (C : TimeCodec T) (order : ScanOrder (Flag T))
    (order' : ScanOrder FlagRow) (now : T) (ops : List (StoreOp T))
    (hops : ∀ op ∈ ops, op.Admissible K) :
    (trace (memoryFlagStore order).step MemoryFlagStore.new ops).map Event.output =
        (trace (sqliteFlagStore K C order' now).step SqliteFlagStore.inMemory ops).map
          Event.output ∧
      ∀ pre, pre <+: ops → ∀ later, SameAnswers finish
        (memoryFlagStore order) (final (memoryFlagStore order).step MemoryFlagStore.new pre)
        (sqliteFlagStore K C order' later)
        (final (sqliteFlagStore K C order' now).step SqliteFlagStore.inMemory pre) := by
  refine ⟨(run_interchangeable order order' now hops).1, fun pre hpre later => ?_⟩
  have hpreops : ∀ op ∈ pre, op.Admissible K := fun op hop => hops op (hpre.subset hop)
  have hholds := (run_interchangeable (C := C) order order' now hpreops).2
  exact sameAnswers_of_represents finish (MemoryFlagStore.represents order _)
    (hholds.represents order' later)

theorem stores_interchangeable_after_delete :
    (trace (memoryFlagStore .stored).step MemoryFlagStore.new
        [.set (⟨⟨"checkout"⟩, true, 50, some 3⟩ : Flag Int64), .delete ⟨"checkout"⟩]).map
          Event.output =
      (trace (sqliteFlagStore ⟨fun s => s = "checkout"⟩ .unixSeconds .stored 0).step
        SqliteFlagStore.inMemory
        [.set (⟨⟨"checkout"⟩, true, 50, some 3⟩ : Flag Int64), .delete ⟨"checkout"⟩]).map
          Event.output :=
  (@stores_interchangeable Int64 (fun _ => 7) ⟨fun s => s = "checkout"⟩ .unixSeconds .stored
    .stored 0 [.set ⟨⟨"checkout"⟩, true, 50, some 3⟩, .delete ⟨"checkout"⟩] (by
      intro op hop
      simp only [List.mem_cons, List.not_mem_nil, or_false] at hop
      rcases hop with rfl | rfl
      · exact ⟨by simp [FlagName.Valid], by decide⟩
      · exact trivial)).1

end FlagKit
