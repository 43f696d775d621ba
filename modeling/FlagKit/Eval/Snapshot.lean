import FlagKit.Eval.Evaluator
import FlagKit.Store.Shards

/-!
# Bulk evaluation beside writers

`enabled_for_all` evaluates what `list` returned.  Beside writers that is not the
content of the store at one moment: a write to a shard already visited is missed and a
later write to a shard still to come is seen.  What holds is the same one level down.
Each shard is evaluated as it was at one moment of the call, the moments follow each
other, and the vector is that of one moment exactly when the shards agree on one.
-/

namespace FlagKit

open Machine Listing

variable {T : Type} {n : Nat} (finish : DefaultHasher)

/-- The store as `enabled_for_all` sees it: `list` returns what was collected. -/
def listingStore : FlagStore (Listing T) T :=
  { get := fun l => l.store.get
    set := fun l flag => ((l.store.set flag).1, { l with store := (l.store.set flag).2 })
    list := Listing.result
    delete := fun l name => ((l.store.delete name).1, { l with store := (l.store.delete name).2 }) }

/-- The entry of one flag in the vector. -/
def decided (userId : String) (f : Flag T) : FlagName × Bool :=
  (f.name, f.setting.admits finish f.name userId)

variable (shardOf : String → Fin n) (order order' : ScanOrder (Flag T)) (s : MemoryFlagStore T)
  (turns : List (Turn T n)) (userId : String) (orgId : Option String)

/-- What a call returns that begins with store `s` and takes these turns. -/
def returned : List (FlagName × Bool) :=
  Evaluator.enabledForAll finish listingStore
    (final (step shardOf order) (start s) turns) userId orgId

/-- The evaluation of the whole store at the moment after some turns. -/
def wholeAt (pre : List (Turn T n)) : List (FlagName × Bool) :=
  Evaluator.enabledForAll finish (memoryFlagStore order') (storeAt shardOf order s pre) userId orgId

/-- The evaluation of one shard at that moment. -/
def shardAt (pre : List (Turn T n)) (i : Nat) : List (FlagName × Bool) :=
  ((storeAt shardOf order s pre).shard shardOf i).map (decided finish userId)

theorem returned_eq : returned finish shardOf order s turns userId orgId =
    (final (step shardOf order) (start s) turns).result.map (decided finish userId) :=
  Represents.enabledForAll_eq finish listingStore _ userId orgId

theorem wholeAt_eq (pre : List (Turn T n)) :
    wholeAt finish shardOf order order' s userId orgId pre =
      ((storeAt shardOf order s pre).list order').map (decided finish userId) :=
  Represents.enabledForAll_eq finish (memoryFlagStore order') _ userId orgId

/-! ## Whose entry is where -/

variable {finish shardOf order order' s turns userId orgId}

/-- Names that do not repeat keep the entries from repeating. -/
theorem decided_nodup {l : List (Flag T)} (h : (l.map Flag.name).Nodup) :
    (l.map (decided finish userId)).Nodup := by
  apply List.Nodup.of_map Prod.fst
  rw [List.map_map]
  exact h

theorem mem_shardAt (order' : ScanOrder (Flag T)) (orgId : Option String) (pre : List (Turn T n))
    (i : Nat) (p : FlagName × Bool) :
    p ∈ shardAt finish shardOf order s userId pre i ↔
      p ∈ wholeAt finish shardOf order order' s userId orgId pre ∧
        (shardOf p.1.asStr).val = i := by
  rw [wholeAt_eq, shardAt, List.mem_map, List.mem_map]
  constructor
  · intro hex
    obtain ⟨f, hf, rfl⟩ := hex
    obtain ⟨hget, hshard⟩ := (MemoryFlagStore.mem_shard shardOf _ i f).mp hf
    exact ⟨⟨f, (MemoryFlagStore.mem_list order' _ f).mpr hget, rfl⟩, hshard⟩
  · intro hex
    obtain ⟨⟨f, hf, rfl⟩, hshard⟩ := hex
    exact ⟨f, (MemoryFlagStore.mem_shard shardOf _ i f).mpr
      ⟨(MemoryFlagStore.mem_list order' _ f).mp hf, hshard⟩, rfl⟩

variable {moments : List (List (Turn T n))}

theorem heldAt_getElem?_eq_some_iff {i : Nat} {l : List (Flag T)} :
    (heldAt shardOf order s moments)[i]? = some l ↔
      ∃ m, moments[i]? = some m ∧ order.scan ((storeAt shardOf order s m).shard shardOf i) = l := by
  rw [heldAt, List.getElem?_mapIdx, Option.map_eq_some_iff]

theorem mem_heldAt {f : Flag T} :
    f ∈ (heldAt shardOf order s moments).flatten ↔
      ∃ i m, moments[i]? = some m ∧ f ∈ (storeAt shardOf order s m).shard shardOf i := by
  rw [List.mem_flatten]
  constructor
  · intro hex
    obtain ⟨l, hl, hf⟩ := hex
    obtain ⟨i, hi⟩ := List.mem_iff_getElem?.mp hl
    obtain ⟨m, hm, rfl⟩ := heldAt_getElem?_eq_some_iff.mp hi
    exact ⟨i, m, hm, (order.perm _).mem_iff.mp hf⟩
  · intro hex
    obtain ⟨i, m, hm, hf⟩ := hex
    exact ⟨_, List.mem_iff_getElem?.mpr ⟨i, heldAt_getElem?_eq_some_iff.mpr ⟨m, hm, rfl⟩⟩,
      (order.perm _).mem_iff.mpr hf⟩

/-- Two shards share no name, so the names collected do not repeat. -/
theorem heldAt_names_nodup : ((heldAt shardOf order s moments).flatten.map Flag.name).Nodup := by
  rw [List.map_flatten, List.nodup_flatten]
  have hname : ∀ (i : Nat) (l : List FlagName) (name : FlagName),
      ((heldAt shardOf order s moments).map (List.map Flag.name))[i]? = some l → name ∈ l →
        (shardOf name.asStr).val = i := by
    intro i l name hl hmem
    rw [List.getElem?_map] at hl
    obtain ⟨fs, hfs, rfl⟩ := Option.map_eq_some_iff.mp hl
    obtain ⟨m, _, rfl⟩ := heldAt_getElem?_eq_some_iff.mp hfs
    obtain ⟨f, hf, rfl⟩ := List.mem_map.mp hmem
    exact ((MemoryFlagStore.mem_shard shardOf _ i f).mp ((order.perm _).mem_iff.mp hf)).2
  constructor
  · intro l hl
    obtain ⟨fs, hfs, rfl⟩ := List.mem_map.mp hl
    obtain ⟨i, hi⟩ := List.mem_iff_getElem?.mp hfs
    obtain ⟨m, _, rfl⟩ := heldAt_getElem?_eq_some_iff.mp hi
    rw [((order.perm _).map Flag.name).nodup_iff]
    exact MemoryFlagStore.shard_names_nodup shardOf _ i
  · rw [List.pairwise_iff_getElem]
    intro i j hi hj hij name hni hnj
    have h1 := hname i _ name (List.getElem?_eq_getElem hi) hni
    have h2 := hname j _ name (List.getElem?_eq_getElem hj) hnj
    omega

/-- The entries of one shard in the vector are the evaluation of the shard as it was. -/
theorem mem_shardAt_returned (orgId : Option String)
    (hheld : (final (step shardOf order) (start s) turns).collected =
      heldAt shardOf order s moments) {i : Nat} {m : List (Turn T n)} (hm : moments[i]? = some m)
    {p : FlagName × Bool} :
    p ∈ shardAt finish shardOf order s userId m i ↔
      p ∈ returned finish shardOf order s turns userId orgId ∧ (shardOf p.1.asStr).val = i := by
  rw [returned_eq, result, hheld, shardAt, List.mem_map, List.mem_map]
  constructor
  · intro hex
    obtain ⟨f, hf, rfl⟩ := hex
    exact ⟨⟨f, mem_heldAt.mpr ⟨i, m, hm, hf⟩, rfl⟩,
      ((MemoryFlagStore.mem_shard shardOf _ i f).mp hf).2⟩
  · intro hex
    obtain ⟨⟨f, hf, rfl⟩, hshard⟩ := hex
    obtain ⟨j, m', hm', hf'⟩ := mem_heldAt.mp hf
    -- a name is in one shard only, so `f` was collected from this one
    have hj := ((MemoryFlagStore.mem_shard shardOf _ j f).mp hf').2
    have hij : i = j := hshard.symm.trans hj
    rw [← hij, hm, Option.some.injEq] at hm'
    refine ⟨f, ?_, rfl⟩
    rw [hm', hij]
    exact hf'

/-! ## One moment -/

theorem returned_nodup
    (hheld : (final (step shardOf order) (start s) turns).collected =
      heldAt shardOf order s moments) :
    ((returned finish shardOf order s turns userId orgId).map Prod.fst).Nodup := by
  rw [returned_eq, result, hheld, List.map_map]
  exact heldAt_names_nodup

theorem wholeAt_nodup (pre : List (Turn T n)) :
    (wholeAt finish shardOf order order' s userId orgId pre).Nodup := by
  rw [wholeAt_eq]
  exact decided_nodup (MemoryFlagStore.represents order' _).list_nodup

theorem shardAt_nodup (pre : List (Turn T n)) (i : Nat) :
    (shardAt finish shardOf order s userId pre i).Nodup :=
  decided_nodup (MemoryFlagStore.shard_names_nodup shardOf _ i)

/-- The vector is the whole store at one moment exactly when every shard, as it was
when it was visited, is that shard at this moment. -/
theorem returned_perm_iff (hone : moments.length = n)
    (hheld : (final (step shardOf order) (start s) turns).collected =
      heldAt shardOf order s moments) (pre : List (Turn T n)) :
    (returned finish shardOf order s turns userId orgId).Perm
        (wholeAt finish shardOf order order' s userId orgId pre) ↔
      ∀ i m, moments[i]? = some m → (shardAt finish shardOf order s userId m i).Perm
        (shardAt finish shardOf order s userId pre i) := by
  constructor
  · intro hperm i m hm
    rw [List.perm_ext_iff_of_nodup (shardAt_nodup m i) (shardAt_nodup pre i)]
    intro p
    rw [mem_shardAt_returned orgId hheld hm, mem_shardAt order' orgId, hperm.mem_iff]
  · intro hshards
    rw [List.perm_ext_iff_of_nodup (List.Nodup.of_map Prod.fst (returned_nodup hheld))
      (wholeAt_nodup pre)]
    intro p
    have hlt : (shardOf p.1.asStr).val < moments.length := by
      rw [hone]
      exact (shardOf p.1.asStr).isLt
    have hm := List.getElem?_eq_getElem hlt
    calc p ∈ returned finish shardOf order s turns userId orgId
        ↔ p ∈ shardAt finish shardOf order s userId moments[(shardOf p.1.asStr).val]
            (shardOf p.1.asStr).val :=
          ((mem_shardAt_returned orgId hheld hm).trans (and_iff_left rfl)).symm
      _ ↔ p ∈ shardAt finish shardOf order s userId pre (shardOf p.1.asStr).val :=
          (hshards _ _ hm).mem_iff
      _ ↔ p ∈ wholeAt finish shardOf order order' s userId orgId pre :=
          (mem_shardAt order' orgId pre _ p).trans (and_iff_left rfl)

/-- What one call returns, given the moment each shard was visited. -/
structure ReadAt (finish : DefaultHasher) (shardOf : String → Fin n)
    (order order' : ScanOrder (Flag T)) (s : MemoryFlagStore T) (turns : List (Turn T n))
    (userId : String) (orgId : Option String) (moments : List (List (Turn T n))) : Prop where
  one_each : moments.length = n
  during : ∀ m ∈ moments, m <+: turns
  in_turn : moments.Pairwise (· <+: ·)
  shards_whole : ∀ i m, moments[i]? = some m → ∀ p,
    p ∈ shardAt finish shardOf order s userId m i ↔
      p ∈ returned finish shardOf order s turns userId orgId ∧ (shardOf p.1.asStr).val = i
  names_nodup : ((returned finish shardOf order s turns userId orgId).map Prod.fst).Nodup
  one_moment_iff : (∃ pre, pre <+: turns ∧
      (returned finish shardOf order s turns userId orgId).Perm
        (wholeAt finish shardOf order order' s userId orgId pre)) ↔
    ∃ pre, pre <+: turns ∧ ∀ i m, moments[i]? = some m →
      (shardAt finish shardOf order s userId m i).Perm
        (shardAt finish shardOf order s userId pre i)

/-- Between a visit of the first shard and one of the second, `a` is set in the first
and then `b` in the second: the vector has `b` and not `a`. -/
theorem returned_is_no_moment :
    ¬ ∀ (turns : List (Turn Int 2)),
      Done 2 (final (step (fun key => if key = "a" then 0 else 1) .stored) (start .new) turns) →
      ∃ pre, pre <+: turns ∧
        (returned (fun _ => 7) (fun key => if key = "a" then 0 else 1) .stored .new turns "u1"
          none).Perm
          (wholeAt (fun _ => 7) (fun key => if key = "a" then 0 else 1) .stored .stored .new "u1"
            none pre) := by
  intro h
  obtain ⟨pre, hpre, hperm⟩ := h
    [.visit, .set ⟨⟨"a"⟩, true, 100, none⟩, .set ⟨⟨"b"⟩, true, 100, none⟩, .visit] rfl
  rw [← List.mem_inits] at hpre
  simp only [List.inits, List.map_cons, List.map_nil, List.mem_cons, List.not_mem_nil,
    or_false] at hpre
  rcases hpre with rfl | rfl | rfl | rfl | rfl <;> revert hperm <;> decide

/-- For every order of the turns of writers and of the visits of one call, the vector
is made shard by shard of the evaluation of the shard's whole content at a moment of
the call.  It is that of the whole store at one moment exactly when some moment shows
every shard as it was visited. -/
theorem bulk_reads_shards (finish : DefaultHasher) (shardOf : String → Fin n)
    (order order' : ScanOrder (Flag T)) (s : MemoryFlagStore T) (turns : List (Turn T n))
    (hdone : Done n (final (step shardOf order) (start s) turns)) (userId : String)
    (orgId : Option String) :
    ∃ moments, ReadAt finish shardOf order order' s turns userId orgId moments := by
  obtain ⟨moments, hduring, hordered, hheld⟩ := collected_eq shardOf order s turns
  have hlen : (heldAt shardOf order s moments).length = moments.length := by
    rw [heldAt, List.length_mapIdx]
  have hone : moments.length = n := by
    rw [← hlen, ← hheld]
    exact hdone
  refine ⟨moments, hone, hduring, hordered, fun i m hm p => mem_shardAt_returned orgId hheld hm,
    returned_nodup hheld, ?_⟩
  exact exists_congr fun pre => and_congr_right fun _ => returned_perm_iff hone hheld pre

theorem bulk_reads_shards_between_writes :
    ∃ moments, ReadAt (fun _ => 7) (fun key => if key = "a" then (0 : Fin 2) else 1) .stored .stored
      .new [.visit, .set ⟨⟨"a"⟩, true, 100, (none : Option Int)⟩,
        .set ⟨⟨"b"⟩, true, 100, none⟩, .visit] "u1" none moments :=
  bulk_reads_shards (fun _ => 7) (fun key => if key = "a" then (0 : Fin 2) else 1) .stored .stored
    .new [.visit, .set ⟨⟨"a"⟩, true, 100, (none : Option Int)⟩,
      .set ⟨⟨"b"⟩, true, 100, none⟩, .visit] rfl "u1" none

end FlagKit
