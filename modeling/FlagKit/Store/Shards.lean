import FlagKit.Store.Memory

/-!
# Listing the map shard by shard

The map is split into shards by its keys.  `list` holds one shard at a time, so what
it collects from a shard is the content of that shard at the moment it is held.
Writers take their turns in between, and `clear` empties one shard at a time too.

`collected_eq` is the whole semantics of a listing: a sequence of moments, each a
prefix of the next, and for each shard its content at its own moment.
-/

namespace FlagKit

open Machine

variable {T : Type} {n : Nat} (shardOf : String → Fin n)

namespace MemoryFlagStore

/-- The flags of the shard with number `i`. -/
def shard (s : MemoryFlagStore T) (i : Nat) : List (Flag T) :=
  (s.inner.entries.filter (fun e => (shardOf e.1).val = i)).map Sigma.snd

theorem keyed_filter (s : MemoryFlagStore T) (p : Sigma (fun _ : String => Flag T) → Bool) :
    ∀ e ∈ s.inner.entries.filter p, e.2.name.asStr = e.1 :=
  fun e he => s.keyed e (List.mem_filter.mp he).1

def clearShard (s : MemoryFlagStore T) (i : Nat) : MemoryFlagStore T where
  inner := ⟨s.inner.entries.filter (fun e => (shardOf e.1).val ≠ i),
    s.inner.nodupKeys.sublist List.filter_sublist⟩
  keyed := s.keyed_filter _

theorem mem_shard (s : MemoryFlagStore T) (i : Nat) (f : Flag T) :
    f ∈ s.shard shardOf i ↔ s.get f.name = some f ∧ (shardOf f.name.asStr).val = i := by
  rw [get_eq_some_iff, shard, List.mem_map, List.mem_map]
  constructor
  · intro hex
    obtain ⟨e, he, rfl⟩ := hex
    obtain ⟨hmem, hshard⟩ := List.mem_filter.mp he
    rw [s.keyed e hmem]
    exact ⟨⟨⟨e, hmem, rfl⟩, rfl⟩, of_decide_eq_true hshard⟩
  · intro hex
    obtain ⟨⟨⟨e, hmem, rfl⟩, _⟩, hshard⟩ := hex
    rw [s.keyed e hmem] at hshard
    exact ⟨e, List.mem_filter.mpr ⟨hmem, decide_eq_true hshard⟩, rfl⟩

/-- The names of a store, hence those of a shard, do not repeat. -/
theorem names_nodup (s : MemoryFlagStore T) :
    ((s.inner.entries.map Sigma.snd).map Flag.name).Nodup :=
  (s.represents .stored).list_nodup

theorem shard_names_nodup (s : MemoryFlagStore T) (i : Nat) :
    ((s.shard shardOf i).map Flag.name).Nodup :=
  s.names_nodup.sublist ((List.filter_sublist.map _).map _)

end MemoryFlagStore

/-! ## Turns -/

/-- One step of a listing that runs beside writers. -/
inductive Turn (T : Type) (n : Nat) where
  | set (flag : Flag T)
  | delete (name : FlagName)
  | clearShard (i : Fin n)
  | visit

/-- The store and what the listing has collected, one list for each shard visited. -/
structure Listing (T : Type) where
  store : MemoryFlagStore T
  collected : List (List (Flag T))

namespace Listing

def start (s : MemoryFlagStore T) : Listing T := { store := s, collected := [] }

variable (order : ScanOrder (Flag T))

/-- The next shard is visited whole; after the last one a visit does nothing. -/
def step (l : Listing T) : Turn T n → Unit × Listing T
  | .set flag => ((), { l with store := (l.store.set flag).2 })
  | .delete name => ((), { l with store := (l.store.delete name).2 })
  | .clearShard i => ((), { l with store := l.store.clearShard shardOf i })
  | .visit =>
    if l.collected.length < n then
      ((), { l with
        collected := l.collected ++ [order.scan (l.store.shard shardOf l.collected.length)] })
    else ((), l)

/-- All shards have been visited. -/
def Done (n : Nat) (l : Listing T) : Prop := l.collected.length = n

/-- What `list` returns. -/
def result (l : Listing T) : List (Flag T) := l.collected.flatten

/-- The store after some of the turns. -/
def storeAt (s : MemoryFlagStore T) (turns : List (Turn T n)) : MemoryFlagStore T :=
  (final (step shardOf order) (start s) turns).store

/-- What the shards hold at a sequence of moments, one moment for each shard. -/
def heldAt (s : MemoryFlagStore T) (moments : List (List (Turn T n))) : List (List (Flag T)) :=
  moments.mapIdx (fun i m => order.scan ((storeAt shardOf order s m).shard shardOf i))

/-- A turn that is not a visit of a further shard collects nothing. -/
theorem step_collected (l : Listing T) (turn : Turn T n) :
    (step shardOf order l turn).2.collected = l.collected ∨
      (l.collected.length < n ∧ (step shardOf order l turn).2.collected =
        l.collected ++ [order.scan (l.store.shard shardOf l.collected.length)]) := by
  cases turn with
  | set flag => exact Or.inl rfl
  | delete name => exact Or.inl rfl
  | clearShard i => exact Or.inl rfl
  | visit =>
    by_cases h : l.collected.length < n
    · exact Or.inr ⟨h, by rw [step, if_pos h]⟩
    · exact Or.inl (by rw [step, if_neg h])

/-- At all times, the listing holds what the shards visited so far held at moments
that follow each other. -/
theorem collected_eq (s : MemoryFlagStore T) (turns : List (Turn T n)) :
    ∃ moments : List (List (Turn T n)), (∀ m ∈ moments, m <+: turns) ∧
      moments.Pairwise (· <+: ·) ∧
      (final (step shardOf order) (start s) turns).collected =
        heldAt shardOf order s moments := by
  induction turns using List.reverseRecOn with
  | nil => exact ⟨[], by simp, List.Pairwise.nil, rfl⟩
  | append_singleton turns turn ih =>
    obtain ⟨moments, hduring, hordered, hheld⟩ := ih
    have hprefix : ∀ m ∈ moments, m <+: turns ++ [turn] := fun m hm =>
      (hduring m hm).trans (List.prefix_append turns [turn])
    rw [final_concat]
    rcases step_collected shardOf order (final (step shardOf order) (start s) turns) turn with
      hsame | ⟨_, hmore⟩
    · exact ⟨moments, hprefix, hordered, hsame.trans hheld⟩
    · refine ⟨moments ++ [turns], ?_, ?_, ?_⟩
      · intro m hm
        rcases List.mem_append.mp hm with hm | hm
        · exact hprefix m hm
        · rw [List.mem_singleton.mp hm]
          exact List.prefix_append turns [turn]
      · rw [List.pairwise_append]
        refine ⟨hordered, List.pairwise_singleton _ _, fun m hm m' hm' => ?_⟩
        rw [List.mem_singleton.mp hm']
        exact hduring m hm
      · have hlen : (final (step shardOf order) (start s) turns).collected.length =
            moments.length := by
          rw [hheld, heldAt, List.length_mapIdx]
        rw [hmore, hlen, hheld, heldAt, heldAt, List.mapIdx_concat]
        rfl

end Listing
end FlagKit
