import FlagKit.Eval.Paths
import FlagKit.Eval.Snapshot
import Mathlib.Data.List.Perm.Subperm

/-!
# Many readers, many writers

Any number of clients share one in-memory store.  Writers set, delete and clear;
readers list, and so do `len` and `enabled_for_all`, each of which walks the shards on
its own while the others take their turns.  A reader changes nothing, so what one of
them collects is a listing beside the writers alone (`listing_view`), whatever the
other readers do.

A listing shows no single moment of the store.  Name by name it is right all the
same: each entry is the answer `enabled_for` would have given at some moment of the
call, and an answer that stood throughout the call is there.
-/

namespace FlagKit

open Machine

variable {T : Type} {n : Nat}

/-- One step of the clients of a store; readers are told apart by a number. -/
inductive Act (T : Type) (n : Nat) where
  | set (flag : Flag T)
  | delete (name : FlagName)
  | clearShard (i : Fin n)
  | call (reader : Nat)
  | visit (reader : Nat)

/-- The store and what the call each reader is in has collected. -/
structure Clients (T : Type) where
  store : MemoryFlagStore T
  collected : Nat → List (List (Flag T))

namespace Clients

variable (shardOf : String → Fin n) (order : ScanOrder (Flag T))

def step (c : Clients T) : Act T n → Unit × Clients T
  | .set flag => ((), { c with store := (c.store.set flag).2 })
  | .delete name => ((), { c with store := (c.store.delete name).2 })
  | .clearShard i => ((), { c with store := c.store.clearShard shardOf i })
  | .call reader => ((), { c with collected := Function.update c.collected reader [] })
  | .visit reader =>
    if (c.collected reader).length < n then
      ((), { c with
        collected := Function.update c.collected reader (c.collected reader ++
          [order.scan (c.store.shard shardOf (c.collected reader).length)]) })
    else ((), c)

/-- The clients as one reader knows them. -/
def listing (reader : Nat) (c : Clients T) : Listing T :=
  { store := c.store, collected := c.collected reader }

/-- What a step is to one reader in the middle of a call. -/
def turnOf (reader : Nat) : Act T n → Option (Turn T n)
  | .set flag => some (.set flag)
  | .delete name => some (.delete name)
  | .clearShard i => some (.clearShard i)
  | .call _ => none
  | .visit other => if other = reader then some .visit else none

/-- The step does not begin a new call of this reader. -/
def Continues (reader : Nat) : Act T n → Prop
  | .call other => other ≠ reader
  | .set _ | .delete _ | .clearShard _ | .visit _ => True

theorem step_moves {reader : Nat} {c : Clients T} {act : Act T n} {turn : Turn T n}
    (hturn : turnOf reader act = some turn) :
    listing reader (step shardOf order c act).2 =
      (Listing.step shardOf order (listing reader c) turn).2 := by
  cases act with
  | set flag =>
    cases hturn
    rfl
  | delete name =>
    cases hturn
    rfl
  | clearShard i =>
    cases hturn
    rfl
  | call other => cases hturn
  | visit other =>
    by_cases h : other = reader
    · rw [turnOf, if_pos h, Option.some.injEq] at hturn
      rw [← hturn, h]
      by_cases hlen : (c.collected reader).length < n
      · simp [step, Listing.step, listing, hlen]
      · simp [step, Listing.step, listing, hlen]
    · rw [turnOf, if_neg h] at hturn
      cases hturn

theorem step_idle {reader : Nat} {c : Clients T} {act : Act T n} (hact : Continues reader act)
    (hturn : turnOf reader act = none) :
    listing reader (step shardOf order c act).2 = listing reader c := by
  cases act with
  | set flag => cases hturn
  | delete name => cases hturn
  | clearShard i => cases hturn
  | call other =>
    have hne : reader ≠ other := fun h => hact h.symm
    simp [step, listing, Function.update_of_ne hne]
  | visit other =>
    by_cases h : other = reader
    · rw [turnOf, if_pos h] at hturn
      cases hturn
    · have hne : reader ≠ other := fun he => h he.symm
      by_cases hlen : (c.collected other).length < n
      · simp [step, listing, hlen, Function.update_of_ne hne]
      · simp [step, listing, hlen]

/-- Beside any other readers, a reader sees the writers and itself. -/
theorem listing_view {reader : Nat} (c : Clients T) {acts : List (Act T n)}
    (hacts : ∀ a ∈ acts, Continues reader a) :
    listing reader (final (step shardOf order) c acts) =
      final (Listing.step shardOf order) (listing reader c)
        (acts.filterMap (turnOf reader)) :=
  viewed_final (fun _ _ _ _ => step_moves shardOf order) (fun _ _ => step_idle shardOf order) c
    hacts

end Clients

/-! ## What a call can rely on -/

/-- A list of flags collected while the store was in the states `moment`. -/
structure Collected (moment : MemoryFlagStore T → Prop) (l : List (Flag T)) : Prop where
  names_nodup : (l.map Flag.name).Nodup
  was_stored : ∀ f ∈ l, ∃ s, moment s ∧ s.get f.name = some f
  named : ∀ name, (∀ s, moment s → (s.get name).isSome) → ∃ f ∈ l, f.name = name

/-- A finished listing of one reader beside the writers. -/
theorem listing_collected (shardOf : String → Fin n) (order : ScanOrder (Flag T))
    (s : MemoryFlagStore T) (turns : List (Turn T n))
    (hdone : Listing.Done n (final (Listing.step shardOf order) (.start s) turns)) :
    Collected (fun s' => ∃ m, m <+: turns ∧ s' = Listing.storeAt shardOf order s m)
      (final (Listing.step shardOf order) (.start s) turns).result := by
  obtain ⟨moments, hduring, _, hheld⟩ := Listing.collected_eq shardOf order s turns
  have hone : (Listing.heldAt shardOf order s moments).length = n := by
    rw [← hheld]
    exact hdone
  rw [Listing.heldAt, List.length_mapIdx] at hone
  rw [Listing.result, hheld]
  refine ⟨heldAt_names_nodup, fun f hf => ?_, fun name hname => ?_⟩
  · obtain ⟨i, m, hm, hshard⟩ := mem_heldAt.mp hf
    exact ⟨_, ⟨m, hduring m (List.mem_of_getElem? hm), rfl⟩,
      ((MemoryFlagStore.mem_shard shardOf _ i f).mp hshard).1⟩
  · -- the name was there when its own shard was visited
    have hlt : (shardOf name.asStr).val < moments.length := by
      rw [hone]
      exact (shardOf name.asStr).isLt
    have hm := List.getElem?_eq_getElem hlt
    obtain ⟨f, hf⟩ := Option.isSome_iff_exists.mp
      (hname _ ⟨_, hduring _ (List.mem_of_getElem? hm), rfl⟩)
    have hfname := ((MemoryFlagStore.get_eq_some_iff _ _ _).mp hf).2
    refine ⟨f, mem_heldAt.mpr ⟨_, _, hm, ?_⟩, hfname⟩
    rw [MemoryFlagStore.mem_shard, hfname]
    exact ⟨hf, rfl⟩

/-- What a call of `enabled_for_all` can rely on, and what `len` counts. -/
structure Faithful (finish : DefaultHasher) (order : ScanOrder (Flag T))
    (moment : MemoryFlagStore T → Prop) (userId : String) (orgId : Option String)
    (vector : List (FlagName × Bool)) : Prop where
  once : (vector.map Prod.fst).Nodup
  was_answer : ∀ e ∈ vector, ∃ s, moment s ∧ (s.get e.1).isSome ∧
    Evaluator.enabledFor finish (memoryFlagStore order) s e.1 userId orgId = e.2
  stood : ∀ name b, (∀ s, moment s → (s.get name).isSome ∧
    Evaluator.enabledFor finish (memoryFlagStore order) s name userId orgId = b) →
    (name, b) ∈ vector
  at_least : ∀ names : List FlagName, names.Nodup →
    (∀ name ∈ names, ∀ s, moment s → (s.get name).isSome) → names.length ≤ vector.length
  at_most : ∀ names : List FlagName,
    (∀ name s, moment s → (s.get name).isSome → name ∈ names) → vector.length ≤ names.length

variable (finish : DefaultHasher) (userId : String) (orgId : Option String)

theorem faithful_of_collected {moment : MemoryFlagStore T → Prop} {l : List (Flag T)}
    (h : Collected moment l) (order : ScanOrder (Flag T)) :
    Faithful finish order moment userId orgId (l.map (decided finish userId)) := by
  have hnames : (l.map (decided finish userId)).map Prod.fst = l.map Flag.name := by
    rw [List.map_map]
    rfl
  have hanswer : ∀ f ∈ l, ∃ s, moment s ∧ s.get f.name = some f ∧
      Evaluator.enabledFor finish (memoryFlagStore order) s f.name userId orgId =
        f.setting.admits finish f.name userId := by
    intro f hf
    obtain ⟨s, hs, hget⟩ := h.was_stored f hf
    exact ⟨s, hs, hget, enabledFor_stored finish order hget userId orgId⟩
  refine ⟨?_, ?_, ?_, ?_, ?_⟩
  · rw [hnames]
    exact h.names_nodup
  · intro e he
    obtain ⟨f, hf, rfl⟩ := List.mem_map.mp he
    obtain ⟨s, hs, hget, hdec⟩ := hanswer f hf
    exact ⟨s, hs, by rw [decided, hget]; rfl, hdec⟩
  · intro name b hstood
    obtain ⟨f, hf, rfl⟩ := h.named name fun s hs => (hstood s hs).1
    obtain ⟨s, hs, _, hdec⟩ := hanswer f hf
    rw [(hstood s hs).2] at hdec
    exact List.mem_map.mpr ⟨f, hf, by rw [decided, ← hdec]⟩
  · intro names hnodup hall
    have hsub : names ⊆ l.map Flag.name := by
      intro name hmem
      obtain ⟨f, hf, rfl⟩ := h.named name (hall name hmem)
      exact List.mem_map_of_mem hf
    have hle := (List.subperm_of_subset hnodup hsub).length_le
    rw [List.length_map] at hle ⊢
    exact hle
  · intro names hall
    have hsub : l.map Flag.name ⊆ names := by
      intro name hmem
      obtain ⟨f, hf, rfl⟩ := List.mem_map.mp hmem
      obtain ⟨s, hs, hget⟩ := h.was_stored f hf
      exact hall f.name s hs (by rw [hget]; rfl)
    have hle := (List.subperm_of_subset h.names_nodup hsub).length_le
    rw [List.length_map] at hle ⊢
    exact hle

/-- Every call of every reader that has come to its end, beside any other clients:
the vector evaluated from what it collected is faithful to the moments of the call. -/
theorem every_call_faithful (shardOf : String → Fin n) (order order' : ScanOrder (Flag T))
    (c : Clients T) (reader : Nat) {acts : List (Act T n)}
    (hacts : ∀ a ∈ acts, Clients.Continues reader a) {c' : Clients T}
    (hc' : c' = final (Clients.step shardOf order)
      (Clients.step shardOf order c (.call reader)).2 acts)
    (hdone : Listing.Done n (Clients.listing reader c')) :
    Faithful finish order'
      (fun s => ∃ m, m <+: acts ∧ s = (final (Clients.step shardOf order)
        (Clients.step shardOf order c (.call reader)).2 m).store) userId orgId
      (Evaluator.enabledForAll finish listingStore (Clients.listing reader c') userId orgId) := by
  have hview : ∀ m, m <+: acts → Clients.listing reader (final (Clients.step shardOf order)
      (Clients.step shardOf order c (.call reader)).2 m) =
        final (Listing.step shardOf order) (.start c.store)
          (m.filterMap (Clients.turnOf reader)) := by
    intro m hm
    have hstart : Clients.listing reader (Clients.step shardOf order c (.call reader)).2 =
        .start c.store := by
      simp [Clients.step, Clients.listing, Listing.start]
    rw [Clients.listing_view shardOf order _ (fun a ha => hacts a (hm.subset ha)), hstart]
  have hwhole := hview acts (List.prefix_refl acts)
  rw [← hc'] at hwhole
  rw [hwhole] at hdone
  have hcollected := listing_collected shardOf order c.store _ hdone
  rw [Represents.enabledForAll_eq, hwhole]
  have hmoments : (fun s => ∃ m, m <+: acts.filterMap (Clients.turnOf reader) ∧
      s = Listing.storeAt shardOf order c.store m) =
      fun s => ∃ m, m <+: acts ∧ s = (final (Clients.step shardOf order)
        (Clients.step shardOf order c (.call reader)).2 m).store := by
    funext s
    apply propext
    constructor
    · intro hex
      obtain ⟨ks, hks, rfl⟩ := hex
      obtain ⟨m, hm, rfl⟩ := exists_prefix_filterMap hks
      exact ⟨m, hm, (congrArg Listing.store (hview m hm)).symm⟩
    · intro hex
      obtain ⟨m, hm, rfl⟩ := hex
      exact ⟨_, hm.filterMap _, congrArg Listing.store (hview m hm)⟩
  rw [hmoments] at hcollected
  exact faithful_of_collected finish userId orgId hcollected order'

/-- Reader 0 is overtaken by a write and by reader 1. -/
theorem every_call_faithful_overtaken :
    ((Evaluator.enabledForAll (fun _ => 7) listingStore (Clients.listing 0
      (final (Clients.step (fun key => if key = "a" then (0 : Fin 2) else 1) .stored)
        (Clients.step (fun key => if key = "a" then (0 : Fin 2) else 1) .stored
          ⟨.new, fun _ => []⟩ (.call 0)).2
        [.visit 0, .set ⟨⟨"a"⟩, true, 100, (none : Option Int)⟩, .call 1, .visit 1, .visit 0]))
      "u1" none).map Prod.fst).Nodup :=
  (@every_call_faithful Int 2 (fun _ => 7) "u1" none
    (fun key => if key = "a" then 0 else 1) .stored .stored ⟨.new, fun _ => []⟩ 0
    [.visit 0, .set ⟨⟨"a"⟩, true, 100, none⟩, .call 1, .visit 1, .visit 0]
    (by simp [Clients.Continues]) _ rfl rfl).once

end FlagKit
