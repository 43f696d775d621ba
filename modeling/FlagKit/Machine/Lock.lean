import FlagKit.Machine.Run
import Mathlib.Logic.Function.Basic

/-!
# A machine behind a lock

Clients share a machine.  A call waits for the lock, reads the state, writes back the
state it computed and leaves, each at a time of its own, and others move in between.  A
client may give up as long as it waits.  An input whose reply does not depend on the state
may be answered without the lock.

The lock is what makes the calls atomic: whoever has read the state holds the lock, so
what it read is still the state when it writes (`Guarded`).  Therefore the effects of a
run, in their order, are a run of the machine by itself, and each call that returned had
one effect, between its call and its return, with the reply that was returned
(`linearized_final`).  A call that was given up had none.
-/

namespace FlagKit
namespace Machine

variable {σ ι ο γ : Type}

/-! ## Clients -/

/-- Where a client stands. -/
inductive Phase (σ ι ο : Type) where
  | idle
  | waiting (i : ι)
  | holding (i : ι)
  | loaded (i : ι) (s : σ)
  | done (i : ι) (o : ο)

structure Shared (γ σ ι ο : Type) where
  state : σ
  holder : Option γ
  phase : γ → Phase σ ι ο

def Shared.start (s : σ) : Shared γ σ ι ο := { state := s, holder := none, phase := fun _ => .idle }

inductive Move (γ ι : Type) where
  | call (c : γ) (i : ι)
  | acquire (c : γ)
  | load (c : γ)
  | store (c : γ)
  | answer (c : γ)
  | ret (c : γ)
  | cancel (c : γ)

/-- What can be seen of a client. -/
inductive Entry (ι ο : Type) where
  | called (i : ι)
  | effect (i : ι) (o : ο)
  | returned (i : ι) (o : ο)
  | cancelled (i : ι)

variable [DecidableEq γ]

def Shared.enter (s : Shared γ σ ι ο) (c : γ) (p : Phase σ ι ο) : Shared γ σ ι ο :=
  { s with phase := Function.update s.phase c p }

/-- One move; a move that is not possible changes nothing. -/
def lockStep (step : σ → ι → ο × σ) (early : ι → Option ο) (s : Shared γ σ ι ο) :
    Move γ ι → Option (γ × Entry ι ο) × Shared γ σ ι ο
  | .call c i =>
    match s.phase c with
    | .idle => (some (c, .called i), s.enter c (.waiting i))
    | _ => (none, s)
  | .acquire c =>
    match s.phase c with
    | .waiting i =>
      if s.holder.isNone && (early i).isNone then
        (none, { s.enter c (.holding i) with holder := some c })
      else (none, s)
    | _ => (none, s)
  | .load c =>
    match s.phase c with
    | .holding i => (none, s.enter c (.loaded i s.state))
    | _ => (none, s)
  | .store c =>
    match s.phase c with
    | .loaded i t =>
      let (o, t') := step t i
      (some (c, .effect i o), { s.enter c (.done i o) with state := t' })
    | _ => (none, s)
  | .answer c =>
    match s.phase c with
    | .waiting i =>
      match early i with
      | some o => (some (c, .effect i o), s.enter c (.done i o))
      | none => (none, s)
    | _ => (none, s)
  | .ret c =>
    match s.phase c with
    | .done i o =>
      (some (c, .returned i o),
        { s.enter c .idle with holder := if s.holder = some c then none else s.holder })
    | _ => (none, s)
  | .cancel c =>
    match s.phase c with
    | .waiting i => (some (c, .cancelled i), s.enter c .idle)
    | _ => (none, s)

/-- Everything a move can do. -/
inductive Moved (step : σ → ι → ο × σ) (early : ι → Option ο) (s : Shared γ σ ι ο) :
    Option (γ × Entry ι ο) × Shared γ σ ι ο → Prop where
  | stays : Moved step early s (none, s)
  | called (c : γ) (i : ι) (hc : s.phase c = .idle) :
      Moved step early s (some (c, .called i), s.enter c (.waiting i))
  | acquired (c : γ) (i : ι) (hc : s.phase c = .waiting i) (hfree : s.holder = none) :
      Moved step early s (none, { s.enter c (.holding i) with holder := some c })
  | loaded (c : γ) (i : ι) (hc : s.phase c = .holding i) :
      Moved step early s (none, s.enter c (.loaded i s.state))
  | stored (c : γ) (i : ι) (t : σ) (hc : s.phase c = .loaded i t) :
      Moved step early s (some (c, .effect i (step t i).1),
        { s.enter c (.done i (step t i).1) with state := (step t i).2 })
  | answered (c : γ) (i : ι) (o : ο) (hc : s.phase c = .waiting i) (ho : early i = some o) :
      Moved step early s (some (c, .effect i o), s.enter c (.done i o))
  | returned (c : γ) (i : ι) (o : ο) (hc : s.phase c = .done i o) :
      Moved step early s (some (c, .returned i o),
        { s.enter c .idle with holder := if s.holder = some c then none else s.holder })
  | cancelled (c : γ) (i : ι) (hc : s.phase c = .waiting i) :
      Moved step early s (some (c, .cancelled i), s.enter c .idle)

variable {step : σ → ι → ο × σ} {early : ι → Option ο}

theorem lockStep_moved (s : Shared γ σ ι ο) (m : Move γ ι) :
    Moved step early s (lockStep step early s m) := by
  cases m with
  | call c i =>
    cases hc : s.phase c with
    | idle =>
      rw [lockStep, hc]
      exact .called c i hc
    | waiting | holding | loaded | done =>
      rw [lockStep, hc]
      exact .stays
  | acquire c =>
    cases hc : s.phase c with
    | waiting i =>
      simp only [lockStep, hc]
      by_cases hfree : (s.holder.isNone && (early i).isNone) = true
      · rw [if_pos hfree]
        rw [Bool.and_eq_true] at hfree
        exact .acquired c i hc (Option.isNone_iff_eq_none.mp hfree.1)
      · rw [if_neg hfree]
        exact .stays
    | idle | holding | loaded | done =>
      simp only [lockStep, hc]
      exact .stays
  | load c =>
    cases hc : s.phase c with
    | holding i =>
      rw [lockStep, hc]
      exact .loaded c i hc
    | idle | waiting | loaded | done =>
      rw [lockStep, hc]
      exact .stays
  | store c =>
    cases hc : s.phase c with
    | loaded i t =>
      rw [lockStep, hc]
      exact .stored c i t hc
    | idle | waiting | holding | done =>
      rw [lockStep, hc]
      exact .stays
  | answer c =>
    cases hc : s.phase c with
    | waiting i =>
      simp only [lockStep, hc]
      cases ho : early i with
      | none => exact .stays
      | some o => exact .answered c i o hc ho
    | idle | holding | loaded | done =>
      simp only [lockStep, hc]
      exact .stays
  | ret c =>
    cases hc : s.phase c with
    | done i o =>
      rw [lockStep, hc]
      exact .returned c i o hc
    | idle | waiting | holding | loaded =>
      rw [lockStep, hc]
      exact .stays
  | cancel c =>
    cases hc : s.phase c with
    | waiting i =>
      rw [lockStep, hc]
      exact .cancelled c i hc
    | idle | holding | loaded | done =>
      rw [lockStep, hc]
      exact .stays

/-! ## The lock guards the state -/

/-- The client is between taking the lock and writing. -/
def Phase.critical : Phase σ ι ο → Bool
  | .holding _ | .loaded _ _ => true
  | _ => false

structure Guarded (s : Shared γ σ ι ο) : Prop where
  holds : ∀ c, (s.phase c).critical = true → s.holder = some c
  fresh : ∀ c i t, s.phase c = .loaded i t → t = s.state

omit [DecidableEq γ] in
theorem guarded_start (t : σ) : Guarded (Shared.start t : Shared γ σ ι ο) where
  holds _ hc := by cases hc
  fresh _ _ _ hc := by cases hc

theorem enter_self (s : Shared γ σ ι ο) (c : γ) (p : Phase σ ι ο) : (s.enter c p).phase c = p := by
  show Function.update s.phase c p c = p
  rw [Function.update_self]

theorem enter_ne (s : Shared γ σ ι ο) {c c' : γ} (h : c' ≠ c) (p : Phase σ ι ο) :
    (s.enter c p).phase c' = s.phase c' := by
  show Function.update s.phase c p c' = s.phase c'
  rw [Function.update_of_ne h]

/-- A client that stays out of the critical section does not disturb the others. -/
theorem Guarded.enter {s : Shared γ σ ι ο} (h : Guarded s) {c : γ} {p : Phase σ ι ο}
    (hp : p.critical = false) : Guarded (s.enter c p) where
  holds c' hc' := by
    by_cases heq : c' = c
    · rw [heq, enter_self, hp] at hc'
      cases hc'
    · rw [enter_ne s heq] at hc'
      exact h.holds c' hc'
  fresh c' i t hc' := by
    by_cases heq : c' = c
    · rw [heq, enter_self] at hc'
      rw [hc'] at hp
      cases hp
    · rw [enter_ne s heq] at hc'
      exact h.fresh c' i t hc'

omit [DecidableEq γ] in
/-- While a client is in the critical section the others are not. -/
theorem Guarded.alone {s : Shared γ σ ι ο} (h : Guarded s) {c c' : γ}
    (hc : (s.phase c).critical = true) (hc' : (s.phase c').critical = true) : c' = c := by
  have hholder := h.holds c hc
  rw [h.holds c' hc', Option.some.injEq] at hholder
  exact hholder

theorem Moved.guarded {s : Shared γ σ ι ο} {r : Option (γ × Entry ι ο) × Shared γ σ ι ο}
    (hm : Moved step early s r) (h : Guarded s) : Guarded r.2 := by
  cases hm with
  | stays => exact h
  | called c i | answered c i | cancelled c i => exact h.enter rfl
  | acquired c i hc hfree =>
    have hout : ∀ c', (s.phase c').critical = false := by
      intro c'
      rw [← Bool.not_eq_true]
      intro hcrit
      have hholder := h.holds c' hcrit
      rw [hfree] at hholder
      cases hholder
    refine ⟨fun c' hc' => ?_, fun c' i' t hc' => ?_⟩
    · by_cases heq : c' = c
      · rw [heq]
      · have hsame : (s.enter c (.holding i)).phase c' = s.phase c' := enter_ne s heq _
        have hcrit : ((s.enter c (.holding i)).phase c').critical = true := hc'
        rw [hsame, hout c'] at hcrit
        cases hcrit
    · have hphase : (s.enter c (.holding i)).phase c' = .loaded i' t := hc'
      by_cases heq : c' = c
      · rw [heq, enter_self] at hphase
        cases hphase
      · rw [enter_ne s heq] at hphase
        exact h.fresh c' i' t hphase
  | loaded c i hc =>
    have hin : (s.phase c).critical = true := by rw [hc]; rfl
    refine ⟨fun c' hc' => ?_, fun c' i' t hc' => ?_⟩
    · by_cases heq : c' = c
      · rw [heq]
        exact h.holds c hin
      · rw [enter_ne s heq] at hc'
        exact h.holds c' hc'
    · by_cases heq : c' = c
      · rw [heq, enter_self] at hc'
        cases hc'
        rfl
      · rw [enter_ne s heq] at hc'
        exact h.fresh c' i' t hc'
  | stored c i t hc =>
    have hin : (s.phase c).critical = true := by rw [hc]; rfl
    have hguarded : Guarded (s.enter c (.done i (step t i).1)) := h.enter rfl
    refine ⟨hguarded.holds, fun c' i' t' hc' => ?_⟩
    -- nobody else has read the state that is overwritten
    have hphase : (s.enter c (.done i (step t i).1)).phase c' = .loaded i' t' := hc'
    by_cases heq : c' = c
    · rw [heq, enter_self] at hphase
      cases hphase
    · rw [enter_ne s heq] at hphase
      exact absurd (h.alone hin (by rw [hphase]; rfl)) heq
  | returned c i o hc =>
    have hguarded : Guarded (s.enter c .idle) := h.enter rfl
    refine ⟨fun c' hc' => ?_, hguarded.fresh⟩
    have hcrit : ((s.enter c .idle).phase c').critical = true := hc'
    have hholder : s.holder = some c' := hguarded.holds c' hcrit
    have hne : c' ≠ c := by
      intro heq
      rw [heq, enter_self] at hcrit
      cases hcrit
    have hother : s.holder ≠ some c := by
      rw [hholder]
      exact fun heq => hne (Option.some.inj heq)
    show (if s.holder = some c then none else s.holder) = some c'
    rw [if_neg hother]
    exact hholder

/-! ## One order of effects -/

abbrev LockEvent (γ σ ι ο : Type) := Event (Shared γ σ ι ο) (Move γ ι) (Option (γ × Entry ι ο))

def Entry.asEffect : Entry ι ο → Option (ι × ο)
  | .effect i o => some (i, o)
  | _ => none

/-- The effects of a run, in their order. -/
def effects (es : List (LockEvent γ σ ι ο)) : List (ι × ο) :=
  es.filterMap fun e => e.output.bind fun p => p.2.asEffect

/-- What was seen of one client. -/
def clientLog (c : γ) (es : List (LockEvent γ σ ι ο)) : List (Entry ι ο) :=
  es.filterMap fun e => e.output.bind fun p => if p.1 = c then some p.2 else none

theorem filterMap_concat {α β : Type} (f : α → Option β) (l : List α) (a : α) :
    (l ++ [a]).filterMap f = l.filterMap f ++ (f a).toList := by
  rw [List.filterMap_append]
  cases h : f a <;> simp [h]

omit [DecidableEq γ] in
theorem effects_concat (es : List (LockEvent γ σ ι ο)) (e : LockEvent γ σ ι ο) :
    effects (es ++ [e]) = effects es ++ (e.output.bind fun p => p.2.asEffect).toList :=
  filterMap_concat _ es e

theorem clientLog_concat (c : γ) (es : List (LockEvent γ σ ι ο)) (e : LockEvent γ σ ι ο) :
    clientLog c (es ++ [e]) =
      clientLog c es ++ (e.output.bind fun p => if p.1 = c then some p.2 else none).toList :=
  filterMap_concat _ es e

/-- What a client that is seen to stand somewhere has been through. -/
inductive Standing (ι ο : Type) where
  | idle
  | called (i : ι)
  | answered (i : ι) (o : ο)

def Phase.standing : Phase σ ι ο → Standing ι ο
  | .idle => .idle
  | .waiting i | .holding i | .loaded i _ => .called i
  | .done i o => .answered i o

/-- Calls one after another, each with one effect and its reply or given up before. -/
inductive Orderly : List (Entry ι ο) → Standing ι ο → Prop where
  | nil : Orderly [] .idle
  | called {l : List (Entry ι ο)} {i : ι} (h : Orderly l .idle) :
      Orderly (l ++ [.called i]) (.called i)
  | effect {l : List (Entry ι ο)} {i : ι} {o : ο} (h : Orderly l (.called i)) :
      Orderly (l ++ [.effect i o]) (.answered i o)
  | returned {l : List (Entry ι ο)} {i : ι} {o : ο} (h : Orderly l (.answered i o)) :
      Orderly (l ++ [.returned i o]) .idle
  | cancelled {l : List (Entry ι ο)} {i : ι} (h : Orderly l (.called i)) :
      Orderly (l ++ [.cancelled i]) .idle

/-- The effects are a run of the machine by itself, and every client's calls are in order. -/
structure Linearized (step : σ → ι → ο × σ) (t : σ) (es : List (LockEvent γ σ ι ο))
    (s : Shared γ σ ι ο) : Prop where
  guarded : Guarded s
  state_eq : s.state = final step t ((effects es).map Prod.fst)
  effects_eq : effects es =
    (trace step t ((effects es).map Prod.fst)).map (fun e => (e.input, e.output))
  orderly : ∀ c, Orderly (clientLog c es) (s.phase c).standing

variable {t : σ} {es : List (LockEvent γ σ ι ο)} {s : Shared γ σ ι ο}

/-- The log of a client follows its moves. -/
theorem orderly_move (h : ∀ c, Orderly (clientLog c es) (s.phase c).standing) (c : γ)
    {e : LockEvent γ σ ι ο} {x : Entry ι ο} (he : e.output = some (c, x)) {p : Phase σ ι ο}
    (hx : Orderly (clientLog c es ++ [x]) p.standing) :
    ∀ c', Orderly (clientLog c' (es ++ [e])) ((s.enter c p).phase c').standing := by
  intro c'
  rw [clientLog_concat, he]
  by_cases heq : c' = c
  · rw [heq, enter_self, Option.bind_some, if_pos rfl]
    exact hx
  · rw [enter_ne s heq, Option.bind_some, if_neg (Ne.symm heq), Option.toList_none,
      List.append_nil]
    exact h c'

/-- A move that is not seen leaves every log, and where its client stands. -/
theorem orderly_silent (h : ∀ c, Orderly (clientLog c es) (s.phase c).standing) (c : γ)
    {e : LockEvent γ σ ι ο} (he : e.output = none) {p : Phase σ ι ο}
    (hp : p.standing = (s.phase c).standing) :
    ∀ c', Orderly (clientLog c' (es ++ [e])) ((s.enter c p).phase c').standing := by
  intro c'
  rw [clientLog_concat, he, Option.bind_none, Option.toList_none, List.append_nil]
  by_cases heq : c' = c
  · rw [heq, enter_self, hp]
    exact h c
  · rw [enter_ne s heq]
    exact h c'

omit [DecidableEq γ] in
/-- The effect of a step of the machine by itself, added to a run of it. -/
theorem effects_store (hstate : s.state = final step t ((effects es).map Prod.fst))
    (heffects : effects es =
      (trace step t ((effects es).map Prod.fst)).map (fun e => (e.input, e.output)))
    {e : LockEvent γ σ ι ο} {c : γ} {i : ι}
    (he : e.output = some (c, .effect i (step s.state i).1)) :
    (step s.state i).2 = final step t ((effects (es ++ [e])).map Prod.fst) ∧
      effects (es ++ [e]) =
        (trace step t ((effects (es ++ [e])).map Prod.fst)).map (fun e => (e.input, e.output)) := by
  have hadd : effects (es ++ [e]) = effects es ++ [(i, (step s.state i).1)] := by
    rw [effects_concat, he]
    rfl
  rw [hadd, List.map_append, List.map_singleton, final_concat, trace_concat, List.map_append,
    ← heffects, ← hstate]
  exact ⟨rfl, rfl⟩

omit [DecidableEq γ] in
/-- A step with no effect adds nothing. -/
theorem effects_other {e : LockEvent γ σ ι ο}
    (he : e.output.bind (fun p => p.2.asEffect) = none) : effects (es ++ [e]) = effects es := by
  rw [effects_concat, he, Option.toList_none, List.append_nil]

theorem lockStep_linearized (hearly : ∀ i o u, early i = some o → step u i = (o, u))
    (h : Linearized step t es s) (m : Move γ ι) :
    Linearized step t (es ++ [event (lockStep step early) s m]) (lockStep step early s m).2 := by
  have hmoved : Moved step early s (lockStep step early s m) := lockStep_moved s m
  have hguarded := hmoved.guarded h.guarded
  have hout : (event (lockStep step early) s m).output = (lockStep step early s m).1 := rfl
  generalize event (lockStep step early) s m = e at hout ⊢
  generalize lockStep step early s m = r at hmoved hguarded hout ⊢
  have hquiet : e.output.bind (fun p => p.2.asEffect) = none → r.2.state = s.state →
      (∀ c, Orderly (clientLog c (es ++ [e])) (r.2.phase c).standing) →
        Linearized step t (es ++ [e]) r.2 := by
    intro hnone hstate horderly
    refine ⟨hguarded, ?_, ?_, horderly⟩
    · rw [effects_other hnone, hstate]
      exact h.state_eq
    · rw [effects_other hnone]
      exact h.effects_eq
  cases hmoved with
  | stays =>
    refine hquiet (by rw [hout]; rfl) rfl fun c => ?_
    rw [clientLog_concat, hout, Option.bind_none, Option.toList_none, List.append_nil]
    exact h.orderly c
  | called c i hc =>
    refine hquiet (by rw [hout]; rfl) rfl (orderly_move h.orderly c hout (.called ?_))
    have hlog := h.orderly c
    rw [hc] at hlog
    exact hlog
  | acquired c i hc hfree =>
    exact hquiet (by rw [hout]; rfl) rfl (orderly_silent h.orderly c hout (by rw [hc]; rfl))
  | loaded c i hc =>
    exact hquiet (by rw [hout]; rfl) rfl (orderly_silent h.orderly c hout (by rw [hc]; rfl))
  | stored c i u hc =>
    have hfresh := h.guarded.fresh c i u hc
    rw [hfresh] at hc hout hguarded ⊢
    obtain ⟨hstate, heffects⟩ := effects_store h.state_eq h.effects_eq hout
    refine ⟨hguarded, hstate, heffects, orderly_move h.orderly c hout (.effect ?_)⟩
    have hlog := h.orderly c
    rw [hc] at hlog
    exact hlog
  | answered c i o hc ho =>
    have hsame := hearly i o s.state ho
    have hout' : e.output = some (c, .effect i (step s.state i).1) := by rw [hout, hsame]
    obtain ⟨hstate, heffects⟩ := effects_store h.state_eq h.effects_eq hout'
    rw [hsame] at hstate
    refine ⟨hguarded, hstate, heffects, orderly_move h.orderly c hout (.effect ?_)⟩
    have hlog := h.orderly c
    rw [hc] at hlog
    exact hlog
  | returned c i o hc =>
    refine hquiet (by rw [hout]; rfl) rfl (orderly_move h.orderly c hout (.returned ?_))
    have hlog := h.orderly c
    rw [hc] at hlog
    exact hlog
  | cancelled c i hc =>
    refine hquiet (by rw [hout]; rfl) rfl (orderly_move h.orderly c hout (.cancelled ?_))
    have hlog := h.orderly c
    rw [hc] at hlog
    exact hlog

/-- Every run of clients behind the lock, whatever their moves, is a run of the machine. -/
theorem linearized_final (hearly : ∀ i o u, early i = some o → step u i = (o, u)) (t : σ)
    (ms : List (Move γ ι)) :
    Linearized step t (trace (lockStep step early) (Shared.start t) ms)
      (final (lockStep step early) (Shared.start t) ms) := by
  have hstart : Linearized step t [] (Shared.start t : Shared γ σ ι ο) :=
    ⟨guarded_start t, rfl, rfl, fun _ => .nil⟩
  exact history_final (J := Linearized step t) hstart
    (fun _ _ m h => lockStep_linearized hearly h m) ms

end Machine
end FlagKit
