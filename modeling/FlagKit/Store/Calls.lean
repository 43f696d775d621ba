import FlagKit.Machine.Lock
import FlagKit.Store.AnyTable
import FlagKit.Store.Database

/-!
# Concurrent calls on a database

The methods of the SQLite store are asynchronous, and any number of tasks may call them
at once.  Each takes the mutex of the connection at its only point of suspension and
keeps it to its end; `set` refuses a percentage above 100 before that.  A task that is
dropped is dropped while it waits.

So however the calls interleave they happen one after another, each between its start and
its end, and what one reads is what those before it wrote (`sqlite_calls_linearize`).

An evaluation makes one call, so it is of a single moment, `enabled_for_all` too: what it
returns is the evaluation of the catalog that the writes before it left
(`concurrent_evaluations`).
-/

namespace FlagKit

open Machine Sql

variable {T γ : Type}

inductive SqliteCall (T : Type) where
  | set (flag : Flag T)
  | delete (name : FlagName)
  | get (name : FlagName) (now : T)
  | list (now : T)
  | recordChange (change : FlagChange)
  | listChanges (name : FlagName)

inductive SqliteReply (T : Type) where
  | set (result : Except FlagError Unit)
  | delete (result : Except FlagError Bool)
  | get (flag : Option (Flag T))
  | list (flags : List (Flag T))
  | recorded (result : Except FlagError Unit)
  | changes (result : Except FlagError (List FlagChange))

namespace SqliteCall

/-- The call of the flags table that writes, if it is one. -/
def storeOp : SqliteCall T → Option (StoreOp T)
  | .set flag => some (.set flag)
  | .delete name => some (.delete name)
  | _ => none

def change : SqliteCall T → Option FlagChange
  | .recordChange change => some change
  | _ => none

/-- What is answered without the mutex. -/
def refusal : SqliteCall T → Option (SqliteReply T)
  | .set flag =>
    if flag.percentage > 100 then
      some (.set (.error (.storage (Flag.percentageMsg flag.percentage))))
    else none
  | _ => none

end SqliteCall

namespace Connection

variable (K : Validkit) (C : TimeCodec T) (order : ScanOrder FlagRow)
  (orderBy : OrderByDesc ChangeRow.whenKey) (columnError : ChangeRow → String)

/-- A method of the store, from the lock to the end. -/
def call (c : Connection) : SqliteCall T → SqliteReply T × Connection
  | .set flag =>
    let (result, flags) := c.flags.set C flag
    (.set result, { c with flags })
  | .delete name =>
    let (result, flags) := c.flags.delete name
    (.delete result, { c with flags })
  | .get name now => (.get (c.flags.get K C now name), c)
  | .list now => (.list (c.flags.list K C now order), c)
  | .recordChange change =>
    let (result, changes) := c.changes.recordChange change
    (.recorded result, { c with changes })
  | .listChanges name => (.changes (c.changes.listChanges orderBy columnError name), c)

theorem call_refused {i : SqliteCall T} {o : SqliteReply T} (c : Connection)
    (h : i.refusal = some o) : c.call K C order orderBy columnError i = (o, c) := by
  cases i with
  | set flag =>
    by_cases hpct : flag.percentage > 100
    · rw [SqliteCall.refusal, if_pos hpct, Option.some.injEq] at h
      rw [call, SqliteFlagStore.set, if_pos hpct, ← h]
    · rw [SqliteCall.refusal, if_neg hpct] at h
      cases h
  | delete | get | list | recordChange | listChanges => cases h

theorem call_flags (now : T) (c : Connection) (is : List (SqliteCall T)) :
    (final (call K C order orderBy columnError) c is).flags =
      final (sqliteFlagStore K C order now).step c.flags (is.filterMap SqliteCall.storeOp) := by
  refine viewed_final (φ := Connection.flags) (Q := fun _ => True) (fun s i k _ hk => ?_)
    (fun s i _ hnone => ?_) c (fun _ _ => trivial)
  · cases i with
    | set | delete =>
      cases hk
      rfl
    | get | list | recordChange | listChanges => cases hk
  · cases i with
    | set | delete => cases hnone
    | get | list | recordChange | listChanges => rfl

theorem call_changes (c : Connection) (is : List (SqliteCall T)) :
    (final (call K C order orderBy columnError) c is).changes =
      final FlagChanges.recordChange c.changes (is.filterMap SqliteCall.change) := by
  refine viewed_final (φ := Connection.changes) (Q := fun _ => True) (fun s i k _ hk => ?_)
    (fun s i _ hnone => ?_) c (fun _ _ => trivial)
  · cases i with
    | recordChange =>
      cases hk
      rfl
    | set | delete | get | list | listChanges => cases hk
  · cases i with
    | recordChange => cases hnone
    | set | delete | get | list | listChanges => rfl

/-- What is seen of concurrent calls, from a connection `u`. -/
structure Serial [DecidableEq γ] (u : Connection)
    (es : List (LockEvent γ Connection (SqliteCall T) (SqliteReply T))) : Prop where
  orderly : ∀ c, ∃ standing, Orderly (clientLog c es) standing
  replies : ∀ pre i o post, effects es = pre ++ (i, o) :: post →
    o = ((final (call K C order orderBy columnError) u (pre.map Prod.fst)).call K C order orderBy
      columnError i).1
  get_last : ∀ pre name now o post, effects es = pre ++ (.get name now, o) :: post →
    o = .get ((lastWrite (SqliteFlagStore.writes K C now name)
      ((pre.map Prod.fst).filterMap SqliteCall.storeOp)).getD (u.flags.get K C now name))
  trail : ∀ pre name o post, effects es = pre ++ (.listChanges name, o) :: post →
    u.changes.Readable name → ∃ out, o = .changes (.ok out) ∧
      out.Perm (u.changes.recorded ((pre.map Prod.fst).filterMap SqliteCall.change) name) ∧
      out.Pairwise (fun a b => b.when ≤ a.when)

/-- A call replies as if those before it had been made one after another. -/
theorem effect_reply [DecidableEq γ] (u : Connection) (ms : List (Move γ (SqliteCall T)))
    {pre post : List (SqliteCall T × SqliteReply T)} {i : SqliteCall T} {o : SqliteReply T}
    (h : effects (trace (lockStep (call K C order orderBy columnError) SqliteCall.refusal)
      (Shared.start u) ms) = pre ++ (i, o) :: post) :
    o = (call K C order orderBy columnError
      (final (call K C order orderBy columnError) u (pre.map Prod.fst)) i).1 := by
  have hearly : ∀ (i : SqliteCall T) o (c : Connection), i.refusal = some o →
      call K C order orderBy columnError c i = (o, c) :=
    fun i o c h => call_refused K C order orderBy columnError c h
  exact answer_of_split ((linearized_final hearly u ms).effects_eq.symm.trans h)

/-- Any number of tasks on one connection, whatever their calls and in whatever order
they are called, wait, are dropped, run and return: what is seen is a sequence of calls. -/
theorem sqlite_calls_linearize [DecidableEq γ] (u : Connection)
    (ms : List (Move γ (SqliteCall T))) :
    Serial K C order orderBy columnError u
      (trace (lockStep (call K C order orderBy columnError) SqliteCall.refusal)
        (Shared.start u) ms) := by
  have hearly : ∀ (i : SqliteCall T) o (c : Connection), i.refusal = some o →
      call K C order orderBy columnError c i = (o, c) :=
    fun i o c h => call_refused K C order orderBy columnError c h
  have hlin := linearized_final hearly u ms
  refine ⟨fun c => ⟨_, hlin.orderly c⟩, fun _ _ _ _ h => ?_, fun pre name now o post h => ?_,
    fun pre name o post h hread => ?_⟩
  · exact effect_reply K C order orderBy columnError u ms h
  · rw [effect_reply K C order orderBy columnError u ms h]
    show SqliteReply.get _ = _
    rw [call_flags K C order orderBy columnError now, SqliteFlagStore.get_final]
  · rw [effect_reply K C order orderBy columnError u ms h]
    show ∃ out, SqliteReply.changes _ = _ ∧ _
    rw [call_changes]
    rcases FlagChanges.trail_final u.changes ((pre.map Prod.fst).filterMap SqliteCall.change) name
      orderBy columnError with ⟨-, out, hout, hperm, hsorted⟩ | ⟨hnot, -⟩
    · exact ⟨out, by rw [hout], hperm, hsorted⟩
    · exact absurd hread hnot

/-! ## Evaluations beside other calls -/

variable (finish : DefaultHasher)

/-- What an evaluation makes of the reply to its one call is what the catalog says:
`enabled_for` of a lookup, `enabled_for_all` of a listing. -/
structure EvaluatedAs (m : Catalog) (i : SqliteCall T) (o : SqliteReply T) : Prop where
  enabled_for : ∀ name now, i = .get name now → ∃ flag, o = .get flag ∧ ∀ userId,
    flag.any (decision finish name userId) =
      ((m name).map (fun v => v.admits finish name userId)).getD false
  enabled_for_all : ∀ now, i = .list now → ∃ flags, o = .list flags ∧
    (flags.map Flag.name).Nodup ∧ ∀ userId name b,
      (name, b) ∈ flags.map (fun f => (f.name, decision finish f.name userId f)) ↔
        ∃ v, m name = some v ∧ v.admits finish name userId = b

theorem call_evaluatedAs {c : Connection} {m : Catalog}
    (h : SqliteFlagStore.Evaluates finish K C c.flags m) (i : SqliteCall T) :
    EvaluatedAs finish m i (c.call K C order orderBy columnError i).1 := by
  refine ⟨fun name now hi => ?_, fun now hi => ?_⟩
  · rw [hi]
    refine ⟨_, rfl, fun userId => ?_⟩
    rw [← h.enabled_for order now name userId none, enabledFor_get]
    rfl
  · rw [hi]
    refine ⟨_, rfl, ?_, fun userId name b => ?_⟩
    · have honce := h.names_once order now "" none
      rw [Represents.names_enabledForAll] at honce
      exact honce
    · rw [← h.enabled_for_all order now userId none name b, Represents.enabledForAll_eq]
      rfl

/-- However the calls of any number of tasks interleave, every evaluation is that of one
catalog, the one the writes before it left. -/
theorem concurrent_evaluations [DecidableEq γ] (now : T) (u : Connection)
    (ms : List (Move γ (SqliteCall T))) {pre post : List (SqliteCall T × SqliteReply T)}
    {i : SqliteCall T} {o : SqliteReply T}
    (h : effects (trace (lockStep (call K C order orderBy columnError) SqliteCall.refusal)
      (Shared.start u) ms) = pre ++ (i, o) :: post) :
    EvaluatedAs finish (final (Catalog.write K) (u.flags.catalog K C now)
      ((pre.map Prod.fst).filterMap SqliteCall.storeOp)) i o := by
  rw [effect_reply K C order orderBy columnError u ms h]
  refine call_evaluatedAs K C order orderBy columnError finish ?_ i
  rw [call_flags K C order orderBy columnError now,
    ← SqliteFlagStore.final_catalog order now now]
  exact SqliteFlagStore.evaluates_catalog finish now _

def newFlag : Flag Int64 := ⟨⟨"a"⟩, true, 50, none⟩

/-- A listing is called first and overtaken by a write while it waits. -/
def overtakenMoves : List (Move Bool (SqliteCall Int64)) :=
  [.call false (.list 0), .call true (.set newFlag), .acquire true, .load true,
    .acquire false, .store true, .ret true, .acquire false, .load false, .store false, .ret false]

theorem concurrent_evaluations_overtaken :
    EvaluatedAs (fun _ => 7) (final (Catalog.write Validkit.snakeCase)
      (SqliteFlagStore.inMemory.catalog Validkit.snakeCase .unixSeconds 0)
      [StoreOp.set newFlag]) (.list 0) (.list [newFlag]) :=
  @concurrent_evaluations Int64 Bool .snakeCase .unixSeconds .stored
    (.preferring ChangeRow.whenKey fun _ => false) (fun _ => "") (fun _ => 7) _ 0
    ⟨.inMemory, .empty⟩ overtakenMoves [(.set newFlag, .set (.ok ()))] [] _ _ rfl

end Connection
end FlagKit
