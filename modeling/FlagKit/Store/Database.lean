import FlagKit.Store.Audit
import FlagKit.Store.History

/-!
# One database, two tables

A store is a connection to a database in which the flags and the audit trail are two
tables.  Every constructor runs `init`, which creates a table only if it is not there, so
a database can be opened any number of times, also one that others have filled.

Over any sequence of calls each table goes through its own calls and no others
(`flags_final`, `changes_final`): opening again changes nothing, setting a flag leaves no
trace in the trail, and a trace is never lost to a deleted flag.  So the lookups of the
flags are read off the last writes, and the trail of a name is what was there and what
was recorded, by descending second, as long as every row that was there can be read.
-/

namespace FlagKit

open Machine Sql

variable {T : Type}

/-- The tables of a database; `none` is a table that was never created. -/
structure Database where
  flags : Option FlagsTable
  flagChanges : Option FlagChanges

def Database.new : Database := { flags := none, flagChanges := none }

/-- A connection whose tables are there. -/
structure Connection where
  flags : SqliteFlagStore
  changes : FlagChanges

namespace Connection

/-- `CREATE TABLE IF NOT EXISTS`, twice. -/
def init (d : Database) : Connection where
  flags := ⟨d.flags.getD Table.empty⟩
  changes := d.flagChanges.getD FlagChanges.empty

/-- What a connection leaves behind. -/
def database (c : Connection) : Database where
  flags := some c.flags.flags
  flagChanges := some c.changes

theorem init_database (c : Connection) : init c.database = c := rfl

end Connection

inductive DatabaseOp (T : Type) where
  | reopen
  | store (op : StoreOp T)
  | recordChange (change : FlagChange)

inductive DatabaseReply where
  | opened
  | store (reply : Reply)
  | recorded (result : Except FlagError Unit)

namespace Connection

variable (K : Validkit) (C : TimeCodec T) (order : ScanOrder FlagRow) (now : T)

def step (c : Connection) : DatabaseOp T → DatabaseReply × Connection
  | .reopen => (.opened, init c.database)
  | .store op =>
    let (reply, flags) := (sqliteFlagStore K C order now).step c.flags op
    (.store reply, { c with flags })
  | .recordChange change =>
    let (result, changes) := c.changes.recordChange change
    (.recorded result, { c with changes })

end Connection

namespace DatabaseOp

/-- The call of the flags table, if it is one. -/
def storeOp : DatabaseOp T → Option (StoreOp T)
  | .store op => some op
  | _ => none

/-- The change recorded, if one is. -/
def change : DatabaseOp T → Option FlagChange
  | .recordChange change => some change
  | _ => none

end DatabaseOp

namespace Connection

variable (K : Validkit) (C : TimeCodec T) (order : ScanOrder FlagRow) (now : T)

/-! ## Each table by itself -/

theorem flags_final (c : Connection) (ops : List (DatabaseOp T)) :
    (final (step K C order now) c ops).flags =
      final (sqliteFlagStore K C order now).step c.flags (ops.filterMap DatabaseOp.storeOp) := by
  refine viewed_final (φ := Connection.flags) (Q := fun _ => True) (fun s op k _ hk => ?_)
    (fun s op _ hnone => ?_) c (fun _ _ => trivial)
  · cases op with
    | store op =>
      cases hk
      rfl
    | reopen | recordChange => cases hk
  · cases op with
    | store op => cases hnone
    | reopen | recordChange => rfl

theorem changes_final (c : Connection) (ops : List (DatabaseOp T)) :
    (final (step K C order now) c ops).changes =
      final FlagChanges.recordChange c.changes (ops.filterMap DatabaseOp.change) := by
  refine viewed_final (φ := Connection.changes) (Q := fun _ => True) (fun s op k _ hk => ?_)
    (fun s op _ hnone => ?_) c (fun _ _ => trivial)
  · cases op with
    | recordChange change =>
      cases hk
      rfl
    | reopen | store => cases hk
  · cases op with
    | recordChange change => cases hnone
    | reopen | store => rfl

end Connection

/-! ## The trail -/

namespace FlagChanges

variable {orderBy : OrderByDesc ChangeRow.whenKey} {columnError : ChangeRow → String}
  {t : FlagChanges} {name : FlagName}

/-- Recording adds to what a table already held. -/
theorem rowsOf_final (t : FlagChanges) (changes : List FlagChange) (name : FlagName) :
    ((final recordChange t changes).rowsOf name).map read =
      (t.rowsOf name).map read ++ (changes.filter (fun c => c.name = name)).map some := by
  induction changes using List.reverseRecOn with
  | nil => simp
  | append_singleton changes c ih =>
    rw [final_concat, rowsOf_recordChange, List.map_append, ih, List.filter_append,
      List.map_append, List.append_assoc]
    by_cases h : c.name = name
    · simp [h, read_bound]
    · simp [h]

/-- The trail of a name: these changes and no others, by descending second. -/
def Trail (orderBy : OrderByDesc ChangeRow.whenKey) (columnError : ChangeRow → String)
    (t : FlagChanges) (name : FlagName) (changes : List FlagChange) : Prop :=
  ∃ out, t.listChanges orderBy columnError name = .ok out ∧ out.Perm changes ∧
    out.Pairwise (fun a b => b.when ≤ a.when)

theorem descending_when {rows : List ChangeRow} {out : List FlagChange}
    (hread : rows.map read = out.map some) (h : rows.Pairwise (Descending ChangeRow.whenKey)) :
    out.Pairwise (fun a b => b.when ≤ a.when) := by
  induction rows generalizing out with
  | nil =>
    rw [List.map_nil, eq_comm, List.map_eq_nil_iff] at hread
    rw [hread]
    exact List.Pairwise.nil
  | cons r rows ih =>
    cases out with
    | nil => cases hread
    | cons c out =>
      rw [List.map_cons, List.map_cons, List.cons.injEq] at hread
      rw [List.pairwise_cons] at h ⊢
      refine ⟨fun d hd => ?_, ih hread.2 h.2⟩
      have hmem : some d ∈ rows.map read := by
        rw [hread.2]
        exact List.mem_map_of_mem hd
      obtain ⟨q, hq, hqd⟩ := List.mem_map.mp hmem
      exact Int64.le_iff_toInt_le.mpr
        (h.1 q hq _ _ (whenKey_of_read hread.1) (whenKey_of_read hqd))

/-- Rows that all read are the changes read, a row each. -/
theorem map_read_eq {rows : List ChangeRow} (h : ∀ r ∈ rows, (read r).isSome) :
    rows.map read = (rows.filterMap read).map some := by
  rw [List.map_filterMap_some_eq_filter_map_isSome, List.filter_eq_self.mpr]
  intro o ho
  obtain ⟨r, hr, rfl⟩ := List.mem_map.mp ho
  exact h r hr

theorem trail_of_read {changes : List FlagChange}
    (h : (t.rowsOf name).map read = changes.map some) :
    Trail orderBy columnError t name changes := by
  have hperm : ((orderBy.sort (t.rowsOf name)).map read).Perm (changes.map some) := by
    rw [← h]
    exact (orderBy.perm _).map read
  have hall : ∀ r ∈ orderBy.sort (t.rowsOf name), (read r).isSome := by
    intro r hr
    obtain ⟨c, _, hc⟩ := List.mem_map.mp (hperm.mem_iff.mp (List.mem_map_of_mem hr))
    rw [← hc]
    rfl
  have hout := map_read_eq hall
  refine ⟨_, listChanges_eq_ok_iff.mpr hout, ?_, descending_when hout (orderBy.sorted _ ?_)⟩
  · rw [hout] at hperm
    have hread := hperm.filterMap id
    simpa using hread
  · intro r hr
    obtain ⟨c, hc⟩ := Option.isSome_iff_exists.mp (hall r ((orderBy.perm _).mem_iff.mpr hr))
    rw [whenKey_of_read hc]
    rfl

/-- Rows that do not read are never listed around. -/
theorem read_of_listChanges_ok {out : List FlagChange}
    (h : t.listChanges orderBy columnError name = .ok out) :
    ∀ r ∈ t.rowsOf name, (read r).isSome := by
  intro r hr
  have hmem : read r ∈ out.map some := by
    rw [← listChanges_eq_ok_iff.mp h]
    exact List.mem_map_of_mem ((orderBy.perm _).mem_iff.mpr hr)
  obtain ⟨c, _, hc⟩ := List.mem_map.mp hmem
  rw [← hc]
  rfl

/-- Every row of the name reads as a change. -/
def Readable (t : FlagChanges) (name : FlagName) : Prop := ∀ r ∈ t.rowsOf name, (read r).isSome

/-- What a table held of a name and what was then recorded of it. -/
def recorded (t : FlagChanges) (changes : List FlagChange) (name : FlagName) : List FlagChange :=
  (t.rowsOf name).filterMap read ++ changes.filter (fun c => c.name = name)

/-- The trail is complete when everything the table held can be read, and else it is
refused as a whole. -/
theorem trail_final (t : FlagChanges) (changes : List FlagChange) (name : FlagName)
    (orderBy : OrderByDesc ChangeRow.whenKey) (columnError : ChangeRow → String) :
    (t.Readable name ∧ Trail orderBy columnError (final recordChange t changes) name
        (t.recorded changes name)) ∨
      (¬ t.Readable name ∧
        ∀ out, (final recordChange t changes).listChanges orderBy columnError name ≠ .ok out) := by
  by_cases hread : t.Readable name
  · refine Or.inl ⟨hread, trail_of_read ?_⟩
    rw [rowsOf_final, map_read_eq hread, recorded, List.map_append]
  · refine Or.inr ⟨hread, fun out hout => hread fun r hr => ?_⟩
    have hmem : read r ∈ ((final recordChange t changes).rowsOf name).map read := by
      rw [rowsOf_final]
      exact List.mem_append_left _ (List.mem_map_of_mem hr)
    obtain ⟨q, hq, hqr⟩ := List.mem_map.mp hmem
    rw [← hqr]
    exact read_of_listChanges_ok hout q hq

end FlagChanges

/-! ## The whole database -/

/-- Whatever a database held, after any calls on any number of openings of it: the flags
are those of their own calls, each lookup is decided by the last write accepted, and the
trail holds what it held and what was recorded. -/
theorem database_remembers (K : Validkit) (C : TimeCodec T) (order : ScanOrder FlagRow)
    (now now' : T) (orderBy : OrderByDesc ChangeRow.whenKey) (columnError : ChangeRow → String)
    (d : Database) (ops : List (DatabaseOp T)) (name : FlagName) :
    let c := final (Connection.step K C order now) (Connection.init d) ops
    let changes := ops.filterMap DatabaseOp.change
    let held := (Connection.init d).changes
    c.flags.get K C now' name =
        (lastWrite (SqliteFlagStore.writes K C now' name) (ops.filterMap DatabaseOp.storeOp)).getD
          ((Connection.init d).flags.get K C now' name) ∧
      ((held.Readable name ∧
          FlagChanges.Trail orderBy columnError c.changes name (held.recorded changes name)) ∨
        (¬ held.Readable name ∧
          ∀ out, c.changes.listChanges orderBy columnError name ≠ .ok out)) := by
  intro c changes held
  have hflags : c.flags = _ := Connection.flags_final K C order now (Connection.init d) ops
  have hchanges : c.changes = _ := Connection.changes_final K C order now (Connection.init d) ops
  rw [hflags, hchanges]
  exact ⟨SqliteFlagStore.get_final K C order now' now _ _ name,
    FlagChanges.trail_final held changes name orderBy columnError⟩

end FlagKit
