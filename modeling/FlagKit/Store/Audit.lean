import FlagKit.Sql.OrderBy
import FlagKit.Store.Sqlite

/-!
# The audit trail

`record_change` appends a row to `flag_changes` and `list_changes` reads the rows of one
name, by descending second.  Nothing gets lost (`rowsOf_read`).  Newest first is another
matter: the only key of the query is the second, the autoincrement `id` is not one, and
two changes of a flag within a second come back in either order.  So the trail is in
order exactly for the histories in which this does not happen (`newest_first_iff`).
-/

namespace FlagKit

open Machine Sql

structure ChangeRow where
  id : Nat
  name : SqlValue
  old : SqlValue
  new : SqlValue
  who : SqlValue
  when : SqlValue
  deriving DecidableEq

/-- The key of the query. -/
def ChangeRow.whenKey (r : ChangeRow) : Option Int := r.when.getI64.map Int64.toInt

/-- `flag_changes`; `lastId` is what `AUTOINCREMENT` counts. -/
structure FlagChanges where
  lastId : Nat
  rows : List ChangeRow

namespace FlagChanges

def empty : FlagChanges := { lastId := 0, rows := [] }

/-- The row `record_change` binds. -/
def bound (id : Nat) (c : FlagChange) : ChangeRow :=
  { id
    name := .text c.name.asStr
    old := .integer (boolAsI64 c.old)
    new := .integer (boolAsI64 c.new)
    who := .text c.who
    when := .integer c.when }

def recordChange (t : FlagChanges) (change : FlagChange) : Except FlagError Unit × FlagChanges :=
  (.ok (), { lastId := t.lastId + 1, rows := t.rows ++ [bound (t.lastId + 1) change] })

/-- The row closure of `list_changes`. -/
def read (row : ChangeRow) : Option FlagChange := do
  let nameS ← row.name.getString
  let old ← row.old.getI64
  let new ← row.new.getI64
  let who ← row.who.getString
  let when ← row.when.getI64
  return {
    name := .newUnchecked nameS
    old := decide (old ≠ 0)
    new := decide (new ≠ 0)
    who
    when }

def rowsOf (t : FlagChanges) (name : FlagName) : List ChangeRow :=
  t.rows.filter (fun r => r.name = .text name.asStr)

/-- `columnError` is the text of the error of a column that does not read. -/
def readResult (columnError : ChangeRow → String) (row : ChangeRow) : Except FlagError FlagChange :=
  match read row with
  | some change => .ok change
  | none => .error (.storage (columnError row))

def listChanges (order : OrderByDesc ChangeRow.whenKey) (columnError : ChangeRow → String)
    (t : FlagChanges) (name : FlagName) : Except FlagError (List FlagChange) :=
  (order.sort (t.rowsOf name)).mapM (readResult columnError)

/-! ## What is stored -/

variable {t : FlagChanges} {name : FlagName}

theorem read_bound (id : Nat) (c : FlagChange) : read (bound id c) = some c := by
  have hbool : ∀ b, decide (boolAsI64 b ≠ 0) = b := by decide
  simp only [read, bound, SqlValue.getString, SqlValue.getI64, Option.bind_eq_bind,
    Option.bind_some, Option.pure_def, hbool]
  rfl

theorem whenKey_of_read {r : ChangeRow} {c : FlagChange} (h : read r = some c) :
    r.whenKey = some c.when.toInt := by
  simp only [read, Option.bind_eq_bind, Option.bind_eq_some_iff, Option.pure_def,
    Option.some.injEq] at h
  obtain ⟨_, _, _, _, _, _, _, _, when, hwhen, rfl⟩ := h
  rw [ChangeRow.whenKey, hwhen]
  rfl

theorem rowsOf_recordChange (c : FlagChange) :
    (t.recordChange c).2.rowsOf name =
      t.rowsOf name ++ if c.name = name then [bound (t.lastId + 1) c] else [] := by
  have hname : ((bound (t.lastId + 1) c).name = .text name.asStr) ↔ c.name = name := by
    rw [bound, SqlValue.text.injEq]
    exact ⟨FlagName.asStr_injective, fun h => by rw [h]⟩
  rw [recordChange, rowsOf, List.filter_append, rowsOf]
  by_cases h : c.name = name
  · simp [h, hname.mpr h]
  · simp [h, mt hname.mp h]

/-- The rows of a name are the changes recorded for it, in the order in which they
were recorded. -/
theorem rowsOf_read (changes : List FlagChange) (name : FlagName) :
    ((final recordChange empty changes).rowsOf name).map read =
      (changes.filter (fun c => c.name = name)).map some := by
  induction changes using List.reverseRecOn with
  | nil => rfl
  | append_singleton changes c ih =>
    rw [final_concat, rowsOf_recordChange, List.map_append, ih, List.filter_append,
      List.map_append]
    by_cases h : c.name = name
    · simp [h, read_bound]
    · simp [h]

/-! ## What is listed -/

variable {order : OrderByDesc ChangeRow.whenKey} {columnError : ChangeRow → String}

theorem mapM_readResult_iff {rows : List ChangeRow} {out : List FlagChange} :
    rows.mapM (readResult columnError) = .ok out ↔ rows.map read = out.map some := by
  induction rows generalizing out with
  | nil => cases out <;> simp [pure, Except.pure]
  | cons row rows ih =>
    rw [List.mapM_cons, List.map_cons]
    cases hread : read row with
    | none => cases out <;> simp [readResult, hread, bind, Except.bind]
    | some c =>
      cases hrest : rows.mapM (readResult columnError) with
      | error e =>
        have hnone : ∀ rest : List FlagChange, rows.map read ≠ rest.map some := by
          intro rest hmap
          rw [← ih, hrest] at hmap
          cases hmap
        cases out <;> simp [readResult, hread, bind, Except.bind, hnone]
      | ok rest =>
        rw [ih.mp hrest]
        have hsome : some c :: rest.map some = (c :: rest).map some := rfl
        rw [hsome, (List.map_injective_iff.mpr (Option.some_injective _)).eq_iff]
        simp [readResult, hread, bind, Except.bind, pure, Except.pure]

theorem listChanges_eq_ok_iff {out : List FlagChange} :
    t.listChanges order columnError name = .ok out ↔
      (order.sort (t.rowsOf name)).map read = out.map some :=
  mapM_readResult_iff

/-- The history has the seconds of its changes in order. -/
def Timely (changes : List FlagChange) : Prop := changes.Pairwise (fun a b => a.when ≤ b.when)

/-- What `list_changes` is to return: the changes of the name, the last one first. -/
def newestFirst (changes : List FlagChange) (name : FlagName) : List FlagChange :=
  (changes.filter (fun c => c.name = name)).reverse

/-- No two different changes of the name share a second. -/
def SecondsApart (changes : List FlagChange) (name : FlagName) : Prop :=
  ∀ a ∈ changes, ∀ b ∈ changes, a.name = name → b.name = name → a.when = b.when → a = b

/-- Two changes of the name, a row each. -/
theorem mem_rowsOf {changes : List FlagChange} {r : ChangeRow}
    (hr : r ∈ (final recordChange empty changes).rowsOf name) :
    ∃ c ∈ changes, c.name = name ∧ read r = some c := by
  have hmem := List.mem_map_of_mem (f := read) hr
  rw [rowsOf_read, List.mem_map] at hmem
  obtain ⟨c, hc, hread⟩ := hmem
  rw [List.mem_filter, decide_eq_true_eq] at hc
  exact ⟨c, hc.1, hc.2, hread.symm⟩

theorem exists_row {changes : List FlagChange} {c : FlagChange} (hc : c ∈ changes) :
    ∃ r ∈ (final recordChange empty changes).rowsOf c.name, read r = some c := by
  have hmem : some c ∈ (changes.filter (fun d => d.name = c.name)).map some :=
    List.mem_map_of_mem (List.mem_filter.mpr ⟨hc, by simp⟩)
  rw [← rowsOf_read, List.mem_map] at hmem
  exact hmem

theorem ties_iff (changes : List FlagChange) (name : FlagName) :
    (∀ a ∈ (final recordChange empty changes).rowsOf name,
      ∀ b ∈ (final recordChange empty changes).rowsOf name,
        a.whenKey = b.whenKey → read a = read b) ↔ SecondsApart changes name := by
  constructor
  · intro hties c hc d hd hcname hdname hwhen
    obtain ⟨r, hr, hread⟩ := exists_row hc
    obtain ⟨q, hq, hread'⟩ := exists_row hd
    rw [hcname] at hr
    rw [hdname] at hq
    have hkey : r.whenKey = q.whenKey := by
      rw [whenKey_of_read hread, whenKey_of_read hread', hwhen]
    have heq := hties r hr q hq hkey
    rw [hread, hread'] at heq
    exact Option.some.inj heq
  · intro hapart r hr q hq hkey
    obtain ⟨c, hc, hcname, hread⟩ := mem_rowsOf hr
    obtain ⟨d, hd, hdname, hread'⟩ := mem_rowsOf hq
    rw [whenKey_of_read hread, whenKey_of_read hread', Option.some.injEq] at hkey
    rw [hread, hread', hapart c hc d hd hcname hdname (Int64.toInt_inj.mp hkey)]

theorem rowsOf_reverse_descending {changes : List FlagChange} (htimely : Timely changes)
    (name : FlagName) :
    ((final recordChange empty changes).rowsOf name).reverse.Pairwise
      (Descending ChangeRow.whenKey) := by
  rw [List.pairwise_reverse]
  have hread : (((final recordChange empty changes).rowsOf name).map read).Pairwise
      (fun x y => ∀ c d : FlagChange, x = some c → y = some d → c.when ≤ d.when) := by
    rw [rowsOf_read, List.pairwise_map]
    refine (htimely.filter _).imp fun hle c d hc hd => ?_
    rw [← Option.some.inj hc, ← Option.some.inj hd]
    exact hle
  refine (List.pairwise_map.mp hread).imp_of_mem fun {r q} hr hq hle i j hi hj => ?_
  obtain ⟨c, _, _, hc⟩ := mem_rowsOf hr
  obtain ⟨d, _, _, hd⟩ := mem_rowsOf hq
  rw [whenKey_of_read hd, Option.some.injEq] at hi
  rw [whenKey_of_read hc, Option.some.injEq] at hj
  rw [← hi, ← hj]
  exact Int64.le_iff_toInt_le.mp (hle c d hc hd)

/-- Switched on and off again within a second. -/
def sameSecond : List FlagChange :=
  [⟨⟨"checkout"⟩, false, true, "alice", 7⟩, ⟨⟨"checkout"⟩, true, false, "alice", 7⟩]

theorem trail_out_of_order :
    ¬ ∀ (changes : List FlagChange) (name : FlagName) (columnError : ChangeRow → String),
      Timely changes → ∀ order, (final recordChange empty changes).listChanges order columnError
        name = .ok (newestFirst changes name) := by
  intro h
  have hlist := h sameSecond ⟨"checkout"⟩ (fun _ => "") (by unfold Timely; decide)
    (.preferring _ fun _ => true)
  -- a stable sort returns the two as they were recorded
  have hstable : (final recordChange empty sameSecond).listChanges (.preferring _ fun _ => true)
      (fun _ => "") ⟨"checkout"⟩ = .ok sameSecond := by rfl
  rw [hstable, Except.ok.injEq] at hlist
  exact absurd hlist (by decide)

/-- For every history in which the seconds never decrease, the trail of a name is
complete and newest first, in whatever order ties come, exactly when no two different
changes of the name share a second. -/
theorem newest_first_iff {changes : List FlagChange} (htimely : Timely changes)
    (name : FlagName) (columnError : ChangeRow → String) :
    (∀ order, (final recordChange empty changes).listChanges order columnError name =
      .ok (newestFirst changes name)) ↔ SecondsApart changes name := by
  have hexpected : (newestFirst changes name).map some =
      ((final recordChange empty changes).rowsOf name).reverse.map read := by
    rw [List.map_reverse, rowsOf_read, newestFirst, List.map_reverse]
  have hlisted : ∀ order : OrderByDesc ChangeRow.whenKey,
      (final recordChange empty changes).listChanges order columnError name =
          .ok (newestFirst changes name) ↔
        (order.sort ((final recordChange empty changes).rowsOf name)).map read =
          ((final recordChange empty changes).rowsOf name).reverse.map read := by
    intro order
    rw [listChanges_eq_ok_iff, hexpected]
  rw [forall_congr' hlisted, ← ties_iff]
  refine OrderByDesc.forall_sort_map_eq_iff (fun r hr => ?_) (fun a ha b hb hread => ?_)
    (List.reverse_perm _) (rowsOf_reverse_descending htimely name)
  · obtain ⟨c, _, _, hc⟩ := mem_rowsOf hr
    rw [whenKey_of_read hc]
    rfl
  · obtain ⟨c, _, _, hc⟩ := mem_rowsOf ha
    rw [whenKey_of_read hc, whenKey_of_read (hread ▸ hc)]

theorem newest_first_of_two_seconds :
    (final recordChange empty
        [⟨⟨"checkout"⟩, false, true, "alice", 7⟩, ⟨⟨"checkout"⟩, true, false, "alice", 8⟩]).listChanges
          (.preferring _ fun _ => true) (fun _ => "") ⟨"checkout"⟩ =
      .ok [⟨⟨"checkout"⟩, true, false, "alice", 8⟩, ⟨⟨"checkout"⟩, false, true, "alice", 7⟩] :=
  (@newest_first_iff
    [⟨⟨"checkout"⟩, false, true, "alice", 7⟩, ⟨⟨"checkout"⟩, true, false, "alice", 8⟩]
    (by unfold Timely; decide) ⟨"checkout"⟩ (fun _ => "")).mpr (by unfold SecondsApart; decide)
    (.preferring _ fun _ => true)

end FlagChanges
end FlagKit
