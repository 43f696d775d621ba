import FlagKit.Store.Visible

/-!
# The two reads of a table

`get` and `list` decode a row with two copies of one sequence of checks, so on any
table, whoever wrote it, they agree on what is stored.  What they return is not always
what is stored.  A creation time that has no date is replaced by the time of the
call, and the two reads, or one read twice, then differ whenever their times do.
-/

namespace FlagKit

open Sql

variable {T : Type}

/-- The dates `chrono` has: seconds of the years -262143 to 262142. -/
def TimeCodec.chronoRange : TimeCodec Int64 where
  timestamp := id
  timestampOpt ts := if -8334601228800 ≤ ts ∧ ts ≤ 8210266876799 then some ts else none

namespace SqliteFlagStore

variable (K : Validkit) (C : TimeCodec T)

/-- A row that reads as a flag, with a creation time that has no date. -/
def Misdated (row : FlagRow) : Prop :=
  ∃ name enabled percentage ts,
    row = ⟨.text name, .integer enabled, .integer percentage, .integer ts⟩ ∧
      K.parse name = true ∧ 0 ≤ percentage.toInt ∧ percentage.toInt ≤ 100 ∧
      C.timestampOpt ts = none

/-- What a reader relies on, for reads at the times `now` and `later`. -/
structure ReadsAgree (order order' : ScanOrder FlagRow) (now later : T) (s : SqliteFlagStore) :
    Prop where
  mem_list_iff : ∀ f, f ∈ s.list K C now order ↔ s.get K C now f.name = some f
  mem_list_iff_later : ∀ f, f ∈ s.list K C now order ↔ s.get K C later f.name = some f
  list_nodup : ((s.list K C now order).map Flag.name).Nodup
  list_valid : ∀ f ∈ s.list K C now order, f.name.Valid K ∧ f.percentage ≤ 100
  get_valid : ∀ name f, s.get K C now name = some f → f.name.Valid K ∧ f.percentage ≤ 100
  list_stable : (s.list K C later order').Perm (s.list K C now order)
  get_stable : ∀ name, s.get K C later name = s.get K C now name

variable {K C} {order order' : ScanOrder FlagRow} {now later : T} {s : SqliteFlagStore}

theorem valid_of_read {r : FlagRow} {f : Flag T} (h : read K C now r = some f) :
    f.name.Valid K ∧ f.percentage ≤ 100 := by
  obtain ⟨_, _, _, _, hvalid, _, _, hle, _⟩ := (read_eq_some_iff K C now).mp h
  exact ⟨hvalid, hle⟩

theorem mem_list_iff_row (order : ScanOrder FlagRow) (f : Flag T) :
    f ∈ s.list K C now order ↔ ∃ r ∈ s.flags.rows, read K C now r = some f := by
  rw [list_eq, List.mem_filterMap]
  exact exists_congr fun r => and_congr_left fun _ => (order.perm _).mem_iff

theorem get_eq_some_iff_row (name : FlagName) (f : Flag T) :
    s.get K C now name = some f ↔
      ∃ r ∈ s.flags.rows, r.key = some (.text name.asStr) ∧ read K C now r = some f := by
  rw [get_eq, Option.bind_eq_some_iff]
  constructor
  · intro hex
    obtain ⟨r, hhead, hread⟩ := hex
    obtain ⟨hr, hkey⟩ := Table.mem_select.mp (List.mem_of_head? hhead)
    exact ⟨r, hr, hkey, hread⟩
  · intro hex
    obtain ⟨r, hr, hkey, hread⟩ := hex
    rw [Table.select_eq_of_mem hr hkey]
    exact ⟨r, rfl, hread⟩

/-- On one table at one time the two reads show the same flags. -/
theorem mem_list_iff_get (f : Flag T) :
    f ∈ s.list K C now order ↔ s.get K C now f.name = some f := by
  rw [mem_list_iff_row, get_eq_some_iff_row]
  refine exists_congr fun r => and_congr_right fun _ => ?_
  constructor
  · intro hread
    exact ⟨read_key K C now hread, hread⟩
  · intro h
    exact h.2

/-- The only rows two times read differently are the misdated ones. -/
theorem read_eq_of_dated {r : FlagRow} (h : ¬ Misdated K C r) :
    read K C later r = read K C now r := by
  have hdated : ∀ (t u : T) (f : Flag T), read K C t r = some f → read K C u r = some f := by
    intro t u f hf
    obtain ⟨enabled, percentage, createdAt, hrow, hvalid, hen, hpct, hle, hat⟩ :=
      (read_eq_some_iff K C t).mp hf
    refine (read_eq_some_iff K C u).mpr
      ⟨enabled, percentage, createdAt, hrow, hvalid, hen, hpct, hle, ?_⟩
    cases createdAt with
    | none => exact hat
    | some ts =>
      cases hts : C.timestampOpt ts with
      | some date => simpa [hts] using hat
      | none =>
        have hint := u8TryFrom_eq_some_iff.mp hpct
        have hle' := UInt8.le_iff_toNat_le.mp hle
        refine absurd ⟨f.name.asStr, enabled, percentage, ts, hrow, hvalid, ?_, ?_, hts⟩ h
        · omega
        · rw [hint]
          exact_mod_cast hle'
  exact Option.ext fun f => ⟨hdated later now f, hdated now later f⟩

/-- A misdated row reads as a flag created at the time of the call. -/
theorem read_misdated {r : FlagRow} (h : Misdated K C r) :
    ∃ f : Flag T, ∀ t, read K C t r = some { f with createdAt := some t } := by
  obtain ⟨name, enabled, percentage, ts, rfl, hvalid, h0, h100, hts⟩ := h
  refine ⟨⟨⟨name⟩, decide (enabled ≠ 0), UInt8.ofNat percentage.toInt.toNat, none⟩, fun t => ?_⟩
  have hnat : (UInt8.ofNat percentage.toInt.toNat).toNat = percentage.toInt.toNat := by
    rw [UInt8.toNat_ofNat', Nat.mod_eq_of_lt (by omega)]
  refine (read_eq_some_iff K C t).mpr ⟨enabled, percentage, some ts, rfl, hvalid, rfl, ?_, ?_, ?_⟩
  · rw [u8TryFrom_eq_some_iff, hnat]
    omega
  · rw [UInt8.le_iff_toNat_le, hnat]
    show percentage.toInt.toNat ≤ 100
    omega
  · simp [hts]

theorem reads_of_dated (h : ∀ r ∈ s.flags.rows, read K C later r = read K C now r) :
    ReadsAgree K C order order' now later s := by
  have hget : ∀ name, s.get K C later name = s.get K C now name := by
    intro name
    refine Option.ext fun f => ?_
    rw [get_eq_some_iff_row, get_eq_some_iff_row]
    refine exists_congr fun r => and_congr_right fun hr => ?_
    rw [h r hr]
  refine ⟨mem_list_iff_get, fun f => ?_, Holds.list_nodup order now, fun f hf => ?_,
    fun name f hf => ?_, ?_, hget⟩
  · rw [hget]
    exact mem_list_iff_get f
  · obtain ⟨r, _, hread⟩ := (mem_list_iff_row order f).mp hf
    exact valid_of_read hread
  · obtain ⟨r, _, _, hread⟩ := (get_eq_some_iff_row name f).mp hf
    exact valid_of_read hread
  · rw [list_eq, list_eq]
    refine ((order'.perm _).filterMap _).trans (List.Perm.trans (List.Perm.of_eq ?_)
      ((order.perm _).filterMap _).symm)
    exact List.filterMap_congr h

theorem now_eq_later_of_misdated (h : ReadsAgree K C order order' now later s) {r : FlagRow}
    (hr : r ∈ s.flags.rows) (hmis : Misdated K C r) : now = later := by
  obtain ⟨f, hread⟩ := read_misdated hmis
  have hlist := (mem_list_iff_row order _).mpr ⟨r, hr, hread now⟩
  obtain ⟨r', hr', hkey, hread'⟩ := (get_eq_some_iff_row _ _).mp ((h.mem_list_iff_later _).mp hlist)
  -- the row found is the row listed, read at the other time
  have hrow : r' = r := by
    have hsel := Table.select_eq_of_mem hr' hkey
    have hmem := Table.mem_select.mpr ⟨hr, read_key K C now (hread now)⟩
    rw [hsel, List.mem_singleton] at hmem
    exact hmem.symm
  rw [hrow, hread later, Option.some.injEq, Flag.mk.injEq, Option.some.injEq] at hread'
  exact hread'.2.2.2.symm

/-- For every content of the table, the reads agree with each other and over time
exactly when no time has passed or no row is misdated. -/
theorem reads_agree_iff (K : Validkit) (C : TimeCodec T) (order order' : ScanOrder FlagRow)
    (now later : T) (s : SqliteFlagStore) :
    ReadsAgree K C order order' now later s ↔
      now = later ∨ ∀ r ∈ s.flags.rows, ¬ Misdated K C r := by
  constructor
  · intro h
    by_cases hmis : ∃ r ∈ s.flags.rows, Misdated K C r
    · obtain ⟨r, hr, hr'⟩ := hmis
      exact Or.inl (now_eq_later_of_misdated h hr hr')
    · exact Or.inr fun r hr hr' => hmis ⟨r, hr, hr'⟩
  · intro hcase
    rcases hcase with rfl | hdated
    · exact reads_of_dated fun r _ => rfl
    · exact reads_of_dated fun r hr => read_eq_of_dated (hdated r hr)

/-- Without `chrono` every stored time is a creation time and the reads agree. -/
theorem reads_agree_unixSeconds (K : Validkit) (order order' : ScanOrder FlagRow)
    (now later : Int64) (s : SqliteFlagStore) :
    ReadsAgree K .unixSeconds order order' now later s := by
  refine (reads_agree_iff K .unixSeconds order order' now later s).mpr (Or.inr fun r _ h => ?_)
  obtain ⟨_, _, _, _, _, _, _, _, hts⟩ := h
  cases hts

/-- A table whose one row was created at `i64::MAX` seconds. -/
def farFuture : SqliteFlagStore where
  flags := ⟨[⟨.text "checkout", .integer 1, .integer 50, .integer 9223372036854775807⟩],
    List.pairwise_singleton _ _⟩

theorem reads_differ_over_time :
    ¬ ∀ (now later : Int64) (s : SqliteFlagStore),
      ReadsAgree .snakeCase .chronoRange .stored .stored now later s := by
  intro h
  have hget := (h 0 1 farFuture).get_stable ⟨"checkout"⟩
  exact absurd hget (by decide)

end SqliteFlagStore
end FlagKit
