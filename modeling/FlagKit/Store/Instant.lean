import FlagKit.Store.Interchange
import FlagKit.Store.Reads

/-!
# Creation times in the table

With the `chrono` feature a creation time is an instant with nanoseconds, and its column
is an `INTEGER` of Unix seconds.  So the table keeps the second of an instant and the
reads give back the instant that second begins with.  The flag read is the flag written
exactly when its creation time is a whole second (`survives_written_iff`), and exactly then the
two stores cannot be told apart by it (`created_at_survives_iff`).
-/

namespace FlagKit

open Machine Sql

variable {T : Type}

/-- What is used of `DateTime<Utc>`.  An instant is a second and the nanoseconds since it
began, and `timestamp_opt(secs, 0)` is the instant at which that second begins. -/
structure Chrono (T : Type) extends TimeCodec T where
  timestampSubsecNanos : T → UInt32
  ext : ∀ {a b}, timestamp a = timestamp b → timestampSubsecNanos a = timestampSubsecNanos b →
    a = b
  timestampOpt_eq_some_iff : ∀ {ts d},
    timestampOpt ts = some d ↔ timestamp d = ts ∧ timestampSubsecNanos d = 0
  exists_begin : ∀ d, ∃ e, timestamp e = timestamp d ∧ timestampSubsecNanos e = 0

/-- An instant of the years `chrono` has; in a leap second the nanoseconds go on past
the second. -/
@[ext]
structure DateTime where
  secs : Int64
  nanos : UInt32
  lower : -8334601228800 ≤ secs
  upper : secs ≤ 8210266876799
  nanos_lt : nanos < 2000000000

def Chrono.utc : Chrono DateTime where
  timestamp := DateTime.secs
  timestampOpt ts :=
    if h : -8334601228800 ≤ ts ∧ ts ≤ 8210266876799 then some ⟨ts, 0, h.1, h.2, by decide⟩
    else none
  timestampSubsecNanos := DateTime.nanos
  ext hsecs hnanos := DateTime.ext hsecs hnanos
  timestampOpt_eq_some_iff {ts d} := by
    by_cases h : -8334601228800 ≤ ts ∧ ts ≤ 8210266876799
    · rw [dif_pos h, Option.some.injEq, eq_comm, DateTime.ext_iff]
    · rw [dif_neg h]
      refine iff_of_false (fun hnone => by cases hnone) (fun hd => h ?_)
      rw [← hd.1]
      exact ⟨d.lower, d.upper⟩
  exists_begin d := ⟨⟨d.secs, 0, d.lower, d.upper, by decide⟩, rfl, rfl⟩

namespace Chrono

variable (C : Chrono T)

/-- The creation time that comes back. -/
def stored (now : T) (createdAt : Option T) : Option T :=
  (createdAt.map C.timestamp).map fun ts => (C.timestampOpt ts).getD now

def WholeSeconds (f : Flag T) : Prop := ∀ d, f.createdAt = some d → C.timestampSubsecNanos d = 0

/-- An instant comes back as the beginning of its second, at whatever time it is read. -/
theorem stored_some (now d : T) :
    ∃ e, C.stored now (some d) = some e ∧ C.timestamp e = C.timestamp d ∧
      C.timestampSubsecNanos e = 0 := by
  obtain ⟨e, hsecs, hnanos⟩ := C.exists_begin d
  refine ⟨e, ?_, hsecs, hnanos⟩
  have hopt := C.timestampOpt_eq_some_iff.mpr ⟨hsecs, hnanos⟩
  simp [stored, hopt]

theorem stored_eq_iff (now : T) (f : Flag T) :
    C.stored now f.createdAt = f.createdAt ↔ C.WholeSeconds f := by
  cases hat : f.createdAt with
  | none =>
    refine iff_of_true rfl (fun d hd => ?_)
    rw [hat] at hd
    cases hd
  | some d =>
    obtain ⟨e, hstored, hsecs, hnanos⟩ := C.stored_some now d
    rw [hstored, Option.some.injEq]
    constructor
    · intro heq d' hd'
      rw [hat, Option.some.injEq] at hd'
      rw [← hd', ← heq]
      exact hnanos
    · intro hwhole
      exact C.ext hsecs (hnanos.trans (hwhole d hat).symm)

/-- What comes back has the second that was stored. -/
theorem timestamp_stored (now : T) (createdAt : Option T) :
    (C.stored now createdAt).map C.timestamp = createdAt.map C.timestamp := by
  cases createdAt with
  | none => rfl
  | some d =>
    obtain ⟨e, hstored, hsecs, _⟩ := C.stored_some now d
    rw [hstored, Option.map_some, Option.map_some, hsecs]

end Chrono

/-! ## One flag written -/

namespace SqliteFlagStore

/-- After an accepted write both reads give back the flag, and to write back what was
read changes nothing. -/
structure Survives (K : Validkit) (C : TimeCodec T) (order : ScanOrder FlagRow) (now : T)
    (s : SqliteFlagStore) (f : Flag T) : Prop where
  accepted : (s.set C f).1 = .ok ()
  found : (s.set C f).2.get K C now f.name = some f
  listed : ((s.set C f).2.list K C now order).filter (fun g => g.name = f.name) = [f]
  written_back : ∀ g, (s.set C f).2.get K C now f.name = some g →
    ((s.set C f).2.set C g).2 = (s.set C f).2

/-- To write a flag whose row is there changes nothing. -/
theorem set_eq_self {C : TimeCodec T} {s : SqliteFlagStore} {f : Flag T}
    (hle : f.percentage ≤ 100) (hsel : s.flags.select (.text f.name.asStr) = [bound C f]) :
    (s.set C f).2 = s := by
  rw [set, if_neg (UInt8.not_lt.mpr hle)]
  exact congrArg SqliteFlagStore.mk
    (Table.upsert_eq_self (key_bound f) (Holds.updated_eq_bound f) (fun _ => rfl) hsel)

variable {K : Validkit} (C : Chrono T) (order : ScanOrder FlagRow) (now : T)
  {s : SqliteFlagStore} {f : Flag T}

theorem read_written (hvalid : f.name.Valid K) (hle : f.percentage ≤ 100) :
    read K C.toTimeCodec now (bound C.toTimeCodec f) =
      some { f with createdAt := C.stored now f.createdAt } :=
  read_bound_eq K C.toTimeCodec now hvalid hle

/-- What was read is bound to the row it was read from. -/
theorem bound_stored (f : Flag T) :
    bound C.toTimeCodec { f with createdAt := C.stored now f.createdAt } =
      bound C.toTimeCodec f := by
  have hsecs := C.timestamp_stored now f.createdAt
  rw [bound, bound, hsecs]

theorem get_written (hvalid : f.name.Valid K) (hle : f.percentage ≤ 100) :
    (s.set C.toTimeCodec f).2.get K C.toTimeCodec now f.name =
      some { f with createdAt := C.stored now f.createdAt } := by
  rw [get_set_self K C.toTimeCodec now hle, read_written C now hvalid hle]

/-- Whatever was written, to write back what is read changes nothing. -/
theorem set_read_back (hvalid : f.name.Valid K) (hle : f.percentage ≤ 100) {g : Flag T}
    (hg : (s.set C.toTimeCodec f).2.get K C.toTimeCodec now f.name = some g) :
    ((s.set C.toTimeCodec f).2.set C.toTimeCodec g).2 = (s.set C.toTimeCodec f).2 := by
  rw [get_written C now hvalid hle, Option.some.injEq] at hg
  rw [← hg]
  apply set_eq_self
  · exact hle
  · rw [bound_stored]
    exact select_set_self C.toTimeCodec hle

theorem survives_written_iff (hvalid : f.name.Valid K) (hle : f.percentage ≤ 100) :
    Survives K C.toTimeCodec order now s f ↔ C.WholeSeconds f := by
  have hread := read_written C now hvalid hle
  have hget := get_written C now (s := s) hvalid hle
  have hlist := list_name_perm K C.toTimeCodec order now (s.set C.toTimeCodec f).2 f.name
  rw [select_set_self C.toTimeCodec hle, List.filterMap_cons_some hread, List.filterMap_nil]
    at hlist
  have hsame : { f with createdAt := C.stored now f.createdAt } = f ↔ C.WholeSeconds f := by
    rw [← C.stored_eq_iff now]
    constructor
    · intro heq
      exact congrArg Flag.createdAt heq
    · intro heq
      rw [heq]
  constructor
  · intro h
    have hfound := h.found
    rw [hget, Option.some.injEq] at hfound
    exact hsame.mp hfound
  · intro hwhole
    rw [hsame.mpr hwhole] at hget hlist
    exact ⟨(set_ok_iff C.toTimeCodec).mpr hle, hget, List.perm_singleton.mp hlist,
      fun g hg => set_read_back C now hvalid hle hg⟩

end SqliteFlagStore

/-! ## Two stores given the same writes -/

/-- Both reads of the table give what the map gives, at any time. -/
structure SameFlags (K : Validkit) (C : TimeCodec T) (order : ScanOrder (Flag T))
    (order' : ScanOrder FlagRow) (m : MemoryFlagStore T) (s : SqliteFlagStore) : Prop where
  get_eq : ∀ now name, s.get K C now name = m.get name
  list_perm : ∀ now, (s.list K C now order').Perm (m.list order)

section Stores

variable {K : Validkit} {C : Chrono T} {order : ScanOrder (Flag T)} {order' : ScanOrder FlagRow}
  {m : MemoryFlagStore T} {s : SqliteFlagStore}

/-- In both stores a flag is listed when it is found under its name. -/
theorem sameFlags_of_get {C : TimeCodec T} (h : ∀ now name, s.get K C now name = m.get name) :
    SameFlags K C order order' m s := by
  refine ⟨h, fun now => (List.perm_ext_iff_of_nodup ?_ ?_).mpr fun f => ?_⟩
  · exact (Holds.list_nodup order' now).of_map Flag.name
  · exact (MemoryFlagStore.represents order m).list_nodup.of_map Flag.name
  · rw [SqliteFlagStore.mem_list_iff_get, MemoryFlagStore.mem_list, h]

theorem sameFlags_empty {C : TimeCodec T} :
    SameFlags K C order order' MemoryFlagStore.new SqliteFlagStore.inMemory :=
  sameFlags_of_get fun _ _ => rfl

theorem get_step {now : T} (h : ∀ later name, s.get K C.toTimeCodec later name = m.get name)
    {op : StoreOp T} (hop : op.Admissible K) (hwhole : ∀ f, op = .set f → C.WholeSeconds f)
    (later : T) (name : FlagName) :
    (((sqliteFlagStore K C.toTimeCodec order' now).step s op).2).get K C.toTimeCodec later name =
      ((memoryFlagStore order).step m op).2.get name := by
  cases op with
  | set f =>
    show (s.set C.toTimeCodec f).2.get K C.toTimeCodec later name = (m.set f).2.get name
    by_cases hname : name = f.name
    · rw [hname, SqliteFlagStore.get_written C later hop.1 hop.2,
        (C.stored_eq_iff later f).mpr (hwhole f rfl), MemoryFlagStore.get_set_self]
    · rw [SqliteFlagStore.get_set_ne K C.toTimeCodec later hop.2 hname,
        MemoryFlagStore.get_set_ne m hname, h]
  | delete other =>
    show (s.delete other).2.get K C.toTimeCodec later name = (m.delete other).2.get name
    by_cases hname : name = other
    · rw [hname, SqliteFlagStore.get_delete_self, MemoryFlagStore.get_delete_self]
    · rw [SqliteFlagStore.get_delete_ne K C.toTimeCodec later hname,
        MemoryFlagStore.get_delete_ne m hname, h]

/-- The two stores side by side, on one sequence of calls. -/
def AlikeAfter (K : Validkit) (C : TimeCodec T) (order : ScanOrder (Flag T))
    (order' : ScanOrder FlagRow) (now : T) (m : MemoryFlagStore T) (s : SqliteFlagStore)
    (ops : List (StoreOp T)) : Prop :=
  SameFlags K C order order' (final (memoryFlagStore order).step m ops)
    (final (sqliteFlagStore K C order' now).step s ops)

theorem alike_of_whole {now : T} (h : SameFlags K C.toTimeCodec order order' m s)
    {ops : List (StoreOp T)} (hops : ∀ op ∈ ops, op.Admissible K)
    (hwhole : ∀ f, StoreOp.set f ∈ ops → C.WholeSeconds f) :
    AlikeAfter K C.toTimeCodec order order' now m s ops := by
  apply sameFlags_of_get
  refine related_final
    (R := fun (m : MemoryFlagStore T) (s : SqliteFlagStore) =>
      ∀ later name, s.get K C.toTimeCodec later name = m.get name)
    (Q := fun i k : StoreOp T => i = k ∧ i.Admissible K ∧ ∀ f, i = .set f → C.WholeSeconds f)
    (fun m s i k hms hik => ?_) h.get_eq (List.forall₂_same.mpr fun op hop => ?_)
  · obtain ⟨rfl, hadm, hset⟩ := hik
    exact get_step hms hadm hset
  · exact ⟨rfl, hops op hop, fun f hf => hwhole f (hf ▸ hop)⟩

/-- The first write of a part of a second tells the stores apart. -/
theorem whole_of_alike {now : T} {ops : List (StoreOp T)} (hops : ∀ op ∈ ops, op.Admissible K)
    (hall : ∀ pre, pre <+: ops → AlikeAfter K C.toTimeCodec order order' now m s pre) {f : Flag T}
    (hf : StoreOp.set f ∈ ops) : C.WholeSeconds f := by
  obtain ⟨pre, post, rfl⟩ := List.append_of_mem hf
  have hop := hops _ hf
  have hsame := hall (pre ++ [.set f]) ⟨post, by simp⟩
  rw [AlikeAfter, final_concat, final_concat] at hsame
  have hget : ((final (sqliteFlagStore K C.toTimeCodec order' now).step s pre).set
      C.toTimeCodec f).2.get K C.toTimeCodec now f.name =
        ((final (memoryFlagStore order).step m pre).set f).2.get f.name := hsame.get_eq now f.name
  rw [SqliteFlagStore.get_written C now hop.1 hop.2, MemoryFlagStore.get_set_self,
    Option.some.injEq] at hget
  exact (C.stored_eq_iff now f).mp (congrArg Flag.createdAt hget)

end Stores

/-- Half a second after the epoch. -/
def halfSecond : DateTime := ⟨0, 500000000, by decide, by decide, by decide⟩

theorem half_second_lost :
    ¬ ∀ (now : DateTime) (s : SqliteFlagStore) (f : Flag DateTime),
      f.name.Valid .snakeCase → f.percentage ≤ 100 →
        SqliteFlagStore.Survives .snakeCase Chrono.utc.toTimeCodec .stored now s f := by
  intro h
  have hvalid : (⟨"checkout"⟩ : FlagName).Valid .snakeCase := by
    unfold FlagName.Valid
    decide
  have hsurvives := h halfSecond .inMemory ⟨⟨"checkout"⟩, true, 50, some halfSecond⟩ hvalid
    (by decide)
  have hwhole := (SqliteFlagStore.survives_written_iff Chrono.utc .stored halfSecond hvalid
    (by decide)).mp hsurvives halfSecond rfl
  exact absurd hwhole (by decide)

/-- From any content, a flag survives exactly when its creation time is a whole second,
and two stores that show the same flags go on to do so exactly as long as only such
flags are written. -/
theorem created_at_survives_iff (K : Validkit) (C : Chrono T) (order : ScanOrder (Flag T))
    (order' : ScanOrder FlagRow) (now : T) :
    (∀ (s : SqliteFlagStore) (f : Flag T), f.name.Valid K → f.percentage ≤ 100 →
      (SqliteFlagStore.Survives K C.toTimeCodec order' now s f ↔ C.WholeSeconds f)) ∧
    ∀ (m : MemoryFlagStore T) (s : SqliteFlagStore), SameFlags K C.toTimeCodec order order' m s →
      ∀ ops : List (StoreOp T), (∀ op ∈ ops, op.Admissible K) →
        ((∀ pre, pre <+: ops → AlikeAfter K C.toTimeCodec order order' now m s pre) ↔
          ∀ f, StoreOp.set f ∈ ops → C.WholeSeconds f) := by
  refine ⟨fun s f hvalid hle => SqliteFlagStore.survives_written_iff C order' now hvalid hle,
    fun m s hsame ops hops => ⟨fun hall f hf => whole_of_alike hops hall hf, ?_⟩⟩
  intro hwhole pre hpre
  exact alike_of_whole hsame (fun op hop => hops op (hpre.subset hop))
    fun f hf => hwhole f (hpre.subset hf)

end FlagKit
