import FlagKit.Lifecycle.Rollout
import FlagKit.Numeric.Residue
import FlagKit.Text.Bytes

/-!
# Draws

Each of the four bucket functions hashes a short list of strings, every one of them
ended by a byte no string contains.  So two calls hash the same bytes exactly when they
hash the same strings in the same order, and where they do not, nothing but the digest
can bring their buckets together.

The lists carry no mark of the function that made them.  A salted bucket is the
org bucket of the same three strings: the salt stands where the user stood and the user
where the org stood.

A digest has 64 bits and 100 does not divide `2 ^ 64`, so the first 16 buckets get one
digest more than the others.
-/

namespace FlagKit

/-- A call of a bucket function. -/
inductive Draw where
  | plain (flagName userId : String)
  | withOrg (flagName userId : String) (orgId : Option String)
  | salted (flagName userId salt : String)
  | saltedWithOrg (flagName userId salt : String) (orgId : Option String)

namespace Draw

def value (finish : DefaultHasher) : Draw → UInt8
  | .plain flagName userId => bucket finish flagName userId
  | .withOrg flagName userId orgId => bucketWithOrg finish flagName userId orgId
  | .salted flagName userId salt => bucketSalted finish flagName userId salt
  | .saltedWithOrg flagName userId salt orgId =>
    bucketSaltedWithOrg finish flagName userId salt orgId

/-- The strings hashed, in order. -/
def parts : Draw → List String
  | .plain flagName userId => [flagName, userId]
  | .withOrg flagName userId orgId => [flagName, userId] ++ orgId.toList
  | .salted flagName userId salt => [flagName, salt, userId]
  | .saltedWithOrg flagName userId salt orgId => [flagName, salt, userId] ++ orgId.toList

/-- The bytes written to the hasher. -/
def stream (d : Draw) : List UInt8 := framed 0xff (d.parts.map asBytes)

theorem hashBytes_eq (s : String) : hashBytes s = asBytes s ++ [0xff] := by
  rw [hashBytes, toUTF8_toList]

theorem value_eq (finish : DefaultHasher) (d : Draw) :
    d.value finish = bucketOf finish d.stream := by
  cases d with
  | plain flagName userId => simp [value, stream, parts, bucket, hashBytes_eq]
  | withOrg flagName userId orgId =>
    cases orgId <;> simp [value, stream, parts, bucketWithOrg, hashBytes_eq]
  | salted flagName userId salt =>
    simp [value, stream, parts, bucketSalted, hashBytes_eq]
  | saltedWithOrg flagName userId salt orgId =>
    cases orgId <;> simp [value, stream, parts, bucketSaltedWithOrg, hashBytes_eq]

theorem end_not_mem_asBytes (s : String) : (0xff : UInt8) ∉ asBytes s := by
  intro hmem
  have hlt := asBytes_lt hmem
  revert hlt
  decide

theorem stream_inj {d d' : Draw} : d.stream = d'.stream ↔ d.parts = d'.parts := by
  have hmark : ∀ d : Draw, ∀ p ∈ d.parts.map asBytes, (0xff : UInt8) ∉ p := by
    intro d p hp
    obtain ⟨s, _, rfl⟩ := List.mem_map.mp hp
    exact end_not_mem_asBytes s
  rw [stream, stream, framed_inj (hmark d) (hmark d')]
  exact (List.map_injective_iff.mpr asBytes_injective).eq_iff

/-- A digest that tells two streams apart. -/
theorem exists_value_ne {d d' : Draw} (h : d.stream ≠ d'.stream) :
    ∃ finish : DefaultHasher, d.value finish ≠ d'.value finish := by
  refine ⟨fun bytes => if bytes = d.stream then 1 else 0, ?_⟩
  rw [value_eq, value_eq, bucketOf, bucketOf, if_pos rfl, if_neg (Ne.symm h)]
  decide

theorem value_eq_iff (d d' : Draw) :
    (∀ finish, d.value finish = d'.value finish) ↔ d.parts = d'.parts := by
  constructor
  · intro hall
    by_contra hne
    obtain ⟨finish, hvalue⟩ := exists_value_ne (fun h => hne (stream_inj.mp h))
    exact hvalue (hall finish)
  · intro heq finish
    rw [value_eq, value_eq, stream_inj.mpr heq]

/-- The draw behind a rollout decision. -/
def ofDecision (flagName userId salt : String) : Draw :=
  if salt.isEmpty then .plain flagName userId else .salted flagName userId salt

theorem rolloutDecision_bucket (finish : DefaultHasher) (flagName userId : String)
    (percentage : UInt8) (salt : String) :
    (rolloutDecision finish flagName userId percentage salt).bucket =
      (ofDecision flagName userId salt).value finish := by
  by_cases h : salt.isEmpty = true <;> simp [rolloutDecision, ofDecision, h, value]

/-- A decision hashes its flag, its salt and its user, each in a place of its own. -/
theorem ofDecision_parts_inj {flagName userId salt flagName' userId' salt' : String} :
    (ofDecision flagName userId salt).parts = (ofDecision flagName' userId' salt').parts ↔
      flagName = flagName' ∧ userId = userId' ∧ salt = salt' := by
  unfold ofDecision
  by_cases h : salt.isEmpty = true <;> by_cases h' : salt'.isEmpty = true
  · rw [String.isEmpty_iff] at h h'
    simp [parts, h, h']
  · rw [String.isEmpty_iff] at h
    have hne : ¬ salt' = "" := by rwa [← String.isEmpty_iff]
    simp [parts, h, hne, Ne.symm hne]
  · rw [String.isEmpty_iff] at h'
    have hne : ¬ salt = "" := by rwa [← String.isEmpty_iff]
    simp [parts, h', hne]
  · simp only [h, h', Bool.false_eq_true, if_false, parts, List.cons.injEq, and_true]
    exact and_congr_right fun _ => and_comm

end Draw

/-- Which draws have one bucket whatever the digest is: those that hash the same strings
in the same order.  Two rollout decisions do when flag, user and salt are the same. -/
theorem draws_agree_iff :
    (∀ d d' : Draw, (∀ finish, d.value finish = d'.value finish) ↔ d.parts = d'.parts) ∧
    ∀ (flagName userId salt flagName' userId' salt' : String) (percentage percentage' : UInt8),
      (∀ finish, (rolloutDecision finish flagName userId percentage salt).bucket =
        (rolloutDecision finish flagName' userId' percentage' salt').bucket) ↔
      flagName = flagName' ∧ userId = userId' ∧ salt = salt' := by
  refine ⟨Draw.value_eq_iff, ?_⟩
  intro flagName userId salt flagName' userId' salt' percentage percentage'
  rw [← Draw.ofDecision_parts_inj, ← Draw.value_eq_iff]
  simp only [Draw.rolloutDecision_bucket]

/-- The salted bucket of a user is the org bucket of another user. -/
example (finish : DefaultHasher) :
    bucketSalted finish "checkout" "u1" "c1" = bucketWithOrg finish "checkout" "c1" (some "u1") :=
  (Draw.value_eq_iff (.salted "checkout" "u1" "c1") (.withOrg "checkout" "c1" (some "u1"))).mpr
    rfl finish

/-! ## Digests -/

theorem bucketOf_digest {d : Nat} (hd : d < 2 ^ 64) (bytes : List UInt8) :
    (bucketOf (fun _ => UInt64.ofNat d) bytes).toNat = d % 100 := by
  have hmod : (UInt64.ofNat d % 100).toNat = d % 100 := by
    rw [UInt64.toNat_mod, UInt64.toNat_ofNat', Nat.mod_eq_of_lt hd]
    rfl
  rw [bucketOf, UInt64.toNat_toUInt8, hmod]
  exact Nat.mod_eq_of_lt (Nat.lt_trans (Nat.mod_lt d (by decide)) (by decide))

theorem count_admitted (flagName userId salt : String) (percentage : UInt8) {n : Nat}
    (hn : n ≤ 2 ^ 64) :
    Nat.count (fun d => (rolloutDecision (fun _ => UInt64.ofNat d) flagName userId percentage
        salt).enabled = true) n =
      Nat.count (fun d => d % 100 < percentage.toNat) n := by
  rw [Nat.count_eq_card_filter_range, Nat.count_eq_card_filter_range]
  congr 1
  refine Finset.filter_congr fun d hd => ?_
  have hlt := Nat.lt_of_lt_of_le (Finset.mem_range.mp hd) hn
  rw [rolloutDecision_enabled, decide_eq_true_iff, Draw.rolloutDecision_bucket, Draw.value_eq,
    UInt8.lt_iff_toNat_lt, bucketOf_digest hlt]

/-- Of the 64-bit digests a percentage admits its share of the full hundreds and up to
16 more, so a uniform digest admits a user with a probability off by less than
`14 / 2 ^ 64`. -/
theorem digests_admitted (flagName userId salt : String) {percentage : UInt8}
    (hle : percentage ≤ 100) {admitted : Nat}
    (hadmitted : admitted = Nat.count (fun d => (rolloutDecision (fun _ => UInt64.ofNat d) flagName
      userId percentage salt).enabled = true) (2 ^ 64)) :
    admitted = percentage.toNat * (2 ^ 64 / 100) + min percentage.toNat 16 ∧
      percentage.toNat * 2 ^ 64 ≤ 100 * admitted ∧
      100 * admitted < percentage.toNat * 2 ^ 64 + 1400 := by
  have hle' : percentage.toNat ≤ 100 := UInt8.le_iff_toNat_le.mp hle
  have hcount := hadmitted.trans
    (count_admitted flagName userId salt percentage (Nat.le_refl (2 ^ 64)))
  have hsum := hcount.trans (count_mod_lt hle' (by decide) (2 ^ 64))
  have hrest : 2 ^ 64 % 100 = 16 := by decide
  rw [hrest] at hsum
  clear hadmitted hcount
  refine ⟨hsum, ?_, ?_⟩
  · omega
  · omega

theorem digests_admitted_half :
    Nat.count (fun d => (rolloutDecision (fun _ => UInt64.ofNat d) "checkout" "u1" 50 "c1").enabled
      = true) (2 ^ 64) = 50 * (2 ^ 64 / 100) + 16 :=
  (@digests_admitted "checkout" "u1" "c1" 50 (by decide) _ rfl).1

end FlagKit
