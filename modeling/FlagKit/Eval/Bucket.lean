import FlagKit.Flag

/-!
# Buckets

A bucket is a 64-bit digest reduced modulo 100.  `DefaultHasher` is the digest:
an arbitrary function of the bytes written to it.  Hashing a string writes its
UTF-8 bytes and one `0xff`.
-/

namespace FlagKit

abbrev DefaultHasher := List UInt8 → UInt64

def hashBytes (s : String) : List UInt8 := s.toUTF8.toList ++ [0xff]

variable (finish : DefaultHasher)

/-- `(hasher.finish() % 100) as u8` after writing `bytes`. -/
def bucketOf (bytes : List UInt8) : UInt8 := (finish bytes % 100).toUInt8

def bucket (flagName userId : String) : UInt8 :=
  bucketOf finish (hashBytes flagName ++ hashBytes userId)

def bucketWithOrg (flagName userId : String) (orgId : Option String) : UInt8 :=
  bucketOf finish (hashBytes flagName ++ hashBytes userId ++
    match orgId with
    | some org => hashBytes org
    | none => [])

theorem bucketOf_lt (bytes : List UInt8) : bucketOf finish bytes < 100 := by
  have h : (finish bytes % 100).toNat < 100 := by
    rw [UInt64.toNat_mod]
    exact Nat.mod_lt _ (by decide)
  rw [bucketOf, UInt8.lt_iff_toNat_lt, UInt64.toNat_toUInt8]
  exact Nat.lt_of_le_of_lt (Nat.mod_le _ _) h

theorem bucket_lt (flagName userId : String) : bucket finish flagName userId < 100 :=
  bucketOf_lt finish _

theorem bucketWithOrg_none (flagName userId : String) :
    bucketWithOrg finish flagName userId none = bucket finish flagName userId := by
  simp [bucketWithOrg, bucket]

end FlagKit
