import FlagKit.Numeric.Fnv
import FlagKit.Text.Bytes

/-!
# The ETag of a flag set

`weak_etag` digests the parts of a flag set's identity in two nested loops.  The loops
are one FNV-1a digest of one stream of bytes, in which every part is ended by `0xff`
(`etagHash_eq`).  What is special about the stream is that it can be read back: no part
contains its mark.  What is special about the digest is that a single byte never gets
lost in it.
-/

namespace FlagKit
namespace Ofrep

/-- The running hash of `weak_etag`. -/
def etagHash (parts : List String) : UInt64 :=
  parts.foldl
    (fun hash part =>
      let hash := (asBytes part).foldl
        (fun hash byte => (hash ^^^ byte.toUInt64) * 0x00000100000001b3) hash
      (hash ^^^ 0xff) * 0x00000100000001b3)
    0xcbf29ce484222325

/-- `format!("W/\"{hash:016x}\"")`. -/
def formatEtag (hash : UInt64) : String :=
  String.ofList ("W/\"".toList ++ hexDigits 16 hash.toNat ++ "\"".toList)

def weakEtag (parts : List String) : String := formatEtag (etagHash parts)

/-! ## The stream that is digested -/

/-- Every part's bytes and then one `0xff`. -/
def etagStream (parts : List String) : List UInt8 := framed 0xff (parts.map asBytes)

theorem etagHash_eq (parts : List String) : etagHash parts = Fnv1a.hash (etagStream parts) := by
  suffices hfrom : ∀ h : UInt64, parts.foldl
      (fun hash part =>
        let hash := (asBytes part).foldl
          (fun hash byte => (hash ^^^ byte.toUInt64) * 0x00000100000001b3) hash
        (hash ^^^ 0xff) * 0x00000100000001b3) h = (etagStream parts).foldl Fnv1a.step h from
    hfrom 0xcbf29ce484222325
  induction parts with
  | nil => exact fun h => rfl
  | cons part rest ih =>
    intro h
    rw [List.foldl_cons, ih]
    show _ = (framed 0xff ((part :: rest).map asBytes)).foldl Fnv1a.step h
    rw [List.map_cons, framed_cons, List.foldl_append, List.foldl_cons]
    rfl

theorem not_mem_asBytes (s : String) : (0xff : UInt8) ∉ asBytes s := by
  intro h
  have hlt := asBytes_lt h
  exact absurd hlt (by decide)

theorem etagStream_inj {parts parts' : List String} :
    etagStream parts = etagStream parts' ↔ parts = parts' := by
  have hmark : ∀ l : List String, ∀ p ∈ l.map asBytes, (0xff : UInt8) ∉ p := by
    intro l p hp
    obtain ⟨s, _, rfl⟩ := List.mem_map.mp hp
    exact not_mem_asBytes s
  rw [etagStream, etagStream, framed_inj (hmark parts) (hmark parts')]
  exact (List.map_injective_iff.mpr asBytes_injective).eq_iff

/-- The nested loop is the plain digest of the stream, and the stream is a different one
for every list of parts. -/
theorem etag_stream_unambiguous (parts : List String) :
    etagHash parts = Fnv1a.hash (etagStream parts) ∧
      ∀ parts', etagStream parts = etagStream parts' ↔ parts = parts' :=
  ⟨etagHash_eq parts, fun _ => etagStream_inj⟩

/-! ## A byte changed -/

theorem formatEtag_toList (hash : UInt64) :
    (formatEtag hash).toList = "W/\"".toList ++ hexDigits 16 hash.toNat ++ "\"".toList :=
  String.toList_ofList

theorem formatEtag_injective : Function.Injective formatEtag := by
  intro g h heq
  have hchars := congrArg String.toList heq
  rw [formatEtag_toList, formatEtag_toList] at hchars
  have hdigits := List.append_cancel_left (List.append_cancel_right hchars)
  exact UInt64.toNat_inj.mp ((hexDigits_inj g.toNat_lt h.toNat_lt).mp hdigits)

/-- Two lists of parts that are equal but for one part, of which they have versions of
the same length that are equal but for one byte. -/
structure OneByteApart (parts parts' : List String) : Prop where
  same_count : parts.length = parts'.length
  one_byte : ∃ (k : Nat) (p p' : String) (i : Nat), (∀ j, j ≠ k → parts[j]? = parts'[j]?) ∧
    parts[k]? = some p ∧ parts'[k]? = some p' ∧
    (asBytes p).length = (asBytes p').length ∧ DifferAt (asBytes p) (asBytes p') i

/-- Then the streams are equal but for one byte, too. -/
theorem OneByteApart.etagStream {parts parts' : List String} (h : OneByteApart parts parts') :
    ∃ pre a b post, etagStream parts = pre ++ a :: post ∧
      etagStream parts' = pre ++ b :: post ∧ a ≠ b := by
  obtain ⟨k, p, p', i, hothers, hp, hp', hlen, hbyte⟩ := h.one_byte
  obtain ⟨u, a, b, v, hu, hu', _, _, hne⟩ := split_of_differAt hlen hbyte
  have hpart : DifferAt parts parts' k := by
    refine ⟨fun heq => hne ?_, hothers⟩
    rw [hp, hp', Option.some.injEq] at heq
    rw [heq, hu'] at hu
    exact (List.cons.inj (List.append_cancel_left hu)).1.symm
  obtain ⟨before, q, q', after, hparts, hparts', hq, hq', _⟩ :=
    split_of_differAt h.same_count hpart
  have hqp : q = p := Option.some.inj (hq.symm.trans hp)
  have hqp' : q' = p' := Option.some.inj (hq'.symm.trans hp')
  refine ⟨framed 0xff (before.map asBytes) ++ u, a, b,
    v ++ 0xff :: framed 0xff (after.map asBytes), ?_, ?_, hne⟩
  · rw [Ofrep.etagStream, hparts, hqp, List.map_append, framed_append, List.map_cons, framed_cons, hu]
    simp only [List.append_assoc, List.cons_append]
  · rw [Ofrep.etagStream, hparts', hqp', List.map_append, framed_append, List.map_cons, framed_cons,
      hu']
    simp only [List.append_assoc, List.cons_append]

theorem etag_detects_byte {parts parts' : List String} (h : OneByteApart parts parts') :
    weakEtag parts ≠ weakEtag parts' := by
  obtain ⟨pre, a, b, post, hstream, hstream', hne⟩ := h.etagStream
  intro heq
  have hhash := formatEtag_injective heq
  rw [etagHash_eq, etagHash_eq, hstream, hstream'] at hhash
  exact Fnv1a.hash_ne_of_one_byte pre post hne hhash

theorem etag_detects_byte_of_version :
    weakEtag ["flag-set", "3"] ≠ weakEtag ["flag-set", "4"] := by
  refine etag_detects_byte ⟨rfl, 1, "3", "4", 0, fun j hj => ?_, rfl, rfl, rfl, by decide,
    fun j hj => ?_⟩
  · match j, hj with
    | 0, _ => rfl
    | j + 2, _ => rfl
  · match j, hj with
    | j + 1, _ => rfl

end Ofrep
end FlagKit
