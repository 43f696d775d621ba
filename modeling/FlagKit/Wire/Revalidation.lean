import FlagKit.Wire.IfNoneMatch

/-!
# Clients that hold several tags

A client sends the tags of the flag sets it holds, each as it was issued or in its strong
form, with white space around it.  No digit of an issued tag is a comma, so such a header
is never misread: it hits exactly when one of the sets held has the digest of the current
one (`revalidation_exact`).  A client that holds the current set is never sent it again.
One that is told its set is current although it is not holds a set whose stream collides
with the current one, and a set that is one byte off does not.
-/

namespace FlagKit
namespace Ofrep

/-- An issued tag, as a client sends it. -/
structure Issued where
  parts : List String
  weak : Bool
  before : List Char
  after : List Char
  before_blank : ∀ c ∈ before, isWhitespace c = true
  after_blank : ∀ c ∈ after, isWhitespace c = true

def Issued.text (i : Issued) : List Char :=
  i.before ++ { entityTag i.parts with weak := i.weak }.text ++ i.after

/-- The header a client sends for the sets it holds. -/
def revalidationHeader (held : List Issued) : String :=
  String.ofList ([','].intercalate (held.map Issued.text))

theorem etagDigits_inj {parts parts' : List String} :
    etagDigits parts = etagDigits parts' ↔ etagHash parts = etagHash parts' := by
  rw [etagDigits, etagDigits, hexDigits_inj (etagHash parts).toNat_lt (etagHash parts').toNat_lt]
  exact UInt64.toNat_inj

theorem etagDigits_ne_nil (parts : List String) : etagDigits parts ≠ [] :=
  List.append_ne_nil_of_right_ne_nil _ (List.cons_ne_nil _ _)

theorem empty_header_misses (parts : List String) :
    ifNoneMatchHits (revalidationHeader []) (weakEtag parts) = false := by
  rw [← Bool.not_eq_true, ifNoneMatchHits_iff]
  intro hhit
  obtain ⟨c, hc, hhit⟩ := hhit
  have hempty : c = [] := by
    have hmem : c ∈ ([] : List Char).splitOn ',' := hc
    simpa using hmem
  have hnil : candidateHits (etagDigits parts) [] = (([] : List Char) == etagDigits parts) := rfl
  rw [hempty, hnil, beq_iff_eq] at hhit
  exact etagDigits_ne_nil parts hhit.symm

theorem revalidation_hits_iff (held : List Issued) (parts : List String) :
    ifNoneMatchHits (revalidationHeader held) (weakEtag parts) = true ↔
      ∃ i ∈ held, etagHash i.parts = etagHash parts := by
  by_cases hnil : held = []
  · rw [hnil, empty_header_misses]
    simp
  · have hpieces : (revalidationHeader held).toList.splitOn ',' = held.map Issued.text := by
      rw [revalidationHeader, String.toList_ofList]
      apply List.splitOn_intercalate
      · intro piece hpiece
        obtain ⟨i, -, rfl⟩ := List.mem_map.mp hpiece
        exact not_comma_issued i.parts i.weak i.before_blank i.after_blank
      · exact fun heq => hnil (List.map_eq_nil_iff.mp heq)
    have hhits : ∀ i : Issued, candidateHits (etagDigits parts) i.text = true ↔
        etagHash i.parts = etagHash parts := fun i =>
      (candidateHits_issued _ i.parts i.weak i.before_blank i.after_blank).trans etagDigits_inj
    rw [ifNoneMatchHits_iff, hpieces]
    simp only [List.mem_map, exists_exists_and_eq_and, hhits]

/-- Two flag sets that no tag tells apart. -/
structure Collide (parts parts' : List String) : Prop where
  streams_ne : etagStream parts ≠ etagStream parts'
  digest_eq : Fnv1a.hash (etagStream parts) = Fnv1a.hash (etagStream parts')

theorem collide_of_hash_eq {parts parts' : List String} (h : etagHash parts = etagHash parts')
    (hne : parts ≠ parts') : Collide parts parts' where
  streams_ne := fun heq => hne (etagStream_inj.mp heq)
  digest_eq := by rw [← etagHash_eq, ← etagHash_eq, h]

/-- The sets of a collision are at least two bytes apart. -/
theorem Collide.not_oneByteApart {parts parts' : List String} (h : Collide parts parts') :
    ¬ OneByteApart parts parts' := by
  intro hapart
  obtain ⟨pre, a, b, post, hstream, hstream', hne⟩ := hapart.etagStream
  have hdigest := h.digest_eq
  rw [hstream, hstream'] at hdigest
  exact Fnv1a.hash_ne_of_one_byte pre post hne hdigest

/-- What a client is told of the sets it holds, whichever and however many they are. -/
theorem revalidation_exact (held : List Issued) (parts : List String) :
    ifNoneMatchHits (revalidationHeader held) (weakEtag parts) = true ↔
      ∃ i ∈ held, i.parts = parts ∨
        (Collide i.parts parts ∧ ¬ OneByteApart i.parts parts) := by
  rw [revalidation_hits_iff]
  constructor
  · intro hex
    obtain ⟨i, hi, hhash⟩ := hex
    refine ⟨i, hi, ?_⟩
    by_cases heq : i.parts = parts
    · exact Or.inl heq
    · have hcollide := collide_of_hash_eq hhash heq
      exact Or.inr ⟨hcollide, hcollide.not_oneByteApart⟩
  · intro hex
    obtain ⟨i, hi, heq | ⟨hcollide, -⟩⟩ := hex
    · exact ⟨i, hi, by rw [heq]⟩
    · refine ⟨i, hi, ?_⟩
      rw [etagHash_eq, etagHash_eq, hcollide.digest_eq]

end Ofrep
end FlagKit
