import Mathlib.Data.Bool.AllAny
import FlagKit.Text.Trim
import FlagKit.Wire.Etag

/-!
# Revalidation

`if_none_match_hits` splits a header at every comma, and from each candidate it trims
white space, `W/` and quotes before it compares.  The header's grammar is not looked at,
so a comma inside a quoted tag separates as well.  A tag that is listed is always found
(`issued_etag_revalidates`).  The converse fails for tags with commas in them: between
two commas of a tag there may stand a star, or the current tag (`no_false_hit_iff`).
-/

namespace FlagKit
namespace Ofrep

/-- The closure of `if_none_match_hits`. -/
def normalize (s : List Char) : List Char :=
  trimMatches (fun c => c == '"') (trimStartMatches "W/".toList (trim s))

def ifNoneMatchHits (header current : String) : Bool :=
  let current := normalize current.toList
  (header.toList.splitOn ',').any fun candidate =>
    let c := trim candidate
    c == ['*'] || normalize c == current

/-! ## Entity tags -/

/-- A character between the quotes of an entity tag. -/
def IsEtagc (c : Char) : Prop := c.toNat = 0x21 ∨ (0x23 ≤ c.toNat ∧ c.toNat ≤ 0x7e)

def weakMark (weak : Bool) : List Char := if weak then "W/".toList else []

structure EntityTag where
  weak : Bool
  opaqueTag : List Char
  etagc : ∀ c ∈ opaqueTag, IsEtagc c

def EntityTag.text (t : EntityTag) : List Char :=
  weakMark t.weak ++ ('"' :: (t.opaqueTag ++ ['"']))

theorem isEtagc_of_digit {c : Char} (hc : c ∈ "0123456789abcdef".toList) : IsEtagc c := by
  have hall : ∀ d ∈ "0123456789abcdef".toList, 0x23 ≤ d.toNat ∧ d.toNat ≤ 0x7e := by
    rw [← List.all_iff_forall_prop]
    decide
  exact Or.inr (hall c hc)

/-- The digits of the current tag. -/
def etagDigits (parts : List String) : List Char := hexDigits 16 (etagHash parts).toNat

def entityTag (parts : List String) : EntityTag where
  weak := true
  opaqueTag := etagDigits parts
  etagc _ hc := isEtagc_of_digit (mem_hexDigits hc)

theorem weakEtag_toList (parts : List String) : (weakEtag parts).toList = (entityTag parts).text := by
  have hform : ∀ digits : List Char, "W/\"".toList ++ digits ++ "\"".toList =
      weakMark true ++ ('"' :: (digits ++ ['"'])) := fun _ => rfl
  rw [weakEtag, formatEtag_toList]
  exact hform (etagDigits parts)

/-! ## What is left of a candidate -/

/-- Characters that no trimming takes from an entity tag. -/
def Plain (s : List Char) : Prop := ∀ c ∈ s, isWhitespace c = false ∧ (c == '"') = false

theorem IsEtagc.plain {c : Char} (h : IsEtagc c) :
    isWhitespace c = false ∧ (c == '"') = false := by
  have hquote : c ≠ '"' := by
    rintro rfl
    revert h
    unfold IsEtagc
    decide
  refine ⟨?_, by simpa using hquote⟩
  unfold isWhitespace
  rcases h with h | ⟨h, h'⟩
  · simp [h]
  · simp
    omega

theorem EntityTag.plain (t : EntityTag) : Plain t.opaqueTag := fun c hc => (t.etagc c hc).plain

def NotWhitespace (s : List Char) : Prop := ∀ c ∈ s, isWhitespace c = false

theorem weakMark_notWhitespace (weak : Bool) : NotWhitespace (weakMark weak) := by
  intro c hc
  cases weak with
  | false => cases hc
  | true =>
    have hchar : c = 'W' ∨ c = '/' := by simpa [weakMark] using hc
    rcases hchar with rfl | rfl <;> decide

theorem trim_surround {ws s ws' : List Char} (hws : ∀ c ∈ ws, isWhitespace c = true)
    (hs : NotWhitespace s) (hws' : ∀ c ∈ ws', isWhitespace c = true) :
    trim (ws ++ s ++ ws') = s :=
  trimMatches_surround hws hs hws'

/-- A closing quote, or none. -/
theorem quotes_of_closed {close : List Char} (hclose : close = [] ∨ close = ['"']) :
    ∀ c ∈ close, c = '"' := by
  rcases hclose with rfl | rfl <;> simp

theorem closed_notWhitespace {s : List Char} (hs : Plain s) {close : List Char}
    (hclose : ∀ c ∈ close, c = '"') : NotWhitespace (s ++ close) := by
  intro c hc
  rcases List.mem_append.mp hc with hc | hc
  · exact (hs c hc).1
  · rw [hclose c hc]
    decide

theorem quoted_notWhitespace (weak : Bool) {s : List Char} (hs : Plain s) {close : List Char}
    (hclose : ∀ c ∈ close, c = '"') :
    NotWhitespace (weakMark weak ++ ('"' :: (s ++ close))) := by
  intro c hc
  rw [List.mem_append, List.mem_cons] at hc
  rcases hc with hc | rfl | hc
  · exact weakMark_notWhitespace weak c hc
  · decide
  · exact closed_notWhitespace hs hclose c hc

/-- What `if_none_match_hits` makes of one candidate. -/
def candidateHits (current candidate : List Char) : Bool :=
  trim candidate == ['*'] || normalize (trim candidate) == current

theorem weak_ne_nil : "W/".toList ≠ [] := List.cons_ne_nil _ _

theorem not_starts_weak {s : List Char} (hs : 'W' ∉ s) : ¬ "W/".toList <+: s := by
  intro hpre
  exact hs (hpre.subset List.mem_cons_self)

/-- An opening quote is taken, and a closing one if it is there. -/
theorem normalize_quoted (weak : Bool) {s : List Char} (hs : Plain s) {close : List Char}
    (hclose : ∀ c ∈ close, c = '"') : normalize (weakMark weak ++ ('"' :: (s ++ close))) = s := by
  have hmark : trimStartMatches "W/".toList (weakMark weak ++ ('"' :: (s ++ close))) =
      '"' :: (s ++ close) := by
    have hquote : ¬ "W/".toList <+: '"' :: (s ++ close) := by
      intro hpre
      have hhead := (List.cons_prefix_cons.mp hpre).1
      exact absurd hhead (by decide)
    rw [trimStartMatches_eq_iff weak_ne_nil hquote]
    cases weak with
    | false => exact ⟨0, rfl⟩
    | true => exact ⟨1, rfl⟩
  have hquotes : ∀ c ∈ close, (c == '"') = true := fun c hc => beq_iff_eq.mpr (hclose c hc)
  rw [normalize, trim, trimMatches_eq_self (quoted_notWhitespace weak hs hclose), hmark]
  exact trimMatches_surround (u := ['"']) (by simp) (fun c hc => (hs c hc).2) hquotes

/-- Without an opening quote it is the marks that are taken. -/
theorem normalize_unquoted {s : List Char} (hs : Plain s) {close : List Char}
    (hclose : close = [] ∨ close = ['"']) :
    normalize (s ++ close) = trimStartMatches "W/".toList s := by
  have hquotes := quotes_of_closed hclose
  have hclosed : trimStartMatches "W/".toList (s ++ close) =
      trimStartMatches "W/".toList s ++ close := by
    rcases hclose with rfl | rfl
    · rw [List.append_nil, List.append_nil]
    · exact trimStartMatches_concat weak_ne_nil (by decide) s
  obtain ⟨⟨k, hk⟩, _⟩ := trimStartMatches_spec weak_ne_nil s
  have hrest : ∀ c ∈ trimStartMatches "W/".toList s, (c == '"') = false := by
    intro c hc
    refine (hs c ?_).2
    rw [hk]
    exact List.mem_append_right _ hc
  rw [normalize, trim, trimMatches_eq_self (closed_notWhitespace hs hquotes), hclosed]
  exact trimMatches_surround (u := []) (by simp) hrest
    (fun c hc => beq_iff_eq.mpr (hquotes c hc))

/-! ## Elements of a header -/

/-- One element of a list of entity tags, with the white space around it. -/
structure ListElement where
  before : List Char
  tag : EntityTag
  after : List Char
  before_ows : ∀ c ∈ before, c = ' ' ∨ c = '\t'
  after_ows : ∀ c ∈ after, c = ' ' ∨ c = '\t'

def ListElement.text (e : ListElement) : List Char := e.before ++ e.tag.text ++ e.after

/-- A header that is well formed. -/
inductive IfNoneMatch where
  | any
  | tags (elements : List ListElement) (nonempty : elements ≠ [])

def IfNoneMatch.text : IfNoneMatch → String
  | .any => "*"
  | .tags elements _ => String.ofList ([','].intercalate (elements.map ListElement.text))

def IfNoneMatch.elements : IfNoneMatch → List ListElement
  | .any => []
  | .tags elements _ => elements

/-- The header asks for any tag, or lists one with this opaque part. -/
def IfNoneMatch.Names (h : IfNoneMatch) (current : List Char) : Prop :=
  h = .any ∨ ∃ e ∈ h.elements, e.tag.opaqueTag = current

/-- The text is the current digits, perhaps after some `W/`. -/
def Marked (current s : List Char) : Prop := ∃ k, s = repeated "W/".toList k ++ current

/-- The opaque part has commas, and what stands before the first, between two or after
the last of them reads as a star or as the current tag. -/
def Misread (current s : List Char) : Prop :=
  ∃ first mid last, s.splitOn ',' = first :: (mid ++ [last]) ∧
    (first = current ∨ (∃ p ∈ mid, p = ['*'] ∨ Marked current p) ∨ Marked current last)

theorem marked_iff {current s : List Char} (hmark : 'W' ∉ current) :
    trimStartMatches "W/".toList s = current ↔ Marked current s :=
  trimStartMatches_eq_iff weak_ne_nil (not_starts_weak hmark)

/-- A candidate with an opening quote hits with the text after the quote. -/
theorem candidateHits_quoted (current : List Char) {ws : List Char}
    (hws : ∀ c ∈ ws, isWhitespace c = true) (weak : Bool) {s : List Char} (hs : Plain s)
    {close : List Char} (hclose : ∀ c ∈ close, c = '"') {ws' : List Char}
    (hws' : ∀ c ∈ ws', isWhitespace c = true) :
    candidateHits current (ws ++ (weakMark weak ++ ('"' :: (s ++ close))) ++ ws') = true ↔
      s = current := by
  have hstar : weakMark weak ++ ('"' :: (s ++ close)) ≠ ['*'] := by
    intro heq
    cases weak with
    | false => exact absurd (List.cons.inj heq).1 (by decide)
    | true => exact absurd (List.cons.inj heq).1 (by decide)
  rw [candidateHits, trim_surround hws (quoted_notWhitespace weak hs hclose) hws',
    normalize_quoted weak hs hclose,
    Bool.or_eq_true, beq_iff_eq, beq_iff_eq]
  exact or_iff_right hstar

/-- A candidate without one, closed by a quote or not. -/
theorem candidateHits_unquoted {current : List Char} (hmark : 'W' ∉ current)
    {s : List Char} (hs : Plain s) {close : List Char} (hclose : close = [] ∨ close = ['"'])
    {ws' : List Char} (hws' : ∀ c ∈ ws', isWhitespace c = true) :
    candidateHits current (s ++ close ++ ws') = true ↔
      s ++ close = ['*'] ∨ Marked current s := by
  have hquotes := quotes_of_closed hclose
  have htrim : trim ([] ++ (s ++ close) ++ ws') = s ++ close :=
    trim_surround (by simp) (closed_notWhitespace hs hquotes) hws'
  rw [List.nil_append] at htrim
  rw [candidateHits, htrim, normalize_unquoted hs hclose, Bool.or_eq_true, beq_iff_eq, beq_iff_eq,
    marked_iff hmark]

theorem ows_isWhitespace {s : List Char} (hs : ∀ c ∈ s, c = ' ' ∨ c = '\t') :
    ∀ c ∈ s, isWhitespace c = true := by
  intro c hc
  rcases hs c hc with rfl | rfl <;> decide

theorem not_comma_of_ows {s : List Char} (hs : ∀ c ∈ s, c = ' ' ∨ c = '\t') : ',' ∉ s := by
  intro hc
  rcases hs ',' hc with h | h <;> exact absurd h (by decide)

theorem not_comma_weakMark (weak : Bool) : ',' ∉ weakMark weak := by
  cases weak <;> decide

/-- What `Misread` says of given pieces. -/
theorem misread_iff {current s first last : List Char} {mid : List (List Char)}
    (hs : s.splitOn ',' = first :: (mid ++ [last])) :
    Misread current s ↔
      first = current ∨ (∃ p ∈ mid, p = ['*'] ∨ Marked current p) ∨ Marked current last := by
  constructor
  · intro h
    obtain ⟨first', mid', last', hs', hcase⟩ := h
    rw [hs] at hs'
    obtain ⟨rfl, htail⟩ := List.cons.inj hs'
    obtain ⟨rfl, hlast⟩ := List.append_inj' htail rfl
    rw [List.singleton_inj.mp hlast]
    exact hcase
  · intro h
    exact ⟨first, mid, last, hs, h⟩

/-- An element whose tag has commas: the first piece keeps the opening quote and the
last the closing one. -/
theorem pieces_hit_iff {current : List Char} (hmark : 'W' ∉ current) (e : ListElement)
    {first last : List Char} {mid : List (List Char)}
    (hs : e.tag.opaqueTag.splitOn ',' = first :: (mid ++ [last])) :
    (∃ c ∈ e.text.splitOn ',', candidateHits current c = true) ↔
      Misread current e.tag.opaqueTag := by
  have hplain : ∀ p ∈ first :: (mid ++ [last]), Plain p := by
    intro p hp c hc
    rw [← hs] at hp
    exact e.tag.plain c (mem_of_mem_splitOn hp hc)
  have htext : e.text =
      (e.before ++ (weakMark e.tag.weak ++ ['"'])) ++ e.tag.opaqueTag ++ ('"' :: e.after) := by
    rw [ListElement.text, EntityTag.text]
    simp
  have hopen : ',' ∉ e.before ++ (weakMark e.tag.weak ++ ['"']) := by
    rw [List.mem_append, List.mem_append, not_or, not_or]
    exact ⟨not_comma_of_ows e.before_ows, not_comma_weakMark e.tag.weak, by decide⟩
  have hend : ',' ∉ '"' :: e.after := by
    rw [List.mem_cons, not_or]
    exact ⟨by decide, not_comma_of_ows e.after_ows⟩
  have hfirst : candidateHits current (e.before ++ (weakMark e.tag.weak ++ ['"']) ++ first) = true ↔
      first = current := by
    have h := candidateHits_quoted current (ows_isWhitespace e.before_ows) e.tag.weak
      (hplain first List.mem_cons_self) (List.forall_mem_nil _) (List.forall_mem_nil _)
    simpa using h
  have hmid : ∀ p ∈ mid, (candidateHits current p = true ↔ p = ['*'] ∨ Marked current p) := by
    intro p hp
    have h := candidateHits_unquoted hmark
      (hplain p (List.mem_cons_of_mem _ (List.mem_append_left _ hp))) (Or.inl rfl)
      (List.forall_mem_nil _)
    simpa using h
  have hlast : candidateHits current (last ++ ('"' :: e.after)) = true ↔ Marked current last := by
    have h := candidateHits_unquoted hmark (hplain last (by simp)) (Or.inr rfl)
      (ows_isWhitespace e.after_ows)
    -- a star with a quote behind it is no star
    have hstar : last ++ ['"'] ≠ ['*'] := by
      intro heq
      have hquote := (List.append_inj' (heq.trans (List.nil_append ['*']).symm) rfl).2
      exact absurd hquote (by decide)
    rw [List.append_assoc, List.singleton_append, or_iff_right hstar] at h
    exact h
  rw [misread_iff hs, htext, splitOn_surround hopen hend hs]
  simp only [List.mem_cons, List.mem_append, List.not_mem_nil, or_false, or_and_right, exists_or,
    exists_eq_left, hfirst, hlast]
  have hmid' : (∃ p ∈ mid, candidateHits current p = true) ↔
      ∃ p ∈ mid, p = ['*'] ∨ Marked current p :=
    exists_congr fun p => and_congr_right (hmid p)
  rw [hmid']

theorem element_hits_iff {current : List Char} (hcomma : ',' ∉ current) (hmark : 'W' ∉ current)
    (e : ListElement) :
    (∃ c ∈ e.text.splitOn ',', candidateHits current c = true) ↔
      e.tag.opaqueTag = current ∨ Misread current e.tag.opaqueTag := by
  obtain ⟨first, rest, hpieces⟩ :=
    List.exists_cons_of_ne_nil (List.splitOn_ne_nil ',' e.tag.opaqueTag)
  rcases List.eq_nil_or_concat rest with rfl | ⟨mid, last, rfl⟩
  · have hnone : ',' ∉ e.tag.opaqueTag := by
      have htag : e.tag.opaqueTag = first := by
        have hjoin : [','].intercalate (e.tag.opaqueTag.splitOn ',') = e.tag.opaqueTag :=
          List.intercalate_splitOn ','
        rw [← hjoin, hpieces, List.intercalate_singleton]
      rw [htag]
      exact not_mem_of_mem_splitOn (hpieces ▸ List.mem_cons_self)
    have htext : ',' ∉ e.text := by
      rw [ListElement.text, EntityTag.text]
      simp [not_comma_of_ows e.before_ows, not_comma_of_ows e.after_ows,
        not_comma_weakMark e.tag.weak, hnone]
    have hnot : ¬ Misread current e.tag.opaqueTag := by
      intro hmis
      obtain ⟨first', mid, last, hs, _⟩ := hmis
      rw [hpieces] at hs
      simp at hs
    have h := candidateHits_quoted current (ows_isWhitespace e.before_ows) e.tag.weak e.tag.plain
      (quotes_of_closed (Or.inr rfl)) (ows_isWhitespace e.after_ows)
    rw [List.splitOn_eq_singleton htext, or_iff_left hnot, ← h]
    simp [ListElement.text, EntityTag.text]
  · have hne : e.tag.opaqueTag ≠ current := by
      intro heq
      rw [heq, List.splitOn_eq_singleton hcomma] at hpieces
      simp at hpieces
    rw [pieces_hit_iff hmark e (by simpa using hpieces), or_iff_right hne]

theorem not_mem_etagDigits {c : Char} (hc : c ∉ "0123456789abcdef".toList) (parts : List String) :
    c ∉ etagDigits parts := fun h => hc (mem_hexDigits h)

/-- The current tag is compared by its digits. -/
theorem ifNoneMatchHits_iff (header : String) (parts : List String) :
    ifNoneMatchHits header (weakEtag parts) = true ↔
      ∃ c ∈ header.toList.splitOn ',', candidateHits (etagDigits parts) c = true := by
  have hcurrent : normalize (weakEtag parts).toList = etagDigits parts := by
    rw [weakEtag_toList]
    exact normalize_quoted true (entityTag parts).plain (quotes_of_closed (Or.inr rfl))
  rw [ifNoneMatchHits, hcurrent]
  exact List.any_eq_true

theorem star_hits (current : List Char) : candidateHits current ['*'] = true := by
  have htrim : trim ['*'] = ['*'] := by decide
  rw [candidateHits, htrim, beq_self_eq_true, Bool.true_or]

theorem hits_iff (parts : List String) (h : IfNoneMatch) :
    ifNoneMatchHits h.text (weakEtag parts) = true ↔
      h.Names (etagDigits parts) ∨ ∃ e ∈ h.elements, Misread (etagDigits parts) e.tag.opaqueTag := by
  rw [ifNoneMatchHits_iff]
  have hcomma : ',' ∉ etagDigits parts := not_mem_etagDigits (by decide) parts
  have hmark : 'W' ∉ etagDigits parts := not_mem_etagDigits (by decide) parts
  cases h with
  | any =>
    refine iff_of_true ⟨['*'], ?_, star_hits _⟩ (Or.inl (Or.inl rfl))
    decide
  | tags elements hne =>
    have hsplit : (IfNoneMatch.tags elements hne).text.toList.splitOn ',' =
        (elements.map ListElement.text).flatMap (fun l => l.splitOn ',') := by
      rw [IfNoneMatch.text, String.toList_ofList, splitOn_intercalate_flatMap]
      simpa using hne
    have hnames : (IfNoneMatch.tags elements hne).Names (etagDigits parts) ↔
        ∃ e ∈ elements, e.tag.opaqueTag = etagDigits parts := by
      rw [IfNoneMatch.Names]
      simp [IfNoneMatch.elements]
    rw [hsplit, hnames, IfNoneMatch.elements, ← exists_or]
    constructor
    · intro hhit
      obtain ⟨c, hc, hhit⟩ := hhit
      obtain ⟨l, hl, hc⟩ := List.mem_flatMap.mp hc
      obtain ⟨e, he, rfl⟩ := List.mem_map.mp hl
      have hcase := (element_hits_iff hcomma hmark e).mp ⟨c, hc, hhit⟩
      exact ⟨e, hcase.imp (fun h => ⟨he, h⟩) (fun h => ⟨he, h⟩)⟩
    · intro hcase
      obtain ⟨e, hcase⟩ := hcase
      have he : e ∈ elements := hcase.elim And.left And.left
      obtain ⟨c, hc, hhit⟩ :=
        (element_hits_iff hcomma hmark e).mpr (hcase.imp And.right And.right)
      exact ⟨c, List.mem_flatMap.mpr ⟨e.text, List.mem_map_of_mem he, hc⟩, hhit⟩

/-! ## Verdicts -/

theorem isEtagc_of_sample : ∀ c ∈ "a,*,b".toList, IsEtagc c := by
  unfold IsEtagc
  rw [← List.all_iff_forall_prop]
  decide

/-- The one tag `a,*,b`, as an element without white space. -/
def sampleElement : ListElement :=
  ⟨[], ⟨false, "a,*,b".toList, isEtagc_of_sample⟩, [], List.forall_mem_nil _, List.forall_mem_nil _⟩

def sampleHeader : IfNoneMatch := .tags [sampleElement] (List.cons_ne_nil _ _)

example : sampleHeader.text = "\"a,*,b\"" := by decide

theorem comma_in_tag_hits :
    ¬ ∀ (parts : List String) (h : IfNoneMatch),
      ifNoneMatchHits h.text (weakEtag parts) = true → h.Names (etagDigits parts) := by
  intro hall
  have hpieces : "a,*,b".toList.splitOn ',' = ['a'] :: ([['*']] ++ [['b']]) := by decide
  have hmis : Misread (etagDigits []) sampleElement.tag.opaqueTag :=
    ⟨['a'], [['*']], ['b'], hpieces, Or.inr (Or.inl ⟨['*'], by simp, Or.inl rfl⟩)⟩
  have hhit := (hits_iff [] sampleHeader).mpr
    (Or.inr ⟨sampleElement, List.mem_singleton_self _, hmis⟩)
  rcases hall [] sampleHeader hhit with hany | ⟨e, he, hdigits⟩
  · exact IfNoneMatch.noConfusion hany
  · have hcomma : ',' ∈ etagDigits [] := by
      rw [← hdigits, List.mem_singleton.mp he]
      decide
    exact not_mem_etagDigits (by decide) [] hcomma

/-- Every hit of a well-formed header is a true one exactly when the header names the
current tag or none of its tags is misread. -/
theorem no_false_hit_iff (parts : List String) (h : IfNoneMatch) :
    (ifNoneMatchHits h.text (weakEtag parts) = true → h.Names (etagDigits parts)) ↔
      h.Names (etagDigits parts) ∨
        ∀ e ∈ h.elements, ¬ Misread (etagDigits parts) e.tag.opaqueTag := by
  rw [hits_iff]
  constructor
  · intro hhit
    by_cases hnames : h.Names (etagDigits parts)
    · exact Or.inl hnames
    · exact Or.inr fun e he hmis => hnames (hhit (Or.inr ⟨e, he, hmis⟩))
  · intro hcase hhit
    rcases hcase with hnames | hnone
    · exact hnames
    · rcases hhit with hnames | ⟨e, he, hmis⟩
      · exact hnames
      · exact absurd hmis (hnone e he)

/-- A header made of elements. -/
def commaSeparated (elements : List String) : String :=
  String.ofList ([','].intercalate (elements.map String.toList))

/-- An issued tag with white space around it is one piece of a header. -/
theorem not_comma_issued (parts : List String) (weak : Bool) {ws ws' : List Char}
    (hws : ∀ c ∈ ws, isWhitespace c = true) (hws' : ∀ c ∈ ws', isWhitespace c = true) :
    ',' ∉ ws ++ { entityTag parts with weak := weak }.text ++ ws' := by
  intro hcomma
  rw [EntityTag.text] at hcomma
  simp only [List.mem_append, List.mem_cons, List.not_mem_nil, or_false] at hcomma
  rcases hcomma with (hc | hc | hc | hc | hc) | hc
  · exact absurd (hws _ hc) (by decide)
  · exact not_comma_weakMark weak hc
  · exact absurd hc (by decide)
  · exact not_mem_etagDigits (by decide) parts hc
  · exact absurd hc (by decide)
  · exact absurd (hws' _ hc) (by decide)

/-- It hits when its digits are the current ones. -/
theorem candidateHits_issued (current : List Char) (parts : List String) (weak : Bool)
    {ws ws' : List Char} (hws : ∀ c ∈ ws, isWhitespace c = true)
    (hws' : ∀ c ∈ ws', isWhitespace c = true) :
    candidateHits current (ws ++ { entityTag parts with weak := weak }.text ++ ws') = true ↔
      etagDigits parts = current :=
  candidateHits_quoted current hws weak (entityTag parts).plain (quotes_of_closed (Or.inr rfl)) hws'

/-- The current tag, in its weak or its strong form and with white space around it,
hits at every place of every list. -/
theorem issued_etag_revalidates (parts : List String) (weak : Bool) {ws ws' : List Char}
    (hws : ∀ c ∈ ws, isWhitespace c = true) (hws' : ∀ c ∈ ws', isWhitespace c = true)
    (pre post : List String) :
    ifNoneMatchHits
      (commaSeparated (pre ++ [String.ofList (ws ++
        { entityTag parts with weak := weak }.text ++ ws')] ++ post)) (weakEtag parts) = true := by
  have hhit := (candidateHits_issued (etagDigits parts) parts weak hws hws').mpr rfl
  rw [ifNoneMatchHits_iff]
  refine ⟨_, ?_, hhit⟩
  rw [commaSeparated, String.toList_ofList]
  apply mem_splitOn_intercalate
  · rw [List.mem_map]
    exact ⟨_, List.mem_append_left _ (List.mem_append_right _ (List.mem_singleton_self _)),
      String.toList_ofList⟩
  · exact not_comma_issued parts weak hws hws'

/-- After an element with a comma and a quote in it, with blanks around. -/
theorem issued_etag_revalidates_in_list :
    ifNoneMatchHits
      (commaSeparated (["\"x,y"] ++ [String.ofList ([' ', '\t'] ++
        { entityTag ["flag-set", "3"] with weak := false }.text ++ [' '])] ++ ["*,"]))
      (weakEtag ["flag-set", "3"]) = true := by
  have hblank : ∀ c ∈ [' ', '\t'], isWhitespace c = true := ows_isWhitespace (by simp)
  have hblank' : ∀ c ∈ [' '], isWhitespace c = true := ows_isWhitespace (by simp)
  exact issued_etag_revalidates ["flag-set", "3"] false hblank hblank' ["\"x,y"] ["*,"]

end Ofrep
end FlagKit
