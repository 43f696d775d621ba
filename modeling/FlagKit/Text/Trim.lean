import Mathlib.Data.List.DropRight
import Mathlib.Data.List.TakeWhile

/-!
# Splitting and trimming texts

The operations of a string slice that take a text apart, on lists of characters or of
anything else.

Splitting at an element undoes joining with it, also when the parts joined contain it
themselves: then a part comes back as its own pieces, in its place
(`splitOn_intercalate_flatMap`).  `trimMatches` drops what satisfies a predicate from both
ends.  `trimStartMatches` drops a pattern from the start as often as it stands there; what
is left is the only rest that does not start with it (`trimStartMatches_eq_iff`).
-/

namespace FlagKit

variable {α : Type}

/-! ## Splitting -/

theorem intercalate_concat_append (sep : List α) (ls : List (List α)) (last v : List α) :
    sep.intercalate (ls ++ [last ++ v]) = sep.intercalate (ls ++ [last]) ++ v := by
  induction ls with
  | nil => simp
  | cons l rest ih =>
    rw [List.cons_append, List.cons_append, List.intercalate_cons_of_ne_nil (by simp),
      List.intercalate_cons_of_ne_nil (by simp), ih]
    simp only [List.append_assoc]

theorem mem_intercalate_of_mem (sep : List α) {l : List α} {ls : List (List α)} (hl : l ∈ ls)
    {c : α} (hc : c ∈ l) : c ∈ sep.intercalate ls := by
  induction ls with
  | nil => cases hl
  | cons x rest ih =>
    match rest with
    | [] =>
      rw [List.mem_singleton] at hl
      rw [List.intercalate_singleton, ← hl]
      exact hc
    | y :: rest =>
      rw [List.intercalate_cons_cons, List.mem_append, List.mem_append]
      rcases List.mem_cons.mp hl with rfl | hl
      · exact Or.inl (Or.inl hc)
      · exact Or.inr (ih hl)

section Split

variable [BEq α] [LawfulBEq α]

theorem splitOn_intercalate_flatMap (a : α) {ls : List (List α)} (hne : ls ≠ []) :
    ([a].intercalate ls).splitOn a = ls.flatMap (fun l => l.splitOn a) := by
  induction ls with
  | nil => exact absurd rfl hne
  | cons l rest ih =>
    match rest with
    | [] => simp
    | l' :: rest =>
      have htail := ih (List.cons_ne_nil l' rest)
      rw [List.intercalate_cons_cons, List.append_assoc, List.singleton_append,
        List.splitOn_append_cons_self, htail]
      rfl

/-- A part without the separator is one of the pieces. -/
theorem mem_splitOn_intercalate {a : α} {ls : List (List α)} {l : List α} (hl : l ∈ ls)
    (ha : a ∉ l) : l ∈ ([a].intercalate ls).splitOn a := by
  rw [splitOn_intercalate_flatMap a (List.ne_nil_of_mem hl), List.mem_flatMap]
  refine ⟨l, hl, ?_⟩
  rw [List.splitOn_eq_singleton ha]
  exact List.mem_singleton_self l

theorem not_mem_of_mem_splitOn {a : α} {l p : List α} (hp : p ∈ l.splitOn a) : a ∉ p := by
  induction l generalizing p with
  | nil =>
    rw [List.splitOn_nil, List.mem_singleton] at hp
    rw [hp]
    exact List.not_mem_nil
  | cons x l ih =>
    rw [List.splitOn_cons_eq_if_modifyHead] at hp
    by_cases hx : x = a
    · rw [if_pos (beq_iff_eq.mpr hx), List.mem_cons] at hp
      rcases hp with rfl | hp
      · exact List.not_mem_nil
      · exact ih hp
    · rw [if_neg (by simpa using hx)] at hp
      obtain ⟨q, qs, hsplit⟩ := List.exists_cons_of_ne_nil (List.splitOn_ne_nil a l)
      rw [hsplit] at hp ih
      rw [List.modifyHead_cons, List.mem_cons] at hp
      rcases hp with rfl | hp
      · rw [List.mem_cons, not_or]
        exact ⟨Ne.symm hx, ih List.mem_cons_self⟩
      · exact ih (List.mem_cons_of_mem q hp)

theorem mem_of_mem_splitOn {a : α} {l p : List α} (hp : p ∈ l.splitOn a) {c : α} (hc : c ∈ p) :
    c ∈ l := by
  have h := mem_intercalate_of_mem [a] hp hc
  rwa [List.intercalate_splitOn] at h

/-- What stands around a text goes to the first and the last of its pieces. -/
theorem splitOn_surround {a : α} {u v l first last : List α} {mid : List (List α)}
    (hu : a ∉ u) (hv : a ∉ v) (hl : l.splitOn a = first :: (mid ++ [last])) :
    (u ++ l ++ v).splitOn a = (u ++ first) :: (mid ++ [last ++ v]) := by
  have hclean : ∀ p ∈ first :: (mid ++ [last]), a ∉ p := by
    intro p hp
    rw [← hl] at hp
    exact not_mem_of_mem_splitOn hp
  have hjoin : u ++ l ++ v = [a].intercalate ((u ++ first) :: (mid ++ [last ++ v])) := by
    have hl' : l = [a].intercalate (first :: (mid ++ [last])) := by
      rw [← hl, List.intercalate_splitOn]
    rw [hl', List.intercalate_cons_of_ne_nil (by simp), List.intercalate_cons_of_ne_nil (by simp),
      intercalate_concat_append]
    simp only [List.append_assoc]
  rw [hjoin]
  apply List.splitOn_intercalate
  · intro p hp
    rw [List.mem_cons, List.mem_append, List.mem_singleton] at hp
    rcases hp with rfl | hp | rfl
    · rw [List.mem_append, not_or]
      exact ⟨hu, hclean first List.mem_cons_self⟩
    · exact hclean p (List.mem_cons_of_mem _ (List.mem_append_left _ hp))
    · rw [List.mem_append, not_or]
      exact ⟨hclean last (by simp), hv⟩
  · exact List.cons_ne_nil _ _

end Split

/-! ## Trimming both ends -/

def trimMatches (p : α → Bool) (l : List α) : List α := (l.dropWhile p).rdropWhile p

theorem dropWhile_append_of_neg {p : α → Bool} {l v : List α} (hv : ∀ a ∈ v, p a = true)
    (hl : ∀ a ∈ l, p a = false) : (l ++ v).dropWhile p = if l = [] then [] else l ++ v := by
  cases l with
  | nil => simpa using hv
  | cons a l =>
    have ha := hl a List.mem_cons_self
    simp [ha]

theorem rdropWhile_append_of_neg {p : α → Bool} {l v : List α} (hv : ∀ a ∈ v, p a = true)
    (hl : ∀ a ∈ l, p a = false) : (l ++ v).rdropWhile p = l := by
  rw [List.rdropWhile, List.reverse_append, List.dropWhile_append_of_pos (by simpa using hv)]
  have hself : l.reverse.dropWhile p = l.reverse := by
    rw [List.dropWhile_eq_self_iff]
    intro hpos
    have hmem : l.reverse[0] ∈ l := List.mem_reverse.mp (List.getElem_mem hpos)
    rw [hl _ hmem]
    exact Bool.false_ne_true
  rw [hself, List.reverse_reverse]

/-- Nothing is dropped from a text in which nothing satisfies the predicate, and all of
what surrounds it is, when it satisfies the predicate. -/
theorem trimMatches_surround {p : α → Bool} {u l v : List α} (hu : ∀ a ∈ u, p a = true)
    (hl : ∀ a ∈ l, p a = false) (hv : ∀ a ∈ v, p a = true) :
    trimMatches p (u ++ l ++ v) = l := by
  rw [trimMatches, List.append_assoc, List.dropWhile_append_of_pos hu,
    dropWhile_append_of_neg hv hl]
  by_cases hnil : l = []
  · rw [if_pos hnil, hnil]
    rfl
  · rw [if_neg hnil, rdropWhile_append_of_neg hv hl]

theorem trimMatches_eq_self {p : α → Bool} {l : List α} (hl : ∀ a ∈ l, p a = false) :
    trimMatches p l = l := by
  have h := trimMatches_surround (u := []) (v := []) (by simp) hl (by simp)
  simpa using h

/-- `char::is_whitespace`: the characters with the Unicode property `White_Space`. -/
def isWhitespace (c : Char) : Bool :=
  (9 ≤ c.toNat && c.toNat ≤ 13) || c.toNat == 0x20 || c.toNat == 0x85 || c.toNat == 0xa0 ||
    c.toNat == 0x1680 || (0x2000 ≤ c.toNat && c.toNat ≤ 0x200a) || c.toNat == 0x2028 ||
    c.toNat == 0x2029 || c.toNat == 0x202f || c.toNat == 0x205f || c.toNat == 0x3000

def trim (s : List Char) : List Char := trimMatches isWhitespace s

/-! ## Trimming a pattern -/

def repeated (pat : List α) (k : Nat) : List α := (List.replicate k pat).flatten

@[simp] theorem repeated_zero (pat : List α) : repeated pat 0 = [] := rfl

@[simp] theorem repeated_succ (pat : List α) (k : Nat) :
    repeated pat (k + 1) = pat ++ repeated pat k := rfl

theorem repeated_append_cancel {pat x y : List α} (hx : ¬ pat <+: x) (hy : ¬ pat <+: y)
    {j k : Nat} (h : repeated pat j ++ x = repeated pat k ++ y) : x = y := by
  induction j generalizing k with
  | zero =>
    cases k with
    | zero => exact h
    | succ k =>
      rw [repeated_zero, List.nil_append, repeated_succ, List.append_assoc] at h
      exact absurd ⟨_, h.symm⟩ hx
  | succ j ih =>
    cases k with
    | zero =>
      rw [repeated_zero, List.nil_append, repeated_succ, List.append_assoc] at h
      exact absurd ⟨_, h⟩ hy
    | succ k =>
      rw [repeated_succ, repeated_succ, List.append_assoc, List.append_assoc] at h
      exact ih (List.append_cancel_left h)

section Pattern

variable [DecidableEq α]

/-- At most `fuel` times. -/
def trimStartUpTo (pat : List α) : Nat → List α → List α
  | 0, l => l
  | fuel + 1, l =>
    match l.dropPrefix? pat with
    | some rest => trimStartUpTo pat fuel rest
    | none => l

def trimStartMatches (pat l : List α) : List α := trimStartUpTo pat l.length l

theorem dropPrefix?_eq_some_iff {pat l rest : List α} :
    l.dropPrefix? pat = some rest ↔ l = pat ++ rest := by
  rw [List.dropPrefix?_eq_some_iff]
  simp

/-- The fuel is enough when the pattern is not empty: every round takes something. -/
theorem trimStartUpTo_spec {pat : List α} (hpat : pat ≠ []) {fuel : Nat} {l : List α}
    (hfuel : l.length ≤ fuel) :
    (∃ k, l = repeated pat k ++ trimStartUpTo pat fuel l) ∧
      ¬ pat <+: trimStartUpTo pat fuel l := by
  have hpos := List.length_pos_iff.mpr hpat
  induction fuel generalizing l with
  | zero =>
    have hnil : l = [] := List.length_eq_zero_iff.mp (by omega)
    rw [hnil]
    refine ⟨⟨0, rfl⟩, fun hpre => hpat ?_⟩
    exact List.prefix_nil.mp hpre
  | succ fuel ih =>
    cases hdrop : l.dropPrefix? pat with
    | none =>
      rw [trimStartUpTo, hdrop]
      refine ⟨⟨0, rfl⟩, fun hpre => ?_⟩
      obtain ⟨rest, hrest⟩ := hpre
      rw [dropPrefix?_eq_some_iff.mpr hrest.symm] at hdrop
      cases hdrop
    | some rest =>
      have hl := dropPrefix?_eq_some_iff.mp hdrop
      have hlen : rest.length ≤ fuel := by
        rw [hl, List.length_append] at hfuel
        omega
      obtain ⟨⟨k, hk⟩, hnot⟩ := ih hlen
      rw [trimStartUpTo, hdrop]
      refine ⟨⟨k + 1, ?_⟩, hnot⟩
      rw [repeated_succ, List.append_assoc, ← hk]
      exact hl

/-- The rest is known by what it is: no pattern at its start, and only patterns before
it. -/
theorem trimStartMatches_eq_iff {pat : List α} (hpat : pat ≠ []) {l rest : List α}
    (hrest : ¬ pat <+: rest) :
    trimStartMatches pat l = rest ↔ ∃ k, l = repeated pat k ++ rest := by
  obtain ⟨⟨j, hj⟩, hnot⟩ := trimStartUpTo_spec hpat (Nat.le_refl l.length)
  constructor
  · intro heq
    rw [← heq]
    exact ⟨j, hj⟩
  · intro hex
    obtain ⟨k, hk⟩ := hex
    have hboth : repeated pat j ++ trimStartMatches pat l = repeated pat k ++ rest :=
      hj.symm.trans hk
    exact repeated_append_cancel hnot hrest hboth

theorem trimStartMatches_spec {pat : List α} (hpat : pat ≠ []) (l : List α) :
    (∃ k, l = repeated pat k ++ trimStartMatches pat l) ∧ ¬ pat <+: trimStartMatches pat l :=
  trimStartUpTo_spec hpat (Nat.le_refl l.length)

/-- A last element that is not in the pattern stays where it is. -/
theorem trimStartMatches_concat {pat : List α} (hpat : pat ≠ []) {a : α} (ha : a ∉ pat)
    (l : List α) : trimStartMatches pat (l ++ [a]) = trimStartMatches pat l ++ [a] := by
  obtain ⟨⟨k, hk⟩, hnot⟩ := trimStartMatches_spec hpat l
  rw [trimStartMatches_eq_iff hpat]
  · refine ⟨k, ?_⟩
    rw [← List.append_assoc, ← hk]
  · intro hpre
    rcases List.prefix_concat_iff.mp hpre with heq | hpre
    · apply ha
      rw [heq]
      exact List.mem_append_right _ (List.mem_singleton_self a)
    · exact hnot hpre

end Pattern
end FlagKit
