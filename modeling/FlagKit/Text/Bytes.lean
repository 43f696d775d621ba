import Mathlib.Algebra.Group.Nat.Defs
import Mathlib.Data.List.Basic

/-!
# Bytes and digits of texts

`asBytes` is the UTF-8 encoding of a text.  A UTF-8 byte is below `0xf8`, so `0xff` can
end a text in a stream of bytes and cannot be taken for a part of it.  A sequence
written with a mark after each part is read back by splitting at the mark
(`splitOn_framed`), whatever the parts are.

`hexDigits` writes a number with a fixed number of lower-case hexadecimal digits.
-/

namespace FlagKit

/-! ## UTF-8 -/

def asBytes (s : String) : List UInt8 := s.toUTF8.data.toList

theorem toList_loop_eq (b : ByteArray) (i : Nat) (r : List UInt8) :
    ByteArray.toList.loop b i r = r.reverse ++ b.data.toList.drop i := by
  fun_induction ByteArray.toList.loop b i r with
  | case1 i r h ih =>
    have hi : i < b.data.toList.length := h
    have hget : b.get! i = b.data.toList[i] := getElem!_pos b.data i h
    rw [ih, List.drop_eq_getElem_cons hi, List.reverse_cons, List.append_assoc, hget]
    rfl
  | case2 i r h =>
    have hi : b.data.toList.length ≤ i := Nat.not_lt.mp h
    rw [List.drop_eq_nil_of_le hi, List.append_nil]

/-- Both ways to take the bytes of a text give the same. -/
theorem toUTF8_toList (s : String) : s.toUTF8.toList = asBytes s :=
  toList_loop_eq s.toUTF8 0 []

theorem asBytes_eq_flatMap (s : String) : asBytes s = s.toList.flatMap String.utf8EncodeChar := by
  rw [asBytes, String.toUTF8_eq_toByteArray, ← String.utf8Encode_toList, List.utf8Encode,
    List.data_toByteArray]

theorem asBytes_injective : Function.Injective asBytes := by
  intro s t h
  apply String.toByteArray_inj.mp
  exact ByteArray.ext (Array.toList_inj.mp h)

theorem utf8EncodeChar_lt {c : Char} {b : UInt8} (hb : b ∈ String.utf8EncodeChar c) :
    b.toNat < 0xf8 := by
  unfold String.utf8EncodeChar at hb
  simp only at hb
  split_ifs at hb <;> simp only [List.mem_cons, List.not_mem_nil, or_false] at hb
  · rw [hb, UInt8.toNat_ofNat']
    omega
  · rcases hb with rfl | rfl <;> rw [UInt8.toNat_ofNat'] <;> omega
  · rcases hb with rfl | rfl | rfl <;> rw [UInt8.toNat_ofNat'] <;> omega
  · rcases hb with rfl | rfl | rfl | rfl <;> rw [UInt8.toNat_ofNat'] <;> omega

theorem asBytes_lt {s : String} {b : UInt8} (hb : b ∈ asBytes s) : b.toNat < 0xf8 := by
  rw [asBytes_eq_flatMap, List.mem_flatMap] at hb
  obtain ⟨c, _, hb⟩ := hb
  exact utf8EncodeChar_lt hb

/-! ## Parts with a mark after each -/

section Framed

variable {α : Type}

def framed (mark : α) (parts : List (List α)) : List α := parts.flatMap (fun p => p ++ [mark])

@[simp] theorem framed_nil (mark : α) : framed mark [] = [] := rfl

@[simp] theorem framed_cons (mark : α) (p : List α) (parts : List (List α)) :
    framed mark (p :: parts) = p ++ mark :: framed mark parts := by
  simp [framed]

theorem framed_append (mark : α) (parts more : List (List α)) :
    framed mark (parts ++ more) = framed mark parts ++ framed mark more :=
  List.flatMap_append

variable [BEq α] [LawfulBEq α]

theorem splitOn_framed {mark : α} {parts : List (List α)} (h : ∀ p ∈ parts, mark ∉ p) :
    (framed mark parts).splitOn mark = parts ++ [[]] := by
  induction parts with
  | nil => exact List.splitOn_nil mark
  | cons p rest ih =>
    rw [List.forall_mem_cons] at h
    rw [framed_cons, List.splitOn_append_cons_self_of_not_mem h.1, ih h.2, List.cons_append]

theorem framed_inj {mark : α} {parts parts' : List (List α)} (h : ∀ p ∈ parts, mark ∉ p)
    (h' : ∀ p ∈ parts', mark ∉ p) : framed mark parts = framed mark parts' ↔ parts = parts' := by
  constructor
  · intro heq
    have hsplit : parts ++ [[]] = parts' ++ [[]] := by
      rw [← splitOn_framed h, heq, splitOn_framed h']
    exact List.append_cancel_right hsplit
  · intro heq
    rw [heq]

end Framed

/-! ## Hexadecimal digits -/

def hexDigits : Nat → Nat → List Char
  | 0, _ => []
  | width + 1, n => hexDigits width (n / 16) ++ [Nat.digitChar (n % 16)]

theorem digitChar_inj {m n : Nat} (hm : m < 16) (hn : n < 16) :
    Nat.digitChar m = Nat.digitChar n ↔ m = n := by
  have hall : ∀ i j : Fin 16, Nat.digitChar i = Nat.digitChar j ↔ i = j := by decide
  exact (hall ⟨m, hm⟩ ⟨n, hn⟩).trans Fin.mk.inj_iff

theorem digitChar_mem {n : Nat} (hn : n < 16) : Nat.digitChar n ∈ "0123456789abcdef".toList := by
  have hall : ∀ i : Fin 16, Nat.digitChar i ∈ "0123456789abcdef".toList := by decide
  exact hall ⟨n, hn⟩

theorem mem_hexDigits {width n : Nat} {c : Char} (hc : c ∈ hexDigits width n) :
    c ∈ "0123456789abcdef".toList := by
  induction width generalizing n with
  | zero => cases hc
  | succ width ih =>
    rw [hexDigits, List.mem_append, List.mem_singleton] at hc
    rcases hc with hc | rfl
    · exact ih hc
    · exact digitChar_mem (Nat.mod_lt n (by omega))

/-- A number is known from its digits when they are enough for it. -/
theorem hexDigits_inj {width m n : Nat} (hm : m < 16 ^ width) (hn : n < 16 ^ width) :
    hexDigits width m = hexDigits width n ↔ m = n := by
  constructor
  · intro heq
    induction width generalizing m n with
    | zero =>
      rw [Nat.pow_zero] at hm hn
      omega
    | succ width ih =>
      rw [Nat.pow_succ] at hm hn
      rw [hexDigits, hexDigits] at heq
      obtain ⟨hhigh, hlow⟩ := List.append_inj' heq rfl
      have hdiv : m / 16 = n / 16 := ih (by omega) (by omega) hhigh
      have hmod : m % 16 = n % 16 :=
        (digitChar_inj (Nat.mod_lt m (by omega)) (Nat.mod_lt n (by omega))).mp
          (List.singleton_inj.mp hlow)
      omega
  · intro heq
    rw [heq]

end FlagKit
