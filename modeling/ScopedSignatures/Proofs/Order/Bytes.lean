import Mathlib.Tactic.SplitIfs
import ScopedSignatures.Proofs.Order.Lexicographic
import ScopedSignatures.Symbol

/-!
# Symbols in the order of their bytes

Symbols are compared character by character, and characters by their code points. The
bytes of their UTF-8 forms compare in the same way. Of two characters the greater one has
a longer code, and then a greater first byte, or a code of the same length, and then both
are numbers to the base 64, with a digit in each byte.

## Main definitions

* `Symbol.bytes` — the UTF-8 form of a symbol

## Main results

* `Utf8.compare_encode_of_lt` — the codes of two characters part in the order of the characters
* `Symbol.compare_bytes` — symbols compare as their bytes do
-/

namespace ScopedSignatures

/-! ## Characters -/

namespace Utf8

variable {c d : Char}

theorem compare_ofNat {first second : Nat} (hfirst : first < 256) (hsecond : second < 256) :
    compare (UInt8.ofNat first) (UInt8.ofNat second) = compare first second := by
  simp [compare, compareOfLessAndEq, UInt8.lt_iff_toNat_lt, ← UInt8.toNat_inj,
    Nat.mod_eq_of_lt hfirst, Nat.mod_eq_of_lt hsecond]

theorem codePoint_lt (c : Char) : c.val.toNat < 0x110000 := by
  have hvalid : c.val.toNat.isValidChar := c.valid
  rcases hvalid with hlow | ⟨-, hhigh⟩
  · exact Nat.lt_trans hlow (by decide)
  · exact hhigh

/-- The codes of two characters part before either ends, in the order of the characters. -/
theorem compare_encode_of_lt (h : c < d) (behind behind' : List UInt8) :
    compare (String.utf8EncodeChar c ++ behind) (String.utf8EncodeChar d ++ behind') = .lt := by
  have hlt : c.val.toNat < d.val.toNat := h
  have hlimit := codePoint_lt d
  rw [String.utf8EncodeChar, String.utf8EncodeChar]
  generalize c.val.toNat = first at *
  generalize d.val.toNat = second at *
  have hdigits : ∀ number : Nat, number / 4096 = number / 64 / 64 ∧
      number / 262144 = number / 64 / 64 / 64 := by
    intro number
    omega
  rw [(hdigits first).1, (hdigits first).2, (hdigits second).1, (hdigits second).2]
  clear hdigits
  split_ifs
  -- the first byte decides between two lengths, the first different digit within one
  all_goals
    simp (disch := omega) only [List.cons_append, List.nil_append, List.compare_cons_cons,
      Ordering.then_eq_lt, compare_ofNat, Nat.compare_eq_lt, Nat.compare_eq_eq]
    omega

end Utf8

/-! ## Symbols -/

namespace Symbol

variable {first second : Symbol}

theorem compare_eq_lt_iff : compare first second = .lt ↔ first < second :=
  compareOfLessAndEq_eq_lt

/-- The UTF-8 form of a symbol. -/
def bytes (symbol : Symbol) : List UInt8 := symbol.toByteArray.data.toList

theorem bytes_eq_flatMap (symbol : Symbol) :
    symbol.bytes = symbol.toList.flatMap String.utf8EncodeChar := by
  rw [bytes, ← String.utf8Encode_toList, List.utf8Encode]
  simp

theorem compare_bytes_of_lt (h : compare first second = .lt) :
    compare first.bytes second.bytes = .lt := by
  have hlt : first.toList < second.toList := String.lt_iff.1 (compare_eq_lt_iff.1 h)
  rw [bytes_eq_flatMap, bytes_eq_flatMap]
  exact Lexicographic.compare_flatMap_of_lt (fun _ => String.utf8EncodeChar_ne_nil)
    Utf8.compare_encode_of_lt hlt

/-- Symbols compare as their bytes do. -/
theorem compare_bytes (first second : Symbol) :
    compare first.bytes second.bytes = compare first second := by
  cases h : compare first second with
  | lt => exact compare_bytes_of_lt h
  | eq => rw [Std.LawfulEqOrd.eq_of_compare h, Std.compare_self]
  | gt => exact Std.OrientedCmp.gt_of_lt (compare_bytes_of_lt (Std.OrientedCmp.lt_of_gt h))

-- by units of 16 bits the second would come first
example : compare ("\uffff" : Symbol) "😀" = .lt := by decide

end Symbol

end ScopedSignatures
