import Mathlib.Data.Nat.Notation
import Mathlib.Tactic.Common

set_option autoImplicit false

namespace NgkNet.Ascii

abbrev Str := List UInt8

def ascii (s : String) : Str := s.toList.map (fun c => UInt8.ofNat c.toNat)

def code (c : Char) : UInt8 := UInt8.ofNat c.toNat

theorem forall_byte {P : UInt8 → Prop} (h : ∀ n : Fin 256, P (UInt8.ofNat n)) (byte : UInt8) : P byte := by
  have := h ⟨byte.toNat, byte.toNat_lt⟩
  simpa using this

def isDigit (c : UInt8) : Bool := code '0' ≤ c && c ≤ code '9'

def isUpper (c : UInt8) : Bool := code 'A' ≤ c && c ≤ code 'Z'

def isLower (c : UInt8) : Bool := code 'a' ≤ c && c ≤ code 'z'

def isWord (c : UInt8) : Bool := isDigit c || isUpper c || isLower c || c = code '_'

def isSpace (c : UInt8) : Bool := c = 32 || (9 ≤ c && c ≤ 13)

def toLower (c : UInt8) : UInt8 := if isUpper c then c + 32 else c

def toUpper (c : UInt8) : UInt8 := if isLower c then c - 32 else c

theorem toLower_eq_iff {c d : UInt8} (hd : isUpper d = false) (hs : isLower d = false) :
    toLower c = d ↔ c = d := by
  constructor
  · intro h
    by_cases hu : isUpper c = true
    · rw [toLower, if_pos hu] at h
      simp only [isUpper, isLower, code, Bool.and_eq_true, Bool.and_eq_false_iff, decide_eq_true_eq,
        decide_eq_false_iff_not, UInt8.le_iff_toNat_le] at hu hs
      have := congrArg UInt8.toNat h
      simp [UInt8.toNat_add] at this hu hs
      omega
    · rwa [toLower, if_neg hu] at h
  · rintro rfl
    rw [toLower, hd]
    rfl

theorem toUpper_eq_iff {c d : UInt8} (hd : isLower d = false) (hs : isUpper d = false) :
    toUpper c = d ↔ c = d := by
  constructor
  · intro h
    by_cases hu : isLower c = true
    · rw [toUpper, if_pos hu] at h
      simp only [isUpper, isLower, code, Bool.and_eq_true, Bool.and_eq_false_iff, decide_eq_true_eq,
        decide_eq_false_iff_not, UInt8.le_iff_toNat_le] at hu hs
      have := congrArg UInt8.toNat h
      simp [UInt8.toNat_sub] at this hu hs
      omega
    · rwa [toUpper, if_neg hu] at h
  · rintro rfl
    rw [toUpper, hd]
    rfl

theorem isDigit_not_letter {c : UInt8} (h : isDigit c = true) : isUpper c = false ∧ isLower c = false := by
  simp only [isDigit, isUpper, isLower, code, Bool.and_eq_true, Bool.and_eq_false_iff, decide_eq_true_eq,
    decide_eq_false_iff_not, UInt8.le_iff_toNat_le] at h ⊢
  simp at h ⊢
  omega

theorem isDigit_toLower (c : UInt8) : isDigit (toLower c) = isDigit c := by
  rw [Bool.eq_iff_iff]
  constructor
  · intro h
    obtain ⟨hu, hl⟩ := isDigit_not_letter h
    rwa [← (toLower_eq_iff hu hl).mp rfl] at h
  · intro h
    rwa [(toLower_eq_iff (isDigit_not_letter h).1 (isDigit_not_letter h).2).mpr rfl]

theorem isDigit_toUpper (c : UInt8) : isDigit (toUpper c) = isDigit c := by
  rw [Bool.eq_iff_iff]
  constructor
  · intro h
    obtain ⟨hu, hl⟩ := isDigit_not_letter h
    rwa [← (toUpper_eq_iff hl hu).mp rfl] at h
  · intro h
    rwa [(toUpper_eq_iff (isDigit_not_letter h).2 (isDigit_not_letter h).1).mpr rfl]

end NgkNet.Ascii
