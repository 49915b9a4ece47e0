import Mathlib.Tactic.Ring
import NgkNet.Base.Ascii

set_option autoImplicit false

namespace NgkNet.Ascii

def Digits (s : Str) : Prop := ∀ c ∈ s, isDigit c = true

def digit (c : UInt8) : ℕ := (c - code '0').toNat

def decimal (s : Str) : ℕ := s.foldl (fun n c => n * 10 + digit c) 0

theorem Digits.tail {c : UInt8} {s : Str} (h : Digits (c :: s)) : Digits s :=
  fun d hd => h d (List.mem_cons_of_mem _ hd)

theorem toNat_of_isDigit {c : UInt8} (h : isDigit c = true) : 48 ≤ c.toNat ∧ c.toNat ≤ 57 := by
  simp only [isDigit, Bool.and_eq_true, decide_eq_true_eq, UInt8.le_iff_toNat_le] at h
  exact h

theorem digit_of_isDigit {c : UInt8} (h : isDigit c = true) : digit c = c.toNat - 48 := by
  obtain ⟨h₁, -⟩ := toNat_of_isDigit h
  exact UInt8.toNat_sub_of_le _ _ (UInt8.le_iff_toNat_le.mpr h₁)

theorem digit_lt {c : UInt8} (h : isDigit c = true) : digit c < 10 := by
  have := toNat_of_isDigit h
  rw [digit_of_isDigit h]
  omega

theorem foldl_decimal (s : Str) (n : ℕ) :
    s.foldl (fun n c => n * 10 + digit c) n = n * 10 ^ s.length + decimal s := by
  induction s generalizing n with
  | nil => simp [decimal]
  | cons c s ih =>
    rw [decimal, List.foldl_cons, List.foldl_cons, ih, ih (0 * 10 + digit c), List.length_cons, pow_succ]
    ring

theorem decimal_cons (c : UInt8) (s : Str) : decimal (c :: s) = digit c * 10 ^ s.length + decimal s := by
  rw [decimal, List.foldl_cons, foldl_decimal, Nat.zero_mul, Nat.zero_add]

theorem decimal_lt {s : Str} (h : Digits s) : decimal s < 10 ^ s.length := by
  induction s with
  | nil => simp [decimal]
  | cons c s ih =>
    have hc := digit_lt (h c List.mem_cons_self)
    have hs := ih h.tail
    have hmul : digit c * 10 ^ s.length ≤ 9 * 10 ^ s.length := Nat.mul_le_mul_right _ (by omega)
    rw [decimal_cons, List.length_cons, pow_succ]
    omega

theorem decimal_concat (s : Str) (c : UInt8) : decimal (s ++ [c]) = decimal s * 10 + digit c := by
  rw [decimal, List.foldl_append]
  rfl

theorem digit_digitChar {d : ℕ} (h : d < 10) :
    isDigit (UInt8.ofNat d.digitChar.toNat) = true ∧ digit (UInt8.ofNat d.digitChar.toNat) = d := by
  have hall : ∀ d : Fin 10, isDigit (UInt8.ofNat (48 + d)) = true ∧ digit (UInt8.ofNat (48 + d)) = d := by
    decide
  rw [Nat.toNat_digitChar_of_lt_ten h]
  exact hall ⟨d, h⟩

theorem ascii_toString (n : ℕ) :
    ascii (toString n) = (Nat.toDigits 10 n).map (fun c => UInt8.ofNat c.toNat) := by
  rw [ascii, Nat.toString_eq_repr, Nat.toList_repr]

theorem toString_spec (n : ℕ) : Digits (ascii (toString n)) ∧ decimal (ascii (toString n)) = n := by
  induction n using Nat.strongRecOn with
  | _ n ih =>
    rw [ascii_toString, Nat.toDigits_eq_if (by decide)]
    by_cases hn : n < 10
    · obtain ⟨hd, hv⟩ := digit_digitChar hn
      rw [if_pos hn, List.map_singleton, decimal_cons]
      refine ⟨List.forall_mem_singleton.mpr hd, ?_⟩
      rw [hv]
      simp [decimal]
    · obtain ⟨hdigits, hvalue⟩ := ih (n / 10) (by omega)
      obtain ⟨hd, hv⟩ := digit_digitChar (Nat.mod_lt n (by decide : 0 < 10))
      rw [if_neg hn, List.map_append, List.map_singleton, ← ascii_toString]
      constructor
      · intro c hc
        rcases List.mem_append.mp hc with hc | hc
        · exact hdigits c hc
        · rw [List.mem_singleton.mp hc]
          exact hd
      · rw [decimal_concat, hvalue, hv]
        omega

theorem toString_ne_nil (n : ℕ) : ascii (toString n) ≠ [] := by
  rw [ascii_toString]
  simp

theorem length_toString_le (n : ℕ) {k : ℕ} (hk : 0 < k) (h : n < 10 ^ k) : (ascii (toString n)).length ≤ k := by
  rw [ascii_toString, List.length_map]
  exact (Nat.length_toDigits_le_iff (by decide) hk).mpr h

end NgkNet.Ascii
