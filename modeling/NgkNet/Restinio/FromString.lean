import Mathlib.Data.List.Basic
import NgkNet.Base.Decimal

set_option autoImplicit false

namespace NgkNet.Restinio

open Ascii

inductive CastError where
  | startsWithMinus
  | emptyString
  | maxDigits
  | invalidDigit
  | outOfRange
  deriving DecidableEq

/-- The digits table at a character. The index is the sign-extended `char`, so a byte from 0x80 on
reads whatever memory holds in front of the table. -/
def digitsMapping (memory : UInt8 → UInt8) (c : UInt8) : UInt8 :=
  if 0x80 ≤ c then memory c
  else if isDigit c then c - code '0'
  else if c = 0x40 then 0xF0
  else 0xFF

def memcmpGt : Str → Str → Bool
  | a :: as, b :: bs => b < a || (a = b && memcmpGt as bs)
  | _, _ => false

def parseIntegerNoChecks (memory : UInt8 → UInt8) (data : Str) : UInt32 :=
  data.foldl (fun result c => result * 10 + (digitsMapping memory c).toUInt32) 0

def uint32Max : Str := ascii "4294967295"

def stripPlus (data : Str) : Str :=
  match data with
  | c :: s => if c = code '+' then s else data
  | [] => []

def castToUInt32 (memory : UInt8 → UInt8) (data : Str) : Except CastError UInt32 :=
  if data.head? = some (code '-') then .error .startsWithMinus
  else
    let data := stripPlus data
    if data.length = 0 then .error .emptyString
    else if 10 < data.length then .error .maxDigits
    else if data.any (fun c => digitsMapping memory c = 0xFF) then .error .invalidDigit
    else if data.length = 10 ∧ memcmpGt data uint32Max then .error .outOfRange
    else .ok (parseIntegerNoChecks memory data)

theorem memcmpGt_iff {a b : Str} (hlen : a.length = b.length) (ha : Digits a) (hb : Digits b) :
    memcmpGt a b = true ↔ decimal b < decimal a := by
  induction a generalizing b with
  | nil =>
    obtain rfl : b = [] := List.length_eq_zero_iff.mp hlen.symm
    simp [memcmpGt]
  | cons c a ih =>
    cases b with
    | nil => simp at hlen
    | cons d b =>
      have hl : a.length = b.length := Nat.succ.inj hlen
      have hc := toNat_of_isDigit (ha c List.mem_cons_self)
      have hd := toNat_of_isDigit (hb d List.mem_cons_self)
      have hdc := digit_of_isDigit (ha c List.mem_cons_self)
      have hdd := digit_of_isDigit (hb d List.mem_cons_self)
      have hla := decimal_lt ha.tail
      have hlb := decimal_lt hb.tail
      have hi := ih hl ha.tail hb.tail
      rw [← hl] at hlb
      rw [memcmpGt, decimal_cons, decimal_cons, ← hl, Bool.or_eq_true, Bool.and_eq_true, decide_eq_true_eq,
        decide_eq_true_eq, UInt8.lt_iff_toNat_lt, ← UInt8.toNat_inj, hi]
      rcases Nat.lt_trichotomy (digit d) (digit c) with h | h | h
      · have := Nat.mul_le_mul_right (10 ^ a.length) (Nat.succ_le_of_lt h)
        rw [Nat.succ_mul] at this
        exact iff_of_true (.inl (by omega)) (by omega)
      · rw [h]
        constructor
        · rintro (hlt | ⟨-, hlt⟩) <;> omega
        · exact fun hlt => .inr ⟨by omega, by omega⟩
      · have := Nat.mul_le_mul_right (10 ^ a.length) (Nat.succ_le_of_lt h)
        rw [Nat.succ_mul] at this
        refine iff_of_false ?_ (by omega)
        rintro (hlt | ⟨he, -⟩) <;> omega

section Digits

variable (memory : UInt8 → UInt8) {s : Str}

theorem digitsMapping_of_isDigit {c : UInt8} (h : isDigit c = true) :
    digitsMapping memory c = c - code '0' := by
  have hc := toNat_of_isDigit h
  have hlow : ¬ (0x80 : UInt8) ≤ c := by
    rw [UInt8.le_iff_toNat_le]
    show ¬ 128 ≤ c.toNat
    omega
  rw [digitsMapping, if_neg hlow, if_pos h]

theorem digitsMapping_ne_invalid {c : UInt8} (h : isDigit c = true) : digitsMapping memory c ≠ 0xFF := by
  rw [digitsMapping_of_isDigit memory h]
  intro he
  have := digit_lt h
  rw [digit, he] at this
  exact absurd this (by decide)

theorem parseInteger_toNat (h : Digits s) (n : UInt32) :
    (s.foldl (fun result c => result * 10 + (digitsMapping memory c).toUInt32) n).toNat =
      (n.toNat * 10 ^ s.length + decimal s) % 2 ^ 32 := by
  induction s generalizing n with
  | nil => simp [decimal, Nat.mod_eq_of_lt n.toNat_lt]
  | cons c s ih =>
    have hdig : (digitsMapping memory c).toUInt32.toNat = digit c := by
      rw [digitsMapping_of_isDigit memory (h c List.mem_cons_self), UInt8.toNat_toUInt32, digit]
    rw [List.foldl_cons, ih h.tail, UInt32.toNat_add, UInt32.toNat_mul, hdig, decimal_cons, List.length_cons,
      pow_succ]
    simp only [Nat.reducePow, UInt32.reduceToNat, Nat.add_mod, Nat.mul_mod, Nat.mod_mod]
    simp only [← Nat.add_mod, ← Nat.mul_mod]
    congr 1
    ring

theorem head?_ne_of_digits (h : Digits s) {c : UInt8} (hc : isDigit c = false) : s.head? ≠ some c := by
  intro he
  have := h c (List.mem_of_head? he)
  rw [hc] at this
  exact absurd this (by decide)

theorem stripPlus_of_digits (h : Digits s) : stripPlus s = s := by
  cases s with
  | nil => rfl
  | cons c s =>
    rw [stripPlus, if_neg]
    rintro rfl
    exact absurd (h (code '+') List.mem_cons_self) (by decide)

theorem castToUInt32_digits (h : Digits s) (h₀ : s ≠ []) {n : UInt32} :
    castToUInt32 memory s = .ok n ↔ s.length ≤ 10 ∧ decimal s = n.toNat := by
  have hlen : s.length ≠ 0 := fun he => h₀ (List.length_eq_zero_iff.mp he)
  have hany : s.any (fun c => digitsMapping memory c = 0xFF) = false := by
    rw [List.any_eq_false]
    intro c hc
    simpa using digitsMapping_ne_invalid memory (h c hc)
  have hval : (parseIntegerNoChecks memory s).toNat = decimal s % 2 ^ 32 := by
    rw [parseIntegerNoChecks, parseInteger_toNat memory h]
    simp
  have hlt := decimal_lt h
  have hn := n.toNat_lt
  have hmax : decimal uint32Max = 2 ^ 32 - 1 := by decide
  rw [castToUInt32, if_neg (head?_ne_of_digits h (by decide))]
  simp only [stripPlus_of_digits h, if_neg hlen, hany]
  by_cases hl : 10 < s.length
  · simp only [if_pos hl]
    exact iff_of_false (by simp) (by omega)
  rw [if_neg hl, if_neg (by decide)]
  by_cases hten : s.length = 10
  · have hgt : memcmpGt s uint32Max = true ↔ decimal uint32Max < decimal s :=
      memcmpGt_iff (hten.trans (by decide)) h (List.all_eq_true.mp (by decide))
    by_cases hbig : memcmpGt s uint32Max = true
    · rw [if_pos ⟨hten, hbig⟩]
      refine iff_of_false (by simp) ?_
      have := hgt.mp hbig
      omega
    · rw [if_neg (fun hc => hbig hc.2), Except.ok.injEq, ← UInt32.toNat_inj, hval]
      have : ¬ decimal uint32Max < decimal s := fun hc => hbig (hgt.mpr hc)
      rw [Nat.mod_eq_of_lt (by omega)]
      exact (and_iff_right (by omega)).symm
  · have hp : 10 ^ s.length ≤ 10 ^ 9 := Nat.pow_le_pow_right (by decide) (by omega)
    rw [if_neg (fun hc => hten hc.1), Except.ok.injEq, ← UInt32.toNat_inj, hval, Nat.mod_eq_of_lt (by omega)]
    exact (and_iff_right (by omega)).symm

theorem castToUInt32_eq_ok_iff {n : UInt32} :
    castToUInt32 memory s = .ok n ↔ s.head? ≠ some (code '-') ∧ stripPlus s ≠ [] ∧ (stripPlus s).length ≤ 10 ∧
      (∀ c ∈ stripPlus s, digitsMapping memory c ≠ 0xFF) ∧
      ¬ ((stripPlus s).length = 10 ∧ memcmpGt (stripPlus s) uint32Max = true) ∧
      parseIntegerNoChecks memory (stripPlus s) = n := by
  have hany : (stripPlus s).any (fun c => digitsMapping memory c = 0xFF) = true ↔
      ¬ ∀ c ∈ stripPlus s, digitsMapping memory c ≠ 0xFF := by simp
  rw [castToUInt32]
  split
  · next h => exact iff_of_false (by simp) (fun hc => hc.1 h)
  next h₁ =>
  simp only [List.length_eq_zero_iff]
  split
  · next h => exact iff_of_false (by simp) (fun hc => hc.2.1 h)
  next h₂ =>
  split
  · next h => exact iff_of_false (by simp) (fun hc => absurd hc.2.2.1 (by omega))
  next h₃ =>
  split
  · next h => exact iff_of_false (by simp) (fun hc => hany.mp h hc.2.2.2.1)
  next h₄ =>
  split
  · next h => exact iff_of_false (by simp) (fun hc => hc.2.2.2.2.1 h)
  next h₅ =>
  rw [Except.ok.injEq]
  exact ⟨fun h => ⟨h₁, h₂, by omega, not_not.mp (mt hany.mpr h₄), h₅, h⟩, fun h => h.2.2.2.2.2⟩

def Numeral (s : Str) (n : ℕ) : Prop :=
  ∃ ds, (s = ds ∨ s = code '+' :: ds) ∧ Digits ds ∧ 1 ≤ ds.length ∧ ds.length ≤ 10 ∧ decimal ds = n

def unboundedValue (data : Str) : ℕ :=
  data.foldl (fun result c => result * 10 + (digitsMapping memory c).toNat) 0

def Misread (s : Str) : Prop :=
  s.head? ≠ some (code '-') ∧ (stripPlus s).length ≤ 10 ∧
    (∀ c ∈ stripPlus s, isDigit c = true ∨ c = code '@') ∧ code '@' ∈ stripPlus s ∧
    ¬ ((stripPlus s).length = 10 ∧ memcmpGt (stripPlus s) uint32Max = true)

theorem eq_stripPlus_or (s : Str) : s = stripPlus s ∨ s = code '+' :: stripPlus s := by
  cases s with
  | nil => exact .inl rfl
  | cons c s =>
    rw [stripPlus]
    by_cases hc : c = code '+'
    · rw [if_pos hc, hc]
      exact .inr rfl
    · rw [if_neg hc]
      exact .inl rfl

theorem numeral_iff {n : ℕ} :
    Numeral s n ↔ Digits (stripPlus s) ∧ stripPlus s ≠ [] ∧ (stripPlus s).length ≤ 10 ∧
      decimal (stripPlus s) = n := by
  constructor
  · rintro ⟨ds, hs, hd, h₁, h₁₀, hv⟩
    have hstrip : stripPlus s = ds := by
      rcases hs with rfl | rfl
      · exact stripPlus_of_digits hd
      · rfl
    rw [hstrip]
    exact ⟨hd, List.ne_nil_of_length_pos h₁, h₁₀, hv⟩
  · rintro ⟨hd, h₀, h₁₀, hv⟩
    exact ⟨stripPlus s, eq_stripPlus_or s, hd, List.length_pos_iff.mpr h₀, h₁₀, hv⟩

theorem castToUInt32_stripPlus (h : Digits (stripPlus s)) :
    castToUInt32 memory s = castToUInt32 memory (stripPlus s) := by
  have hminus : s.head? ≠ some (code '-') := by
    rcases eq_stripPlus_or s with hs | hs
    · rw [hs]
      exact head?_ne_of_digits h (by decide)
    · rw [hs, List.head?_cons]
      exact fun he => absurd (Option.some.inj he) (by decide)
  rw [castToUInt32, if_neg hminus, castToUInt32, if_neg (head?_ne_of_digits h (by decide)), stripPlus_of_digits h]

theorem castToUInt32_of_digits (h : Digits (stripPlus s)) {n : UInt32} :
    castToUInt32 memory s = .ok n ↔ Numeral s n.toNat := by
  rw [numeral_iff, castToUInt32_stripPlus memory h]
  by_cases h₀ : stripPlus s = []
  · refine iff_of_false ?_ (fun hn => hn.2.1 h₀)
    rw [h₀]
    simp [castToUInt32, stripPlus]
  · rw [castToUInt32_digits memory h h₀]
    exact ⟨fun hn => ⟨h, h₀, hn⟩, fun hn => hn.2.2⟩

theorem unboundedValue_of_digits (h : Digits s) : unboundedValue memory s = decimal s := by
  rw [unboundedValue, decimal]
  apply List.foldl_ext
  intro n c hc
  rw [digitsMapping_of_isDigit memory (h c hc), digit]

theorem digitsMapping_ascii {c : UInt8} (hc : c < 0x80) :
    digitsMapping memory c ≠ 0xFF ↔ isDigit c = true ∨ c = code '@' := by
  by_cases hd : isDigit c = true
  · exact iff_of_true (digitsMapping_ne_invalid memory hd) (.inl hd)
  · rw [digitsMapping, if_neg (UInt8.not_le.mpr hc), if_neg hd]
    by_cases hat : c = 0x40
    · rw [if_pos hat]
      exact iff_of_true (by decide) (.inr hat)
    · rw [if_neg hat]
      refine iff_of_false (by simp) ?_
      rintro (h | h)
      · exact hd h
      · exact hat h

theorem ascii_stripPlus (h : ∀ c ∈ s, c < 0x80) : ∀ c ∈ stripPlus s, c < 0x80 := by
  intro c hc
  apply h
  rcases eq_stripPlus_or s with hs | hs
  · rwa [hs]
  · rw [hs]
    exact List.mem_cons_of_mem _ hc

theorem castToUInt32_of_not_digits (hascii : ∀ c ∈ s, c < 0x80) (hd : ¬ Digits (stripPlus s)) :
    (∃ n, castToUInt32 memory s = .ok n) ↔ Misread s := by
  have hmap : (∀ c ∈ stripPlus s, digitsMapping memory c ≠ 0xFF) ↔
      ∀ c ∈ stripPlus s, isDigit c = true ∨ c = code '@' :=
    forall₂_congr fun c hc => digitsMapping_ascii memory (ascii_stripPlus hascii c hc)
  simp only [castToUInt32_eq_ok_iff, hmap]
  constructor
  · rintro ⟨n, h₁, -, h₃, h₄, h₅, -⟩
    refine ⟨h₁, h₃, h₄, ?_, h₅⟩
    by_contra hat
    apply hd
    intro c hc
    rcases h₄ c hc with h | rfl
    · exact h
    · exact absurd hc hat
  · rintro ⟨h₁, h₃, h₄, hat, h₅⟩
    exact ⟨_, h₁, List.ne_nil_of_mem hat, h₃, h₄, h₅, rfl⟩

theorem Misread.not_digits (h : Misread s) : ¬ Digits (stripPlus s) := by
  intro hd
  exact absurd (hd _ h.2.2.2.1) (by decide)

end Digits

end NgkNet.Restinio
