import Mathlib.Algebra.Group.Nat.Defs
import NgkNet.Base.Ascii

set_option autoImplicit false

namespace NgkNet.Restinio

open Ascii

inductive Utf8State where
  | valid
  | invalid
  | mayBeOverlong
  | overlong
  deriving DecidableEq

structure Utf8Checker where
  currentSymbol : UInt32
  currentSymbolRestBytes : ℕ
  state : Utf8State
  deriving DecidableEq

namespace Utf8Checker

def initial : Utf8Checker := ⟨0, 0, .valid⟩

def finalized (u : Utf8Checker) : Bool := u.currentSymbolRestBytes = 0

def reset (u : Utf8Checker) : Utf8Checker := { u with currentSymbol := 0, currentSymbolRestBytes := 0 }

def validateCurrentSymbol (u : Utf8Checker) : Utf8Checker :=
  if 0xD800 ≤ u.currentSymbol ∧ u.currentSymbol ≤ 0xDFFF ∨ 0x110000 ≤ u.currentSymbol then
    { u with state := .invalid }
  else u

def checkOverlong (byte : UInt8) (u : Utf8Checker) : Utf8Checker :=
  if 0 < u.currentSymbolRestBytes ∧ u.state = .mayBeOverlong then
    if u.currentSymbolRestBytes = 2 ∧ byte &&& 0xE0 = 0x80 then { u with state := .overlong }
    else if u.currentSymbolRestBytes = 3 ∧ byte &&& 0xF0 = 0x80 then { u with state := .overlong }
    else if u.currentSymbolRestBytes = 4 ∧ byte &&& 0xF8 = 0x80 then { u with state := .overlong }
    else if u.currentSymbolRestBytes = 5 ∧ byte &&& 0xFC = 0x80 then { u with state := .overlong }
    else { u with state := .valid }
  else if byte = 0xC0 ∨ byte = 0xC1 then { u with state := .overlong }
  else if byte = 0xE0 ∨ byte = 0xF0 ∨ byte = 0xF8 ∨ byte = 0xFC then { u with state := .mayBeOverlong }
  else u

def continuationByte (byte : UInt8) (u : Utf8Checker) : Utf8Checker :=
  if byte &&& 0xC0 = 0x80 then
    let u := { u with
      currentSymbol := u.currentSymbol <<< 6 ||| (byte &&& 0x3F).toUInt32
      currentSymbolRestBytes := u.currentSymbolRestBytes - 1 }
    if u.currentSymbolRestBytes = 0 then u.validateCurrentSymbol else u
  else { u with state := .invalid }

def leadingByte (byte : UInt8) (u : Utf8Checker) : Utf8Checker :=
  if byte &&& 0x80 = 0x00 then ⟨byte.toUInt32, 0, u.state⟩
  else if byte &&& 0xE0 = 0xC0 then ⟨(byte &&& 0x1F).toUInt32, 1, u.state⟩
  else if byte &&& 0xF0 = 0xE0 then ⟨(byte &&& 0xF).toUInt32, 2, u.state⟩
  else if byte &&& 0xF8 = 0xF0 then ⟨(byte &&& 0x7).toUInt32, 3, u.state⟩
  else if byte &&& 0xFC = 0xF8 then ⟨(byte &&& 0x3).toUInt32, 4, u.state⟩
  else if byte &&& 0xFE = 0xFC then ⟨(byte &&& 0x1).toUInt32, 5, u.state⟩
  else ⟨byte.toUInt32, 0, .invalid⟩

def processByte (byte : UInt8) (u : Utf8Checker) : Bool × Utf8Checker :=
  let u := u.checkOverlong byte
  let u := if 0 < u.currentSymbolRestBytes then u.continuationByte byte else u.leadingByte byte
  (u.state = .valid || u.state = .mayBeOverlong, u)

def Pending (u : Utf8Checker) : Prop :=
  (1 ≤ u.currentSymbolRestBytes ∧ u.currentSymbolRestBytes ≤ 5) ∧
  u.currentSymbol.toNat < 2 ^ (31 - 6 * u.currentSymbolRestBytes) ∧
  (u.state = .valid ∧ 1 ≤ u.currentSymbol.toNat ∧
      (u.currentSymbolRestBytes = 1 → 2 ≤ u.currentSymbol.toNat) ∨
    u.state = .mayBeOverlong ∧ 2 ≤ u.currentSymbolRestBytes)

instance (u : Utf8Checker) : Decidable (Pending u) := inferInstanceAs (Decidable (_ ∧ _))

def Complete (u : Utf8Checker) : Prop := u.currentSymbolRestBytes = 0 ∧ u.state = .valid

instance (u : Utf8Checker) : Decidable (Complete u) := inferInstanceAs (Decidable (_ ∧ _))

theorem processByte_initial (byte : UInt8) : (initial.processByte byte).1 = true →
    (initial.processByte byte).2.Complete ∧ (initial.processByte byte).2.currentSymbol = byte.toUInt32 ∨
      (initial.processByte byte).2.Pending := by
  revert byte
  apply forall_byte
  decide +kernel

def overlongMask : ℕ → UInt8
  | 2 => 0xE0
  | 3 => 0xF0
  | 4 => 0xF8
  | _ => 0xFC

theorem continuation_bits (byte : UInt8) : byte &&& 0xC0 = 0x80 →
    (byte &&& 0x3F).toNat < 64 ∧ byte ∉ [0xC0, 0xC1, 0xE0, 0xF0, 0xF8, 0xFC] ∧
      ∀ k ∈ [2, 3, 4, 5], byte &&& overlongMask k ≠ 0x80 → 4 ≤ (byte &&& 0x3F).toNat := by
  revert byte
  apply forall_byte
  decide +kernel

theorem shifted_toNat {s : UInt32} {byte : UInt8} {k : ℕ} (hk : 1 ≤ k) (hs : s.toNat < 2 ^ (31 - 6 * k))
    (hx : (byte &&& 0x3F).toNat < 64) :
    (s <<< 6 ||| (byte &&& 0x3F).toUInt32).toNat = s.toNat * 64 + (byte &&& 0x3F).toNat := by
  have hp : 2 ^ (31 - 6 * k) ≤ 2 ^ 25 := Nat.pow_le_pow_right (by decide) (by omega)
  have hshift : (s <<< 6).toNat = s.toNat <<< 6 := by
    rw [UInt32.toNat_shiftLeft]
    show s.toNat <<< 6 % 2 ^ 32 = s.toNat <<< 6
    rw [Nat.mod_eq_of_lt]
    rw [Nat.shiftLeft_eq]
    omega
  rw [UInt32.toNat_or, hshift, UInt8.toNat_toUInt32, ← Nat.shiftLeft_add_eq_or_of_lt hx, Nat.shiftLeft_eq]

theorem checkOverlong_eq (byte : UInt8) (s : UInt32) {k : ℕ} (hk : k ∈ [2, 3, 4, 5]) :
    checkOverlong byte ⟨s, k, .mayBeOverlong⟩ =
      ⟨s, k, if byte &&& overlongMask k = 0x80 then .overlong else .valid⟩ := by
  simp only [List.mem_cons, List.not_mem_nil, or_false] at hk
  rcases hk with rfl | rfl | rfl | rfl <;> simp only [checkOverlong, overlongMask] <;> split_ifs <;> simp_all

theorem checkOverlong_pending {u : Utf8Checker} {byte : UInt8} (h : u.Pending) (hb : byte &&& 0xC0 = 0x80) :
    u.checkOverlong byte = { u with state := .overlong } ∨
      u.checkOverlong byte = { u with state := .valid } ∧
        (1 ≤ u.currentSymbol.toNat ∧ (u.currentSymbolRestBytes = 1 → 2 ≤ u.currentSymbol.toNat) ∨
          2 ≤ u.currentSymbolRestBytes ∧ 4 ≤ (byte &&& 0x3F).toNat) := by
  obtain ⟨-, hnot, hmask⟩ := continuation_bits byte hb
  obtain ⟨s, k, state⟩ := u
  obtain ⟨⟨h₁, h₅⟩, -, ⟨rfl, hv⟩ | ⟨rfl, h₂⟩⟩ := h
  · simp only [List.mem_cons, List.not_mem_nil, or_false, not_or] at hnot
    right
    refine ⟨?_, .inl hv⟩
    simp [checkOverlong, hnot]
  · have hk : k ∈ [2, 3, 4, 5] := by
      simp only [List.mem_cons, List.not_mem_nil, or_false]
      simp only at h₁ h₂ h₅
      omega
    rw [checkOverlong_eq byte s hk]
    by_cases hm : byte &&& overlongMask k = 0x80
    · left
      rw [if_pos hm]
    · right
      rw [if_neg hm]
      exact ⟨rfl, .inr ⟨h₂, hmask k hk hm⟩⟩

theorem checkOverlong_rest (byte : UInt8) (u : Utf8Checker) :
    (u.checkOverlong byte).currentSymbolRestBytes = u.currentSymbolRestBytes := by
  rw [checkOverlong]
  split_ifs <;> rfl

theorem validateCurrentSymbol_eq {u : Utf8Checker} (h : u.validateCurrentSymbol.state ≠ .invalid) :
    u.validateCurrentSymbol = u := by
  rw [validateCurrentSymbol] at h ⊢
  by_cases hc : 0xD800 ≤ u.currentSymbol ∧ u.currentSymbol ≤ 0xDFFF ∨ 0x110000 ≤ u.currentSymbol
  · rw [if_pos hc] at h
    exact absurd rfl h
  · rw [if_neg hc]

theorem processByte_pending {u : Utf8Checker} {byte : UInt8} (h : u.Pending)
    (hok : (u.processByte byte).1 = true) :
    (u.processByte byte).2.Complete ∧ 0x80 ≤ (u.processByte byte).2.currentSymbol.toNat ∨
      (u.processByte byte).2.Pending := by
  have hrest : 0 < (u.checkOverlong byte).currentSymbolRestBytes := by
    rw [checkOverlong_rest]
    exact h.1.1
  have hp : (u.processByte byte).2 = (u.checkOverlong byte).continuationByte byte := by
    simp only [processByte, if_pos hrest]
  have hstate : ((u.checkOverlong byte).continuationByte byte).state = .valid ∨
      ((u.checkOverlong byte).continuationByte byte).state = .mayBeOverlong := by
    simpa [processByte, if_pos hrest] using hok
  rw [hp]
  by_cases hb : byte &&& 0xC0 = 0x80
  · have hx := (continuation_bits byte hb).1
    have hsum := shifted_toNat h.1.1 h.2.1 hx
    obtain ⟨⟨h₁, h₅⟩, hbound, -⟩ := id h
    rcases checkOverlong_pending h hb with he | ⟨he, hv⟩
    · simp only [he, continuationByte, if_pos hb, validateCurrentSymbol] at hstate
      split_ifs at hstate <;> simp at hstate
    · rw [he, continuationByte, if_pos hb] at hstate ⊢
      by_cases hlast : u.currentSymbolRestBytes - 1 = 0
      · simp only [if_pos hlast] at hstate ⊢
        rw [validateCurrentSymbol_eq (by rcases hstate with hs | hs <;> rw [hs] <;> decide)]
        refine .inl ⟨⟨hlast, rfl⟩, ?_⟩
        simp only [hsum]
        omega
      · simp only [if_neg hlast]
        have hpow : 2 ^ (31 - 6 * (u.currentSymbolRestBytes - 1)) =
            2 ^ (31 - 6 * u.currentSymbolRestBytes) * 64 := by
          rw [show 64 = 2 ^ 6 by rfl, ← Nat.pow_add]
          congr 1
          omega
        refine .inr ⟨⟨by simp only; omega, by simp only; omega⟩, ?_, .inl ⟨rfl, ?_, ?_⟩⟩
        · simp only [hsum, hpow]
          omega
        · simp only [hsum]
          omega
        · simp only [hsum]
          omega
  · simp [continuationByte, hb] at hstate

end Utf8Checker

end NgkNet.Restinio
