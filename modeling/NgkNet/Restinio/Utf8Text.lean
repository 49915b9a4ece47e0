import NgkNet.Restinio.Utf8Checker

set_option autoImplicit false

namespace NgkNet.Restinio

open Ascii

/-- Valid UTF-8: the encodings of Unicode scalar values, one behind the other. -/
def Utf8 (s : Str) : Prop := ∃ chars : List Char, s = chars.flatMap String.utf8EncodeChar

theorem utf8_nil : Utf8 [] := ⟨[], rfl⟩

theorem Utf8.append {a b : Str} (ha : Utf8 a) (hb : Utf8 b) : Utf8 (a ++ b) := by
  obtain ⟨x, rfl⟩ := ha
  obtain ⟨y, rfl⟩ := hb
  exact ⟨x ++ y, List.flatMap_append.symm⟩

namespace Utf8Checker

def feed : Str → Utf8Checker → Option Utf8Checker
  | [], u => some u
  | byte :: s, u => if (u.processByte byte).1 then feed s (u.processByte byte).2 else none

theorem feed_cons_eq_some {byte : UInt8} {s : Str} {u u' : Utf8Checker} :
    feed (byte :: s) u = some u' ↔ (u.processByte byte).1 = true ∧ feed s (u.processByte byte).2 = some u' := by
  rw [feed, Option.ite_none_right_eq_some]

theorem feed_append (a b : Str) (u : Utf8Checker) : feed (a ++ b) u = (feed a u).bind (feed b) := by
  induction a generalizing u with
  | nil => rfl
  | cons byte a ih =>
    rw [List.cons_append, feed, feed]
    split
    · exact ih _
    · rfl

inductive Finishes : Utf8Checker → Str → Prop
  | last {u : Utf8Checker} {byte : UInt8} (h : (u.processByte byte).1 = true)
      (hc : (u.processByte byte).2.Complete) : Finishes u [byte]
  | more {u : Utf8Checker} {byte : UInt8} {s : Str} (h : (u.processByte byte).1 = true)
      (hp : (u.processByte byte).2.Pending) (hs : Finishes (u.processByte byte).2 s) : Finishes u (byte :: s)

theorem Finishes.feed {u : Utf8Checker} {s : Str} (h : Finishes u s) : ∃ u', feed s u = some u' ∧ u'.Complete := by
  induction h with
  | last h hc => exact ⟨_, by rw [Utf8Checker.feed, if_pos h, Utf8Checker.feed], hc⟩
  | more h hp hs ih =>
    obtain ⟨u', hu, hc⟩ := ih
    exact ⟨u', by rw [Utf8Checker.feed, if_pos h, hu], hc⟩

theorem leadingByte_congr (byte : UInt8) {u u' : Utf8Checker} (h : u.state = u'.state) :
    u.leadingByte byte = u'.leadingByte byte := by
  rw [leadingByte, leadingByte, h]

theorem checkOverlong_state_of_complete (byte : UInt8) (s : UInt32) :
    (checkOverlong byte ⟨s, 0, .valid⟩).state = (initial.checkOverlong byte).state := by
  simp only [checkOverlong, initial, Nat.lt_irrefl, false_and, if_false]
  split_ifs <;> rfl

theorem processByte_of_complete {u : Utf8Checker} (h : u.Complete) (byte : UInt8) :
    u.processByte byte = initial.processByte byte := by
  obtain ⟨s, k, state⟩ := u
  obtain ⟨rfl, rfl⟩ := h
  have hlead := leadingByte_congr byte (checkOverlong_state_of_complete byte s)
  simp only [processByte, checkOverlong_rest, initial, Nat.lt_irrefl, if_false] at hlead ⊢
  rw [hlead]

theorem Finishes.of_complete {u : Utf8Checker} {s : Str} (hu : u.Complete) (h : Finishes initial s) :
    Finishes u s := by
  generalize hi : initial = i at h
  cases h with
  | last h hc =>
    subst hi
    rw [← processByte_of_complete hu] at h hc
    exact .last h hc
  | more h hp hs =>
    subst hi
    rw [← processByte_of_complete hu] at h hp hs
    exact .more h hp hs

def Scalar (v : ℕ) : Prop := v < 0xD800 ∨ 0xDFFF < v ∧ v < 0x110000

theorem validateCurrentSymbol_of_scalar {u : Utf8Checker} (h : Scalar u.currentSymbol.toNat) :
    u.validateCurrentSymbol = u := by
  rw [validateCurrentSymbol, if_neg]
  simp only [UInt32.le_iff_toNat_le, UInt32.reduceToNat]
  rcases h with h | h <;> omega

def tailByte (v k : ℕ) : UInt8 := UInt8.ofNat (v / 64 ^ k % 64 + 128)

def tailBytes (v : ℕ) : ℕ → Str
  | 0 => []
  | k + 1 => tailByte v k :: tailBytes v k

theorem tailByte_bits (v k : ℕ) :
    tailByte v k &&& 0xC0 = 0x80 ∧ (tailByte v k &&& 0x3F).toNat = v / 64 ^ k % 64 := by
  have hall : ∀ r : Fin 64, UInt8.ofNat (r + 128) &&& 0xC0 = 0x80 ∧ (UInt8.ofNat (r + 128) &&& 0x3F).toNat = r := by
    decide
  exact hall ⟨v / 64 ^ k % 64, Nat.mod_lt _ (by decide)⟩

theorem checkOverlong_of_not_overlong {u : Utf8Checker} {byte : UInt8} (h : u.Pending)
    (hb : byte &&& 0xC0 = 0x80)
    (hm : u.state = .mayBeOverlong → byte &&& overlongMask u.currentSymbolRestBytes ≠ 0x80) :
    u.checkOverlong byte = { u with state := .valid } := by
  obtain ⟨-, hnot, -⟩ := continuation_bits byte hb
  simp only [List.mem_cons, List.not_mem_nil, or_false, not_or] at hnot
  obtain ⟨s, k, state⟩ := u
  obtain ⟨⟨h₁, h₅⟩, -, ⟨rfl, -⟩ | ⟨rfl, h₂⟩⟩ := h
  · simp [checkOverlong, hnot]
  · have hk : k ∈ [2, 3, 4, 5] := by
      simp only [List.mem_cons, List.not_mem_nil, or_false]
      simp only at h₁ h₂ h₅
      omega
    rw [checkOverlong_eq byte s hk, if_neg (hm rfl)]

theorem processByte_tailByte {u : Utf8Checker} {v k : ℕ} (h : u.Pending) (hv : Scalar v)
    (hk : u.currentSymbolRestBytes = k + 1) (hs : u.currentSymbol.toNat = v / 64 ^ (k + 1))
    (hm : u.state = .mayBeOverlong → tailByte v k &&& overlongMask (k + 1) ≠ 0x80) :
    ∃ s : UInt32, u.processByte (tailByte v k) = (true, ⟨s, k, .valid⟩) ∧ s.toNat = v / 64 ^ k := by
  obtain ⟨hb, hx⟩ := tailByte_bits v k
  rw [← hk] at hm
  have hsum := shifted_toNat h.1.1 h.2.1 (by rw [hx]; exact Nat.mod_lt _ (by decide))
  have hval : u.currentSymbol.toNat * 64 + (tailByte v k &&& 0x3F).toNat = v / 64 ^ k := by
    rw [hs, hx, pow_succ, ← Nat.div_div_eq_div_mul]
    omega
  refine ⟨_, ?_, hsum.trans hval⟩
  have hrest : 0 < (u.checkOverlong (tailByte v k)).currentSymbolRestBytes := by
    rw [checkOverlong_rest]
    exact h.1.1
  simp only [processByte, if_pos hrest]
  rw [checkOverlong_of_not_overlong h hb hm, continuationByte, if_pos hb]
  simp only [hk, Nat.add_sub_cancel]
  by_cases hlast : k = 0
  · subst hlast
    rw [Nat.pow_zero, Nat.div_one, ← hsum] at hval
    rw [← hval] at hv
    rw [if_pos rfl, validateCurrentSymbol_of_scalar hv]
    rfl
  · rw [if_neg hlast]
    rfl

theorem finishes_tailBytes {u : Utf8Checker} {v k : ℕ} (h : u.Pending) (hv : Scalar v)
    (hk : u.currentSymbolRestBytes = k + 1) (hs : u.currentSymbol.toNat = v / 64 ^ (k + 1))
    (hm : u.state = .mayBeOverlong → tailByte v k &&& overlongMask (k + 1) ≠ 0x80) :
    Finishes u (tailBytes v (k + 1)) := by
  induction k generalizing u with
  | zero =>
    obtain ⟨s, hp, -⟩ := processByte_tailByte h hv hk hs hm
    exact .last (by rw [hp]) (by rw [hp]; exact ⟨rfl, rfl⟩)
  | succ k ih =>
    obtain ⟨s, hp, hval⟩ := processByte_tailByte h hv hk hs hm
    have hok : (u.processByte (tailByte v (k + 1))).1 = true := by rw [hp]
    have hpend : (u.processByte (tailByte v (k + 1))).2.Pending := by
      rcases processByte_pending h hok with ⟨⟨hz, -⟩, -⟩ | hpend
      · rw [hp] at hz
        exact absurd hz (Nat.succ_ne_zero k)
      · exact hpend
    refine .more hok hpend ?_
    apply ih hpend <;> rw [hp]
    · exact hval
    · exact fun hn => Utf8State.noConfusion hn

theorem finishes_leading {byte : UInt8} {v k : ℕ} {s : UInt32} {state : Utf8State} (hv : Scalar v)
    (hp : initial.processByte byte = (true, ⟨s, k + 1, state⟩)) (hs : s.toNat = v / 64 ^ (k + 1))
    (hm : state = .mayBeOverlong → tailByte v k &&& overlongMask (k + 1) ≠ 0x80) :
    Finishes initial (byte :: tailBytes v (k + 1)) := by
  have hok : (initial.processByte byte).1 = true := by rw [hp]
  have hpend : (initial.processByte byte).2.Pending := by
    rcases processByte_initial byte hok with ⟨⟨hz, -⟩, -⟩ | hpend
    · rw [hp] at hz
      exact absurd hz (Nat.succ_ne_zero k)
    · exact hpend
  refine .more hok hpend ?_
  apply finishes_tailBytes hpend hv <;> rw [hp]
  · exact hs
  · exact hm

theorem processByte_ascii (byte : UInt8) : byte < 0x80 →
    (initial.processByte byte).1 = true ∧ (initial.processByte byte).2.Complete := by
  revert byte
  apply forall_byte
  decide +kernel

theorem processByte_leading_two (r : Fin 32) : 2 ≤ r →
    initial.processByte (UInt8.ofNat (r + 192)) = (true, ⟨UInt32.ofNat r, 1, .valid⟩) := by
  revert r
  decide

theorem processByte_leading_three (r : Fin 16) :
    initial.processByte (UInt8.ofNat (r + 224)) =
      (true, ⟨UInt32.ofNat r, 2, if r = 0 then .mayBeOverlong else .valid⟩) := by
  revert r
  decide

theorem processByte_leading_four (r : Fin 8) :
    initial.processByte (UInt8.ofNat (r + 240)) =
      (true, ⟨UInt32.ofNat r, 3, if r = 0 then .mayBeOverlong else .valid⟩) := by
  revert r
  decide

theorem tailByte_not_overlong {v k : ℕ} (hk : k = 1 ∧ 32 ≤ v / 64 ^ k % 64 ∨ k = 2 ∧ 16 ≤ v / 64 ^ k % 64) :
    tailByte v k &&& overlongMask (k + 1) ≠ 0x80 := by
  have hall : ∀ r : Fin 64, (32 ≤ r → UInt8.ofNat (r + 128) &&& 0xE0 ≠ 0x80) ∧
      (16 ≤ r → UInt8.ofNat (r + 128) &&& 0xF0 ≠ 0x80) := by
    decide
  have hr := hall ⟨v / 64 ^ k % 64, Nat.mod_lt _ (by decide)⟩
  rcases hk with ⟨rfl, h⟩ | ⟨rfl, h⟩
  · exact hr.1 h
  · exact hr.2 h

theorem scalar_char (c : Char) : Scalar c.val.toNat := by
  rcases c.valid with h | h
  · exact .inl h
  · exact .inr h

theorem finishes_utf8EncodeChar (c : Char) : Finishes initial (String.utf8EncodeChar c) := by
  have hv := scalar_char c
  rw [String.utf8EncodeChar.eq_1]
  generalize c.val.toNat = v at hv
  have hmax : v < 0x110000 := by rcases hv with hv | hv <;> omega
  split_ifs with h₁ h₂ h₃
  · obtain ⟨hok, hc⟩ := processByte_ascii (UInt8.ofNat v) (by
      rw [UInt8.lt_iff_toNat_lt, UInt8.toNat_ofNat']
      show v % 256 < 128
      omega)
    exact .last hok hc
  · have htail : [UInt8.ofNat (v % 64 + 128)] = tailBytes v 1 := by simp [tailBytes, tailByte]
    rw [htail]
    refine finishes_leading hv (processByte_leading_two ⟨v / 64 % 32, Nat.mod_lt _ (by decide)⟩ ?_) ?_ ?_
    · rw [Fin.le_def]
      show 2 ≤ v / 64 % 32
      omega
    · rw [UInt32.toNat_ofNat']
      show v / 64 % 32 % 2 ^ 32 = v / 64
      omega
    · exact fun h => Utf8State.noConfusion h
  · have htail : [UInt8.ofNat (v / 64 % 64 + 128), UInt8.ofNat (v % 64 + 128)] = tailBytes v 2 := by
      simp [tailBytes, tailByte]
    rw [htail]
    refine finishes_leading hv (processByte_leading_three ⟨v / 4096 % 16, Nat.mod_lt _ (by decide)⟩) ?_ ?_
    · rw [UInt32.toNat_ofNat']
      show v / 4096 % 16 % 2 ^ 32 = v / 4096
      omega
    · intro h
      have hz : v / 4096 % 16 = 0 := by
        by_contra hne
        rw [if_neg (fun he => hne (congrArg Fin.val he))] at h
        exact Utf8State.noConfusion h
      apply tailByte_not_overlong
      rw [Nat.pow_one]
      omega
  · have htail : [UInt8.ofNat (v / 4096 % 64 + 128), UInt8.ofNat (v / 64 % 64 + 128), UInt8.ofNat (v % 64 + 128)] =
        tailBytes v 3 := by
      simp [tailBytes, tailByte]
    rw [htail]
    refine finishes_leading hv (processByte_leading_four ⟨v / 262144 % 8, Nat.mod_lt _ (by decide)⟩) ?_ ?_
    · rw [UInt32.toNat_ofNat']
      show v / 262144 % 8 % 2 ^ 32 = v / 262144
      omega
    · intro h
      have hz : v / 262144 % 8 = 0 := by
        by_contra hne
        rw [if_neg (fun he => hne (congrArg Fin.val he))] at h
        exact Utf8State.noConfusion h
      apply tailByte_not_overlong
      right
      refine ⟨rfl, ?_⟩
      show 16 ≤ v / 4096 % 64
      omega

theorem feed_utf8 {s : Str} (h : Utf8 s) {u : Utf8Checker} (hu : u.Complete) : ∃ u', feed s u = some u' ∧ u'.Complete := by
  obtain ⟨chars, rfl⟩ := h
  induction chars generalizing u with
  | nil => exact ⟨u, rfl, hu⟩
  | cons c chars ih =>
    obtain ⟨u₁, h₁, hu₁⟩ := ((finishes_utf8EncodeChar c).of_complete hu).feed
    obtain ⟨u₂, h₂, hu₂⟩ := ih hu₁
    exact ⟨u₂, by rw [List.flatMap_cons, feed_append, h₁, Option.bind_some, h₂], hu₂⟩

theorem initial_complete : initial.Complete := ⟨rfl, rfl⟩

section Soundness

theorem feed_complete_or_pending {s : Str} {u u' : Utf8Checker} (h : feed s u = some u') (hu : u.Complete ∨ u.Pending) :
    u'.Complete ∨ u'.Pending := by
  induction s generalizing u with
  | nil => exact Option.some.inj h ▸ hu
  | cons byte s ih =>
    obtain ⟨hok, h⟩ := feed_cons_eq_some.mp h
    refine ih h ?_
    rcases hu with hu | hu
    · rw [processByte_of_complete hu] at hok ⊢
      exact (processByte_initial byte hok).imp_left And.left
    · exact (processByte_pending hu hok).imp_left And.left

theorem Pending.not_finalized {u : Utf8Checker} (h : u.Pending) : u.finalized = false :=
  decide_eq_false (Nat.pos_iff_ne_zero.mp h.1.1)

theorem Pending.exists_cons_of_feed {s : Str} {u u' : Utf8Checker} (h : u.Pending) (hf : feed s u = some u')
    (hu : u'.finalized = true) :
    ∃ byte rest, s = byte :: rest ∧ (u.processByte byte).1 = true ∧ feed rest (u.processByte byte).2 = some u' := by
  cases s with
  | nil =>
    obtain rfl := Option.some.inj hf
    exact absurd (h.not_finalized.symm.trans hu) (by decide)
  | cons byte rest => exact ⟨byte, rest, rfl, feed_cons_eq_some.mp hf⟩

theorem tailByte_of_bits {byte : UInt8} {v k : ℕ} (hb : byte &&& 0xC0 = 0x80)
    (hv : v / 64 ^ k % 64 = (byte &&& 0x3F).toNat) : tailByte v k = byte := by
  have hall : ∀ byte : UInt8, byte &&& 0xC0 = 0x80 → UInt8.ofNat ((byte &&& 0x3F).toNat + 128) = byte := by
    apply forall_byte
    decide +kernel
  rw [tailByte, hv, hall byte hb]

theorem processByte_continued {u : Utf8Checker} {byte : UInt8} {k : ℕ} (h : u.Pending)
    (hk : u.currentSymbolRestBytes = k + 1) (hok : (u.processByte byte).1 = true) :
    byte &&& 0xC0 = 0x80 ∧ (u.state = .mayBeOverlong → byte &&& overlongMask (k + 1) ≠ 0x80) ∧
      (u.processByte byte).2.currentSymbolRestBytes = k ∧
      (u.processByte byte).2.currentSymbol.toNat = u.currentSymbol.toNat * 64 + (byte &&& 0x3F).toNat ∧
      (u.processByte byte).2.state = .valid ∧ (k = 0 → Scalar (u.processByte byte).2.currentSymbol.toNat) := by
  have hrest : 0 < (u.checkOverlong byte).currentSymbolRestBytes := by
    rw [checkOverlong_rest]
    exact h.1.1
  have hp : (u.processByte byte).2 = (u.checkOverlong byte).continuationByte byte := by
    simp only [processByte, if_pos hrest]
  have hstate : ((u.checkOverlong byte).continuationByte byte).state = .valid ∨
      ((u.checkOverlong byte).continuationByte byte).state = .mayBeOverlong := by
    simpa [processByte, if_pos hrest] using hok
  rw [hp]
  by_cases hb : byte &&& 0xC0 = 0x80
  · have hsum := shifted_toNat h.1.1 h.2.1 (continuation_bits byte hb).1
    by_cases hm : u.state = .mayBeOverlong → byte &&& overlongMask u.currentSymbolRestBytes ≠ 0x80
    · refine ⟨hb, hk ▸ hm, ?_⟩
      rw [checkOverlong_of_not_overlong h hb hm, continuationByte, if_pos hb] at hstate ⊢
      simp only [hk, Nat.add_sub_cancel] at hstate ⊢
      by_cases hlast : k = 0
      · subst hlast
        rw [if_pos rfl] at hstate ⊢
        by_cases hv : Scalar (u.currentSymbol <<< 6 ||| (byte &&& 0x3F).toUInt32).toNat
        · rw [validateCurrentSymbol_of_scalar hv]
          exact ⟨rfl, hsum, rfl, fun _ => hv⟩
        · -- the symbol is no character, which the checker finds with its last byte
          rw [validateCurrentSymbol, if_pos] at hstate
          · simp at hstate
          · simp only [UInt32.le_iff_toNat_le, UInt32.reduceToNat]
            simp only [Scalar] at hv
            omega
      · rw [if_neg hlast]
        exact ⟨rfl, hsum, rfl, fun hz => absurd hz hlast⟩
    · obtain ⟨hmay, hover⟩ := Classical.not_imp.mp hm
      obtain ⟨s, n, state⟩ := u
      obtain rfl : state = .mayBeOverlong := hmay
      have hn : n ∈ [2, 3, 4, 5] := by
        obtain ⟨⟨-, h₅⟩, -, ⟨hv, -⟩ | ⟨-, h₂⟩⟩ := h
        · cases hv
        · simp only [List.mem_cons, List.not_mem_nil, or_false]
          simp only at h₂ h₅
          omega
      rw [checkOverlong_eq byte s hn, if_pos (not_not.mp hover), continuationByte, if_pos hb] at hstate
      simp only [validateCurrentSymbol] at hstate
      split_ifs at hstate <;> simp at hstate
  · simp [continuationByte, hb] at hstate

theorem feed_pending {s : Str} {u u' : Utf8Checker} {k : ℕ} (h : u.Pending) (hk : u.currentSymbolRestBytes = k + 1)
    (hf : feed s u = some u') (hu : u'.finalized = true) :
    ∃ v rest u₁, s = tailBytes v (k + 1) ++ rest ∧ Scalar v ∧ v / 64 ^ (k + 1) = u.currentSymbol.toNat ∧
      (u.state = .mayBeOverlong → tailByte v k &&& overlongMask (k + 1) ≠ 0x80) ∧ Complete u₁ ∧
      feed rest u₁ = some u' := by
  induction k generalizing s u with
  | zero =>
    obtain ⟨byte, s, rfl, hok, hf⟩ := h.exists_cons_of_feed hf hu
    obtain ⟨hb, hm, hrest, hsum, hstate, hscalar⟩ := processByte_continued h hk hok
    have hx := (continuation_bits byte hb).1
    have htail : tailByte (u.processByte byte).2.currentSymbol.toNat 0 = byte := by
      apply tailByte_of_bits hb
      rw [hsum]
      omega
    refine ⟨_, s, _, ?_, hscalar rfl, ?_, ?_, ⟨hrest, hstate⟩, hf⟩
    · rw [tailBytes, tailBytes, htail, List.singleton_append]
    · rw [hsum]
      omega
    · rw [htail]
      exact hm
  | succ k ih =>
    obtain ⟨byte, s, rfl, hok, hf⟩ := h.exists_cons_of_feed hf hu
    obtain ⟨hb, hm, hrest, hsum, hstate, -⟩ := processByte_continued h hk hok
    have hx := (continuation_bits byte hb).1
    have hpend : (u.processByte byte).2.Pending := by
      rcases processByte_pending h hok with hc | hpend
      · exact absurd (hc.1.1.symm.trans hrest) (by omega)
      · exact hpend
    obtain ⟨v, rest, u₁, rfl, hv, hval, -, hc, hfeed⟩ := ih hpend hrest hf
    rw [hsum] at hval
    have htail : tailByte v (k + 1) = byte := by
      apply tailByte_of_bits hb
      rw [hval]
      omega
    refine ⟨v, rest, u₁, ?_, hv, ?_, ?_, hc, hfeed⟩
    · show byte :: (tailBytes v (k + 1) ++ rest) = tailByte v (k + 1) :: (tailBytes v (k + 1) ++ rest)
      rw [htail]
    · rw [pow_succ, ← Nat.div_div_eq_div_mul, hval]
      omega
    · rw [htail]
      exact hm

def leadingMark : ℕ → ℕ
  | 1 => 192
  | 2 => 224
  | 3 => 240
  | 4 => 248
  | _ => 252

theorem processByte_leading (byte : UInt8) : (initial.processByte byte).1 = true →
    (initial.processByte byte).2.currentSymbolRestBytes = 0 ∧ byte.toNat < 128 ∨
      (initial.processByte byte).2.currentSymbolRestBytes ≠ 0 ∧
        byte = UInt8.ofNat ((initial.processByte byte).2.currentSymbol.toNat +
          leadingMark (initial.processByte byte).2.currentSymbolRestBytes) ∧
        (initial.processByte byte).2.currentSymbol.toNat <
          2 ^ (6 - (initial.processByte byte).2.currentSymbolRestBytes) ∧
        ((initial.processByte byte).2.currentSymbol.toNat = 0 →
          (initial.processByte byte).2.state = .mayBeOverlong) := by
  revert byte
  apply forall_byte
  decide +kernel

theorem exists_char {v : ℕ} (h : Scalar v) : ∃ c : Char, c.val.toNat = v := by
  have hlt : v < 2 ^ 32 := by
    rcases h with h | h <;> omega
  refine ⟨⟨UInt32.ofNat v, ?_⟩, ?_⟩
  · rw [UInt32.isValidChar, UInt32.toNat_ofNat_of_lt' hlt]
    exact h
  · exact UInt32.toNat_ofNat_of_lt' hlt

theorem le_of_not_overlong {v k : ℕ} (hk : k ∈ [1, 2, 3, 4]) (h : tailByte v k &&& overlongMask (k + 1) ≠ 0x80) :
    2 ^ (6 - k) ≤ v / 64 ^ k % 64 := by
  have hall : ∀ k ∈ [1, 2, 3, 4], ∀ r : Fin 64, UInt8.ofNat (r + 128) &&& overlongMask (k + 1) ≠ 0x80 →
      2 ^ (6 - k) ≤ r.val := by
    decide +kernel
  exact hall k hk ⟨v / 64 ^ k % 64, Nat.mod_lt _ (by decide)⟩ h

theorem utf8EncodeChar_of_leading {byte : UInt8} {v k : ℕ} (hok : (initial.processByte byte).1 = true)
    (hp : (initial.processByte byte).2.Pending) (hk : (initial.processByte byte).2.currentSymbolRestBytes = k + 1)
    (hv : Scalar v) (hval : v / 64 ^ (k + 1) = (initial.processByte byte).2.currentSymbol.toNat)
    (hm : (initial.processByte byte).2.state = .mayBeOverlong → tailByte v k &&& overlongMask (k + 1) ≠ 0x80) :
    ∃ c, byte :: tailBytes v (k + 1) = String.utf8EncodeChar c := by
  obtain ⟨c, rfl⟩ := exists_char hv
  refine ⟨c, ?_⟩
  obtain ⟨⟨-, h₅⟩, -, hor⟩ := hp
  rcases processByte_leading byte hok with ⟨hz, -⟩ | ⟨-, hbyte, hlt, hover⟩
  · omega
  rw [hk] at hbyte hlt hor h₅
  rw [← hval] at hbyte hlt hover hor
  rw [hbyte, String.utf8EncodeChar.eq_1]
  have hmax : c.val.toNat < 0x110000 := by rcases hv with hv | hv <;> omega
  have hlow : k ∈ [1, 2, 3, 4] → c.val.toNat / 64 ^ (k + 1) = 0 → 2 ^ (6 - k) ≤ c.val.toNat / 64 ^ k % 64 :=
    fun hmem hzero => le_of_not_overlong hmem (hm (hover hzero))
  generalize c.val.toNat = v at *
  obtain rfl | rfl | rfl | rfl | rfl : k = 0 ∨ k = 1 ∨ k = 2 ∨ k = 3 ∨ k = 4 := by omega
  · have htwo : 2 ≤ v / 64 := by
      rcases hor with ⟨-, -, htwo⟩ | ⟨-, htwo⟩
      · exact htwo rfl
      · omega
    have hlead : v / 64 % 32 = v / 64 := Nat.mod_eq_of_lt hlt
    rw [if_neg (by omega), if_pos (by omega), hlead]
    simp [tailBytes, tailByte, leadingMark]
  · have hlow : v / 4096 = 0 → 32 ≤ v / 64 % 64 := hlow (by decide)
    have hlead : v / 4096 % 16 = v / 4096 := Nat.mod_eq_of_lt hlt
    rw [if_neg (by omega), if_neg (by omega), if_pos (by omega), hlead]
    simp [tailBytes, tailByte, leadingMark]
  · have hlow : v / 262144 = 0 → 16 ≤ v / 4096 % 64 := hlow (by decide)
    have hlead : v / 262144 % 8 = v / 262144 := Nat.mod_eq_of_lt hlt
    rw [if_neg (by omega), if_neg (by omega), if_neg (by omega), hlead]
    simp [tailBytes, tailByte, leadingMark]
  · have hlow : v / 16777216 = 0 → 8 ≤ v / 262144 % 64 := hlow (by decide)
    omega
  · have hlow : v / 1073741824 = 0 → 4 ≤ v / 16777216 % 64 := hlow (by decide)
    omega

theorem exists_first_char {byte : UInt8} {s : Str} {u' : Utf8Checker} (hok : (initial.processByte byte).1 = true)
    (h : feed s (initial.processByte byte).2 = some u') (hf : u'.finalized = true) :
    ∃ c rest u₁, byte :: s = String.utf8EncodeChar c ++ rest ∧ Complete u₁ ∧ feed rest u₁ = some u' := by
  rcases processByte_initial byte hok with ⟨hc, -⟩ | hp
  · have hlt : byte.toNat < 128 := by
      rcases processByte_leading byte hok with ⟨-, hlt⟩ | ⟨hz, -⟩
      · exact hlt
      · exact absurd hc.1 hz
    obtain ⟨c, hc'⟩ := exists_char (.inl (by omega) : Scalar byte.toNat)
    refine ⟨c, s, _, ?_, hc, h⟩
    rw [String.utf8EncodeChar.eq_1, hc', if_pos (by omega)]
    simp
  · obtain ⟨k, hk⟩ : ∃ k, (initial.processByte byte).2.currentSymbolRestBytes = k + 1 :=
      ⟨_, (Nat.sub_add_cancel hp.1.1).symm⟩
    obtain ⟨v, rest, u₁, rfl, hv, hval, hm, hc, hfeed⟩ := feed_pending hp hk h hf
    obtain ⟨c, hc'⟩ := utf8EncodeChar_of_leading hok hp hk hv hval hm
    exact ⟨c, rest, u₁, by rw [← hc', List.cons_append], hc, hfeed⟩

theorem utf8_of_feed {s : Str} {u u' : Utf8Checker} (hu : u.Complete) (h : feed s u = some u')
    (hf : u'.finalized = true) : Utf8 s := by
  induction hn : s.length using Nat.strongRecOn generalizing s u with
  | ind n ih =>
  cases s with
  | nil => exact utf8_nil
  | cons byte s =>
    subst hn
    rw [feed_cons_eq_some, processByte_of_complete hu] at h
    obtain ⟨c, rest, u₁, hs, hc, hfeed⟩ := exists_first_char h.1 h.2 hf
    have hlength : rest.length < (byte :: s).length := by
      have hpos := String.length_utf8EncodeChar c
      have hsize := c.utf8Size_pos
      rw [hs, List.length_append]
      omega
    rw [hs]
    exact .append ⟨[c], by rw [List.flatMap_singleton]⟩ (ih _ hlength hc hfeed rfl)

end Soundness

def Begun (t : Str) : Prop := (feed t initial).isSome = true

theorem Begun.of_append {a b : Str} (h : Begun (a ++ b)) : Begun a := by
  rw [Begun, feed_append] at h
  cases hf : feed a initial with
  | none => simp [hf] at h
  | some u => exact congrArg Option.isSome hf

theorem begun_of_utf8 {a b : Str} (h : Utf8 (a ++ b)) : Begun a := by
  obtain ⟨u, hf, -⟩ := feed_utf8 h initial_complete
  exact .of_append (congrArg Option.isSome hf)

def Tracks (t : Str) (u : Utf8Checker) : Prop :=
  ∃ u', feed t initial = some u' ∧ (u = u' ∨ u.Complete ∧ u'.Complete)

theorem tracks_nil {u : Utf8Checker} : Tracks [] u ↔ u.Complete := by
  constructor
  · rintro ⟨u', hu, rfl | h⟩
    · obtain rfl := Option.some.inj hu
      exact initial_complete
    · exact h.1
  · exact fun h => ⟨initial, rfl, .inr ⟨h, initial_complete⟩⟩

theorem Tracks.begun {t : Str} {u : Utf8Checker} (h : Tracks t u) : Begun t := by
  obtain ⟨u', hf, -⟩ := h
  exact congrArg Option.isSome hf

theorem Tracks.reset {t : Str} {u : Utf8Checker} (h : Tracks t u) (hu : u.Complete) : Tracks t u.reset := by
  obtain ⟨u', hf, he⟩ := h
  refine ⟨u', hf, .inr ⟨⟨rfl, hu.2⟩, ?_⟩⟩
  rcases he with rfl | he
  · exact hu
  · exact he.2

theorem Tracks.processByte_iff {t : Str} {u : Utf8Checker} (h : Tracks t u) (byte : UInt8) :
    (u.processByte byte).1 = true ↔ Begun (t ++ [byte]) := by
  obtain ⟨u', hf, he⟩ := h
  have hsame : u.processByte byte = u'.processByte byte := by
    rcases he with rfl | ⟨hu, hu'⟩
    · rfl
    · rw [processByte_of_complete hu, processByte_of_complete hu']
  rw [Begun, feed_append, hf, Option.bind_some, feed, hsame]
  split
  next hok => exact iff_of_true hok rfl
  next hok => exact iff_of_false hok (by simp)

theorem Tracks.processByte {t : Str} {u : Utf8Checker} (h : Tracks t u) {byte : UInt8}
    (hok : (u.processByte byte).1 = true) : Tracks (t ++ [byte]) (u.processByte byte).2 := by
  obtain ⟨u', hf, he⟩ := h
  have hsame : u.processByte byte = u'.processByte byte := by
    rcases he with rfl | ⟨hu, hu'⟩
    · rfl
    · rw [processByte_of_complete hu, processByte_of_complete hu']
  rw [hsame] at hok ⊢
  refine ⟨_, ?_, .inl rfl⟩
  rw [feed_append, hf, Option.bind_some, feed, if_pos hok, feed]

theorem Tracks.complete {t : Str} {u : Utf8Checker} (h : Tracks t u) (hu : u.finalized = true) : u.Complete := by
  obtain ⟨u', hf, rfl | he⟩ := h
  · rcases feed_complete_or_pending hf (.inl initial_complete) with hc | hp
    · exact hc
    · exact absurd (hp.not_finalized.symm.trans hu) (by decide)
  · exact he.1

theorem Tracks.finalized_iff {t : Str} {u : Utf8Checker} (h : Tracks t u) : u.finalized = true ↔ Utf8 t := by
  have hcomplete := h.complete
  obtain ⟨u', hf, he⟩ := h
  constructor
  · intro hu
    refine utf8_of_feed initial_complete hf (decide_eq_true ?_)
    rcases he with rfl | he
    · exact (hcomplete hu).1
    · exact he.2.1
  · intro ht
    obtain ⟨u'', hf'', hc⟩ := feed_utf8 ht initial_complete
    obtain rfl := Option.some.inj (hf.symm.trans hf'')
    rcases he with rfl | he
    · exact decide_eq_true hc.1
    · exact decide_eq_true he.1.1

end Utf8Checker

end NgkNet.Restinio
