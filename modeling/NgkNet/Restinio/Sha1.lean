import NgkNet.Base.Ascii
import NgkNet.Base.Sha1
import Mathlib.Data.Fin.VecNotation

set_option autoImplicit false

namespace NgkNet.Restinio.Sha1Builder

open Ascii

section Transform

abbrev IntBlock := Fin 16 → UInt32

abbrev Registers := Fin 5 → UInt32

abbrev Digest := Fin 5 → UInt32

def rotateLeft (shift x : UInt32) : UInt32 := (x <<< shift) ||| (x >>> (32 - shift))

def blk (block : IntBlock) (i : Fin 16) : UInt32 :=
  rotateLeft 1 (block (i + 13) ^^^ block (i + 8) ^^^ block (i + 2) ^^^ block i)

/-- The rounds differ in how three registers are mixed and in a constant; all but the first kind make a new word. -/
structure Round where
  mix : UInt32 → UInt32 → UInt32 → UInt32
  constant : UInt32
  makesWord : Bool

def R0 : Round := ⟨fun w x y => (w &&& (x ^^^ y)) ^^^ y, 0x5a827999, false⟩

def R1 : Round := ⟨fun w x y => (w &&& (x ^^^ y)) ^^^ y, 0x5a827999, true⟩

def R2 : Round := ⟨fun w x y => w ^^^ x ^^^ y, 0x6ed9eba1, true⟩

def R3 : Round := ⟨fun w x y => ((w ||| x) &&& y) ||| (w &&& x), 0x8f1bbcdc, true⟩

def R4 : Round := ⟨fun w x y => w ^^^ x ^^^ y, 0xca62c1d6, true⟩

def Round.run (R : Round) (s : IntBlock × Registers) (v w x y z : Fin 5) (i : Fin 16) : IntBlock × Registers :=
  let block := if R.makesWord then Function.update s.1 i (blk s.1 i) else s.1
  let r := Function.update s.2 z (s.2 z + (R.mix (s.2 w) (s.2 x) (s.2 y) + block i + R.constant + rotateLeft 5 (s.2 v)))
  (block, Function.update r w (rotateLeft 30 (r w)))

def roundOf (t : ℕ) : Round :=
  -- The lines of `transform`: there are 16 of the first kind, four of the second and 20 of each of the others.
  if t < 16 then R0 else if t < 20 then R1 else if t < 40 then R2 else if t < 60 then R3 else R4

def register (t k : ℕ) : Fin 5 := ⟨(k + 4 * t) % 5, Nat.mod_lt _ (by decide)⟩

def line (s : IntBlock × Registers) (t : ℕ) : IntBlock × Registers :=
  (roundOf t).run s (register t 0) (register t 1) (register t 2) (register t 3) (register t 4)
    ⟨t % 16, Nat.mod_lt _ (by decide)⟩

def intBlock (buf : Str) : IntBlock := fun i =>
  (buf.getD (4 * i + 3) 0).toUInt32 ||| (buf.getD (4 * i + 2) 0).toUInt32 <<< 8 |||
    (buf.getD (4 * i + 1) 0).toUInt32 <<< 16 ||| (buf.getD (4 * i) 0).toUInt32 <<< 24

def transform (digest : Digest) (buf : Str) : Digest :=
  let s := (List.range 80).foldl line (intBlock buf, digest)
  fun k => digest k + s.2 k

end Transform

section Simulation

def state (digest : Digest) : Sha1.State := ⟨digest 0, digest 1, digest 2, digest 3, digest 4⟩

def named (t : ℕ) (r : Registers) : Sha1.State :=
  ⟨r (register t 0), r (register t 1), r (register t 2), r (register t 3), r (register t 4)⟩

theorem register_ne (t : ℕ) {j k : ℕ} (hj : j < 5) (hk : k < 5) (h : j ≠ k) : register t j ≠ register t k := by
  intro heq
  have := congrArg Fin.val heq
  simp only [register] at this
  omega

theorem register_succ (t k : ℕ) : register (t + 1) (k + 1) = register t k := by
  apply Fin.ext
  simp only [register]
  omega

theorem register_zero (t : ℕ) : register (t + 1) 0 = register t 4 := by
  apply Fin.ext
  simp only [register]
  omega

theorem intBlock_eq (buf : Str) (i : Fin 16) : intBlock buf i = Sha1.word buf i := by
  have hor : ∀ p q r s : UInt32, p ||| q ||| r ||| s = s ||| r ||| q ||| p := by
    intro p q r s
    ac_rfl
  exact hor _ _ _ _

def Window (buf : Str) (t : ℕ) (block : IntBlock) : Prop :=
  ∀ j, max t 16 ≤ j + 16 → j < max t 16 → block ⟨j % 16, Nat.mod_lt _ (by decide)⟩ = Sha1.w buf j

theorem window_intBlock (buf : Str) : Window buf 0 (intBlock buf) := by
  intro j _ hj
  have hj : j < 16 := hj
  rw [intBlock_eq, Sha1.w_of_lt buf hj]
  dsimp only
  rw [Nat.mod_eq_of_lt hj]

theorem blk_eq {buf : Str} {t : ℕ} {block : IntBlock} (h : Window buf t block) (ht : 16 ≤ t) :
    blk block ⟨t % 16, Nat.mod_lt _ (by decide)⟩ = Sha1.w buf t := by
  have hword : ∀ d, 0 < d → d ≤ 16 → ∀ i : Fin 16, i.1 = (t - d) % 16 → block i = Sha1.w buf (t - d) := by
    intro d hd hd' i hi
    rw [← h (t - d) (by omega) (by omega)]
    exact congrArg block (Fin.ext hi)
  rw [blk, Sha1.w_of_le buf ht, hword 3 (by decide) (by decide), hword 8 (by decide) (by decide),
    hword 14 (by decide) (by decide), hword 16 (by decide) (by decide)]
  · rfl
  all_goals
    simp only [Fin.val_add]
    omega

theorem roundOf_eq (t : ℕ) : (roundOf t).mix = Sha1.f t ∧ (roundOf t).constant = Sha1.k t ∧
    ((roundOf t).makesWord = true ↔ 16 ≤ t) := by
  have hch : Sha1.ch = R0.mix := by
    funext x y z
    exact Sha1.ch_eq x y z
  have hmaj : Sha1.maj = R3.mix := by
    funext x y z
    exact Sha1.maj_eq x y z
  rw [roundOf, Sha1.f, Sha1.k, hch, hmaj]
  by_cases h₁ : t < 16
  · rw [if_pos h₁, if_pos (by omega), if_pos (by omega)]
    exact ⟨rfl, rfl, iff_of_false Bool.false_ne_true (by omega)⟩
  have hword : ∀ R : Round, R.makesWord = true → (R.makesWord = true ↔ 16 ≤ t) := fun R hR => iff_of_true hR (by omega)
  rw [if_neg h₁]
  by_cases h₂ : t < 20
  · rw [if_pos h₂, if_pos h₂, if_pos h₂]
    exact ⟨rfl, rfl, hword R1 rfl⟩
  by_cases h₃ : t < 40
  · rw [if_neg h₂, if_neg h₂, if_neg h₂, if_pos h₃, if_pos h₃, if_pos h₃]
    exact ⟨rfl, rfl, hword R2 rfl⟩
  rw [if_neg h₂, if_neg h₂, if_neg h₂, if_neg h₃, if_neg h₃, if_neg h₃]
  by_cases h₄ : t < 60
  · rw [if_pos h₄, if_pos h₄, if_pos h₄]
    exact ⟨rfl, rfl, hword R3 rfl⟩
  · rw [if_neg h₄, if_neg h₄, if_neg h₄]
    exact ⟨rfl, rfl, hword R4 rfl⟩

theorem line_block {buf : Str} {t : ℕ} {s : IntBlock × Registers} (h : Window buf t s.1) :
    (line s t).1 ⟨t % 16, Nat.mod_lt _ (by decide)⟩ = Sha1.w buf t ∧ Window buf (t + 1) (line s t).1 := by
  have hmakes := (roundOf_eq t).2.2
  rw [line, Round.run]
  dsimp only
  by_cases ht : 16 ≤ t
  · rw [if_pos (hmakes.mpr ht), blk_eq h ht]
    refine ⟨Function.update_self .., fun j hj hlt => ?_⟩
    by_cases hjt : j = t
    · rw [hjt]
      exact Function.update_self ..
    · rw [Function.update_of_ne]
      · exact h j (by omega) (by omega)
      · intro heq
        have := congrArg Fin.val heq
        dsimp only at this
        omega
  · rw [if_neg fun hword => ht (hmakes.mp hword)]
    exact ⟨h t (by omega) (by omega), fun j hj hlt => h j (by omega) (by omega)⟩

theorem line_named {buf : Str} {t : ℕ} {s : IntBlock × Registers} (h : Window buf t s.1) :
    named (t + 1) (line s t).2 = Sha1.step buf (named t s.2) t := by
  obtain ⟨hmix, hconstant, -⟩ := roundOf_eq t
  have hword := (line_block h).1
  have hsum : ∀ e f w k r : UInt32, e + (f + w + k + r) = r + f + e + k + w := by
    intro e f w k r
    ac_rfl
  rw [line, Round.run] at hword ⊢
  dsimp only at hword ⊢
  rw [hword, hmix, hconstant, hsum, named, register_zero, register_succ, register_succ, register_succ, register_succ, Sha1.step]
  have hvw := register_ne t (show 0 < 5 by decide) (show 1 < 5 by decide) (by decide)
  have hvz := register_ne t (show 0 < 5 by decide) (show 4 < 5 by decide) (by decide)
  have hwz := register_ne t (show 1 < 5 by decide) (show 4 < 5 by decide) (by decide)
  have hxw := register_ne t (show 2 < 5 by decide) (show 1 < 5 by decide) (by decide)
  have hxz := register_ne t (show 2 < 5 by decide) (show 4 < 5 by decide) (by decide)
  have hyw := register_ne t (show 3 < 5 by decide) (show 1 < 5 by decide) (by decide)
  have hyz := register_ne t (show 3 < 5 by decide) (show 4 < 5 by decide) (by decide)
  rw [Function.update_of_ne hwz.symm, Function.update_self, Function.update_of_ne hvw, Function.update_of_ne hvz,
    Function.update_self, Function.update_of_ne hwz, Function.update_of_ne hxw, Function.update_of_ne hxz,
    Function.update_of_ne hyw, Function.update_of_ne hyz]
  rfl

theorem lines (buf : Str) (digest : Digest) (n : ℕ) :
    Window buf n ((List.range n).foldl line (intBlock buf, digest)).1 ∧
      named n ((List.range n).foldl line (intBlock buf, digest)).2 = Sha1.rounds buf (state digest) n := by
  induction n with
  | zero => exact ⟨window_intBlock buf, rfl⟩
  | succ n ih =>
    rw [List.range_succ, List.foldl_append, Sha1.rounds_succ, ← ih.2]
    exact ⟨(line_block ih.1).2, line_named ih.1⟩

theorem state_transform (digest : Digest) (buf : Str) : state (transform digest buf) = Sha1.compress (state digest) buf := by
  have hrounds := (lines buf digest 80).2
  rw [Sha1.compress, ← hrounds]
  rfl

end Simulation

section Builder

def blockSize : ℕ := 64

structure Builder where
  digest : Digest
  bufferLen : ℕ
  transformsCount : UInt64
  buffer : Str
  length : buffer.length = blockSize
  notFull : bufferLen < blockSize

namespace Builder

def reset : Builder where
  digest := ![0x67452301, 0xEFCDAB89, 0x98BADCFE, 0x10325476, 0xC3D2E1F0]
  bufferLen := 0
  transformsCount := 0
  buffer := List.replicate blockSize 0
  length := List.length_replicate
  notFull := by decide

def copied (b : Builder) (part : Str) : Str := b.buffer.take b.bufferLen ++ part ++ b.buffer.drop (b.bufferLen + part.length)

theorem copied_length (b : Builder) {part : Str} (h : b.bufferLen + part.length ≤ blockSize) :
    (b.copied part).length = blockSize := by
  have hlength := b.length
  simp only [copied, List.length_append, List.length_take, List.length_drop]
  omega

def transformed (b : Builder) (part : Str) (h : b.bufferLen + part.length = blockSize) : Builder where
  digest := transform b.digest (b.copied part)
  bufferLen := 0
  transformsCount := b.transformsCount + 1
  buffer := b.copied part
  length := b.copied_length h.le
  notFull := by decide

theorem part_length (b : Builder) {what : Str} (h : ¬ b.bufferLen + what.length < blockSize) :
    b.bufferLen + (what.take (blockSize - b.bufferLen)).length = blockSize := by
  have := b.notFull
  rw [List.length_take]
  omega

def update (b : Builder) (what : Str) : Builder :=
  if h : b.bufferLen + what.length < blockSize then
    { b with
      bufferLen := b.bufferLen + what.length
      buffer := b.copied what
      length := b.copied_length h.le
      notFull := h }
  else update (b.transformed (what.take (blockSize - b.bufferLen)) (b.part_length h)) (what.drop (blockSize - b.bufferLen))
termination_by what.length
decreasing_by
  have := b.notFull
  rw [List.length_drop]
  omega

def calculateTotalBitsCount (b : Builder) : UInt64 := (b.transformsCount * 64 + UInt64.ofNat b.bufferLen) * 8

def octetFrom (shift : UInt32) (v : UInt32) : UInt8 := (v >>> shift).toUInt8 &&& 0xff

def pushUintToBuffer (bigValue : UInt64) : Str :=
  let v := bigValue.toUInt32
  [octetFrom 24 v, octetFrom 16 v, octetFrom 8 v, octetFrom 0 v]

def finish (b : Builder) : Digest :=
  let totalBits := b.calculateTotalBitsCount
  let filled := b.buffer.take b.bufferLen ++ 0x80 :: List.replicate (blockSize - (b.bufferLen + 1)) 0
  let full := blockSize - 8 < b.bufferLen
  let digest := if full then transform b.digest filled else b.digest
  let buffer := if full then List.replicate blockSize 0 else filled
  transform digest
    (buffer.take (blockSize - 8) ++ (pushUintToBuffer (totalBits >>> 32) ++ pushUintToBuffer (totalBits &&& 0xffffffff)))

end Builder

def makeDigest (what : Str) : Digest := (Builder.reset.update what).finish

def toString (what : Digest) : Str :=
  (List.ofFn what).flatMap fun c : UInt32 =>
    [(c >>> 24).toUInt8 &&& 0xff, (c >>> 16).toUInt8 &&& 0xff, (c >>> 8).toUInt8 &&& 0xff, c.toUInt8 &&& 0xff]

end Builder

section Stream

namespace Builder

structure Represents (b : Builder) (text : Str) : Prop where
  digest : state b.digest = (absorb 64 Sha1.compress Sha1.initial text).1
  rest : b.buffer.take b.bufferLen = (absorb 64 Sha1.compress Sha1.initial text).2
  count : b.transformsCount = UInt64.ofNat (text.length / 64)

theorem represents_reset : Represents reset [] := by
  have hshort : absorb 64 Sha1.compress Sha1.initial [] = (Sha1.initial, []) := absorb_short (by decide)
  refine ⟨?_, ?_, rfl⟩
  · rw [hshort]
    rfl
  · rw [hshort]
    rfl

variable {b : Builder} {text : Str}

theorem Represents.bufferLen (h : b.Represents text) : b.bufferLen = text.length % 64 := by
  have hlength := congrArg List.length h.rest
  have hfull := b.notFull
  rw [absorb_rest_length, List.length_take, b.length, min_eq_left hfull.le] at hlength
  exact hlength

theorem Represents.short (h : b.Represents text) {what : Str} (hwhat : b.bufferLen + what.length < 64) :
    absorb 64 Sha1.compress Sha1.initial (text ++ what) = (state b.digest, b.buffer.take b.bufferLen ++ what) ∧
      (text ++ what).length / 64 = text.length / 64 := by
  have hlen := h.bufferLen
  have hrest : (b.buffer.take b.bufferLen ++ what).length < 64 := by
    rw [List.length_append, List.length_take]
    omega
  refine ⟨?_, ?_⟩
  · rw [absorb_append, ← h.digest, ← h.rest, absorb_short hrest]
  · rw [List.length_append]
    omega

theorem Represents.full (h : b.Represents text) {part : Str} (hpart : b.bufferLen + part.length = 64) :
    absorb 64 Sha1.compress Sha1.initial (text ++ part) =
        (state (transform b.digest (b.buffer.take b.bufferLen ++ part)), []) ∧
      (text ++ part).length / 64 = text.length / 64 + 1 := by
  have hlen := h.bufferLen
  have hrest : (b.buffer.take b.bufferLen ++ part).length = 64 := by
    rw [List.length_append, List.length_take, b.length, blockSize]
    omega
  refine ⟨?_, ?_⟩
  · rw [absorb_append, ← h.digest, ← h.rest, absorb_one hrest, state_transform]
  · rw [List.length_append]
    omega

theorem copied_take (b : Builder) (part : Str) :
    (b.copied part).take (b.bufferLen + part.length) = b.buffer.take b.bufferLen ++ part := by
  apply List.take_left'
  rw [List.length_append, List.length_take, b.length, min_eq_left b.notFull.le]

theorem Represents.transformed (h : b.Represents text) {part : Str} (hpart : b.bufferLen + part.length = blockSize) :
    (b.transformed part hpart).Represents (text ++ part) := by
  obtain ⟨habsorb, hcount⟩ := h.full hpart
  have hcopied : b.copied part = b.buffer.take b.bufferLen ++ part := by
    have htake := b.copied_take part
    rwa [List.take_of_length_le (by rw [b.copied_length hpart.le, hpart])] at htake
  refine ⟨?_, ?_, ?_⟩
  · rw [habsorb, ← hcopied]
    rfl
  · rw [habsorb]
    rfl
  · rw [hcount, UInt64.ofNat_add, ← h.count]
    rfl

theorem Represents.update (h : b.Represents text) (what : Str) : (b.update what).Represents (text ++ what) := by
  induction hlength : what.length using Nat.strong_induction_on generalizing b text what with
  | _ n ih =>
    have hfull := b.notFull
    rw [Builder.update]
    split
    · next hshort =>
      obtain ⟨habsorb, hcount⟩ := h.short hshort
      refine ⟨?_, ?_, ?_⟩
      · rw [habsorb]
      · rw [habsorb]
        exact b.copied_take what
      · rw [hcount]
        exact h.count
    · next hlong =>
      have hnext := ih (what.drop (blockSize - b.bufferLen)).length (by rw [List.length_drop]; omega)
        (h.transformed (b.part_length hlong)) _ rfl
      rwa [List.append_assoc, List.take_append_drop] at hnext

theorem octetFrom_toNat (shift : UInt32) (h : shift.toNat < 32) (v : UInt32) :
    (octetFrom shift v).toNat = v.toNat / 2 ^ shift.toNat % 256 := by
  rw [octetFrom, UInt8.toNat_and, UInt32.toNat_toUInt8, UInt32.toNat_shiftRight, Nat.mod_eq_of_lt h, Nat.shiftRight_eq_div_pow]
  exact (Nat.and_two_pow_sub_one_eq_mod _ 8).trans (Nat.mod_mod _ _)

theorem pushUintToBuffer_eq (bigValue : UInt64) (n : ℕ) (h : bigValue.toNat % 2 ^ 32 = n % 2 ^ 32) :
    pushUintToBuffer bigValue =
      [UInt8.ofNat (n / 2 ^ 24), UInt8.ofNat (n / 2 ^ 16), UInt8.ofNat (n / 2 ^ 8), UInt8.ofNat n] := by
  have hoctet : ∀ (shift : UInt32) (k : ℕ), shift.toNat = k → k < 32 → n % 2 ^ 32 / 2 ^ k % 2 ^ 8 = n / 2 ^ k % 2 ^ 8 →
      octetFrom shift bigValue.toUInt32 = UInt8.ofNat (n / 2 ^ k) := by
    rintro shift k rfl hk hmod
    apply UInt8.toNat_inj.mp
    rw [octetFrom_toNat shift hk, UInt64.toNat_toUInt32, UInt8.toNat_ofNat', h]
    exact hmod
  rw [pushUintToBuffer, hoctet 24 24 rfl (by decide) (by omega), hoctet 16 16 rfl (by decide) (by omega),
    hoctet 8 8 rfl (by decide) (by omega), hoctet 0 0 rfl (by decide) (by omega), Nat.pow_zero, Nat.div_one]

theorem Represents.totalBits (h : b.Represents text) :
    pushUintToBuffer (b.calculateTotalBitsCount >>> 32) ++ pushUintToBuffer (b.calculateTotalBitsCount &&& 0xffffffff) =
      Sha1.lengthField text := by
  have htotal : b.calculateTotalBitsCount.toNat = 8 * text.length % 2 ^ 64 := by
    have hcount : (64 : UInt64).toNat = 64 ∧ (8 : UInt64).toNat = 8 := by decide
    rw [calculateTotalBitsCount, h.count, h.bufferLen]
    simp only [UInt64.toNat_mul, UInt64.toNat_add, UInt64.toNat_ofNat', hcount.1, hcount.2]
    omega
  have hhigh : (b.calculateTotalBitsCount >>> 32).toNat = 8 * text.length % 2 ^ 64 / 2 ^ 32 := by
    rw [UInt64.toNat_shiftRight, htotal, Nat.shiftRight_eq_div_pow]
    rfl
  have hlow : (b.calculateTotalBitsCount &&& 0xffffffff).toNat = 8 * text.length % 2 ^ 64 % 2 ^ 32 := by
    rw [UInt64.toNat_and, htotal]
    exact Nat.and_two_pow_sub_one_eq_mod _ 32
  rw [pushUintToBuffer_eq _ (8 * text.length / 2 ^ 32) (by omega), pushUintToBuffer_eq _ (8 * text.length) (by omega)]
  simp only [Nat.div_div_eq_div_mul, Sha1.lengthField, List.range_succ, List.range_zero]
  simp

theorem Represents.take_length (h : b.Represents text) : (b.buffer.take b.bufferLen).length = text.length % 64 := by
  rw [h.rest, absorb_rest_length]

def filled (b : Builder) : Str := b.buffer.take b.bufferLen ++ 0x80 :: List.replicate (blockSize - (b.bufferLen + 1)) 0

theorem Represents.finish_last (h : b.Represents text) (hlen : text.length % 64 ≤ 56) :
    state b.finish = Sha1.compress (state b.digest) (b.filled.take 56 ++ Sha1.lengthField text) := by
  have hroom : ¬ blockSize - 8 < b.bufferLen := by
    rw [h.bufferLen, blockSize]
    omega
  rw [finish, if_neg hroom, if_neg hroom, h.totalBits, state_transform]
  rfl

theorem Represents.finish_one (h : b.Represents text) (hlen : text.length % 64 < 56) :
    state b.finish = Sha1.digest text := by
  have hbuffer := h.bufferLen
  have hzeros : List.replicate (blockSize - (b.bufferLen + 1)) (0 : UInt8) =
      List.replicate (55 - b.bufferLen) 0 ++ List.replicate 8 0 := by
    rw [← List.replicate_add, blockSize]
    congr 1
    omega
  have htake : b.filled.take 56 = b.buffer.take b.bufferLen ++ 0x80 :: List.replicate (55 - b.bufferLen) 0 := by
    rw [filled, hzeros, ← List.cons_append, ← List.append_assoc]
    apply List.take_left'
    rw [List.length_append, h.take_length, List.length_cons, List.length_replicate]
    omega
  have hblock : (b.buffer.take b.bufferLen ++
      0x80 :: (List.replicate (55 - b.bufferLen) 0 ++ Sha1.lengthField text)).length = 64 := by
    rw [List.length_append, h.take_length, List.length_cons, List.length_append, List.length_replicate,
      Sha1.lengthField_length]
    omega
  have hpad : (119 - text.length % 64) % 64 = 55 - b.bufferLen := by omega
  rw [h.finish_last hlen.le, htake, List.append_assoc, List.cons_append, Sha1.digest, Sha1.pad, hpad, absorb_append,
    ← h.digest, ← h.rest, absorb_one hblock]

theorem Represents.finish_two (h : b.Represents text) (hlen : 56 < text.length % 64) :
    state b.finish = Sha1.digest text := by
  have hbuffer := h.bufferLen
  have hroom : blockSize - 8 < b.bufferLen := by
    rw [hbuffer, blockSize]
    omega
  have hfirst : b.filled.length = 64 := by
    rw [filled, List.length_append, h.take_length, List.length_cons, List.length_replicate, blockSize]
    omega
  have hsecond : (List.replicate 56 0 ++ Sha1.lengthField text).length = 64 := by
    rw [List.length_append, List.length_replicate, Sha1.lengthField_length]
  have hzeros : List.replicate ((119 - text.length % 64) % 64) (0 : UInt8) =
      List.replicate (blockSize - (b.bufferLen + 1)) 0 ++ List.replicate 56 0 := by
    rw [← List.replicate_add, blockSize]
    congr 1
    omega
  have hpadded : b.buffer.take b.bufferLen ++
      0x80 :: (List.replicate ((119 - text.length % 64) % 64) 0 ++ Sha1.lengthField text) =
        b.filled ++ (List.replicate 56 0 ++ Sha1.lengthField text) := by
    rw [hzeros, filled, List.append_assoc, List.append_assoc, List.cons_append]
  rw [finish, if_pos hroom, if_pos hroom, List.take_replicate, h.totalBits, state_transform, state_transform, Sha1.digest,
    Sha1.pad, absorb_append, ← h.digest, ← h.rest, hpadded, absorb_block hfirst, absorb_one hsecond]
  rfl

theorem Represents.finish_lost (h : b.Represents text) (hlen : text.length % 64 = 56) :
    state b.finish = (absorb 64 Sha1.compress Sha1.initial (text ++ Sha1.lengthField text)).1 := by
  have htake : b.filled.take 56 = b.buffer.take b.bufferLen := by
    apply List.take_left'
    rw [h.take_length, hlen]
  have hblock : (b.buffer.take b.bufferLen ++ Sha1.lengthField text).length = 64 := by
    rw [List.length_append, h.take_length, Sha1.lengthField_length]
    omega
  rw [h.finish_last hlen.le, htake, absorb_append, ← h.digest, ← h.rest, absorb_one hblock]

theorem Represents.finish (h : b.Represents text) :
    state b.finish = if text.length % 64 = 56 then
        (absorb 64 Sha1.compress Sha1.initial (text ++ Sha1.lengthField text)).1
      else Sha1.digest text := by
  split
  · next hlen => exact h.finish_lost hlen
  · next hlen =>
    rcases Nat.lt_or_gt_of_ne hlen with hlen | hlen
    · exact h.finish_one hlen
    · exact h.finish_two hlen

end Builder

end Stream

section Results

open Builder

/-- In whatever pieces a message is given, the digest is that of the standard, unless the message ends eight bytes before the
end of a block: then the length is written over the end mark. -/
theorem sha1_of_pieces (pieces : List Str) :
    state (pieces.foldl Builder.update Builder.reset).finish = if pieces.flatten.length % 64 = 56 then
        (absorb 64 Sha1.compress Sha1.initial (pieces.flatten ++ Sha1.lengthField pieces.flatten)).1
      else Sha1.digest pieces.flatten := by
  have hrepresents : ∀ (b : Builder) (text : Str), b.Represents text →
      (pieces.foldl Builder.update b).Represents (text ++ pieces.flatten) := by
    induction pieces with
    | nil =>
      intro b text h
      rw [List.flatten_nil, List.append_nil]
      exact h
    | cons piece pieces ih =>
      intro b text h
      rw [List.foldl_cons, List.flatten_cons, ← List.append_assoc]
      exact ih _ _ (h.update piece)
  exact (hrepresents reset [] represents_reset).finish

theorem state_makeDigest {what : Str} (h : what.length % 64 ≠ 56) : state (makeDigest what) = Sha1.digest what := by
  have hfinish := (represents_reset.update what).finish
  rw [List.nil_append, if_neg h] at hfinish
  exact hfinish

theorem toString_eq (what : Digest) : Sha1Builder.toString what = (state what).bytes := by
  have hmask (x : UInt8) : x &&& 0xff = x := UInt8.and_neg_one
  simp only [Sha1Builder.toString, hmask]
  rfl

end Results

end NgkNet.Restinio.Sha1Builder
