import Mathlib.Data.Fin.Basic
import Mathlib.Data.UInt
import Mathlib.Tactic.Common

set_option autoImplicit false

namespace NgkNet

section Blocks

variable {β γ : Type}

/-- A text is taken in block by block; what is left is shorter than a block. -/
def absorb (size : ℕ) [NeZero size] (compress : γ → List β → γ) (state : γ) (text : List β) : γ × List β :=
  if size ≤ text.length then absorb size compress (compress state (text.take size)) (text.drop size) else (state, text)
termination_by text.length
decreasing_by
  have := Nat.pos_of_neZero size
  rw [List.length_drop]
  omega

variable {size : ℕ} [NeZero size] {compress : γ → List β → γ} {state : γ} {text : List β}

theorem absorb_short (h : text.length < size) : absorb size compress state text = (state, text) := by
  rw [absorb, if_neg (Nat.not_le_of_lt h)]

theorem absorb_block {block rest : List β} (h : block.length = size) :
    absorb size compress state (block ++ rest) = absorb size compress (compress state block) rest := by
  rw [absorb, if_pos (by rw [List.length_append]; omega), List.take_left' h, List.drop_left' h]

theorem absorb_one {block : List β} (h : block.length = size) :
    absorb size compress state block = (compress state block, []) := by
  have hnil : ([] : List β).length < size := Nat.pos_of_neZero size
  rw [← List.append_nil block, absorb_block h, absorb_short hnil, List.append_nil]

theorem absorb_append (state : γ) (text more : List β) :
    absorb size compress state (text ++ more) =
      absorb size compress (absorb size compress state text).1 ((absorb size compress state text).2 ++ more) := by
  induction hlength : text.length using Nat.strong_induction_on generalizing state text with
  | _ n ih =>
    have hpos := Nat.pos_of_neZero size
    by_cases h : size ≤ text.length
    · have hblock : (text.take size).length = size := List.length_take_of_le h
      rw [← List.take_append_drop size text, List.append_assoc, absorb_block hblock, absorb_block hblock]
      exact ih (text.drop size).length (by rw [List.length_drop]; omega) _ _ rfl
    · rw [absorb_short (Nat.lt_of_not_le h)]

theorem absorb_rest_length (state : γ) (text : List β) :
    (absorb size compress state text).2.length = text.length % size := by
  induction hlength : text.length using Nat.strong_induction_on generalizing state text with
  | _ n ih =>
    have hpos := Nat.pos_of_neZero size
    by_cases h : size ≤ text.length
    · rw [absorb, if_pos h, ih (text.drop size).length (by rw [List.length_drop]; omega) _ _ rfl, List.length_drop, ← hlength,
        ← Nat.mod_eq_sub_mod h]
    · rw [absorb_short (Nat.lt_of_not_le h), ← hlength, Nat.mod_eq_of_lt (Nat.lt_of_not_le h)]

end Blocks

namespace Sha1

section Standard

abbrev Word := UInt32

abbrev Bytes := List UInt8

structure State where
  a : Word
  b : Word
  c : Word
  d : Word
  e : Word
  deriving DecidableEq

def rotl (n : Word) (x : Word) : Word := (x <<< n) ||| (x >>> (32 - n))

def ch (x y z : Word) : Word := (x &&& y) ^^^ (~~~x &&& z)

def parity (x y z : Word) : Word := x ^^^ y ^^^ z

def maj (x y z : Word) : Word := (x &&& y) ^^^ (x &&& z) ^^^ (y &&& z)

def f (t : ℕ) : Word → Word → Word → Word :=
  if t < 20 then ch else if t < 40 then parity else if t < 60 then maj else parity

def k (t : ℕ) : Word :=
  if t < 20 then 0x5a827999 else if t < 40 then 0x6ed9eba1 else if t < 60 then 0x8f1bbcdc else 0xca62c1d6

def word (block : Bytes) (i : ℕ) : Word :=
  (block.getD (4 * i) 0).toUInt32 <<< 24 ||| (block.getD (4 * i + 1) 0).toUInt32 <<< 16 |||
    (block.getD (4 * i + 2) 0).toUInt32 <<< 8 ||| (block.getD (4 * i + 3) 0).toUInt32

def w (block : Bytes) (t : ℕ) : Word :=
  if t < 16 then word block t
  else rotl 1 (w block (t - 3) ^^^ w block (t - 8) ^^^ w block (t - 14) ^^^ w block (t - 16))
termination_by t

def step (block : Bytes) (s : State) (t : ℕ) : State :=
  ⟨rotl 5 s.a + f t s.b s.c s.d + s.e + k t + w block t, s.a, rotl 30 s.b, s.c, s.d⟩

def rounds (block : Bytes) (s : State) (n : ℕ) : State := (List.range n).foldl (step block) s

def compress (s : State) (block : Bytes) : State :=
  let r := rounds block s 80
  ⟨s.a + r.a, s.b + r.b, s.c + r.c, s.d + r.d, s.e + r.e⟩

def initial : State := ⟨0x67452301, 0xefcdab89, 0x98badcfe, 0x10325476, 0xc3d2e1f0⟩

def lengthField (message : Bytes) : Bytes :=
  (List.range 8).map fun i => UInt8.ofNat (8 * message.length / 256 ^ (7 - i))

def pad (message : Bytes) : Bytes :=
  message ++ 0x80 :: (List.replicate ((119 - message.length % 64) % 64) 0 ++ lengthField message)

def digest (message : Bytes) : State := (absorb 64 compress initial (pad message)).1

def State.bytes (s : State) : Bytes :=
  [s.a, s.b, s.c, s.d, s.e].flatMap fun x : Word =>
    [(x >>> 24).toUInt8, (x >>> 16).toUInt8, (x >>> 8).toUInt8, x.toUInt8]

end Standard

section Facts

variable (block : Bytes) (s : State)

theorem w_of_lt {t : ℕ} (h : t < 16) : w block t = word block t := by
  rw [w, if_pos h]

theorem w_of_le {t : ℕ} (h : 16 ≤ t) :
    w block t = rotl 1 (w block (t - 3) ^^^ w block (t - 8) ^^^ w block (t - 14) ^^^ w block (t - 16)) := by
  rw [w, if_neg (Nat.not_lt_of_le h)]

theorem rounds_succ (n : ℕ) : rounds block s (n + 1) = step block (rounds block s n) n := by
  rw [rounds, List.range_succ, List.foldl_append]
  rfl

theorem lengthField_length (message : Bytes) : (lengthField message).length = 8 := by
  rw [lengthField, List.length_map, List.length_range]

theorem ch_eq (x y z : Word) : ch x y z = (x &&& (y ^^^ z)) ^^^ z := by
  apply UInt32.toBitVec_inj.mp
  simp only [ch, UInt32.toBitVec_xor, UInt32.toBitVec_and, UInt32.toBitVec_not]
  ext i hi
  simp only [BitVec.getElem_xor, BitVec.getElem_and, BitVec.getElem_not]
  cases x.toBitVec[i] <;> cases y.toBitVec[i] <;> cases z.toBitVec[i] <;> rfl

theorem maj_eq (x y z : Word) : maj x y z = ((x ||| y) &&& z) ||| (x &&& y) := by
  apply UInt32.toBitVec_inj.mp
  simp only [maj, UInt32.toBitVec_xor, UInt32.toBitVec_and, UInt32.toBitVec_or]
  ext i hi
  simp only [BitVec.getElem_xor, BitVec.getElem_and, BitVec.getElem_or]
  cases x.toBitVec[i] <;> cases y.toBitVec[i] <;> cases z.toBitVec[i] <;> rfl

end Facts

end Sha1

end NgkNet
