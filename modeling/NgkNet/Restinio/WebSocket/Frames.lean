import Mathlib.Data.List.Induction
import NgkNet.Restinio.Utf8Text
import NgkNet.Restinio.WebSocket.Connection

set_option autoImplicit false

namespace NgkNet.Restinio.WebSocket

open Ascii

def bigEndian : ℕ → ℕ → Str
  | 0, _ => []
  | k + 1, n => bigEndian k (n / 256) ++ [UInt8.ofNat n]

def lengthCode (n : ℕ) : ℕ := if n ≤ 125 then n else if n < 65536 then 126 else 127

def extendedLength (n : ℕ) : Str := if n ≤ 125 then [] else if n < 65536 then bigEndian 2 n else bigEndian 8 n

namespace Message

def header (maskBit : ℕ) (m : Message) : Str :=
  [(if m.finalFlag then 0x80 else 0) + m.opcode.toCode, UInt8.ofNat (maskBit + lengthCode m.payload.length)] ++
    extendedLength m.payload.length

def wire (m : Message) : Str := m.header 0 ++ m.payload

end Message

def mask (key : Fin 4 → UInt8) : ℕ → Str → Str
  | _, [] => []
  | i, byte :: s => (byte ^^^ key (Fin.ofNat 4 i)) :: mask key (i + 1) s

structure ClientFrame where
  message : Message
  maskingKey : Fin 4 → UInt8

namespace ClientFrame

def header (f : ClientFrame) : Str := f.message.header 0x80 ++ List.ofFn f.maskingKey

def wire (f : ClientFrame) : Str := f.header ++ mask f.maskingKey 0 f.message.payload

end ClientFrame

def wires (frames : List ClientFrame) : Str := frames.flatMap ClientFrame.wire

def arrived : List ClientFrame → ℕ → List ClientFrame
  | [], _ => []
  | f :: frames, n => if f.wire.length ≤ n then f :: arrived frames (n - f.wire.length) else []

section Numbers

def bigEndianValue (s : Str) : ℕ := s.foldl (fun n byte => n * 256 + byte.toNat) 0

theorem bigEndianValue_append (s : Str) (byte : UInt8) :
    bigEndianValue (s ++ [byte]) = bigEndianValue s * 256 + byte.toNat := by
  rw [bigEndianValue, List.foldl_append]
  rfl

theorem bigEndianValue_bigEndian (k n : ℕ) : bigEndianValue (bigEndian k n) = n % 256 ^ k := by
  induction k generalizing n with
  | zero => simp [bigEndian, bigEndianValue, Nat.mod_one]
  | succ k ih =>
    rw [bigEndian, bigEndianValue_append, ih, UInt8.toNat_ofNat', pow_succ 256, Nat.mul_comm (256 ^ k), Nat.mod_mul]
    show n / 256 % 256 ^ k * 256 + n % 256 = n % 256 + 256 * (n / 256 % 256 ^ k)
    omega

theorem bigEndian_length (k n : ℕ) : (bigEndian k n).length = k := by
  induction k generalizing n with
  | zero => rfl
  | succ k ih => rw [bigEndian, List.length_append, ih, List.length_singleton]

theorem readNumberFromBigEndianBytes_append (w : ℕ) (s : Str) (byte : UInt8) :
    readNumberFromBigEndianBytes w (s ++ [byte]) =
      readNumberFromBigEndianBytes w s <<< 8 ||| byte.toBitVec.setWidth w := by
  rw [readNumberFromBigEndianBytes, List.foldl_append]
  rfl

theorem bigEndianValue_lt (s : Str) : bigEndianValue s < 256 ^ s.length := by
  induction s using List.reverseRecOn with
  | nil => decide
  | append_singleton s byte ih =>
    have hb := byte.toNat_lt
    rw [bigEndianValue_append, List.length_append, List.length_singleton, pow_succ]
    omega

theorem readNumberFromBigEndianBytes_toNat {w : ℕ} {s : Str} (h : 8 * s.length ≤ w) :
    (readNumberFromBigEndianBytes w s).toNat = bigEndianValue s := by
  induction s using List.reverseRecOn with
  | nil => simp [readNumberFromBigEndianBytes, bigEndianValue]
  | append_singleton s byte ih =>
    rw [List.length_append, List.length_singleton] at h
    have hb := byte.toNat_lt
    have hlt := bigEndianValue_lt s
    have hpow : (256 : ℕ) ^ s.length * 256 ≤ 2 ^ w := by
      rw [← pow_succ, show (256 : ℕ) = 2 ^ 8 from rfl, ← pow_mul]
      exact Nat.pow_le_pow_right (by decide) h
    have hbyte : byte.toNat % 2 ^ w = byte.toNat :=
      Nat.mod_eq_of_lt (Nat.lt_of_lt_of_le hb (Nat.pow_le_pow_right (by decide) (by omega)))
    have hshift : (bigEndianValue s * 256) % 2 ^ w = bigEndianValue s * 256 := Nat.mod_eq_of_lt (by omega)
    rw [readNumberFromBigEndianBytes_append, bigEndianValue_append, BitVec.toNat_or, BitVec.toNat_shiftLeft,
      ih (by omega), BitVec.toNat_setWidth, UInt8.toNat_toBitVec, hbyte, Nat.shiftLeft_eq]
    show bigEndianValue s * 256 % 2 ^ w ||| byte.toNat = _
    rw [hshift, show (256 : ℕ) = 2 ^ 8 from rfl, ← Nat.shiftLeft_eq, Nat.shiftLeft_add_eq_or_of_lt hb]

theorem maskingKey_octet (key : Fin 4 → UInt8) (i : ℕ) :
    (⟨(readNumberFromBigEndianBytes 32 (List.ofFn key) >>> (24 - 8 * (i % 4))).setWidth 8⟩ : UInt8) =
      key (Fin.ofNat 4 i) := by
  have hword : (readNumberFromBigEndianBytes 32 (List.ofFn key)).toNat =
      (((key 0).toNat * 256 + (key 1).toNat) * 256 + (key 2).toNat) * 256 + (key 3).toNat := by
    rw [readNumberFromBigEndianBytes_toNat (by simp)]
    simp [bigEndianValue, List.ofFn_succ]
  have h₀ := (key 0).toNat_lt
  have h₁ := (key 1).toNat_lt
  have h₂ := (key 2).toNat_lt
  have h₃ := (key 3).toNat_lt
  apply UInt8.toNat.inj
  show (BitVec.setWidth 8 _).toNat = _
  rw [BitVec.toNat_setWidth, BitVec.toNat_ushiftRight, hword, Nat.shiftRight_eq_div_pow]
  have hi : i % 4 < 4 := Nat.mod_lt _ (by decide)
  have hkey : key (Fin.ofNat 4 i) = key ⟨i % 4, hi⟩ := rfl
  rw [hkey]
  generalize i % 4 = j at hi
  obtain rfl | rfl | rfl | rfl : j = 0 ∨ j = 1 ∨ j = 2 ∨ j = 3 := by omega
  · show _ / 2 ^ 24 % 2 ^ 8 = (key 0).toNat
    omega
  · show _ / 2 ^ 16 % 2 ^ 8 = (key 1).toNat
    omega
  · show _ / 2 ^ 8 % 2 ^ 8 = (key 2).toNat
    omega
  · show _ / 2 ^ 0 % 2 ^ 8 = (key 3).toNat
    omega

theorem writeNumberToBigEndianBytes_eq (k : ℕ) {n : ℕ} (hn : n < 2 ^ 64) :
    writeNumberToBigEndianBytes k (BitVec.ofNat 64 n) = bigEndian k n := by
  induction k generalizing n with
  | zero => rfl
  | succ k ih =>
    have hshift : BitVec.ofNat 64 (n / 256) = BitVec.ofNat 64 n >>> 8 := by
      apply BitVec.eq_of_toNat_eq
      rw [BitVec.toNat_ushiftRight, BitVec.toNat_ofNat, BitVec.toNat_ofNat, Nat.shiftRight_eq_div_pow]
      omega
    rw [bigEndian, ← ih (by omega), hshift, writeNumberToBigEndianBytes, writeNumberToBigEndianBytes,
      List.range_succ, List.map_append, List.map_singleton]
    congr 1
    · apply List.map_congr_left
      intro i hi
      have hi := List.mem_range.mp hi
      rw [← BitVec.shiftRight_add]
      congr 3
      omega
    · simp only [Nat.sub_self, Nat.add_sub_cancel_left, Nat.zero_mul, BitVec.ushiftRight_zero]
      congr 1
      apply UInt8.toNat.inj
      show (BitVec.setWidth 8 _).toNat = _
      rw [BitVec.toNat_setWidth, BitVec.toNat_ofNat, UInt8.toNat_ofNat']
      omega

theorem bigEndian_mod (k n : ℕ) : bigEndian k (n % 256 ^ k) = bigEndian k n := by
  induction k generalizing n with
  | zero => rfl
  | succ k ih =>
    have hbyte : UInt8.ofNat (n % 256 ^ (k + 1)) = UInt8.ofNat n := by
      apply UInt8.toNat.inj
      rw [UInt8.toNat_ofNat', UInt8.toNat_ofNat']
      exact Nat.mod_mod_of_dvd n (pow_succ' 256 k ▸ Nat.dvd_mul_right 256 _)
    rw [bigEndian, bigEndian, hbyte, pow_succ', Nat.mod_mul_right_div_self, ih]

end Numbers

theorem mask_append (key : Fin 4 → UInt8) (i : ℕ) (a b : Str) :
    mask key i (a ++ b) = mask key i a ++ mask key (i + a.length) b := by
  induction a generalizing i with
  | nil => rfl
  | cons byte a ih =>
    rw [List.cons_append, mask, mask, ih, List.cons_append, List.length_cons, Nat.add_assoc, Nat.add_comm 1]

theorem mask_length (key : Fin 4 → UInt8) (i : ℕ) (s : Str) : (mask key i s).length = s.length := by
  induction s generalizing i with
  | nil => rfl
  | cons byte s ih => rw [mask, List.length_cons, ih, List.length_cons]

theorem mask_take (key : Fin 4 → UInt8) (i : ℕ) (s : Str) (n : ℕ) : (mask key i s).take n = mask key i (s.take n) := by
  induction s generalizing i n with
  | nil => simp [mask]
  | cons byte s ih =>
    cases n with
    | zero => rfl
    | succ n => rw [mask, List.take_succ_cons, List.take_succ_cons, ih, mask]

theorem unmaskByte_mask (key : Fin 4 → UInt8) (i : ℕ) (byte : UInt8) :
    Unmasker.unmaskByte (byte ^^^ key (Fin.ofNat 4 i)) ⟨readNumberFromBigEndianBytes 32 (List.ofFn key), i⟩ =
      (byte, ⟨readNumberFromBigEndianBytes 32 (List.ofFn key), i + 1⟩) := by
  simp only [Unmasker.unmaskByte, maskingKey_octet, UInt8.xor_assoc, UInt8.xor_self, UInt8.xor_zero]

theorem lengthCode_lt (n : ℕ) : lengthCode n < 128 := by
  rw [lengthCode]
  split_ifs <;> omega

theorem toNat_lengthCode (n : ℕ) : (UInt8.ofNat (lengthCode n)).toNat = lengthCode n := by
  rw [UInt8.toNat_ofNat']
  exact Nat.mod_eq_of_lt (Nat.lt_trans (lengthCode_lt n) (by decide))

theorem lengthCode_eq_iff (n : ℕ) :
    (UInt8.ofNat (lengthCode n) = shortExtLenCode ↔ 125 < n ∧ n < 65536) ∧
      (UInt8.ofNat (lengthCode n) = longExtLenCode ↔ 65536 ≤ n) ∧
      (maxPayloadSizeWithoutExt < (UInt8.ofNat (lengthCode n)).toNat ↔ 125 < n) := by
  rw [← UInt8.toNat_inj, ← UInt8.toNat_inj, toNat_lengthCode, lengthCode]
  simp only [shortExtLenCode, longExtLenCode, maxPayloadSizeWithoutExt, UInt8.reduceToNat]
  split_ifs <;> omega

theorem make_eq (final : Bool) (opcode : Opcode) (n : ℕ) :
    MessageDetails.make final opcode n = { MessageDetails.initial with
      finalFlag := final
      opcode := opcode
      payloadLenCode := UInt8.ofNat (lengthCode n)
      extPayloadLen := if n ≤ 125 then 0 else BitVec.ofNat 64 n } := by
  rw [MessageDetails.make, maxPayloadSizeWithoutExt, lengthCode]
  by_cases h₁ : n ≤ 125
  · rw [if_neg (by omega), if_pos h₁, if_pos h₁]
    rfl
  · rw [if_pos (by omega), if_neg h₁, if_neg h₁]
    by_cases h₂ : n < 65536
    · rw [if_neg (by omega), if_pos h₂]
      rfl
    · rw [if_pos (by omega), if_neg h₂]
      rfl

theorem first_byte {opcode : Opcode} (hop : opcode.isValid = true) (final : Bool) :
    (if final then 0x80 else 0) ||| (opcode.toCode &&& 0x0F) = (if final then 0x80 else 0) + opcode.toCode := by
  cases opcode with
  | other code => cases hop
  | _ => cases final <;> rfl

theorem writeMessageDetails_make {m : Message} (hop : m.opcode.isValid = true) :
    writeMessageDetails (.make m.finalFlag m.opcode m.payload.length) = m.header 0 := by
  obtain ⟨h₆, h₇, -⟩ := lengthCode_eq_iff m.payload.length
  rw [make_eq, writeMessageDetails, Message.header, extendedLength, ← first_byte hop]
  simp only [MessageDetails.initial, Bool.false_eq_true, if_false, UInt8.or_zero, UInt8.zero_or, Nat.zero_add,
    List.append_nil, h₆, h₇]
  congr 1
  by_cases h₁ : m.payload.length ≤ 125
  · rw [if_neg (by omega), if_neg (by omega), if_pos h₁]
  · by_cases h₂ : m.payload.length < 65536
    · rw [if_pos ⟨by omega, h₂⟩, if_neg h₁, if_neg h₁, if_pos h₂, writeNumberToBigEndianBytes_eq 2 (by omega)]
    · -- of a longer payload only the last eight bytes of the length are written, on both sides
      have hword : BitVec.ofNat 64 m.payload.length = BitVec.ofNat 64 (m.payload.length % 256 ^ 8) := by
        apply BitVec.eq_of_toNat_eq
        rw [BitVec.toNat_ofNat, BitVec.toNat_ofNat]
        exact (Nat.mod_mod _ _).symm
      have hlt : m.payload.length % 256 ^ 8 < 2 ^ 64 := Nat.mod_lt _ (by decide)
      rw [if_neg (by omega), if_pos (by omega), if_neg h₁, if_neg h₁, if_neg h₂, hword,
        writeNumberToBigEndianBytes_eq 8 hlt, bigEndian_mod]

theorem ExpectedData.addByteAndCheckSize_eq {d : ExpectedData} (h : d.loadedData.length < d.expectedSize) (byte : UInt8) :
    d.addByteAndCheckSize byte =
      .ok (decide (d.loadedData.length + 1 = d.expectedSize), ⟨d.expectedSize, d.loadedData ++ [byte]⟩) := by
  rw [addByteAndCheckSize, allBytesLoaded, if_neg (by simp; omega)]
  simp [allBytesLoaded]

namespace Parser

def processLoaded (p : Parser) : Parser :=
  match p.currentState with
  | .waitingForFirst2Bytes => p.processFirst2Bytes
  | .waitingForExtLen => p.processExtendedLength
  | .waitingForMaskKey => p.processMaskingKey
  | .headerParsed => p

def load (s : Str) (p : Parser) : Parser :=
  { p with expectedData := ⟨p.expectedData.expectedSize, p.expectedData.loadedData ++ s⟩ }

theorem processByte_eq {p : Parser} (h : p.expectedData.loadedData.length < p.expectedData.expectedSize)
    (byte : UInt8) :
    p.processByte byte = .ok (if p.expectedData.loadedData.length + 1 = p.expectedData.expectedSize then
      (p.load [byte]).processLoaded else p.load [byte]) := by
  rw [processByte, ExpectedData.addByteAndCheckSize_eq h]
  show (if decide _ = true then _ else _) = _
  simp only [decide_eq_true_eq]
  obtain ⟨expected, m, state⟩ := p
  split
  · cases state <;> rfl
  · rfl

theorem parserExecute_load {p : Parser} (hp : p.headerParsed = false) {a : Str} (ha : a ≠ [])
    (hlen : p.expectedData.loadedData.length + a.length = p.expectedData.expectedSize) (b : Str) :
    p.parserExecute (a ++ b) = (p.load a).processLoaded.parserExecute b := by
  induction a generalizing p with
  | nil => exact absurd rfl ha
  | cons byte a ih =>
    rw [List.length_cons] at hlen
    rw [List.cons_append, parserExecute, hp, if_neg (by decide), processByte_eq (by omega)]
    by_cases hlast : a = []
    · subst hlast
      rw [List.length_nil] at hlen
      rw [if_pos (by omega)]
      rfl
    · have hpos := List.length_pos_iff.mpr hlast
      have hloaded : (p.load (byte :: a)) = (p.load [byte]).load a := by
        simp [load]
      rw [if_neg (by omega), hloaded]
      refine ih (p := p.load [byte]) hp hlast ?_
      simp only [load, List.length_append, List.length_singleton]
      omega

theorem parserExecute_append (p : Parser) (a b : Str) :
    p.parserExecute (a ++ b) = p.parserExecute a >>= fun r =>
      if r.1.headerParsed then .ok (r.1, r.2 ++ b) else r.1.parserExecute b := by
  induction a generalizing p with
  | nil =>
    show p.parserExecute b = if p.headerParsed then .ok (p, b) else p.parserExecute b
    split
    next hp => cases b <;> simp [parserExecute, hp]
    · rfl
  | cons byte a ih =>
    rw [List.cons_append, parserExecute, parserExecute]
    by_cases hp : p.headerParsed = true
    · rw [if_pos hp, if_pos hp]
      show _ = if p.headerParsed then _ else _
      rw [if_pos hp]
      rfl
    · rw [if_neg hp, if_neg hp]
      cases hq : p.processByte byte with
      | error e => rfl
      | ok q => exact ih q

theorem parserExecute_rest {p q : Parser} {a r : Str} (h : p.parserExecute a = .ok (q, r)) :
    q.headerParsed = false → r = [] := by
  induction a generalizing p with
  | nil =>
    obtain ⟨-, rfl⟩ := Prod.mk.inj (Except.ok.inj h)
    exact fun _ => rfl
  | cons byte a ih =>
    rw [parserExecute] at h
    by_cases hp : p.headerParsed = true
    · rw [if_pos hp] at h
      obtain ⟨rfl, -⟩ := Prod.mk.inj (Except.ok.inj h)
      exact fun hq => absurd (hp.symm.trans hq) (by decide)
    · rw [if_neg hp] at h
      cases hb : p.processByte byte with
      | error e => simp [hb, bind, Except.bind] at h
      | ok p' =>
        rw [hb] at h
        exact ih h

theorem parserExecute_part {p q : Parser} {a b : Str} (hb : b ≠ []) (h : p.parserExecute (a ++ b) = .ok (q, [])) :
    ∃ p', p.parserExecute a = .ok (p', []) ∧ p'.headerParsed = false ∧ p'.parserExecute b = .ok (q, []) := by
  rw [parserExecute_append] at h
  cases hr : p.parserExecute a with
  | error e => simp [hr, bind, Except.bind] at h
  | ok r =>
    obtain ⟨p', rest⟩ := r
    rw [hr] at h
    change (if p'.headerParsed then Except.ok (p', rest ++ b) else p'.parserExecute b) = _ at h
    by_cases hp : p'.headerParsed = true
    · rw [if_pos hp] at h
      have := (Prod.mk.inj (Except.ok.inj h)).2
      exact absurd (List.append_eq_nil_iff.mp this).2 hb
    · rw [if_neg hp] at h
      have hp' : p'.headerParsed = false := by simpa using hp
      rw [parserExecute_rest hr hp']
      exact ⟨p', rfl, hp', h⟩

theorem parserExecute_parsed {p : Parser} (hp : p.headerParsed = true) (b : Str) : p.parserExecute b = .ok (p, b) := by
  cases b with
  | nil => rfl
  | cons byte b => rw [parserExecute, if_pos hp]

end Parser

def extendedBytes (second : UInt8) : ℕ :=
  if second.toNat % 128 = 126 then 2 else if second.toNat % 128 = 127 then 8 else 0

def keyBytes (second : UInt8) : ℕ := if 128 ≤ second.toNat then 4 else 0

structure FrameHeader where
  final : Bool
  reserved : Bool
  opcode : Opcode
  masked : Bool
  length : ℕ
  maskingKey : Fin 4 → UInt8

namespace FrameHeader

def ofBytes (first second : UInt8) (extended key : Str) : FrameHeader where
  final := 128 ≤ first.toNat
  reserved := first.toNat / 16 % 8 ≠ 0
  opcode := .ofCode (UInt8.ofNat (first.toNat % 16))
  masked := 128 ≤ second.toNat
  length := if extended = [] then second.toNat % 128 else bigEndianValue extended
  maskingKey i := key.getD i 0

/-- The header that RFC 6455, section 5.2, finds at the front, once it is whole, and what comes behind it. -/
def read : Str → Option (FrameHeader × Str)
  | first :: second :: rest =>
    if extendedBytes second + keyBytes second ≤ rest.length then
      some (ofBytes first second (rest.take (extendedBytes second))
          ((rest.drop (extendedBytes second)).take (keyBytes second)),
        (rest.drop (extendedBytes second)).drop (keyBytes second))
    else none
  | _ => none

theorem read_ofBytes (first second : UInt8) {extended key : Str} (he : extended.length = extendedBytes second)
    (hk : key.length = keyBytes second) (rest : Str) :
    read (first :: second :: (extended ++ (key ++ rest))) = some (ofBytes first second extended key, rest) := by
  rw [read, if_pos (by simp only [List.length_append]; omega), ← he, List.take_left, List.drop_left, ← hk,
    List.take_left, List.drop_left]

theorem read_eq_some {s rest : Str} {hd : FrameHeader} (h : read s = some (hd, rest)) :
    ∃ first second extended key, s = first :: second :: (extended ++ (key ++ rest)) ∧
      extended.length = extendedBytes second ∧ key.length = keyBytes second ∧
      hd = ofBytes first second extended key := by
  match s, h with
  | first :: second :: tail, h =>
    rw [read] at h
    split at h
    next hlen =>
      obtain ⟨rfl, rfl⟩ := Prod.mk.inj (Option.some.inj h)
      refine ⟨first, second, _, _, ?_, ?_, ?_, rfl⟩
      · rw [List.take_append_drop, List.take_append_drop]
      · rw [List.length_take]
        omega
      · rw [List.length_take, List.length_drop]
        omega
    · cases h

theorem read_append {s rest : Str} {hd : FrameHeader} (h : read s = some (hd, rest)) (x : Str) :
    read (s ++ x) = some (hd, rest ++ x) := by
  obtain ⟨first, second, extended, key, rfl, he, hk, rfl⟩ := read_eq_some h
  have hs : first :: second :: (extended ++ (key ++ rest)) ++ x =
      first :: second :: (extended ++ (key ++ (rest ++ x))) := by
    simp only [List.cons_append, List.append_assoc]
  rw [hs, read_ofBytes first second he hk]

theorem read_length {s rest : Str} {hd : FrameHeader} (h : read s = some (hd, rest)) : rest.length < s.length := by
  obtain ⟨first, second, extended, key, rfl, -⟩ := read_eq_some h
  simp only [List.length_cons, List.length_append]
  omega

theorem read_eq_none {s : Str} (h : read s = none) : ∃ b hd, b ≠ [] ∧ read (s ++ b) = some (hd, []) := by
  match s, h with
  | [], _ => exact ⟨[0, 0], _, by simp, rfl⟩
  | [first], _ => exact ⟨[0], _, by simp, rfl⟩
  | first :: second :: tail, h =>
    rw [read] at h
    split at h
    · cases h
    next hlen =>
      set n := extendedBytes second + keyBytes second with hn
      have htail : (tail ++ List.replicate (n - tail.length) 0).length = n := by
        rw [List.length_append, List.length_replicate]
        omega
      refine ⟨List.replicate (n - tail.length) 0, ofBytes first second
        ((tail ++ List.replicate (n - tail.length) 0).take (extendedBytes second))
        ((tail ++ List.replicate (n - tail.length) 0).drop (extendedBytes second)), ?_, ?_⟩
      · rw [ne_eq, List.replicate_eq_nil_iff]
        omega
      · have he : ((tail ++ List.replicate (n - tail.length) 0).take (extendedBytes second)).length =
            extendedBytes second := by
          rw [List.length_take]
          omega
        have hk : ((tail ++ List.replicate (n - tail.length) 0).drop (extendedBytes second)).length =
            keyBytes second := by
          rw [List.length_drop]
          omega
        have hread := read_ofBytes first second he hk []
        rw [List.append_nil, List.take_append_drop] at hread
        exact hread

structure Matches (hd : FrameHeader) (m : MessageDetails) : Prop where
  finalFlag : m.finalFlag = hd.final
  reserved : (m.rsv1Flag || m.rsv2Flag || m.rsv3Flag) = hd.reserved
  opcode : m.opcode = hd.opcode
  maskFlag : m.maskFlag = hd.masked
  payloadLen : m.payloadLen = hd.length
  maskingKey : hd.masked = true → m.maskingKey = readNumberFromBigEndianBytes 32 (List.ofFn hd.maskingKey)

theorem parseFirst_eq (first : UInt8) :
    (decide (first &&& 0x80 ≠ 0) = decide (128 ≤ first.toNat)) ∧
      (decide (first &&& 0x40 ≠ 0) || decide (first &&& 0x20 ≠ 0) || decide (first &&& 0x10 ≠ 0)) =
        decide (first.toNat / 16 % 8 ≠ 0) ∧
      first &&& 0x0F = UInt8.ofNat (first.toNat % 16) := by
  revert first
  apply forall_byte
  decide +kernel

theorem parseSecond_eq (second : UInt8) :
    decide (second &&& 0x80 ≠ 0) = decide (128 ≤ second.toNat) ∧ (second &&& 0x7F).toNat = second.toNat % 128 := by
  revert second
  apply forall_byte
  decide +kernel

theorem parserExecute_key {m : MessageDetails} (hm : m.maskFlag = true) {key : Str} (hk : key.length = 4) (rest : Str) :
    (⟨.reset 4, m, .waitingForMaskKey⟩ : Parser).parserExecute (key ++ rest) =
      .ok (⟨⟨4, key⟩, { m with maskingKey := readNumberFromBigEndianBytes 32 key }, .headerParsed⟩, rest) := by
  rw [Parser.parserExecute_load rfl (List.ne_nil_of_length_pos (by omega)) (by simpa [ExpectedData.reset] using hk)]
  simp only [Parser.load, Parser.processLoaded, Parser.processMaskingKey, hm, if_true, ExpectedData.reset,
    List.nil_append]
  exact Parser.parserExecute_parsed rfl rest

theorem parserExecute_keyed {m : MessageDetails} {second : UInt8} (hm : m.maskFlag = decide (128 ≤ second.toNat))
    {key : Str} (hk : key.length = keyBytes second) (expected : ExpectedData) (rest : Str) :
    ∃ p, (if m.maskFlag = true then ⟨.reset 4, m, .waitingForMaskKey⟩ else ⟨expected, m, .headerParsed⟩ :
        Parser).parserExecute (key ++ rest) = .ok (p, rest) ∧ p.headerParsed = true ∧ p.currentMsg =
      { m with maskingKey := if m.maskFlag = true then readNumberFromBigEndianBytes 32 key else m.maskingKey } := by
  by_cases hmask : 128 ≤ second.toNat
  · rw [decide_eq_true hmask] at hm
    rw [keyBytes, if_pos hmask] at hk
    rw [if_pos hm, if_pos hm]
    exact ⟨_, parserExecute_key hm hk rest, rfl, rfl⟩
  · rw [decide_eq_false hmask] at hm
    rw [keyBytes, if_neg hmask] at hk
    rw [if_neg (by simp [hm]), if_neg (by simp [hm]), List.length_eq_zero_iff.mp hk]
    exact ⟨_, Parser.parserExecute_parsed rfl rest, rfl, rfl⟩

theorem ofFn_getD {key : Str} (hk : key.length = 4) : List.ofFn (fun i : Fin 4 => key.getD i 0) = key := by
  match key, hk with
  | [a, b, c, d], _ => rfl

theorem matches_ofBytes {first second : UInt8} {extended key : Str} {m : MessageDetails}
    (hk : key.length = keyBytes second) (ext : BitVec 64) (hm : m = { Parser.parseFirst2Bytes [first, second] .initial with
        extPayloadLen := ext
        maskingKey := if 128 ≤ second.toNat then readNumberFromBigEndianBytes 32 key else m.maskingKey })
    (hlen : m.payloadLen = if extended = [] then second.toNat % 128 else bigEndianValue extended) :
    (ofBytes first second extended key).Matches m := by
  obtain ⟨hfinal, hreserved, hopcode⟩ := parseFirst_eq first
  have hmask := (parseSecond_eq second).1
  refine ⟨?_, ?_, ?_, ?_, hlen, fun hmasked => ?_⟩
  · rw [hm]
    exact hfinal
  · rw [hm]
    exact hreserved
  · rw [hm]
    exact congrArg Opcode.ofCode hopcode
  · rw [hm]
    exact hmask
  · have hmasked : 128 ≤ second.toNat := of_decide_eq_true hmasked
    rw [keyBytes, if_pos hmasked] at hk
    rw [hm, if_pos hmasked]
    exact congrArg _ (ofFn_getD hk).symm

theorem payloadLenCode_toNat (first second : UInt8) :
    (Parser.parseFirst2Bytes [first, second] .initial).payloadLenCode.toNat = second.toNat % 128 :=
  (parseSecond_eq second).2

theorem extended_length_eq (first : UInt8) {second : UInt8} {extended : Str} (he : extended.length = extendedBytes second)
    (hext : maxPayloadSizeWithoutExt < (Parser.parseFirst2Bytes [first, second] .initial).payloadLenCode.toNat) :
    extended.length =
      if (Parser.parseFirst2Bytes [first, second] .initial).payloadLenCode = shortExtLenCode then 2 else 8 := by
  have hshort : (Parser.parseFirst2Bytes [first, second] .initial).payloadLenCode = shortExtLenCode ↔
      second.toNat % 128 = 126 := by
    rw [← UInt8.toNat_inj, payloadLenCode_toNat]
    rfl
  have hlong : second.toNat % 128 ≠ 126 → second.toNat % 128 = 127 := by
    rw [payloadLenCode_toNat, maxPayloadSizeWithoutExt] at hext
    omega
  rw [he, extendedBytes]
  by_cases h : second.toNat % 128 = 126
  · rw [if_pos h, if_pos (hshort.mpr h)]
  · rw [if_neg h, if_neg (mt hshort.mp h), if_pos (hlong h)]

theorem extended_eq_nil {first second : UInt8} {extended : Str} (he : extended.length = extendedBytes second)
    (hext : ¬ maxPayloadSizeWithoutExt < (Parser.parseFirst2Bytes [first, second] .initial).payloadLenCode.toNat) :
    extended = [] := by
  rw [payloadLenCode_toNat, maxPayloadSizeWithoutExt] at hext
  rw [← List.length_eq_zero_iff, he, extendedBytes, if_neg (by omega), if_neg (by omega)]

theorem parserExecute_ofBytes (first second : UInt8) {extended key : Str}
    (he : extended.length = extendedBytes second) (hk : key.length = keyBytes second) (rest : Str) :
    ∃ p, Parser.initial.parserExecute (first :: second :: (extended ++ (key ++ rest))) = .ok (p, rest) ∧
      p.headerParsed = true ∧ (ofBytes first second extended key).Matches p.currentMsg := by
  have hfirst : Parser.initial.parserExecute (first :: second :: (extended ++ (key ++ rest))) =
      (Parser.initial.load [first, second]).processFirst2Bytes.parserExecute (extended ++ (key ++ rest)) :=
    Parser.parserExecute_load rfl (List.cons_ne_nil first [second]) rfl _
  have hm : (Parser.parseFirst2Bytes [first, second] .initial).maskFlag = decide (128 ≤ second.toNat) :=
    (parseSecond_eq second).1
  rw [hfirst]
  by_cases hext : maxPayloadSizeWithoutExt < (Parser.parseFirst2Bytes [first, second] .initial).payloadLenCode.toNat
  · have hsize := extended_length_eq first he hext
    have hbytes : 0 < extended.length ∧ 8 * extended.length ≤ 64 := by
      rw [hsize]
      split <;> decide
    have hne : extended ≠ [] := List.ne_nil_of_length_pos hbytes.1
    have hproc : (Parser.initial.load [first, second]).processFirst2Bytes =
        ⟨.reset extended.length, Parser.parseFirst2Bytes [first, second] .initial, .waitingForExtLen⟩ := by
      rw [hsize]
      exact if_pos hext
    rw [hproc, Parser.parserExecute_load rfl hne (Nat.zero_add _)]
    obtain ⟨p, hrun, hparsed, hmsg⟩ := parserExecute_keyed
      (m := { Parser.parseFirst2Bytes [first, second] .initial with
        extPayloadLen := readNumberFromBigEndianBytes 64 extended }) hm hk ⟨extended.length, extended⟩ rest
    refine ⟨p, hrun, hparsed, matches_ofBytes hk (readNumberFromBigEndianBytes 64 extended) ?_ ?_⟩
    · rw [hmsg]
      simp only [hm, decide_eq_true_eq]
      split <;> rfl
    · rw [if_neg hne, MessageDetails.payloadLen, hmsg, if_pos hext]
      exact readNumberFromBigEndianBytes_toNat hbytes.2
  · obtain rfl := extended_eq_nil he hext
    have hproc : (Parser.initial.load [first, second]).processFirst2Bytes = _ := if_neg hext
    rw [hproc]
    obtain ⟨p, hrun, hparsed, hmsg⟩ := parserExecute_keyed (m := Parser.parseFirst2Bytes [first, second] .initial) hm hk
      (.reset (Parser.parseFirst2Bytes [first, second] .initial).payloadLenCode.toNat) rest
    refine ⟨p, hrun, hparsed, matches_ofBytes hk 0 ?_ ?_⟩
    · rw [hmsg]
      simp only [hm, decide_eq_true_eq]
      split <;> rfl
    · rw [if_pos rfl, MessageDetails.payloadLen, hmsg, if_neg hext]
      exact payloadLenCode_toNat first second

theorem parserExecute_of_read {s rest : Str} {hd : FrameHeader} (h : read s = some (hd, rest)) :
    ∃ p, Parser.initial.parserExecute s = .ok (p, rest) ∧ p.headerParsed = true ∧ hd.Matches p.currentMsg := by
  obtain ⟨first, second, extended, key, rfl, he, hk, rfl⟩ := read_eq_some h
  exact parserExecute_ofBytes first second he hk rest

theorem parserExecute_of_read_none {s : Str} (h : read s = none) :
    ∃ p, Parser.initial.parserExecute s = .ok (p, []) ∧ p.headerParsed = false := by
  obtain ⟨b, hd, hb, hread⟩ := read_eq_none h
  obtain ⟨p, hrun, -⟩ := parserExecute_of_read hread
  obtain ⟨p', hrun', hnot, -⟩ := Parser.parserExecute_part hb hrun
  exact ⟨p', hrun', hnot⟩

end FrameHeader

theorem first_byte_fields {opcode : Opcode} (hop : opcode.isValid = true) (final : Bool) :
    decide (128 ≤ ((if final then 0x80 else 0) + opcode.toCode).toNat) = final ∧
      decide (((if final then 0x80 else 0) + opcode.toCode).toNat / 16 % 8 ≠ 0) = false ∧
      Opcode.ofCode (UInt8.ofNat (((if final then 0x80 else 0) + opcode.toCode).toNat % 16)) = opcode := by
  cases opcode with
  | other code => cases hop
  | _ => cases final <;> decide

def ClientFrame.frameHeader (f : ClientFrame) : FrameHeader :=
  ⟨f.message.finalFlag, false, f.message.opcode, true, f.message.payload.length, f.maskingKey⟩

theorem ClientFrame.read_header (f : ClientFrame) (hop : f.message.opcode.isValid = true)
    (hlen : f.message.payload.length < 2 ^ 64) (x : Str) :
    FrameHeader.read (f.header ++ x) = some (f.frameHeader, x) := by
  have hcode := lengthCode_lt f.message.payload.length
  have hsecond : (UInt8.ofNat (0x80 + lengthCode f.message.payload.length)).toNat =
      0x80 + lengthCode f.message.payload.length := by
    rw [UInt8.toNat_ofNat']
    exact Nat.mod_eq_of_lt (by omega)
  have hmod : (0x80 + lengthCode f.message.payload.length) % 128 = lengthCode f.message.payload.length := by omega
  have hextended : (extendedLength f.message.payload.length).length =
      extendedBytes (UInt8.ofNat (0x80 + lengthCode f.message.payload.length)) := by
    rw [extendedBytes, hsecond, hmod, extendedLength, lengthCode]
    split
    · rw [if_neg (by omega), if_neg (by omega)]
      rfl
    · split
      · exact bigEndian_length 2 _
      · exact bigEndian_length 8 _
  have hkey : (List.ofFn f.maskingKey).length =
      keyBytes (UInt8.ofNat (0x80 + lengthCode f.message.payload.length)) := by
    rw [keyBytes, hsecond, if_pos (by omega), List.length_ofFn]
  have hread := FrameHeader.read_ofBytes ((if f.message.finalFlag then 0x80 else 0) + f.message.opcode.toCode)
    (UInt8.ofNat (0x80 + lengthCode f.message.payload.length)) hextended hkey x
  have hbytes : f.header ++ x = ((if f.message.finalFlag then 0x80 else 0) + f.message.opcode.toCode) ::
      UInt8.ofNat (0x80 + lengthCode f.message.payload.length) ::
        (extendedLength f.message.payload.length ++ (List.ofFn f.maskingKey ++ x)) := by
    simp only [header, Message.header, List.cons_append, List.nil_append, List.append_assoc]
  rw [hbytes, hread]
  obtain ⟨hfinal, hreserved, hopcode⟩ := first_byte_fields hop f.message.finalFlag
  have hlength : (if extendedLength f.message.payload.length = [] then lengthCode f.message.payload.length else
      bigEndianValue (extendedLength f.message.payload.length)) = f.message.payload.length := by
    have hne : ∀ k n, bigEndian (k + 1) n ≠ [] := fun k n => by simp [bigEndian]
    rw [extendedLength, lengthCode]
    split
    next h₁ => rw [if_pos rfl]
    next h₁ =>
      split
      next h₂ => rw [if_neg (hne 1 _), bigEndianValue_bigEndian, Nat.mod_eq_of_lt (by omega)]
      next h₂ => rw [if_neg (hne 7 _), bigEndianValue_bigEndian, Nat.mod_eq_of_lt (by omega)]
  have hword : (fun i : Fin 4 => (List.ofFn f.maskingKey).getD i 0) = f.maskingKey := by
    funext i
    match i with
    | 0 | 1 | 2 | 3 => rfl
  rw [FrameHeader.ofBytes, hsecond, hmod, hfinal, hreserved, hopcode, hlength, hword, frameHeader,
    decide_eq_true (by omega)]

theorem ClientFrame.header_length (f : ClientFrame) :
    6 ≤ f.header.length ∧ f.wire.length = f.header.length + f.message.payload.length := by
  refine ⟨?_, by rw [wire, List.length_append, mask_length]⟩
  rw [header, Message.header]
  simp only [List.length_append, List.length_cons, List.length_nil, List.length_ofFn]
  omega

theorem arrived_wire (f : ClientFrame) (frames : List ClientFrame) (a : Str) :
    arrived (f :: frames) (f.wire ++ a).length = f :: arrived frames a.length := by
  rw [List.length_append, arrived, if_pos (Nat.le_add_right _ _), Nat.add_sub_cancel_left]

theorem arrived_of_lt {f : ClientFrame} {n : ℕ} (h : n < f.wire.length) (frames : List ClientFrame) :
    arrived (f :: frames) n = [] := by
  rw [arrived, if_neg (by omega)]

theorem arrived_subset (frames : List ClientFrame) (n : ℕ) : arrived frames n ⊆ frames := by
  induction frames generalizing n with
  | nil => exact fun _ h => h
  | cons f frames ih =>
    rw [arrived]
    split
    · exact List.cons_subset_cons f (ih _)
    · exact List.nil_subset _

end NgkNet.Restinio.WebSocket
