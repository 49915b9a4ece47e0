import NgkNet.Restinio.PercentEncoding
import NgkNet.Restinio.Utf8Text

set_option autoImplicit false

namespace NgkNet.Restinio.PercentEncoding

open Ascii

def unreserved (c : UInt8) : Bool := isUpper c || isLower c || isDigit c || decide (c ∈ ascii "-._~")

def HexDigitOf (n : ℕ) (c : UInt8) : Prop :=
  (ascii "0123456789ABCDEF")[n]? = some c ∨ (ascii "0123456789abcdef")[n]? = some c

/-- A text and one of its percent-encodings, byte by byte. -/
inductive Encodes : Str → Str → Prop
  | nil : Encodes [] []
  | literal {c : UInt8} {s e : Str} (hc : unreserved c = true) (h : Encodes s e) : Encodes (c :: s) (c :: e)
  | escape {c c₁ c₂ : UInt8} {s e : Str} (h₁ : HexDigitOf (c.toNat / 16) c₁) (h₂ : HexDigitOf (c.toNat % 16) c₂)
      (h : Encodes s e) : Encodes (c :: s) (code '%' :: c₁ :: c₂ :: e)

theorem unreserved_spec (c : UInt8) : unreserved c = true →
    c < 0x80 ∧ ordinaryChar c = true ∧ c ≠ code '%' ∧ c ≠ code '+' ∧ c ≠ code '/' := by
  revert c
  apply forall_byte
  decide +kernel

theorem unreserved_of_isUnreservedChar (c : UInt8) : isUnreservedChar c = true → unreserved c = true := by
  revert c
  apply forall_byte
  decide +kernel

def hexDigit (upper : Bool) (i : Fin 16) : UInt8 :=
  if upper then (ascii "0123456789ABCDEF")[i] else (ascii "0123456789abcdef")[i]

theorem hexDigitOf_cases {n : ℕ} {c : UInt8} (h : HexDigitOf n c) : ∃ upper i, n = i.val ∧ c = hexDigit upper i := by
  rcases h with h | h
  · obtain ⟨hn, rfl⟩ := List.getElem?_eq_some_iff.mp h
    exact ⟨true, ⟨n, hn⟩, rfl, rfl⟩
  · obtain ⟨hn, rfl⟩ := List.getElem?_eq_some_iff.mp h
    exact ⟨false, ⟨n, hn⟩, rfl, rfl⟩

theorem hexDigit_spec (upper : Bool) (i : Fin 16) :
    isHexdigit (hexDigit upper i) = true ∧ hexDigit upper i ≠ code '/' ∧ (hexValue (hexDigit upper i)).toNat = i := by
  revert upper i
  decide +kernel

theorem isHexdigit_of_hexDigitOf {n : ℕ} {c : UInt8} (h : HexDigitOf n c) :
    isHexdigit c = true ∧ c ≠ code '/' := by
  obtain ⟨upper, i, -, rfl⟩ := hexDigitOf_cases h
  exact ⟨(hexDigit_spec upper i).1, (hexDigit_spec upper i).2.1⟩

theorem extractEscapedChar_of_hexDigitOf {c c₁ c₂ : UInt8} (h₁ : HexDigitOf (c.toNat / 16) c₁)
    (h₂ : HexDigitOf (c.toNat % 16) c₂) : extractEscapedChar c₁ c₂ = c := by
  obtain ⟨upper₁, i, hi, rfl⟩ := hexDigitOf_cases h₁
  obtain ⟨upper₂, j, hj, rfl⟩ := hexDigitOf_cases h₂
  have hc := c.toNat_lt
  rw [← UInt8.toNat_inj, extractEscapedChar, UInt8.toNat_add, UInt8.toNat_shiftLeft, (hexDigit_spec upper₁ i).2.2,
    (hexDigit_spec upper₂ j).2.2, ← hi, ← hj]
  show ((c.toNat / 16) <<< 4 % 256 + c.toNat % 16) % 256 = c.toNat
  rw [Nat.shiftLeft_eq]
  omega

theorem Encodes.ne_nil {s e : Str} (h : Encodes s e) (hs : s ≠ []) : e ≠ [] := by
  cases h with
  | nil => exact absurd rfl hs
  | literal hc h => simp
  | escape h₁ h₂ h => simp

theorem Encodes.no_slash {s e : Str} (h : Encodes s e) : code '/' ∉ e := by
  induction h with
  | nil => simp
  | literal hc h ih =>
    rw [List.mem_cons, not_or]
    exact ⟨(unreserved_spec _ hc).2.2.2.2.symm, ih⟩
  | escape h₁ h₂ h ih =>
    simp only [List.mem_cons, not_or]
    exact ⟨by decide, (isHexdigit_of_hexDigitOf h₁).2.symm, (isHexdigit_of_hexDigitOf h₂).2.symm, ih⟩

inductive Decodes : Decoder → Str → Prop
  | nil : Decodes .initial []
  | ascii {c : UInt8} {s : Str} (hc : c < 0x80) (h : Decodes .initial s) : Decodes .initial (c :: s)
  | byte {d d' : Decoder} {c : UInt8} {s : Str} (hc : 0x80 ≤ c) (he : d.escaped c = some d')
      (h : Decodes d' s) : Decodes d (c :: s)

theorem decodes_of_finishes {u : Utf8Checker} {a b : Str} (h : u.Finishes a) (ha : ∀ c ∈ a, 0x80 ≤ c)
    (hb : Decodes .initial b) (next : Bool) : Decodes ⟨u, next⟩ (a ++ b) := by
  induction h generalizing next with
  | @last u c h hc =>
    refine .byte (ha c List.mem_cons_self) ?_ hb
    have hf : (u.processByte c).2.finalized = true := by simpa [Utf8Checker.finalized] using hc.1
    simp only [Decoder.escaped, if_pos h, if_pos hf, Option.some.injEq]
    rw [Utf8Checker.reset, hc.2]
    rfl
  | @more u c s h hp hs ih =>
    refine .byte (ha c List.mem_cons_self) ?_ (ih (fun d hd => ha d (List.mem_cons_of_mem _ hd)) true)
    have hf : (u.processByte c).2.finalized = false := by
      have := hp.1.1
      simp only [Utf8Checker.finalized, decide_eq_false_iff_not]
      omega
    simp only [Decoder.escaped, if_pos h, hf]
    rfl

theorem utf8EncodeChar_bytes (c : Char) :
    (∃ b, String.utf8EncodeChar c = [b] ∧ b < 0x80) ∨ ∀ b ∈ String.utf8EncodeChar c, 0x80 ≤ b := by
  have hhigh : ∀ n, 128 ≤ n → n < 256 → (0x80 : UInt8) ≤ UInt8.ofNat n := by
    intro n h₁ h₂
    rw [UInt8.le_iff_toNat_le, UInt8.toNat_ofNat_of_lt' h₂]
    exact h₁
  rw [String.utf8EncodeChar.eq_1]
  split_ifs with h₁ h₂ h₃
  · refine .inl ⟨_, rfl, ?_⟩
    rw [UInt8.lt_iff_toNat_lt, UInt8.toNat_ofNat_of_lt' (Nat.lt_of_le_of_lt h₁ (by decide))]
    exact Nat.lt_succ_of_le h₁
  · right
    simp only [List.forall_mem_cons, List.not_mem_nil, false_imp_iff, implies_true, and_true]
    exact ⟨hhigh _ (by omega) (by omega), hhigh _ (by omega) (by omega)⟩
  · right
    simp only [List.forall_mem_cons, List.not_mem_nil, false_imp_iff, implies_true, and_true]
    exact ⟨hhigh _ (by omega) (by omega), hhigh _ (by omega) (by omega), hhigh _ (by omega) (by omega)⟩
  · right
    simp only [List.forall_mem_cons, List.not_mem_nil, false_imp_iff, implies_true, and_true]
    exact ⟨hhigh _ (by omega) (by omega), hhigh _ (by omega) (by omega), hhigh _ (by omega) (by omega),
      hhigh _ (by omega) (by omega)⟩

theorem decodes_of_utf8 {s : Str} (h : Utf8 s) : Decodes .initial s := by
  obtain ⟨chars, rfl⟩ := h
  induction chars with
  | nil => exact .nil
  | cons c chars ih =>
    rw [List.flatMap_cons]
    rcases utf8EncodeChar_bytes c with ⟨b, hb, hlow⟩ | hhigh
    · rw [hb]
      exact .ascii hlow ih
    · exact decodes_of_finishes (Utf8Checker.finishes_utf8EncodeChar c) hhigh ih false

theorem escaped_ascii (c : UInt8) : c < 0x80 →
    Decoder.initial.escaped c = some .initial ∧ Decoder.initial.symbol c = c.toUInt32 := by
  revert c
  apply forall_byte
  decide +kernel

theorem Decodes.escaped {d : Decoder} {c : UInt8} {s : Str} (h : Decodes d (c :: s)) :
    ∃ d', d.escaped c = some d' ∧ Decodes d' s := by
  cases h with
  | ascii hc h => exact ⟨_, (escaped_ascii c hc).1, h⟩
  | byte hc he h => exact ⟨_, he, h⟩

theorem Decodes.of_literal {d : Decoder} {c : UInt8} {s : Str} (h : Decodes d (c :: s)) (hc : c < 0x80) :
    d = .initial ∧ Decodes .initial s := by
  cases h with
  | ascii _ h => exact ⟨rfl, h⟩
  | byte hb _ _ => exact absurd hc (UInt8.not_lt.mpr hb)

theorem unescapeFrom_encodes {s e : Str} (h : Encodes s e) {d : Decoder} (hd : Decodes d s) (pos : ℕ) :
    unescapeFrom pos d e = .ok s := by
  induction h generalizing d pos with
  | nil =>
    cases hd
    rfl
  | @literal c s e hc h ih =>
    obtain ⟨hlow, hord, hpercent, hplus, -⟩ := unreserved_spec c hc
    obtain ⟨rfl, hs⟩ := hd.of_literal hlow
    rw [unescapeFrom.eq_def]
    simp only [Decoder.initial, Bool.false_and, Bool.false_eq_true, if_false, if_neg hpercent, if_neg hplus,
      if_pos hord]
    rw [show (⟨.initial, false⟩ : Decoder) = .initial from rfl, ih hs]
    rfl
  | @escape c c₁ c₂ s e h₁ h₂ h ih =>
    obtain ⟨d', he, hs⟩ := hd.escaped
    simp only [unescapeFrom, ne_eq, not_true_eq_false, decide_false, Bool.and_false, Bool.false_eq_true, if_false,
      if_true, (isHexdigit_of_hexDigitOf h₁).1, (isHexdigit_of_hexDigitOf h₂).1, Bool.and_self,
      extractEscapedChar_of_hexDigitOf h₁ h₂, he, ih hs]
    rfl

theorem normalized_encodes {d d' : Decoder} {c c₁ c₂ : UInt8} {s e : Str} (hd : d.Sound)
    (h₁ : HexDigitOf (c.toNat / 16) c₁) (h₂ : HexDigitOf (c.toNat % 16) c₂) (he : d.escaped c = some d')
    (h : Encodes s e) :
    Encodes (c :: s) ((if !d'.expectNextByte && d.symbol c < 0x80 && isUnreservedChar (d.symbol c).toUInt8
      then [(d.symbol c).toUInt8] else [code '%', c₁, c₂]) ++ e) := by
  by_cases hout : (!d'.expectNextByte && decide (d.symbol c < 0x80) &&
      isUnreservedChar (d.symbol c).toUInt8) = true
  · rw [if_pos hout]
    simp only [Bool.and_eq_true, Bool.not_eq_true', decide_eq_true_eq, UInt32.lt_iff_toNat_lt] at hout
    obtain ⟨⟨hn, hlow⟩, hu⟩ := hout
    rcases Decoder.escaped_cases hd he with ⟨hp, -⟩ | ⟨-, ⟨-, hsym⟩ | hhigh⟩
    · simp [hn] at hp
    · rw [hsym, UInt8.toUInt8_toUInt32] at hu ⊢
      exact .literal (unreserved_of_isUnreservedChar c hu) h
    · exact absurd hlow (Nat.not_lt.mpr hhigh)
  · rw [if_neg hout]
    exact .escape h₁ h₂ h

theorem normalizeFrom_encodes {s e : Str} (h : Encodes s e) {d : Decoder} (hd : Decodes d s) (hsound : d.Sound)
    (pos : ℕ) : ∃ r, normalizeFrom pos d e = .ok r ∧ Encodes s r := by
  induction h generalizing d pos with
  | nil =>
    cases hd
    exact ⟨[], rfl, .nil⟩
  | @literal c s e hc h ih =>
    obtain ⟨hlow, -, hpercent, -⟩ := unreserved_spec c hc
    obtain ⟨rfl, hs⟩ := hd.of_literal hlow
    obtain ⟨r, hr, hsr⟩ := ih hs hsound (pos + 1)
    refine ⟨c :: r, ?_, .literal hc hsr⟩
    rw [normalizeFrom.eq_def]
    simp only [Decoder.initial, Bool.false_and, Bool.false_eq_true, if_false, ne_eq, hpercent, not_false_eq_true,
      if_true]
    rw [show (⟨.initial, false⟩ : Decoder) = .initial from rfl, hr]
    rfl
  | @escape c c₁ c₂ s e h₁ h₂ h ih =>
    obtain ⟨d', he, hs⟩ := hd.escaped
    obtain ⟨r, hr, hsr⟩ := ih hs (hsound.escaped he) (pos + 3)
    refine ⟨_, ?_, normalized_encodes hsound h₁ h₂ he hsr⟩
    simp only [normalizeFrom, ne_eq, not_true_eq_false, decide_false, Bool.and_false, Bool.false_eq_true, if_false,
      (isHexdigit_of_hexDigitOf h₁).1, (isHexdigit_of_hexDigitOf h₂).1, Bool.and_self, if_true,
      extractEscapedChar_of_hexDigitOf h₁ h₂, he, hr]
    rfl

theorem normalizeFrom_append {a : Str} (ha : code '%' ∉ a) (s : Str) (pos : ℕ) :
    normalizeFrom pos .initial (a ++ s) = (normalizeFrom (pos + a.length) .initial s).map (fun r => a ++ r) := by
  induction a generalizing pos with
  | nil => cases h : normalizeFrom pos .initial s <;> simp [h, Except.map]
  | cons c a ih =>
    rw [List.mem_cons, not_or] at ha
    rw [List.cons_append, normalizeFrom.eq_def]
    simp only [Decoder.initial, Bool.false_and, Bool.false_eq_true, if_false, ne_eq, Ne.symm ha.1, not_false_eq_true,
      if_true]
    rw [show (⟨.initial, false⟩ : Decoder) = .initial from rfl, ih ha.2, List.length_cons, Nat.add_right_comm,
      Nat.add_assoc]
    cases normalizeFrom (pos + (a.length + 1)) .initial s <;> rfl

theorem targetPath_literal {a : Str} (ha : code '%' ∉ a) : targetPath a = .ok a := by
  have hn : normalizeFrom 0 .initial a = .ok a := by
    have := normalizeFrom_append ha [] 0
    rw [List.append_nil] at this
    rw [this]
    simp [normalizeFrom, Decoder.initial, Except.map]
  simp [targetPath, estimateRequiredCapacity, hn, Except.map, bind, Except.bind]

theorem targetPath_encodes {a s e : Str} (ha : code '%' ∉ a) (hs : Utf8 s) (h : Encodes s e) :
    ∃ r, targetPath (a ++ e) = .ok (a ++ r) ∧ Encodes s r := by
  obtain ⟨r, hr, hsr⟩ := normalizeFrom_encodes h (decodes_of_utf8 hs) Decoder.sound_initial (0 + a.length)
  have hn : normalizeFrom 0 .initial (a ++ e) = .ok (a ++ r) := by
    rw [normalizeFrom_append ha, hr]
    rfl
  simp only [targetPath, estimateRequiredCapacity, hn, Except.map, bind, Except.bind]
  by_cases hl : (a ++ r).length ≠ (a ++ e).length
  · rw [if_pos hl]
    exact ⟨r, rfl, hsr⟩
  · rw [if_neg hl]
    exact ⟨e, rfl, h⟩

end NgkNet.Restinio.PercentEncoding
