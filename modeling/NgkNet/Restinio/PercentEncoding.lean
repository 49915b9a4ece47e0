import NgkNet.Restinio.Utf8Checker

set_option autoImplicit false

namespace NgkNet.Restinio.PercentEncoding

open Ascii

def ordinaryChar (c : UInt8) : Bool :=
  isDigit c || isLower c || isUpper c || c = code '-' || c = code '.' || c = code '~' || c = code '_'

def isHexdigit (c : UInt8) : Bool :=
  isDigit c || (code 'a' ≤ c && c ≤ code 'f') || (code 'A' ≤ c && c ≤ code 'F')

def hexValue (c : UInt8) : UInt8 := if isDigit c then c - code '0' else 10 + (c ||| 0x20) - code 'a'

def extractEscapedChar (c₁ c₂ : UInt8) : UInt8 := (hexValue c₁ <<< 4) + hexValue c₂

inductive EscapeError where
  | nextByteExpected (pos : ℕ)
  | invalidUtf8 (pos : ℕ)
  | invalidEscape (pos : ℕ)
  | invalidChar (c : UInt8) (pos : ℕ)
  | unfinishedUtf8
  deriving DecidableEq

structure Decoder where
  checker : Utf8Checker
  expectNextByte : Bool
  deriving DecidableEq

namespace Decoder

def initial : Decoder := ⟨.initial, false⟩

def escaped (ch : UInt8) (d : Decoder) : Option Decoder :=
  let (ok, checker) := d.checker.processByte ch
  if ok then
    if checker.finalized then some ⟨checker.reset, false⟩ else some ⟨checker, true⟩
  else none

def symbol (ch : UInt8) (d : Decoder) : UInt32 := (d.checker.processByte ch).2.currentSymbol

end Decoder

def unescapeFrom (pos : ℕ) (d : Decoder) : Str → Except EscapeError Str
  | [] => if d.expectNextByte then .error .unfinishedUtf8 else .ok []
  | c :: s =>
    if d.expectNextByte && c ≠ code '%' then .error (.nextByteExpected pos)
    else if c = code '%' then
      match s with
      | c₁ :: c₂ :: s =>
        if isHexdigit c₁ && isHexdigit c₂ then
          match d.escaped (extractEscapedChar c₁ c₂) with
          | some d => (unescapeFrom (pos + 3) d s).map (fun r => extractEscapedChar c₁ c₂ :: r)
          | none => .error (.invalidUtf8 pos)
        else .error (.invalidEscape pos)
      | _ => .error (.invalidEscape pos)
    else if c = code '+' then (unescapeFrom (pos + 1) d s).map (fun r => code ' ' :: r)
    else if ordinaryChar c then (unescapeFrom (pos + 1) d s).map (fun r => c :: r)
    else .error (.invalidChar c pos)

def unescapePercentEncoding (data : Str) : Except EscapeError Str := unescapeFrom 0 .initial data

def isUnreservedChar (c : UInt8) : Bool := ordinaryChar c

def normalizeFrom (pos : ℕ) (d : Decoder) : Str → Except EscapeError Str
  | [] => if d.expectNextByte then .error .unfinishedUtf8 else .ok []
  | c :: s =>
    if d.expectNextByte && c ≠ code '%' then .error (.nextByteExpected pos)
    else if c ≠ code '%' then (normalizeFrom (pos + 1) d s).map (fun r => c :: r)
    else
      match s with
      | c₁ :: c₂ :: s =>
        if isHexdigit c₁ && isHexdigit c₂ then
          let ch := extractEscapedChar c₁ c₂
          match d.escaped ch with
          | some d' =>
            let out := if !d'.expectNextByte && d.symbol ch < 0x80 && isUnreservedChar (d.symbol ch).toUInt8
              then [(d.symbol ch).toUInt8] else [c, c₁, c₂]
            (normalizeFrom (pos + 3) d' s).map (fun r => out ++ r)
          | none => .error (.invalidUtf8 pos)
        else .error (.invalidEscape pos)
      | _ => .error (.invalidEscape pos)

def estimateRequiredCapacity (what : Str) : Except EscapeError ℕ :=
  (normalizeFrom 0 .initial what).map List.length

def targetPath (originalPath : Str) : Except EscapeError Str := do
  let size ← estimateRequiredCapacity originalPath
  if size ≠ originalPath.length then normalizeFrom 0 .initial originalPath
  else .ok originalPath

def Decoder.Sound (d : Decoder) : Prop :=
  if d.expectNextByte then d.checker.Pending else d.checker = .initial

theorem Decoder.sound_initial : Decoder.initial.Sound := rfl

theorem Decoder.escaped_cases {d d' : Decoder} {ch : UInt8} (h : d.Sound) (he : d.escaped ch = some d') :
    d'.expectNextByte = true ∧ d'.checker.Pending ∨
      d' = .initial ∧ (d = .initial ∧ d.symbol ch = ch.toUInt32 ∨ 0x80 ≤ (d.symbol ch).toNat) := by
  obtain ⟨u, next⟩ := d
  have hok : (u.processByte ch).1 = true := by
    by_contra hno
    simp [Decoder.escaped, hno] at he
  simp only [Decoder.escaped, if_pos hok] at he
  have hcases : (u.processByte ch).2.Complete ∧
      (Decoder.mk u next = .initial ∧ (u.processByte ch).2.currentSymbol = ch.toUInt32 ∨
        0x80 ≤ (u.processByte ch).2.currentSymbol.toNat) ∨ (u.processByte ch).2.Pending := by
    cases next with
    | false =>
      obtain rfl : u = .initial := h
      rcases Utf8Checker.processByte_initial ch hok with ⟨hc, hs⟩ | hp
      · exact .inl ⟨hc, .inl ⟨rfl, hs⟩⟩
      · exact .inr hp
    | true =>
      rcases Utf8Checker.processByte_pending h hok with ⟨hc, hs⟩ | hp
      · exact .inl ⟨hc, .inr hs⟩
      · exact .inr hp
  rcases hcases with ⟨⟨hz, hv⟩, hs⟩ | hp
  · have hf : (u.processByte ch).2.finalized = true := by simpa [Utf8Checker.finalized] using hz
    rw [if_pos hf, Option.some.injEq] at he
    refine .inr ⟨?_, hs⟩
    rw [← he, Utf8Checker.reset, hv]
    rfl
  · have hf : (u.processByte ch).2.finalized = false := by
      have := hp.1.1
      simp only [Utf8Checker.finalized, decide_eq_false_iff_not]
      omega
    rw [hf, if_neg (by decide), Option.some.injEq] at he
    subst he
    exact .inl ⟨rfl, hp⟩

theorem Decoder.Sound.escaped {d d' : Decoder} {ch : UInt8} (h : d.Sound) (he : d.escaped ch = some d') :
    d'.Sound := by
  rcases escaped_cases h he with ⟨hn, hp⟩ | ⟨rfl, -⟩
  · rwa [Sound, if_pos hn]
  · exact sound_initial

inductive Wellformed : Decoder → Str → Prop
  | nil {d : Decoder} (h : d.expectNextByte = false) : Wellformed d []
  | plain {d : Decoder} {c : UInt8} {s : Str} (h : d.expectNextByte = false) (hc : c ≠ code '%')
      (hs : Wellformed d s) : Wellformed d (c :: s)
  | escape {d d' : Decoder} {c₁ c₂ : UInt8} {s : Str} (hx : isHexdigit c₁ = true ∧ isHexdigit c₂ = true)
      (he : d.escaped (extractEscapedChar c₁ c₂) = some d') (hs : Wellformed d' s) :
      Wellformed d (code '%' :: c₁ :: c₂ :: s)

theorem map_eq_ok {ε α β : Type} {f : α → β} {x : Except ε α} {b : β} (h : x.map f = .ok b) :
    ∃ a, x = .ok a ∧ f a = b := by
  cases x with
  | error e => cases h
  | ok a => exact ⟨a, rfl, Except.ok.inj h⟩

theorem isUnreservedChar_ne_percent {c : UInt8} (h : isUnreservedChar c = true) : c ≠ code '%' := by
  rintro rfl
  exact absurd h (by decide)

theorem wellformed_normalizeFrom {pos : ℕ} {d : Decoder} {s r : Str} (hd : d.Sound)
    (h : normalizeFrom pos d s = .ok r) : Wellformed d s ∧ Wellformed d r := by
  fun_induction normalizeFrom pos d s generalizing r with
  | case2 pos d hn =>
    obtain rfl := Except.ok.inj h
    exact ⟨.nil (by simpa using hn), .nil (by simpa using hn)⟩
  | case4 pos d c s hn hc ih =>
    obtain ⟨r, hr, rfl⟩ := map_eq_ok h
    have hn : d.expectNextByte = false := by simpa [hc] using hn
    exact ⟨.plain hn hc (ih hd hr).1, .plain hn hc (ih hd hr).2⟩
  | case5 pos d c hn hc c₁ c₂ s hx ch d' he out =>
    rename_i ih
    obtain ⟨r, hr, rfl⟩ := map_eq_ok h
    obtain ⟨hs, hr⟩ := ih (hd.escaped he) hr
    obtain rfl := not_ne_iff.mp hc
    rw [Bool.and_eq_true] at hx
    refine ⟨.escape hx he hs, ?_⟩
    by_cases hout : (!d'.expectNextByte && decide (d.symbol ch < 0x80) &&
        isUnreservedChar (d.symbol ch).toUInt8) = true
    · rw [show out = [(d.symbol ch).toUInt8] from if_pos hout]
      simp only [Bool.and_eq_true, Bool.not_eq_true', decide_eq_true_eq, UInt32.lt_iff_toNat_lt] at hout
      obtain ⟨⟨hn', hlow⟩, hu⟩ := hout
      rcases Decoder.escaped_cases hd he with ⟨hp, -⟩ | ⟨rfl, ⟨rfl, -⟩ | hhigh⟩
      · simp [hn'] at hp
      · exact .plain rfl (isUnreservedChar_ne_percent hu) hr
      · exact absurd hlow (Nat.not_lt.mpr hhigh)
    · rw [show out = [code '%', c₁, c₂] from if_neg hout]
      exact .escape hx he hr
  | _ => simp at h

theorem targetPath_wellformed {p q : Str} (h : targetPath p = .ok q) : Wellformed .initial q := by
  cases hn : normalizeFrom 0 .initial p with
  | error e => simp [targetPath, estimateRequiredCapacity, hn, Except.map, bind, Except.bind] at h
  | ok r =>
    obtain ⟨hp, hr⟩ := wellformed_normalizeFrom Decoder.sound_initial hn
    simp only [targetPath, estimateRequiredCapacity, hn, Except.map, bind, Except.bind] at h
    by_cases hl : r.length ≠ p.length
    · rw [if_pos hl] at h
      rwa [← Except.ok.inj h]
    · rw [if_neg hl] at h
      rwa [← Except.ok.inj h]

theorem Wellformed.cons_inv {d : Decoder} {c : UInt8} {s : Str} (h : Wellformed d (c :: s)) :
    d.expectNextByte = false ∧ c ≠ code '%' ∧ Wellformed d s ∨
      c = code '%' ∧ ∃ c₁ c₂ s' d', s = c₁ :: c₂ :: s' ∧ (isHexdigit c₁ = true ∧ isHexdigit c₂ = true) ∧
        d.escaped (extractEscapedChar c₁ c₂) = some d' ∧ Wellformed d' s' := by
  cases h with
  | plain hn hc hs => exact .inl ⟨hn, hc, hs⟩
  | escape hx he hs => exact .inr ⟨rfl, _, _, _, _, rfl, hx, he, hs⟩

theorem Wellformed.drop {d : Decoder} {a s : Str} (ha : code '%' ∉ a) (h : Wellformed d (a ++ s)) :
    Wellformed d s := by
  induction a with
  | nil => exact h
  | cons c a ih =>
    rw [List.mem_cons, not_or] at ha
    rcases h.cons_inv with ⟨-, -, hs⟩ | ⟨hc, -⟩
    · exact ih ha.2 hs
    · exact absurd hc.symm ha.1

def Unescapable (c : UInt8) : Prop := c = code '%' ∨ c = code '+' ∨ ordinaryChar c = true

theorem unescapable_of_isHexdigit (c : UInt8) : isHexdigit c = true → Unescapable c := by
  revert c
  apply forall_byte
  unfold Unescapable
  decide +kernel

theorem Wellformed.escape_inside {d : Decoder} {s t : Str} (ht : t = [] ∨ t = [code '/'])
    (h : Wellformed d (code '%' :: (s ++ t))) :
    ∃ c₁ c₂ s' d', s = c₁ :: c₂ :: s' ∧ (isHexdigit c₁ = true ∧ isHexdigit c₂ = true) ∧
      d.escaped (extractEscapedChar c₁ c₂) = some d' ∧ Wellformed d' (s' ++ t) := by
  have hslash : isHexdigit (code '/') = false := by decide
  rcases h.cons_inv with ⟨-, hc, -⟩ | ⟨-, c₁, c₂, s', d', hs, hx, he, hw⟩
  · exact absurd rfl hc
  · rcases s with _ | ⟨a, _ | ⟨b, s⟩⟩
    · rcases ht with rfl | rfl <;> simp at hs
    · rcases ht with rfl | rfl
      · simp at hs
      · obtain ⟨rfl, rfl, -⟩ : a = c₁ ∧ code '/' = c₂ ∧ [] = s' := by simpa using hs
        simp [hslash] at hx
    · obtain ⟨rfl, rfl, rfl⟩ : a = c₁ ∧ b = c₂ ∧ s ++ t = s' := by simpa using hs
      exact ⟨a, b, s, d', rfl, hx, he, hw⟩

theorem exists_map_ok {ε α β : Type} {f : α → β} {x : Except ε α} :
    (∃ b, x.map f = .ok b) ↔ ∃ a, x = .ok a := by
  cases x <;> simp [Except.map]

theorem unescapeFrom_ok_iff {d : Decoder} {s t : Str} (ht : t = [] ∨ t = [code '/'])
    (h : Wellformed d (s ++ t)) (pos : ℕ) :
    (∃ r, unescapeFrom pos d s = .ok r) ↔ ∀ c ∈ s, Unescapable c := by
  induction hl : s.length using Nat.strongRecOn generalizing s d pos with
  | _ n ih =>
    cases s with
    | nil =>
      have hn : d.expectNextByte = false := by
        rcases ht with rfl | rfl
        · cases h with
          | nil hn => exact hn
        · cases h with
          | plain hn => exact hn
      simp [unescapeFrom, hn]
    | cons c s =>
      by_cases hc : c = code '%'
      · subst hc
        obtain ⟨c₁, c₂, s, d', rfl, hx, he, hw⟩ := h.escape_inside ht
        have hi := ih s.length (by simp at hl; omega) hw (pos + 3) rfl
        simp only [unescapeFrom, ne_eq, not_true_eq_false, decide_false, Bool.and_false, hx, Bool.and_self, he,
          if_true, Bool.false_eq_true, if_false, exists_map_ok, hi]
        have hpercent : Unescapable (code '%') := .inl rfl
        simp only [List.forall_mem_cons, hpercent, unescapable_of_isHexdigit c₁ hx.1,
          unescapable_of_isHexdigit c₂ hx.2, true_and]
      · rw [List.cons_append] at h
        rcases h.cons_inv with ⟨hn, -, hw⟩ | ⟨he, -⟩
        · have hi := ih s.length (by simp at hl; omega) hw (pos + 1) rfl
          rw [unescapeFrom.eq_def]
          simp only [hn, Bool.false_and, if_neg hc, List.forall_mem_cons]
          by_cases hplus : c = code '+'
          · have hu : Unescapable c := .inr (.inl hplus)
            simp only [if_pos hplus, exists_map_ok, hi, hu, true_and, Bool.false_eq_true, if_false]
          · by_cases ho : ordinaryChar c = true
            · have hu : Unescapable c := .inr (.inr ho)
              simp only [if_neg hplus, if_pos ho, exists_map_ok, hi, hu, true_and, Bool.false_eq_true, if_false]
            · have hu : ¬ Unescapable c := by
                rintro (h | h | h)
                · exact hc h
                · exact hplus h
                · exact ho h
              simp [hplus, ho, hu]
        · exact absurd he hc

end NgkNet.Restinio.PercentEncoding
