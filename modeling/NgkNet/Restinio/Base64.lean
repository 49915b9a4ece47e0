import NgkNet.Base.Ascii
import Mathlib.Data.UInt
import Mathlib.Tactic.Common

set_option autoImplicit false

namespace NgkNet.Restinio.Base64

open Ascii

section Code

def base64Alphabet : Str := ascii "ABCDEFGHIJKLMNOPQRSTUVWXYZabcdefghijklmnopqrstuvwxyz0123456789+/"

def alphabetChar (n : ℕ) : UInt8 := base64Alphabet.getD n 0

def isBase64Char (c : UInt8) : Bool :=
  isDigit c || isUpper c || isLower c || c = code '+' || c = code '/' || c = code '='

def decodeTable (c : UInt8) : ℕ :=
  if isUpper c then c.toNat - 65
  else if isLower c then c.toNat - 97 + 26
  else if isDigit c then c.toNat - 48 + 52
  else if c = code '+' then 62
  else if c = code '/' then 63
  else 0

inductive ExpectedType where
  | b64ch
  | b64chOrPadding
  | padding
  deriving DecidableEq

structure Scanner where
  expects : ExpectedType
  b64charsFound : ℕ
  paddingsFound : ℕ
  deriving DecidableEq

def Scanner.next (s : Scanner) (ch : UInt8) : Option Scanner :=
  match s.expects with
  | .b64ch =>
    if ch = code '=' then none
    else if isBase64Char ch then
      some { s with
        expects := if 2 ≤ s.b64charsFound + 1 then .b64chOrPadding else .b64ch
        b64charsFound := s.b64charsFound + 1 }
    else none
  | .b64chOrPadding =>
    if ch = code '=' then some { s with expects := .padding, paddingsFound := s.paddingsFound + 1 }
    else if isBase64Char ch then some s
    else none
  | .padding =>
    if ch = code '=' then
      if 2 < s.paddingsFound + 1 then none else some { s with paddingsFound := s.paddingsFound + 1 }
    else none

def isValidBase64String (str : Str) : Bool := 4 ≤ str.length && (str.foldlM Scanner.next ⟨.b64ch, 0, 0⟩).isSome

def sixbitsChar (shift bs : ℕ) : ℕ := (bs >>> shift) &&& 63

def encode : Str → Str
  | a :: b :: c :: rest =>
    let bs := (a.toNat <<< 16) ||| (b.toNat <<< 8) ||| c.toNat
    [alphabetChar (sixbitsChar 18 bs), alphabetChar (sixbitsChar 12 bs), alphabetChar (sixbitsChar 6 bs),
      alphabetChar (sixbitsChar 0 bs)] ++ encode rest
  | [a, b] =>
    let bs := (a.toNat <<< 16) ||| (b.toNat <<< 8)
    [alphabetChar (sixbitsChar 18 bs), alphabetChar (sixbitsChar 12 bs), alphabetChar (sixbitsChar 6 bs), code '=']
  | [a] =>
    let bs := a.toNat <<< 16
    [alphabetChar (sixbitsChar 18 bs), alphabetChar (sixbitsChar 12 bs), code '=', code '=']
  | [] => []

inductive DecodingError where
  | invalidBase64Sequence
  deriving DecidableEq

def decodeGroup (a b c d : UInt8) : Str :=
  let paddingsFound := (if c = code '=' then 1 else 0) + (if d = code '=' then 1 else 0)
  let bs := (decodeTable a <<< 6) ||| decodeTable b
  let bs := (bs <<< 6) ||| (if c = code '=' then 0 else decodeTable c)
  let bs := (bs <<< 6) ||| (if d = code '=' then 0 else decodeTable d)
  UInt8.ofNat (bs >>> 16) ::
    ((if paddingsFound < 2 then [UInt8.ofNat (bs >>> 8)] else []) ++ (if paddingsFound < 1 then [UInt8.ofNat bs] else []))

def decodeGroups (memory : ℕ → UInt8) : Str → Str
  -- `memory` is what stands behind the end of the view: nothing keeps the last group inside it.
  | a :: b :: c :: d :: rest => decodeGroup a b c d ++ decodeGroups memory rest
  | [a, b, c] => decodeGroup a b c (memory 0)
  | [a, b] => decodeGroup a b (memory 0) (memory 1)
  | [a] => decodeGroup a (memory 0) (memory 1) (memory 2)
  | [] => []

def tryDecode (memory : ℕ → UInt8) (str : Str) : Except DecodingError Str :=
  if isValidBase64String str then .ok (decodeGroups memory str) else .error .invalidBase64Sequence

end Code

section Characters

set_option maxRecDepth 4000 in
theorem alphabetChar_spec {n : ℕ} (h : n < 64) :
    decodeTable (alphabetChar n) = n ∧ alphabetChar n ≠ code '=' ∧ isBase64Char (alphabetChar n) = true := by
  have hall : ∀ n : Fin 64, decodeTable (alphabetChar n) = n.1 ∧ alphabetChar n ≠ code '=' ∧
      isBase64Char (alphabetChar n) = true := by decide
  exact hall ⟨n, h⟩

theorem sixbitsChar_eq (shift bs : ℕ) : sixbitsChar shift bs = bs / 2 ^ shift % 64 := by
  rw [sixbitsChar, Nat.shiftRight_eq_div_pow]
  exact Nat.and_two_pow_sub_one_eq_mod _ 6

theorem sixbitsChar_lt (shift bs : ℕ) : sixbitsChar shift bs < 64 := by
  rw [sixbitsChar_eq]
  exact Nat.mod_lt _ (by decide)

theorem decodeTable_sixbitsChar (shift bs : ℕ) :
    decodeTable (alphabetChar (sixbitsChar shift bs)) = bs / 2 ^ shift % 64 := by
  rw [(alphabetChar_spec (sixbitsChar_lt shift bs)).1, sixbitsChar_eq]

theorem shiftLeft_or {x y k : ℕ} (h : y < 2 ^ k) : (x <<< k) ||| y = x * 2 ^ k + y := by
  rw [← Nat.shiftLeft_add_eq_or_of_lt h, Nat.shiftLeft_eq]

theorem pair_eq (a b : UInt8) : (a.toNat <<< 16) ||| (b.toNat <<< 8) = a.toNat * 65536 + b.toNat * 256 := by
  have hb := b.toNat_lt
  rw [Nat.shiftLeft_eq b.toNat, shiftLeft_or (by omega)]
  simp only [Nat.reducePow]

theorem group_eq (a b c : UInt8) :
    (a.toNat <<< 16) ||| (b.toNat <<< 8) ||| c.toNat = a.toNat * 65536 + b.toNat * 256 + c.toNat := by
  have hc := c.toNat_lt
  have hpair : a.toNat * 65536 + b.toNat * 256 = (a.toNat * 256 + b.toNat) <<< 8 := by
    rw [Nat.shiftLeft_eq]
    omega
  rw [pair_eq, hpair, shiftLeft_or (by omega), Nat.shiftLeft_eq]

theorem chars_eq {p q r s : ℕ} (hq : q < 64) (hr : r < 64) (hs : s < 64) :
    ((((p <<< 6) ||| q) <<< 6 ||| r) <<< 6) ||| s = p * 262144 + q * 4096 + r * 64 + s := by
  rw [shiftLeft_or (by omega), shiftLeft_or (by omega), shiftLeft_or (by omega)]
  omega

theorem ofNat_eq {n : ℕ} {a : UInt8} (h : n % 256 = a.toNat) : UInt8.ofNat n = a := by
  apply UInt8.toNat_inj.mp
  rw [UInt8.toNat_ofNat', ← h]

end Characters

section Groups

theorem decodeGroup_three (a b c : UInt8) :
    decodeGroup (alphabetChar (sixbitsChar 18 ((a.toNat <<< 16) ||| (b.toNat <<< 8) ||| c.toNat)))
      (alphabetChar (sixbitsChar 12 ((a.toNat <<< 16) ||| (b.toNat <<< 8) ||| c.toNat)))
      (alphabetChar (sixbitsChar 6 ((a.toNat <<< 16) ||| (b.toNat <<< 8) ||| c.toNat)))
      (alphabetChar (sixbitsChar 0 ((a.toNat <<< 16) ||| (b.toNat <<< 8) ||| c.toNat))) = [a, b, c] := by
  have ha := a.toNat_lt
  have hb := b.toNat_lt
  have hc := c.toNat_lt
  have hpadding (shift bs : ℕ) := (alphabetChar_spec (sixbitsChar_lt shift bs)).2.1
  simp only [decodeGroup, decodeTable_sixbitsChar, hpadding, if_false, group_eq]
  rw [chars_eq (Nat.mod_lt _ (by decide)) (Nat.mod_lt _ (by decide)) (Nat.mod_lt _ (by decide))]
  simp only [Nat.shiftRight_eq_div_pow, Nat.add_zero, Nat.zero_lt_succ, if_true, List.cons_append, List.nil_append]
  congr 1
  · apply ofNat_eq
    omega
  congr 1
  · apply ofNat_eq
    omega
  congr 1
  apply ofNat_eq
  omega

theorem decodeGroup_two (a b : UInt8) :
    decodeGroup (alphabetChar (sixbitsChar 18 ((a.toNat <<< 16) ||| (b.toNat <<< 8))))
      (alphabetChar (sixbitsChar 12 ((a.toNat <<< 16) ||| (b.toNat <<< 8))))
      (alphabetChar (sixbitsChar 6 ((a.toNat <<< 16) ||| (b.toNat <<< 8)))) (code '=') = [a, b] := by
  have ha := a.toNat_lt
  have hb := b.toNat_lt
  have hpadding (shift bs : ℕ) := (alphabetChar_spec (sixbitsChar_lt shift bs)).2.1
  simp only [decodeGroup, decodeTable_sixbitsChar, hpadding, if_false, if_true, pair_eq]
  rw [chars_eq (Nat.mod_lt _ (by decide)) (Nat.mod_lt _ (by decide)) (by decide)]
  simp only [Nat.shiftRight_eq_div_pow, Nat.zero_add, Nat.reduceLT, Nat.lt_irrefl, if_true, if_false, List.append_nil]
  congr 1
  · apply ofNat_eq
    omega
  congr 1
  apply ofNat_eq
  omega

theorem decodeGroup_one (a : UInt8) :
    decodeGroup (alphabetChar (sixbitsChar 18 (a.toNat <<< 16))) (alphabetChar (sixbitsChar 12 (a.toNat <<< 16)))
      (code '=') (code '=') = [a] := by
  have ha := a.toNat_lt
  simp only [decodeGroup, decodeTable_sixbitsChar, if_true, Nat.shiftLeft_eq a.toNat]
  rw [chars_eq (Nat.mod_lt _ (by decide)) (by decide) (by decide)]
  simp only [Nat.shiftRight_eq_div_pow, Nat.reduceAdd, Nat.lt_irrefl, Nat.reduceLT, if_false, List.append_nil]
  congr 1
  apply ofNat_eq
  omega

theorem decodeGroups_encode (memory : ℕ → UInt8) (str : Str) : decodeGroups memory (encode str) = str := by
  fun_induction encode str with
  | case1 a b c rest bs ih =>
    change decodeGroup _ _ _ _ ++ decodeGroups memory (encode rest) = _
    rw [decodeGroup_three, ih]
    rfl
  | case2 a b bs =>
    change decodeGroup _ _ _ _ ++ [] = _
    rw [decodeGroup_two, List.append_nil]
  | case3 a bs =>
    change decodeGroup _ _ _ _ ++ [] = _
    rw [decodeGroup_one, List.append_nil]
  | case4 => rfl

theorem decodeGroups_memory (memory memory' : ℕ → UInt8) {str : Str} (h : 4 ∣ str.length) :
    decodeGroups memory str = decodeGroups memory' str := by
  fun_induction decodeGroups memory str with
  | case1 a b c d rest ih =>
    rw [decodeGroups, ih]
    simp only [List.length_cons] at h
    omega
  | case2 | case3 | case4 =>
    simp only [List.length_cons, List.length_nil] at h
    omega
  | case5 => rfl

theorem decodeGroups_length_lt {str : Str} (h : ¬ 4 ∣ str.length) :
    (decodeGroups (fun _ => code '=') str).length < (decodeGroups (fun _ => code 'A') str).length := by
  have hne : code 'A' ≠ code '=' := by decide
  fun_induction decodeGroups (fun _ => code '=') str with
  | case1 a b c d rest ih =>
    rw [decodeGroups, List.length_append, List.length_append]
    apply Nat.add_lt_add_left
    apply ih
    simp only [List.length_cons] at h
    omega
  | case2 a b c =>
    by_cases hc : c = code '='
    · simp [decodeGroups, decodeGroup, hc, hne]
    · simp [decodeGroups, decodeGroup, hc, hne]
  | case3 a b => simp [decodeGroups, decodeGroup, hne]
  | case4 a => simp [decodeGroups, decodeGroup, hne]
  | case5 => exact absurd (Nat.dvd_zero 4) h

theorem isBase64Char_encode (str : Str) : ∀ c ∈ encode str, isBase64Char c = true := by
  have hchar (shift bs : ℕ) := (alphabetChar_spec (sixbitsChar_lt shift bs)).2.2
  have hpadding : isBase64Char (code '=') = true := rfl
  fun_induction encode str with
  | case1 a b c rest bs ih =>
    simp only [List.forall_mem_append, List.forall_mem_cons, hchar, true_and]
    exact ⟨List.forall_mem_nil _, ih⟩
  | case2 | case3 =>
    simp only [List.forall_mem_cons, hchar, hpadding, true_and]
    exact List.forall_mem_nil _
  | case4 => exact List.forall_mem_nil _

end Groups

section Validity

theorem next_first (n k : ℕ) (h : n < 64) : Scanner.next ⟨.b64ch, k, 0⟩ (alphabetChar n) =
    some ⟨if 2 ≤ k + 1 then .b64chOrPadding else .b64ch, k + 1, 0⟩ := by
  obtain ⟨-, hpadding, hchar⟩ := alphabetChar_spec h
  rw [Scanner.next]
  simp only [hpadding, hchar, if_false, if_true]

theorem next_alphabetChar (n : ℕ) (h : n < 64) :
    Scanner.next ⟨.b64chOrPadding, 2, 0⟩ (alphabetChar n) = some ⟨.b64chOrPadding, 2, 0⟩ := by
  obtain ⟨-, hpadding, hchar⟩ := alphabetChar_spec h
  rw [Scanner.next]
  simp only [hpadding, hchar, if_false, if_true]

theorem scan_encode (str : Str) : (List.foldlM Scanner.next ⟨.b64chOrPadding, 2, 0⟩ (encode str)).isSome = true := by
  have hnext (shift bs : ℕ) := next_alphabetChar _ (sixbitsChar_lt shift bs)
  fun_induction encode str with
  | case1 a b c rest bs ih =>
    simp only [List.cons_append, List.nil_append, List.foldlM_cons, hnext, Option.bind_eq_bind, Option.bind_some]
    exact ih
  | case2 a b bs =>
    simp only [List.foldlM_cons, hnext, Option.bind_eq_bind, Option.bind_some]
    rfl
  | case3 a bs =>
    simp only [List.foldlM_cons, hnext, Option.bind_eq_bind, Option.bind_some]
    rfl
  | case4 => rfl

theorem isValidBase64String_encode {str : Str} (h : str ≠ []) : isValidBase64String (encode str) = true := by
  have hnext (shift bs : ℕ) := next_alphabetChar _ (sixbitsChar_lt shift bs)
  have hfirst (k shift bs : ℕ) := next_first _ k (sixbitsChar_lt shift bs)
  have htwo : (if 2 ≤ 0 + 1 then ExpectedType.b64chOrPadding else .b64ch) = .b64ch := rfl
  have hthree : (if 2 ≤ 0 + 1 + 1 then ExpectedType.b64chOrPadding else .b64ch) = .b64chOrPadding := rfl
  rw [isValidBase64String, Bool.and_eq_true, decide_eq_true_eq]
  fun_cases encode str with
  | case1 a b c rest bs =>
    simp only [List.cons_append, List.nil_append, List.foldlM_cons, hfirst, hnext, htwo, hthree, Option.bind_eq_bind,
      Option.bind_some, List.length_cons]
    exact ⟨by omega, scan_encode rest⟩
  | case2 a b bs =>
    simp only [List.foldlM_cons, hfirst, hnext, htwo, hthree, Option.bind_eq_bind, Option.bind_some]
    exact ⟨le_rfl, rfl⟩
  | case3 a bs =>
    simp only [List.foldlM_cons, hfirst, htwo, hthree, Option.bind_eq_bind, Option.bind_some]
    exact ⟨le_rfl, rfl⟩
  | case4 => exact absurd rfl h

end Validity

section Results

/-- What `encode` makes is decoded again, the empty text apart: its code is too short to be valid. -/
theorem tryDecode_encode (memory : ℕ → UInt8) (str : Str) :
    tryDecode memory (encode str) = if str = [] then .error .invalidBase64Sequence else .ok str := by
  rw [tryDecode]
  by_cases h : str = []
  · rw [if_pos h, h]
    rfl
  · rw [if_neg h, if_pos (isValidBase64String_encode h), decodeGroups_encode]

/-- The check leaves the length open, so that a text it accepts can end inside a group. -/
theorem tryDecode_memory_iff (str : Str) : (∀ memory memory', tryDecode memory str = tryDecode memory' str) ↔
    (isValidBase64String str = true → 4 ∣ str.length) := by
  constructor
  · intro hsame hvalid
    by_contra hlength
    have hdecoded := hsame (fun _ => code '=') (fun _ => code 'A')
    rw [tryDecode, tryDecode, if_pos hvalid, if_pos hvalid, Except.ok.injEq] at hdecoded
    have hlt := decodeGroups_length_lt hlength
    rw [hdecoded] at hlt
    exact Nat.lt_irrefl _ hlt
  · intro hlength memory memory'
    rw [tryDecode, tryDecode]
    split_ifs with hvalid
    · rw [decodeGroups_memory memory memory' (hlength hvalid)]
    · rfl

end Results

end NgkNet.Restinio.Base64
