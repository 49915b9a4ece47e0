import NgkNet.Base.Bytes
import NgkNet.Base.DoWhile

set_option autoImplicit false

namespace NgkNet.Exercise8

open Bytes DoWhile

def line : ℕ → List UInt8 → List UInt8 × List UInt8
  | 0, file => ([], file)
  | _ + 1, [] => ([], [])
  | k + 1, c :: file => if c = 10 then ([c], file) else (c :: (line k file).1, (line k file).2)

def fgets (data file : List UInt8) (size : ℕ) : Option (List UInt8 × List UInt8) :=
  if file = [] then none
  else some (overwrite data ((line (size - 1) file).1 ++ [0]), (line (size - 1) file).2)

structure Server where
  file : List UInt8
  data : List UInt8
  sent : List UInt8
  more : Bool

def sendBody (_ : Unit) (s : Server) : Server :=
  let sent := s.sent ++ s.data
  match fgets s.data s.file 1000 with
  | some (data, file) => ⟨file, data, sent, true⟩
  | none => ⟨s.file, s.data, sent, false⟩

def sendFile (fuel : ℕ) (file : List UInt8) : Option (List UInt8) :=
  (loop sendBody Server.more fuel (fun _ => ()) ⟨file, List.replicate 1000 0, [], true⟩).map Server.sent

def Sends (file sent : List UInt8) : Prop := ∃ fuel, sendFile fuel file = some sent

theorem Sends.unique {file sent sent' : List UInt8} (h : Sends file sent) (h' : Sends file sent') : sent = sent' := by
  obtain ⟨fuel, h⟩ := h
  obtain ⟨fuel', h'⟩ := h'
  obtain ⟨s, hs, rfl⟩ := Option.map_eq_some_iff.mp h
  obtain ⟨t, ht, rfl⟩ := Option.map_eq_some_iff.mp h'
  rw [Ends.unique ⟨fuel, hs⟩ ⟨fuel', ht⟩]

theorem line_append (k : ℕ) (file : List UInt8) : (line k file).1 ++ (line k file).2 = file := by
  induction k generalizing file with
  | zero => rfl
  | succ k ih =>
    cases file with
    | nil => rfl
    | cons c file =>
      by_cases hc : c = 10
      · simp [line, hc]
      · simp [line, hc, ih]

theorem line_length_le (k : ℕ) (file : List UInt8) : (line k file).1.length ≤ k := by
  induction k generalizing file with
  | zero => exact Nat.le_refl 0
  | succ k ih =>
    cases file with
    | nil => exact Nat.zero_le _
    | cons c file =>
      by_cases hc : c = 10
      · simp [line, hc]
      · simpa [line, hc] using ih file

theorem line_ne_nil (k : ℕ) {file : List UInt8} (h : file ≠ []) : (line (k + 1) file).1 ≠ [] := by
  cases file with
  | nil => exact absurd rfl h
  | cons c file => by_cases hc : c = 10 <;> simp [line, hc]

theorem line_rest_length (k : ℕ) {file : List UInt8} (h : file ≠ []) :
    (line (k + 1) file).2.length < file.length := by
  have hl := congrArg List.length (line_append (k + 1) file)
  have := List.length_pos_iff.mpr (line_ne_nil k h)
  rw [List.length_append] at hl
  omega

def lines (file : List UInt8) : List (List UInt8) :=
  if _ : file = [] then [] else (line 999 file).1 :: lines (line 999 file).2
termination_by file.length
decreasing_by exact line_rest_length 998 ‹_›

theorem lines_nil : lines [] = [] := by rw [lines, dif_pos rfl]

theorem lines_next {file : List UInt8} (h : file ≠ []) :
    lines file = (line 999 file).1 :: lines (line 999 file).2 := by
  rw [lines, dif_neg h]

structure Block where
  text : List UInt8
  stale : List UInt8
  nul_free : 0 ∉ text
  length : text.length + 1 + stale.length = 1000
  last : (0 :: stale).getLast? = some 0

namespace Block

def bytes (b : Block) : List UInt8 := b.text ++ 0 :: b.stale

theorem bytes_length (b : Block) : b.bytes.length = 1000 := by
  have := b.length
  simp only [bytes, List.length_append, List.length_cons]
  omega

def first : Block where
  text := []
  stale := List.replicate 999 0
  nul_free := List.not_mem_nil
  length := by rw [List.length_nil, List.length_replicate]
  last := by decide +kernel

theorem bytes_last (b : Block) : b.bytes.getLast? = some 0 := by
  rw [bytes, List.getLast?_append, b.last]
  rfl

def next (b : Block) (text : List UInt8) (h : 0 ∉ text) (hl : text.length ≤ 999) : Block where
  text := text
  stale := b.bytes.drop (text.length + 1)
  nul_free := h
  length := by rw [List.length_drop, b.bytes_length]; omega
  last := by
    by_cases h : text.length + 1 < 1000
    · rw [List.getLast?_cons, List.getLast?_drop, b.bytes_length, if_neg (by omega), b.bytes_last]
      rfl
    · rw [List.drop_of_length_le (by rw [b.bytes_length]; omega)]
      rfl

theorem next_bytes (b : Block) (text : List UInt8) (h : 0 ∉ text) (hl : text.length ≤ 999) :
    (b.next text h hl).bytes = overwrite b.bytes (text ++ [0]) := by
  simp [bytes, next, overwrite]

end Block

theorem sendBody_end (s : Server) (h : s.file = []) :
    sendBody () s = ⟨s.file, s.data, s.sent ++ s.data, false⟩ := by
  simp [sendBody, fgets, h]

theorem sendBody_line (s : Server) (h : s.file ≠ []) :
    sendBody () s = ⟨(line 999 s.file).2, overwrite s.data ((line 999 s.file).1 ++ [0]),
      s.sent ++ s.data, true⟩ := by
  simp [sendBody, fgets, h]

theorem ends_blocks (b : Block) (file sent : List UInt8) (more : Bool) (h : 0 ∉ file) :
    ∃ blocks s, Ends sendBody Server.more (fun _ => ()) ⟨file, b.bytes, sent, more⟩ s ∧
      s.sent = sent ++ (b :: blocks).flatMap Block.bytes ∧ blocks.map Block.text = lines file := by
  induction hn : file.length using Nat.strongRecOn generalizing b file sent more with
  | _ n ih =>
    by_cases hf : file = []
    · refine ⟨[], _, .stop ?_, ?_, ?_⟩
      · rw [sendBody_end _ hf]
      · rw [sendBody_end _ hf]
        simp
      · rw [hf, lines_nil]
        rfl
    · have hm : ∀ x ∈ (line 999 file).1 ++ (line 999 file).2, x ∈ file := by
        rw [line_append]
        exact fun _ hx => hx
      have h₁ : 0 ∉ (line 999 file).1 := fun hx => h (hm 0 (List.mem_append_left _ hx))
      have h₂ : 0 ∉ (line 999 file).2 := fun hx => h (hm 0 (List.mem_append_right _ hx))
      obtain ⟨blocks, s, hs, hsent, ht⟩ := ih _ (by rw [← hn]; exact line_rest_length 998 hf)
        (b.next _ h₁ (line_length_le 999 file)) _ (sent ++ b.bytes) true h₂ rfl
      rw [Block.next_bytes, ← sendBody_line ⟨file, b.bytes, sent, more⟩ hf] at hs
      refine ⟨b.next _ h₁ (line_length_le 999 file) :: blocks, s, (ends_again ?_).mpr hs, ?_, ?_⟩
      · rw [sendBody_line _ hf]
      · rw [hsent, List.append_assoc]
        rfl
      · rw [lines_next hf, List.map_cons, ht]
        rfl

theorem sends_blocks (file : List UInt8) (h : 0 ∉ file) :
    ∃ blocks, Sends file ((Block.first :: blocks).flatMap Block.bytes) ∧
      blocks.map Block.text = lines file := by
  obtain ⟨blocks, s, ⟨fuel, hs⟩, hsent, ht⟩ := ends_blocks .first file [] true h
  refine ⟨blocks, ⟨fuel, ?_⟩, ht⟩
  have hf : Block.first.bytes = List.replicate 1000 0 := by decide +kernel
  rw [hf] at hs
  rw [sendFile, hs, Option.map_some, hsent, List.nil_append]

theorem lines_flatten (file : List UInt8) : (lines file).flatten = file := by
  induction hn : file.length using Nat.strongRecOn generalizing file with
  | _ n ih =>
    by_cases hf : file = []
    · rw [hf, lines_nil]
      rfl
    · rw [lines_next hf, List.flatten_cons, ih _ (by rw [← hn]; exact line_rest_length 998 hf) _ rfl,
        line_append]

theorem lines_ne_nil {file text : List UInt8} (h : text ∈ lines file) : text ≠ [] := by
  induction hn : file.length using Nat.strongRecOn generalizing file with
  | _ n ih =>
    by_cases hf : file = []
    · rw [hf, lines_nil] at h
      simp at h
    · rw [lines_next hf, List.mem_cons] at h
      rcases h with rfl | h
      · exact line_ne_nil 998 hf
      · exact ih _ (by rw [← hn]; exact line_rest_length 998 hf) h rfl

end NgkNet.Exercise8
