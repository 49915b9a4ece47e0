import Mathlib.Data.Int.Notation
import Mathlib.Data.UInt
import NgkNet.Base.Bytes
import NgkNet.Base.DoWhile

set_option autoImplicit false

namespace NgkNet.Exercise6

open Bytes DoWhile

structure Client where
  -- what the socket has not delivered yet
  stream : List UInt8
  buffer : List UInt8
  file : List UInt8
  fileSize : ℤ
  n : ℤ

def receiveBody (choice : ℕ) (c : Client) : Client :=
  let zeroed := overwrite c.buffer (List.replicate 1000 0)
  if 1000 ≤ c.fileSize then
    let got := deliver choice 1000 c.stream
    let buffer := overwrite zeroed got
    -- all 1000 bytes of the buffer are written and counted, whatever `read` returned
    ⟨c.stream.drop got.length, buffer, c.file ++ buffer.take 1000, c.fileSize - 1000, got.length⟩
  else if 0 < c.fileSize then
    let got := deliver choice c.fileSize.toNat c.stream
    let buffer := overwrite zeroed got
    ⟨c.stream.drop got.length, buffer, c.file ++ buffer.take c.fileSize.toNat,
      c.fileSize - got.length, got.length⟩
  else { c with buffer := zeroed }

def receiveAgain (c : Client) : Bool := 0 < c.fileSize

def receiveFile (fuel : ℕ) (reads : ℕ → ℕ) (buffer stream : List UInt8) (fileSize : ℤ) :
    Option (List UInt8) :=
  (loop receiveBody receiveAgain fuel reads ⟨stream, buffer, [], fileSize, 0⟩).map Client.file

def Receives (reads : ℕ → ℕ) (buffer stream : List UInt8) (fileSize : ℤ) (file : List UInt8) : Prop :=
  ∃ fuel, receiveFile fuel reads buffer stream fileSize = some file

theorem receives_iff (reads : ℕ → ℕ) (buffer stream : List UInt8) (fileSize : ℤ) (file : List UInt8) :
    Receives reads buffer stream fileSize file ↔
      ∃ c, Ends receiveBody receiveAgain reads ⟨stream, buffer, [], fileSize, 0⟩ c ∧ c.file = file := by
  constructor
  · rintro ⟨fuel, h⟩
    obtain ⟨c, hc, rfl⟩ := Option.map_eq_some_iff.mp h
    exact ⟨c, ⟨fuel, hc⟩, rfl⟩
  · rintro ⟨c, ⟨fuel, hc⟩, rfl⟩
    exact ⟨fuel, by rw [receiveFile, hc]; rfl⟩

theorem Receives.unique {reads : ℕ → ℕ} {buffer stream : List UInt8} {fileSize : ℤ}
    {file file' : List UInt8} (h : Receives reads buffer stream fileSize file)
    (h' : Receives reads buffer stream fileSize file') : file = file' := by
  obtain ⟨c, hc, rfl⟩ := (receives_iff _ _ _ _ _).mp h
  obtain ⟨d, hd, rfl⟩ := (receives_iff _ _ _ _ _).mp h'
  rw [hc.unique hd]

theorem receiveBody_block (choice : ℕ) (c : Client) (h : 1000 ≤ c.fileSize) :
    ∃ buffer n, receiveBody choice c = ⟨c.stream.drop (deliver choice 1000 c.stream).length, buffer,
      c.file ++ padded 1000 (deliver choice 1000 c.stream), c.fileSize - 1000, n⟩ := by
  have hl : (deliver choice 1000 c.stream).length ≤ 1000 := by rw [deliver_length]; omega
  simp only [receiveBody, h, ↓reduceIte]
  rw [take_overwrite_zeroed hl (Nat.le_refl _)]
  exact ⟨_, _, rfl⟩

theorem receiveBody_tail (choice : ℕ) (c : Client) (size : ℕ) (hs : c.fileSize = size) (h₁ : size < 1000)
    (h₀ : 0 < size) :
    ∃ buffer n, receiveBody choice c = ⟨c.stream.drop (deliver choice size c.stream).length, buffer,
      c.file ++ padded size (deliver choice size c.stream),
      c.fileSize - (deliver choice size c.stream).length, n⟩ := by
  have hl : (deliver choice size c.stream).length ≤ size := by rw [deliver_length]; omega
  simp only [receiveBody, hs, Int.toNat_natCast, show ¬ (1000 : ℤ) ≤ size by omega,
    show (0 : ℤ) < size by omega, ↓reduceIte]
  rw [take_overwrite_zeroed hl (by omega)]
  exact ⟨_, _, rfl⟩

def written (reads : ℕ → ℕ) (stream : List UInt8) (size : ℕ) : List UInt8 :=
  if size = 0 then []
  else if 1000 ≤ size then
    padded 1000 (deliver (reads 0) 1000 stream) ++ written (fun i => reads (i + 1))
      (stream.drop (deliver (reads 0) 1000 stream).length) (size - 1000)
  else if (deliver (reads 0) size stream).length = 0 then []
  else
    padded size (deliver (reads 0) size stream) ++ written (fun i => reads (i + 1))
      (stream.drop (deliver (reads 0) size stream).length) (size - (deliver (reads 0) size stream).length)
termination_by size
decreasing_by all_goals omega

theorem written_zero (reads : ℕ → ℕ) (stream : List UInt8) : written reads stream 0 = [] := by
  rw [written]; rfl

theorem written_block (reads : ℕ → ℕ) (stream : List UInt8) (size : ℕ) (h : 1000 ≤ size) :
    written reads stream size = padded 1000 (deliver (reads 0) 1000 stream) ++
      written (fun i => reads (i + 1)) (stream.drop (deliver (reads 0) 1000 stream).length)
        (size - 1000) := by
  rw [written, if_neg (by omega), if_pos h]

theorem written_tail (reads : ℕ → ℕ) (stream : List UInt8) (size : ℕ) (h₁ : size < 1000)
    (h₀ : 0 < (deliver (reads 0) size stream).length) :
    written reads stream size = padded size (deliver (reads 0) size stream) ++
      written (fun i => reads (i + 1)) (stream.drop (deliver (reads 0) size stream).length)
        (size - (deliver (reads 0) size stream).length) := by
  have hs : size ≠ 0 := by rintro rfl; rw [deliver_length] at h₀; omega
  rw [written, if_neg hs, if_neg (by omega), if_neg (by omega)]

theorem ends_written (reads : ℕ → ℕ) (size : ℕ) (c : Client) (hs : c.fileSize = size) (h₀ : 0 < size)
    (hl : size ≤ c.stream.length) :
    ∃ d, Ends receiveBody receiveAgain reads c d ∧ d.file = c.file ++ written reads c.stream size := by
  induction size using Nat.strongRecOn generalizing reads c with
  | _ size ih =>
    rcases Nat.lt_or_ge size 1000 with h₁ | h₁
    · obtain ⟨buffer, n, he⟩ := receiveBody_tail (reads 0) c size hs h₁ h₀
      have hd := deliver_length (reads 0) size c.stream
      have hw := written_tail reads c.stream size h₁ (by omega)
      rcases Nat.lt_or_ge (deliver (reads 0) size c.stream).length size with hg | hg
      · -- a short read of the tail: the loop goes round again
        obtain ⟨d, hend, hfile⟩ := ih (size - (deliver (reads 0) size c.stream).length) (by omega)
          (fun i => reads (i + 1)) (receiveBody (reads 0) c) (by rw [he]; simp only [hs]; omega) (by omega)
          (by rw [he]; simp only [List.length_drop]; omega)
        refine ⟨d, (ends_again ?_).mpr hend, ?_⟩
        · simp only [receiveAgain, he, hs, decide_eq_true_eq]; omega
        · rw [hfile, he, hw, List.append_assoc]
      · refine ⟨_, .stop ?_, ?_⟩
        · simp only [receiveAgain, he, hs, decide_eq_false_iff_not]; omega
        · rw [he, hw, Nat.sub_eq_zero_of_le hg, written_zero, List.append_nil]
    · obtain ⟨buffer, n, he⟩ := receiveBody_block (reads 0) c (by omega)
      have hd := deliver_length (reads 0) 1000 c.stream
      have hw := written_block reads c.stream size h₁
      rcases Nat.eq_zero_or_pos (size - 1000) with hz | hz
      · refine ⟨_, .stop ?_, ?_⟩
        · simp only [receiveAgain, he, hs, decide_eq_false_iff_not]; omega
        · rw [he, hw, hz, written_zero, List.append_nil]
      · obtain ⟨d, hend, hfile⟩ := ih (size - 1000) (by omega) (fun i => reads (i + 1))
          (receiveBody (reads 0) c) (by rw [he]; simp only [hs]; omega) hz
          (by rw [he]; simp only [List.length_drop]; omega)
        refine ⟨d, (ends_again ?_).mpr hend, ?_⟩
        · simp only [receiveAgain, he, hs, decide_eq_true_eq]; omega
        · rw [hfile, he, hw, List.append_assoc]

end NgkNet.Exercise6
