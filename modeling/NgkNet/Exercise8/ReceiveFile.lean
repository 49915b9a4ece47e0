import NgkNet.Base.CString
import NgkNet.Base.DoWhile
import NgkNet.Base.Segments

set_option autoImplicit false

namespace NgkNet.Exercise8

open Bytes CString DoWhile Segments

structure Client where
  stream : List UInt8
  buffer : List UInt8
  file : Option (List UInt8)
  n : ℕ

def receiveBody (choice : ℕ) (c : Client) : Client :=
  let got := deliver choice 1000 c.stream
  let buffer := overwrite c.buffer got
  ⟨c.stream.drop got.length, overwrite buffer (List.replicate 1000 0),
    c.file.bind (fun file => (text buffer).map (fun printed => file ++ printed)), got.length⟩

def receiveAgain (c : Client) : Bool := 0 < c.n

def receiveFile (fuel : ℕ) (reads : ℕ → ℕ) (buffer stream : List UInt8) : Option (List UInt8) :=
  (loop receiveBody receiveAgain fuel reads ⟨stream, buffer, some [], 0⟩).bind Client.file

def Receives (reads : ℕ → ℕ) (buffer stream file : List UInt8) : Prop :=
  ∃ fuel, receiveFile fuel reads buffer stream = some file

theorem Receives.of_ends {reads : ℕ → ℕ} {buffer stream file : List UInt8} {c : Client}
    (h : Ends receiveBody receiveAgain reads ⟨stream, buffer, some [], 0⟩ c) (hf : c.file = some file) :
    Receives reads buffer stream file := by
  obtain ⟨fuel, h⟩ := h
  exact ⟨fuel, by rw [receiveFile, h, Option.bind_some, hf]⟩

theorem Receives.unique {reads : ℕ → ℕ} {buffer stream file file' : List UInt8}
    (h : Receives reads buffer stream file) (h' : Receives reads buffer stream file') : file = file' := by
  obtain ⟨fuel, h⟩ := h
  obtain ⟨fuel', h'⟩ := h'
  obtain ⟨c, hc, hf⟩ := Option.bind_eq_some_iff.mp h
  obtain ⟨d, hd, hg⟩ := Option.bind_eq_some_iff.mp h'
  obtain rfl := Ends.unique ⟨fuel, hc⟩ ⟨fuel', hd⟩
  rw [hf] at hg
  exact Option.some.inj hg

def printed (position : ℕ) (reads : ℕ → ℕ) (stream : List UInt8) : List UInt8 :=
  (segments 1000 position reads stream).flatMap (fun s => s.2.takeWhile (fun x => x ≠ 0))

def HasNul (got : List UInt8) : Prop := 0 ∈ got ∨ got.length < 1000

theorem receiveBody_text {choice : ℕ} {stream buffer shown : List UInt8} (file : List UInt8) (n : ℕ)
    (h : text (overwrite buffer (deliver choice 1000 stream)) = some shown) :
    receiveBody choice ⟨stream, buffer, some file, n⟩ =
      ⟨stream.drop (deliver choice 1000 stream).length,
        List.replicate 1000 0 ++ (overwrite buffer (deliver choice 1000 stream)).drop 1000,
        some (file ++ shown), (deliver choice 1000 stream).length⟩ := by
  simp only [receiveBody, overwrite_replicate, Option.bind_some, h, Option.map_some]

theorem text_zeroed {got : List UInt8} (junk : List UInt8) (h : HasNul got) :
    text (overwrite (List.replicate 1000 0 ++ junk) got) = some (got.takeWhile (fun x => x ≠ 0)) := by
  apply text_append_of_stop
  apply h.imp_right
  intro hlt
  rw [List.drop_append_of_le_length (by rw [List.length_replicate]; omega), List.drop_replicate,
    List.head?_append, List.head?_replicate, if_neg (by omega)]
  rfl

theorem ends_printed (position : ℕ) (reads : ℕ → ℕ) (stream junk file : List UInt8) (n : ℕ)
    (h : ∀ s ∈ segments 1000 position reads stream, HasNul s.2) :
    ∃ c, Ends receiveBody receiveAgain reads ⟨stream, List.replicate 1000 0 ++ junk, some file, n⟩ c ∧
      c.file = some (file ++ printed position reads stream) := by
  induction hn : stream.length using Nat.strongRecOn generalizing position reads stream junk file n with
  | _ k ih =>
    have hlen := deliver_length (reads 0) 1000 stream
    by_cases h₀ : (deliver (reads 0) 1000 stream).length = 0
    · have he := receiveBody_text file n (text_zeroed junk (.inr (by omega) : HasNul (deliver (reads 0) 1000 stream)))
      refine ⟨_, .stop ?_, ?_⟩
      · rw [he]
        simp [receiveAgain, h₀]
      · rw [he, printed, segments_end h₀, List.length_eq_zero_iff.mp h₀]
        rfl
    · rw [segments_next h₀] at h
      have he := receiveBody_text file n (text_zeroed junk (h _ List.mem_cons_self))
      obtain ⟨c, hc, hf⟩ := ih _ (by rw [List.length_drop]; omega)
        (position + (deliver (reads 0) 1000 stream).length) (fun i => reads (i + 1)) _ _ _ _
        (fun s hs => h s (List.mem_cons_of_mem _ hs)) rfl
      rw [← he] at hc
      refine ⟨c, (ends_again ?_).mpr hc, ?_⟩
      · rw [he]
        simp only [receiveAgain, decide_eq_true_eq]
        omega
      · rw [hf, printed, printed, segments_next h₀, List.flatMap_cons, List.append_assoc]

theorem receives_printed (reads : ℕ → ℕ) (buffer rest : List UInt8)
    (h : ∀ s ∈ segments 1000 0 reads (0 :: rest), HasNul s.2) :
    Receives reads buffer (0 :: rest) (printed 0 reads (0 :: rest)) := by
  have hlen := deliver_length (reads 0) 1000 (0 :: rest)
  rw [List.length_cons] at hlen
  obtain ⟨tail, hg⟩ : ∃ tail, deliver (reads 0) 1000 (0 :: rest) = 0 :: tail := by
    rw [deliver, show min (max 1 (reads 0)) 1000 = min (max 1 (reads 0)) 1000 - 1 + 1 by omega]
    exact ⟨_, List.take_succ_cons⟩
  have h₀ : (deliver (reads 0) 1000 (0 :: rest)).length ≠ 0 := by rw [hg]; simp
  rw [segments_next h₀] at h
  obtain ⟨c, hc, hf⟩ := ends_printed (0 + (deliver (reads 0) 1000 (0 :: rest)).length) (fun i => reads (i + 1))
    ((0 :: rest).drop (deliver (reads 0) 1000 (0 :: rest)).length)
    ((overwrite buffer (deliver (reads 0) 1000 (0 :: rest))).drop 1000) ([] ++ [])
    (deliver (reads 0) 1000 (0 :: rest)).length (fun s hs => h s (List.mem_cons_of_mem _ hs))
  have ht : text (overwrite buffer (deliver (reads 0) 1000 (0 :: rest))) = some [] := by
    rw [hg]
    exact text_append [] _ (by simp)
  have he := receiveBody_text [] 0 ht
  rw [← he] at hc
  refine .of_ends ((ends_again ?_).mpr hc) ?_
  · rw [he]
    simp only [receiveAgain, decide_eq_true_eq]
    omega
  · rw [hf, printed, printed, segments_next h₀, List.flatMap_cons, hg]
    rfl

end NgkNet.Exercise8
