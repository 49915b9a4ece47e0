import NgkNet.Exercise6.ReceiveFile

set_option autoImplicit false

namespace NgkNet.Exercise6

open Bytes DoWhile

def blockReads (reads : ℕ → ℕ) : ℕ → ℕ
  | 0 => 0
  | blocks + 1 => min (max 1 (reads 0)) 1000 + blockReads (fun i => reads (i + 1)) blocks

theorem not_ends_of_empty (reads : ℕ → ℕ) (size : ℕ) {c d : Client} (hs : c.fileSize = size) (h₁ : size < 1000)
    (h₀ : 0 < size) (he : c.stream = []) : ¬ Ends receiveBody receiveAgain reads c d := by
  refine not_ends (P := fun c : Client => c.fileSize = size ∧ c.stream = []) ?_ ⟨hs, he⟩
  rintro choice c ⟨hs, he⟩
  obtain ⟨buffer, n, hbody⟩ := receiveBody_tail choice c size hs h₁ h₀
  have hgot : deliver choice size c.stream = [] := by rw [he, deliver, List.take_nil]
  rw [hbody, hgot]
  refine ⟨⟨by simp [hs], by simp [he]⟩, ?_⟩
  simp only [receiveAgain, hs, List.length_nil, decide_eq_true_eq]
  omega

theorem tail_ends_iff (reads : ℕ → ℕ) (size : ℕ) {c : Client} (hs : c.fileSize = size) (h₁ : size < 1000)
    (h₀ : 0 < size) : (∃ d, Ends receiveBody receiveAgain reads c d) ↔ size ≤ c.stream.length := by
  induction size using Nat.strongRecOn generalizing reads c with
  | _ size ih =>
    rcases Nat.eq_zero_or_pos c.stream.length with hz | hz
    · refine iff_of_false ?_ (by omega)
      rintro ⟨d, hd⟩
      exact not_ends_of_empty reads size hs h₁ h₀ (List.length_eq_zero_iff.mp hz) hd
    obtain ⟨buffer, n, he⟩ := receiveBody_tail (reads 0) c size hs h₁ h₀
    have hl := deliver_length (reads 0) size c.stream
    rcases Nat.lt_or_ge (deliver (reads 0) size c.stream).length size with hg | hg
    · have hagain : receiveAgain (receiveBody (reads 0) c) = true := by
        simp only [receiveAgain, he, hs, decide_eq_true_eq]
        omega
      have hrest := ih (size - (deliver (reads 0) size c.stream).length) (by omega) (fun i => reads (i + 1))
        (c := receiveBody (reads 0) c) (by rw [he]; simp only [hs]; omega) (by omega) (by omega)
      simp only [ends_again hagain]
      rw [hrest, he]
      simp only [List.length_drop]
      omega
    · refine iff_of_true ⟨_, .stop ?_⟩ (by omega)
      simp only [receiveAgain, he, hs, decide_eq_false_iff_not]
      omega

theorem ends_iff (reads : ℕ → ℕ) (blocks tail : ℕ) {c : Client} (hs : c.fileSize = 1000 * blocks + tail)
    (h₁ : tail < 1000) (h₀ : 0 < 1000 * blocks + tail) :
    (∃ d, Ends receiveBody receiveAgain reads c d) ↔
      tail = 0 ∨ blockReads reads blocks + tail ≤ c.stream.length := by
  induction blocks generalizing reads c with
  | zero =>
    rw [tail_ends_iff reads tail (by rw [hs]; simp) h₁ (by omega), blockReads]
    omega
  | succ blocks ih =>
    obtain ⟨buffer, n, he⟩ := receiveBody_block (reads 0) c (by omega)
    have hl := deliver_length (reads 0) 1000 c.stream
    rcases Nat.eq_zero_or_pos (1000 * blocks + tail) with hz | hz
    · refine iff_of_true ⟨_, .stop ?_⟩ (.inl (by omega))
      simp only [receiveAgain, he, hs, decide_eq_false_iff_not]
      omega
    · have hagain : receiveAgain (receiveBody (reads 0) c) = true := by
        simp only [receiveAgain, he, hs, decide_eq_true_eq]
        omega
      have hrest := ih (fun i => reads (i + 1)) (c := receiveBody (reads 0) c)
        (by rw [he]; simp only [hs]; omega) hz
      simp only [ends_again hagain]
      rw [hrest, he]
      simp only [List.length_drop, blockReads]
      omega

/-- The client stops exactly if there is no tail behind the last full block, or the block reads leave
enough of the stream for it. -/
theorem receive_stops_iff (reads : ℕ → ℕ) (buffer stream : List UInt8) {size : ℕ} (h₀ : 0 < size) :
    (∃ file, Receives reads buffer stream size file) ↔
      size % 1000 = 0 ∨ blockReads reads (size / 1000) + size % 1000 ≤ stream.length := by
  have hsize : (size : ℤ) = 1000 * (size / 1000 : ℕ) + (size % 1000 : ℕ) := by omega
  have hends := ends_iff reads (size / 1000) (size % 1000) (c := ⟨stream, buffer, [], size, 0⟩) hsize
    (Nat.mod_lt _ (by omega)) (by omega)
  rw [← hends]
  simp only [receives_iff]
  constructor
  · rintro ⟨file, c, hc, -⟩
    exact ⟨c, hc⟩
  · rintro ⟨c, hc⟩
    exact ⟨c.file, c, hc, rfl⟩

theorem receive_stops_short_block :
    ∃ file, Receives (fun i => if i = 0 then 700 else 1000) (List.replicate 1000 0) (List.replicate 1702 7) (2002 : ℕ) file := by
  refine (receive_stops_iff _ _ _ (by decide)).mpr (.inr ?_)
  rw [List.length_replicate]
  decide

theorem receive_never_stops :
    ¬ ∃ file, Receives (fun _ => 1000) (List.replicate 1000 0) [] 1 file := by
  rintro ⟨file, hfile⟩
  obtain ⟨c, hc, -⟩ := (receives_iff _ _ _ _ _).mp hfile
  exact not_ends_of_empty _ 1 rfl (by omega) (by omega) rfl hc

end NgkNet.Exercise6
