import NgkNet.Exercise6.ReceiveFile
import NgkNet.Exercise6.SendFile

set_option autoImplicit false

namespace NgkNet.Exercise6

open Bytes DoWhile

def TailInOneRead (reads : ℕ → ℕ) (size : ℕ) : Prop :=
  size % 1000 ≠ 0 → size % 1000 ≤ max 1 (reads (size / 1000))

def ZerosAfterShortRead (reads : ℕ → ℕ) (file : List UInt8) : Prop :=
  ∀ k < file.length / 1000, (∀ i < k, 1000 ≤ reads i) → reads k < 1000 →
    Zeros (file.drop (1000 * k + max 1 (reads k)))

theorem tailInOneRead_shift (reads : ℕ → ℕ) (size : ℕ) (h : 1000 ≤ size) :
    TailInOneRead (fun i => reads (i + 1)) (size - 1000) ↔ TailInOneRead reads size := by
  have hm : (size - 1000) % 1000 = size % 1000 := by omega
  have hd : (size - 1000) / 1000 + 1 = size / 1000 := by omega
  simp only [TailInOneRead, hm, hd]

theorem zerosAfterShortRead_full (reads : ℕ → ℕ) (file : List UInt8) (h : 1000 ≤ file.length)
    (h₀ : 1000 ≤ reads 0) :
    ZerosAfterShortRead (fun i => reads (i + 1)) (file.drop 1000) ↔ ZerosAfterShortRead reads file := by
  simp only [ZerosAfterShortRead, List.length_drop, List.drop_drop]
  constructor
  · intro hz k hk hfull hshort
    cases k with
    | zero => omega
    | succ k =>
      have := hz k (by omega) (fun i hi => hfull (i + 1) (by omega)) hshort
      rwa [show 1000 + (1000 * k + max 1 (reads (k + 1))) = 1000 * (k + 1) + max 1 (reads (k + 1)) by omega]
        at this
  · intro hz k hk hfull hshort
    have := hz (k + 1) (by omega) (fun i hi => by cases i with
      | zero => exact h₀
      | succ i => exact hfull i (by omega)) hshort
    rwa [show 1000 + (1000 * k + max 1 (reads (k + 1))) = 1000 * (k + 1) + max 1 (reads (k + 1)) by omega]

theorem zerosAfterShortRead_short (reads : ℕ → ℕ) (file : List UInt8) (h : 1000 ≤ file.length)
    (h₀ : reads 0 < 1000) :
    ZerosAfterShortRead reads file ↔ Zeros (file.drop (max 1 (reads 0))) := by
  constructor
  · intro hz
    simpa using hz 0 (by omega) (by simp) h₀
  · intro hz k hk hfull hshort
    cases k with
    | zero => simpa using hz
    | succ k => exact absurd (hfull 0 (by omega)) (by omega)

theorem length_le_written (reads : ℕ → ℕ) (stream : List UInt8) (size : ℕ) (h : size ≤ stream.length) :
    size ≤ (written reads stream size).length := by
  induction size using Nat.strongRecOn generalizing reads stream with
  | _ size ih =>
    rcases Nat.eq_zero_or_pos size with rfl | h₀
    · omega
    rcases Nat.lt_or_ge size 1000 with h₁ | h₁
    · have hd := deliver_length (reads 0) size stream
      rw [written_tail reads stream size h₁ (by omega), List.length_append, padded_length (by omega)]
      omega
    · have hd := deliver_length (reads 0) 1000 stream
      have := ih (size - 1000) (by omega) (fun i => reads (i + 1))
        (stream.drop (deliver (reads 0) 1000 stream).length) (by rw [List.length_drop]; omega)
      rw [written_block reads stream size h₁, List.length_append, padded_length (by omega)]
      omega

theorem written_short_tail (reads : ℕ → ℕ) (stream : List UInt8) (size : ℕ) (h : size ≤ stream.length)
    (h₁ : size < 1000) (hs : max 1 (reads 0) < size) : size < (written reads stream size).length := by
  have hd := deliver_length (reads 0) size stream
  rw [written_tail reads stream size h₁ (by omega), List.length_append, padded_length (by omega)]
  have := length_le_written (fun i => reads (i + 1)) (stream.drop (deliver (reads 0) size stream).length)
    (size - (deliver (reads 0) size stream).length) (by rw [List.length_drop]; omega)
  omega

theorem written_full_tail (reads : ℕ → ℕ) (stream : List UInt8) (size : ℕ) (h : size ≤ stream.length)
    (h₀ : 0 < size) (h₁ : size < 1000) (hs : size ≤ max 1 (reads 0)) :
    written reads stream size = stream.take size := by
  have hg : deliver (reads 0) size stream = stream.take size := by
    rw [deliver, Nat.min_eq_right hs]
  have hl : (stream.take size).length = size := by rw [List.length_take]; omega
  rw [written_tail reads stream size h₁ (by rw [hg, hl]; exact h₀), hg, padded_of_length hl, hl,
    Nat.sub_self, written_zero, List.append_nil]

theorem tailInOneRead_small (reads : ℕ → ℕ) {size : ℕ} (h₀ : 0 < size) (h₁ : size < 1000) :
    TailInOneRead reads size ↔ size ≤ max 1 (reads 0) := by
  simp only [TailInOneRead, Nat.mod_eq_of_lt h₁, Nat.div_eq_of_lt h₁]
  exact ⟨fun h => h (by omega), fun h _ => h⟩

theorem written_small_iff (reads : ℕ → ℕ) {stream out : List UInt8} (hs : out.length ≤ stream.length)
    (h₁ : out.length < 1000) :
    written reads stream out.length = out ↔ stream.take out.length = out ∧ TailInOneRead reads out.length := by
  rcases Nat.eq_zero_or_pos out.length with h₀ | h₀
  · obtain rfl := List.length_eq_zero_iff.mp h₀
    simp [written_zero, TailInOneRead]
  rw [tailInOneRead_small reads h₀ h₁]
  rcases Nat.lt_or_ge (max 1 (reads 0)) out.length with hr | hr
  · refine iff_of_false ?_ (fun h => by omega)
    intro he
    have := written_short_tail reads stream _ hs h₁ hr
    rw [he] at this
    omega
  · rw [written_full_tail reads stream _ hs h₀ h₁ hr]
    exact ⟨fun h => ⟨h, hr⟩, And.left⟩

theorem written_lagging_iff (reads : ℕ → ℕ) (lag rest : List UInt8) (hl : lag ≠ []) (hz : Zeros lag) :
    written reads (lag ++ rest) rest.length = rest ↔ Zeros rest ∧ TailInOneRead reads rest.length := by
  induction hn : rest.length using Nat.strongRecOn generalizing reads lag rest with
  | _ size ih =>
    subst hn
    rcases Nat.lt_or_ge rest.length 1000 with h₁ | h₁
    · rw [written_small_iff reads (by simp) h₁]
      apply and_congr_left
      intro _
      have := padded_lag_iff lag rest [] _ hl hz (Nat.le_refl _)
      rwa [List.append_nil, padded_of_length (by rw [List.length_take, List.length_append]; omega)] at this
    · let r := min (max 1 (reads 0)) 1000
      have hgot : deliver (reads 0) 1000 (lag ++ rest) = (lag ++ rest).take r := rfl
      have hlen : ((lag ++ rest).take r).length = r := by simp [r]; omega
      have hx : (rest.take 1000).length = 1000 := by rw [List.length_take]; omega
      rw [written_block reads _ _ h₁, hgot, hlen]
      have hblock : padded 1000 ((lag ++ rest).take r) = rest.take 1000 ↔ Zeros (rest.take 1000) := by
        have := padded_lag_iff lag (rest.take 1000) (rest.drop 1000) r hl hz
          (by rw [hx]; exact Nat.min_le_right _ _)
        rwa [List.take_append_drop, hx] at this
      have hdrop : (lag ++ rest).drop r = (lag ++ rest.take 1000).drop r ++ rest.drop 1000 := by
        rw [← List.drop_append_of_le_length (by simp [r]; omega), List.append_assoc, List.take_append_drop]
      have hzeros : Zeros rest ↔ Zeros (rest.take 1000) ∧ Zeros (rest.drop 1000) := by
        rw [← zeros_append, List.take_append_drop]
      rw [append_eq_iff (padded_length (by omega)) h₁, hblock, hdrop, ← List.length_drop, hzeros, and_assoc]
      apply and_congr_right
      intro hzt
      rw [ih _ (by rw [List.length_drop]; omega) (fun i => reads (i + 1)) ((lag ++ rest.take 1000).drop r) _ ?_ ?_ rfl]
      · rw [List.length_drop, tailInOneRead_shift reads _ h₁]
      · apply List.ne_nil_of_length_pos
        have := List.length_pos_iff.mpr hl
        simp only [List.length_drop, List.length_append, hx, r]
        omega
      · exact fun x hx => zeros_append.mpr ⟨hz, hzt⟩ x (List.mem_of_mem_drop hx)

theorem written_short_block_iff (reads : ℕ → ℕ) (file : List UInt8) (h₁ : 1000 ≤ file.length)
    (hs : reads 0 < 1000) :
    written reads file file.length = file ↔
      Zeros (file.drop (max 1 (reads 0))) ∧ TailInOneRead reads file.length := by
  let r := max 1 (reads 0)
  have hr : r ≤ 1000 := by omega
  have hgot : deliver (reads 0) 1000 file = file.take r := by
    rw [deliver, Nat.min_eq_left hr]
  have hlen : (file.take r).length = r := by rw [List.length_take]; omega
  have hzeros : Zeros (file.drop r) ↔ Zeros ((file.drop r).take (1000 - r)) ∧ Zeros (file.drop 1000) := by
    rw [← zeros_append, ← drop_split hr]
  rw [written_block reads _ _ h₁, hgot, hlen, append_eq_iff (padded_length (by omega)) h₁, padded_take_iff hr h₁,
    hzeros, and_assoc, ← tailInOneRead_shift reads _ h₁, ← List.length_drop]
  apply and_congr_right
  intro hz
  rw [drop_split hr]
  -- from the first short read on the client lags behind
  apply written_lagging_iff _ _ _ (List.ne_nil_of_length_pos ?_) hz
  simp
  omega

theorem written_eq_iff (reads : ℕ → ℕ) (file : List UInt8) :
    written reads file file.length = file ↔
      ZerosAfterShortRead reads file ∧ TailInOneRead reads file.length := by
  induction hn : file.length using Nat.strongRecOn generalizing reads file with
  | _ size ih =>
    subst hn
    rcases Nat.lt_or_ge file.length 1000 with h₁ | h₁
    · have hz : ZerosAfterShortRead reads file := by
        intro k hk
        omega
      simp [written_small_iff reads (Nat.le_refl _) h₁, hz]
    rcases Nat.lt_or_ge (reads 0) 1000 with hs | hs
    · rw [written_short_block_iff reads file h₁ hs, zerosAfterShortRead_short reads file h₁ hs]
    · have hgot : deliver (reads 0) 1000 file = file.take 1000 := by
        rw [deliver, Nat.min_eq_right (by omega)]
      have hlen : (file.take 1000).length = 1000 := by rw [List.length_take]; omega
      rw [written_block reads _ _ h₁, hgot, padded_of_length hlen, hlen, append_eq_iff hlen h₁,
        ← zerosAfterShortRead_full reads file h₁ hs, ← tailInOneRead_shift reads _ h₁, ← List.length_drop]
      simp only [true_and]
      exact ih _ (by rw [List.length_drop]; omega) _ _ rfl

/-- The client's file is the server's file exactly if the tail arrives in one read and no block read
is short before the last byte of the file that is not zero. -/
theorem transfer_faithful_iff (file : List UInt8) (hf : 0 < file.length) (writes : ℕ → ℕ)
    (hw : ∀ i, 1000 ≤ writes i) (reads : ℕ → ℕ) (buf buffer : List UInt8) :
    ∃ sent received, Sends writes buf file file.length sent ∧
      Receives reads buffer sent file.length received ∧
      (received = file ↔ ZerosAfterShortRead reads file ∧ TailInOneRead reads file.length) := by
  refine ⟨file, written reads file file.length, sends_file writes hw buf file hf, ?_, written_eq_iff reads file⟩
  obtain ⟨c, hc, hfile⟩ := ends_written reads file.length ⟨file, buffer, [], file.length, 0⟩ rfl hf (Nat.le_refl _)
  exact (receives_iff _ _ _ _ _).mpr ⟨c, hc, hfile⟩

theorem transfer_faithful_two_blocks :
    ∃ sent, Sends (fun _ => 1000) [] twoBlocks 1002 sent ∧
      Receives (fun i => if i = 0 then 1000 else 2) [] sent 1002 twoBlocks := by
  obtain ⟨sent, received, hsends, hreceives, hfaithful⟩ := transfer_faithful_iff twoBlocks
    (by rw [twoBlocks_length]; decide) (fun _ => 1000) (fun _ => Nat.le_refl _) (fun i => if i = 0 then 1000 else 2) [] []
  rw [twoBlocks_length] at hsends hreceives hfaithful
  obtain rfl : received = twoBlocks := by
    refine hfaithful.mpr ⟨fun k hk _ hshort => ?_, fun _ => by decide⟩
    obtain rfl : k = 0 := by rw [twoBlocks_length] at hk; omega
    exact absurd hshort (by decide)
  exact ⟨sent, hsends, hreceives⟩

theorem short_read_not_faithful : Sends (fun _ => 1000) [] [1, 2] 2 [1, 2] ∧
    Receives (fun _ => 1) [] [1, 2] 2 [1, 0, 2] ∧ ¬ Receives (fun _ => 1) [] [1, 2] 2 [1, 2] := by
  have h : Receives (fun _ => 1) [] [1, 2] 2 [1, 0, 2] := ⟨2, by decide⟩
  refine ⟨⟨1, by decide⟩, h, ?_⟩
  intro h'
  exact absurd (h.unique h') (by decide)

end NgkNet.Exercise6
