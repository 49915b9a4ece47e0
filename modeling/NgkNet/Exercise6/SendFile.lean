import Mathlib.Data.Int.Notation
import Mathlib.Data.UInt
import NgkNet.Base.Bytes
import NgkNet.Base.DoWhile

set_option autoImplicit false

namespace NgkNet.Exercise6

open Bytes DoWhile

structure Server where
  -- the part of the file behind the read position
  file : List UInt8
  buf : List UInt8
  sent : List UInt8
  fileSize : ℤ
  n : ℤ

def sendBody (choice : ℕ) (s : Server) : Server :=
  let zeroed := overwrite s.buf (List.replicate 1000 0)
  if 1000 ≤ s.fileSize then
    let buf := overwrite zeroed (s.file.take 1000)
    let accepted := deliver choice 1000 (buf.take 1000)
    ⟨s.file.drop 1000, buf, s.sent ++ accepted, s.fileSize - 1000, accepted.length⟩
  else if 0 < s.fileSize then
    let buf := overwrite zeroed (s.file.take s.fileSize.toNat)
    let accepted := deliver choice s.fileSize.toNat (buf.take s.fileSize.toNat)
    ⟨s.file.drop s.fileSize.toNat, buf, s.sent ++ accepted, s.fileSize - accepted.length,
      accepted.length⟩
  else { s with buf := zeroed }

def sendAgain (s : Server) : Bool := 0 < s.fileSize

def sendFile (fuel : ℕ) (writes : ℕ → ℕ) (buf file : List UInt8) (fileSize : ℤ) : Option (List UInt8) :=
  (loop sendBody sendAgain fuel writes ⟨file, buf, [], fileSize, 0⟩).map Server.sent

def Sends (writes : ℕ → ℕ) (buf file : List UInt8) (fileSize : ℤ) (sent : List UInt8) : Prop :=
  ∃ fuel, sendFile fuel writes buf file fileSize = some sent

theorem sends_iff (writes : ℕ → ℕ) (buf file : List UInt8) (fileSize : ℤ) (sent : List UInt8) :
    Sends writes buf file fileSize sent ↔
      ∃ s, Ends sendBody sendAgain writes ⟨file, buf, [], fileSize, 0⟩ s ∧ s.sent = sent := by
  constructor
  · rintro ⟨fuel, h⟩
    obtain ⟨s, hs, rfl⟩ := Option.map_eq_some_iff.mp h
    exact ⟨s, ⟨fuel, hs⟩, rfl⟩
  · rintro ⟨s, ⟨fuel, hs⟩, rfl⟩
    exact ⟨fuel, by rw [sendFile, hs]; rfl⟩

theorem Sends.unique {writes : ℕ → ℕ} {buf file sent sent' : List UInt8} {fileSize : ℤ}
    (h : Sends writes buf file fileSize sent) (h' : Sends writes buf file fileSize sent') : sent = sent' := by
  obtain ⟨s, hs, rfl⟩ := (sends_iff _ _ _ _ _).mp h
  obtain ⟨t, ht, rfl⟩ := (sends_iff _ _ _ _ _).mp h'
  rw [hs.unique ht]

theorem sendBody_block (choice : ℕ) (s : Server) (h : 1000 ≤ s.fileSize) (hf : 1000 ≤ s.file.length) :
    ∃ buf n, sendBody choice s = ⟨s.file.drop 1000, buf, s.sent ++ deliver choice 1000 s.file,
      s.fileSize - 1000, n⟩ := by
  have hl : (s.file.take 1000).length = 1000 := by rw [List.length_take]; omega
  simp only [sendBody, h, ↓reduceIte]
  rw [take_overwrite_zeroed (by omega) (Nat.le_refl _), padded_of_length hl, deliver_take]
  exact ⟨_, _, rfl⟩

theorem sendBody_tail (choice : ℕ) (s : Server) (size : ℕ) (hs : s.fileSize = size) (h₁ : size < 1000)
    (h₀ : 0 < size) :
    ∃ buf n, sendBody choice s = ⟨s.file.drop size, buf,
      s.sent ++ deliver choice size (padded size (s.file.take size)),
      s.fileSize - (deliver choice size (padded size (s.file.take size))).length, n⟩ := by
  have hl : (s.file.take size).length ≤ size := by rw [List.length_take]; omega
  simp only [sendBody, hs, Int.toNat_natCast, show ¬ (1000 : ℤ) ≤ size by omega,
    show (0 : ℤ) < size by omega, ↓reduceIte]
  rw [take_overwrite_zeroed hl (by omega)]
  exact ⟨_, _, rfl⟩

/-- What the socket takes in: of every block only what its one `write` accepted, and zeros in the
place of what the first `write` of the tail left out. -/
def accepted (writes : ℕ → ℕ) : ℕ → List UInt8 → List UInt8
  | 0, file => padded file.length (deliver (writes 0) file.length file)
  | blocks + 1, file =>
    deliver (writes 0) 1000 file ++ accepted (fun i => writes (i + 1)) blocks (file.drop 1000)

theorem ends_zeros (writes : ℕ → ℕ) (size : ℕ) (s : Server) (hs : s.fileSize = size) (h₁ : size < 1000)
    (h₀ : 0 < size) (hf : s.file = []) :
    ∃ t, Ends sendBody sendAgain writes s t ∧ t.sent = s.sent ++ List.replicate size 0 := by
  induction size using Nat.strongRecOn generalizing writes s with
  | _ size ih =>
    obtain ⟨buf, n, he⟩ := sendBody_tail (writes 0) s size hs h₁ h₀
    let g := min (max 1 (writes 0)) size
    have hg : deliver (writes 0) size (padded size (s.file.take size)) = List.replicate g 0 := by
      rw [hf, List.take_nil, padded, List.nil_append, List.length_nil, Nat.sub_zero, deliver, List.take_replicate,
        Nat.min_eq_left (Nat.min_le_right _ _)]
    rw [hg, List.length_replicate] at he
    rcases Nat.lt_or_ge g size with hlt | hge
    · obtain ⟨t, hend, hsent⟩ := ih (size - g) (by omega) (fun i => writes (i + 1)) (sendBody (writes 0) s)
        (by rw [he]; simp only [hs]; omega) (by omega) (by omega) (by rw [he, hf, List.drop_nil])
      refine ⟨t, (ends_again ?_).mpr hend, ?_⟩
      · simp only [sendAgain, he, hs, decide_eq_true_eq]
        omega
      · rw [hsent, he, List.append_assoc, List.replicate_append_replicate, Nat.add_sub_of_le (Nat.le_of_lt hlt)]
    · refine ⟨_, .stop ?_, ?_⟩
      · simp only [sendAgain, he, hs, decide_eq_false_iff_not]
        omega
      · rw [he, show g = size by omega]

theorem ends_tail (writes : ℕ → ℕ) (s : Server) (hs : s.fileSize = s.file.length) (h₁ : s.file.length < 1000)
    (h₀ : 0 < s.file.length) :
    ∃ t, Ends sendBody sendAgain writes s t ∧
      t.sent = s.sent ++ padded s.file.length (deliver (writes 0) s.file.length s.file) := by
  obtain ⟨buf, n, he⟩ := sendBody_tail (writes 0) s s.file.length hs h₁ h₀
  have hl := deliver_length (writes 0) s.file.length s.file
  rw [List.take_length, padded_of_length rfl] at he
  rcases Nat.lt_or_ge (deliver (writes 0) s.file.length s.file).length s.file.length with hg | hg
  · obtain ⟨t, hend, hsent⟩ := ends_zeros (fun i => writes (i + 1))
      (s.file.length - (deliver (writes 0) s.file.length s.file).length) (sendBody (writes 0) s)
      (by rw [he]; simp only [hs]; omega) (by omega) (by omega) (by rw [he, List.drop_length])
    refine ⟨t, (ends_again ?_).mpr hend, ?_⟩
    · simp only [sendAgain, he, hs, decide_eq_true_eq]
      omega
    · rw [hsent, he, List.append_assoc, padded]
  · refine ⟨_, .stop ?_, ?_⟩
    · simp only [sendAgain, he, hs, decide_eq_false_iff_not]
      omega
    · rw [he, padded_of_length (by omega)]

theorem ends_accepted (writes : ℕ → ℕ) (blocks tail : ℕ) (s : Server) (hs : s.fileSize = s.file.length)
    (hf : s.file.length = 1000 * blocks + tail) (h₁ : tail < 1000) (h₀ : 0 < s.file.length) :
    ∃ t, Ends sendBody sendAgain writes s t ∧ t.sent = s.sent ++ accepted writes blocks s.file := by
  induction blocks generalizing writes s with
  | zero => exact ends_tail writes s hs (by omega) h₀
  | succ blocks ih =>
    obtain ⟨buf, n, he⟩ := sendBody_block (writes 0) s (by omega) (by omega)
    rcases Nat.eq_zero_or_pos (1000 * blocks + tail) with hz | hz
    · obtain ⟨rfl, rfl⟩ : blocks = 0 ∧ tail = 0 := by omega
      refine ⟨_, .stop ?_, ?_⟩
      · simp only [sendAgain, he, hs, decide_eq_false_iff_not]
        omega
      · have hd : s.file.drop 1000 = [] := List.drop_eq_nil_of_le (by omega)
        rw [he, accepted, accepted, hd]
        simp [padded, deliver]
    · have hd : (s.file.drop 1000).length = 1000 * blocks + tail := by rw [List.length_drop]; omega
      obtain ⟨t, hend, hsent⟩ := ih (fun i => writes (i + 1)) (sendBody (writes 0) s)
        (by rw [he]; simp only [hs, hd]; omega) (by rw [he]; exact hd) (by rw [he]; simp only [hd]; omega)
      refine ⟨t, (ends_again ?_).mpr hend, ?_⟩
      · simp only [sendAgain, he, hs, decide_eq_true_eq]
        omega
      · rw [hsent, he, accepted, List.append_assoc]

theorem sends_accepted (writes : ℕ → ℕ) (buf file : List UInt8) (hf : 0 < file.length) :
    Sends writes buf file file.length (accepted writes (file.length / 1000) file) := by
  obtain ⟨s, hs, hsent⟩ := ends_accepted writes (file.length / 1000) (file.length % 1000)
    ⟨file, buf, [], file.length, 0⟩ rfl (Nat.div_add_mod _ _).symm (Nat.mod_lt _ (by omega)) hf
  exact (sends_iff _ _ _ _ _).mpr ⟨s, hs, hsent⟩

theorem accepted_length_le (writes : ℕ → ℕ) (blocks : ℕ) (file : List UInt8) (h : 1000 * blocks ≤ file.length) :
    (accepted writes blocks file).length ≤ file.length := by
  induction blocks generalizing writes file with
  | zero =>
    have hl := deliver_length (writes 0) file.length file
    exact Nat.le_of_eq (padded_length (by omega))
  | succ blocks ih =>
    have hl := deliver_length (writes 0) 1000 file
    have hrest := ih (fun i => writes (i + 1)) (file.drop 1000) (by rw [List.length_drop]; omega)
    rw [List.length_drop] at hrest
    rw [accepted, List.length_append]
    omega

theorem accepted_tail_iff (writes : ℕ → ℕ) (file : List UInt8) :
    accepted writes 0 file = file ↔ Zeros (file.drop (max 1 (writes 0))) := by
  rw [accepted]
  rcases Nat.le_total (max 1 (writes 0)) file.length with h | h
  · have hpad := padded_take_iff h (Nat.le_refl file.length)
    have hrest : (file.drop (max 1 (writes 0))).length ≤ file.length - max 1 (writes 0) :=
      Nat.le_of_eq List.length_drop
    rw [List.take_length, List.take_of_length_le hrest] at hpad
    rw [deliver, Nat.min_eq_left h, hpad]
  · rw [deliver, Nat.min_eq_right h, List.take_length, padded_of_length rfl, List.drop_eq_nil_of_le h]
    simp [Zeros]

theorem accepted_eq_iff (writes : ℕ → ℕ) (blocks : ℕ) (file : List UInt8) (h : 1000 * blocks ≤ file.length) :
    accepted writes blocks file = file ↔
      (∀ i < blocks, 1000 ≤ writes i) ∧ Zeros (file.drop (1000 * blocks + max 1 (writes blocks))) := by
  induction blocks generalizing writes file with
  | zero => simp [accepted_tail_iff]
  | succ blocks ih =>
    have hd : 1000 * blocks ≤ (file.drop 1000).length := by rw [List.length_drop]; omega
    rw [Nat.forall_lt_succ_left, accepted]
    rcases Nat.lt_or_ge (writes 0) 1000 with hw | hw
    · -- the rest of a block that `write` did not accept is never sent
      refine iff_of_false ?_ (fun hall => by omega)
      intro he
      have hl := deliver_length (writes 0) 1000 file
      have hrest := accepted_length_le (fun i => writes (i + 1)) blocks (file.drop 1000) hd
      have hlen := congrArg List.length he
      rw [List.length_append] at hlen
      rw [List.length_drop] at hrest
      omega
    · have hall : deliver (writes 0) 1000 file = file.take 1000 := by rw [deliver, Nat.min_eq_right (by omega)]
      have hlen : (file.take 1000).length = 1000 := by rw [List.length_take]; omega
      rw [hall, append_eq_iff hlen (by omega), ih (fun i => writes (i + 1)) (file.drop 1000) hd, List.drop_drop,
        ← Nat.add_assoc, show 1000 + 1000 * blocks = 1000 * (blocks + 1) by omega]
      simp only [true_and, hw]

theorem sends_file (writes : ℕ → ℕ) (hw : ∀ i, 1000 ≤ writes i) (buf file : List UInt8)
    (hf : 0 < file.length) : Sends writes buf file file.length file := by
  have hsent := sends_accepted writes buf file hf
  have hall : accepted writes (file.length / 1000) file = file := by
    refine (accepted_eq_iff writes _ file (by omega)).mpr ⟨fun i _ => hw i, ?_⟩
    have hlast := hw (file.length / 1000)
    rw [List.drop_eq_nil_of_le (by omega)]
    simp [Zeros]
  rwa [hall] at hsent

/-- The server always stops; it has sent the file exactly if every block was accepted whole and only
zeros were behind what the first `write` of the tail accepted. -/
theorem send_faithful_iff (writes : ℕ → ℕ) (buf file : List UInt8) (hf : 0 < file.length) :
    ∃ sent, Sends writes buf file file.length sent ∧
      (sent = file ↔ (∀ i < file.length / 1000, 1000 ≤ writes i) ∧
        Zeros (file.drop (1000 * (file.length / 1000) + max 1 (writes (file.length / 1000))))) :=
  ⟨_, sends_accepted writes buf file hf, accepted_eq_iff writes _ file (by omega)⟩

def twoBlocks : List UInt8 := List.replicate 1000 1 ++ [2, 3]

theorem twoBlocks_length : twoBlocks.length = 1002 := by
  rw [twoBlocks, List.length_append, List.length_replicate]
  rfl

theorem send_faithful_two_blocks : Sends (fun i => if i = 0 then 1000 else 2) [] twoBlocks 1002 twoBlocks := by
  obtain ⟨sent, hsends, hfaithful⟩ := send_faithful_iff (fun i => if i = 0 then 1000 else 2) [] twoBlocks
    (by rw [twoBlocks_length]; decide)
  rw [twoBlocks_length] at hsends hfaithful
  obtain rfl : sent = twoBlocks := by
    refine hfaithful.mpr ⟨fun i hi => ?_, ?_⟩
    · obtain rfl : i = 0 := by omega
      exact Nat.le_refl _
    · rw [List.drop_eq_nil_of_le (by rw [twoBlocks_length]; decide)]
      simp [Zeros]
  exact hsends

theorem partial_write_sends_zero :
    Sends (fun _ => 1) (List.replicate 8000 0) [1, 2] 2 [1, 0] ∧
      ¬ Sends (fun _ => 1) (List.replicate 8000 0) [1, 2] 2 [1, 2] := by
  have h : Sends (fun _ => 1) (List.replicate 8000 0) [1, 2] 2 [1, 0] :=
    sends_accepted (fun _ => 1) (List.replicate 8000 0) [1, 2] (by decide)
  refine ⟨h, ?_⟩
  intro h'
  exact absurd (h.unique h') (by decide)

end NgkNet.Exercise6
