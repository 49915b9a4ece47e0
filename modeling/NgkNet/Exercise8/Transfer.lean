import NgkNet.Exercise8.Pieces

set_option autoImplicit false

namespace NgkNet.Exercise8

open Bytes CString Segments

def StaysInBlocks (reads : ℕ → ℕ) (sent : List UInt8) : Prop :=
  ∀ s ∈ segments 1000 0 reads sent, s.1 / 1000 = (s.1 + s.2.length - 1) / 1000

def StartsClean (reads : ℕ → ℕ) (file sent : List UInt8) : Prop :=
  ∀ s ∈ segments 1000 0 reads sent,
    s.1 % 1000 < (([] :: lines file)[s.1 / 1000]?.getD []).length ∨ s.2.head? = some 0

theorem flatMap_length_le {γ : Type} {f g : γ → List UInt8} {l : List γ}
    (h : ∀ x ∈ l, (f x).length ≤ (g x).length) : (l.flatMap f).length ≤ (l.flatMap g).length := by
  induction l with
  | nil => exact Nat.le_refl 0
  | cons x l ih =>
    have := h x List.mem_cons_self
    have := ih (fun y hy => h y (List.mem_cons_of_mem _ hy))
    simp only [List.flatMap_cons, List.length_append]
    omega

theorem length_eq_of_flatMap_eq {γ : Type} {f g : γ → List UInt8} {l : List γ}
    (h : ∀ x ∈ l, (f x).length ≤ (g x).length) (he : l.flatMap f = l.flatMap g) :
    ∀ x ∈ l, (f x).length = (g x).length := by
  have hlen := congrArg List.length he
  clear he
  induction l with
  | nil => simp
  | cons x l ih =>
    have hx := h x List.mem_cons_self
    have hl := fun y hy => h y (List.mem_cons_of_mem x hy)
    have hle := flatMap_length_le hl
    simp only [List.flatMap_cons, List.length_append] at hlen
    intro y hy
    obtain rfl | hy := List.mem_cons.mp hy
    · omega
    · exact ih hl (by omega) y hy

section Blocks

variable {blocks : List Block} {reads : ℕ → ℕ}

def TaggedStays (reads : ℕ → ℕ) (blocks : List Block) : Prop :=
  ∀ s ∈ segments 1000 0 reads (stream blocks), s.1 % 1000 + s.2.length ≤ 1000

def TaggedClean (reads : ℕ → ℕ) (blocks : List Block) : Prop :=
  ∀ s ∈ segments 1000 0 reads (stream blocks), ∀ b after, Piece blocks s b after →
    CleanAt b (s.1 % 1000) s.2

theorem bytes_eq_stream (blocks : List Block) :
    blocks.flatMap Block.bytes = (stream blocks).map Prod.fst := by
  rw [stream, List.map_flatMap]
  simp only [Block.tagged_bytes]

theorem printed_eq (reads : ℕ → ℕ) (blocks : List Block) :
    printed 0 reads (blocks.flatMap Block.bytes) =
      (segments 1000 0 reads (stream blocks)).flatMap (fun s => shown s.2) := by
  rw [printed, bytes_eq_stream, segments_map, List.flatMap_map]
  rfl

theorem texts_eq (reads : ℕ → ℕ) (blocks : List Block) :
    (blocks.map Block.text).flatten =
      (segments 1000 0 reads (stream blocks)).flatMap (fun s => kept s.2) := by
  have hk : ∀ segs : List (List Tagged), kept segs.flatten = segs.flatMap kept := by
    intro segs
    induction segs with
    | nil => rfl
    | cons seg segs ih => rw [List.flatten_cons, kept_append, ih, List.flatMap_cons]
  have ht : kept (stream blocks) = (blocks.map Block.text).flatten := by
    rw [stream, List.flatMap_def, hk, List.flatMap_map, List.flatMap_def]
    simp only [Block.kept_tagged]
  have hf := segments_flatten (show 0 < 1000 by omega) 0 reads (stream blocks)
  rw [← ht, ← List.flatMap_map Prod.snd kept, ← hk, hf]

variable (hb : ∀ b ∈ blocks.tail, b.text ≠ [])
include hb

theorem printed_of_stays_of_clean (hs : TaggedStays reads blocks) (hc : TaggedClean reads blocks) :
    printed 0 reads (blocks.flatMap Block.bytes) = (blocks.map Block.text).flatten := by
  rw [printed_eq, texts_eq reads, List.flatMap_def, List.flatMap_def, List.map_congr_left]
  intro s hm
  obtain ⟨b, after, h⟩ := segments_piece hb hm
  exact h.shown_eq_kept (hs s hm) (hc s hm b after h)

theorem stays_of_clean (hc : TaggedClean reads blocks)
    (he : printed 0 reads (blocks.flatMap Block.bytes) = (blocks.map Block.text).flatten) :
    TaggedStays reads blocks := by
  rw [printed_eq, texts_eq reads] at he
  have hle : ∀ s ∈ segments 1000 0 reads (stream blocks), (shown s.2).length ≤ (kept s.2).length := by
    intro s hm
    obtain ⟨b, after, h⟩ := segments_piece hb hm
    by_cases hs : s.1 % 1000 + s.2.length ≤ 1000
    · exact Nat.le_of_eq (congrArg List.length (h.shown_eq_kept hs (hc s hm b after h)))
    · exact Nat.le_of_lt (h.shown_lt_kept (by omega) (hc s hm b after h))
  intro s hm
  obtain ⟨b, after, h⟩ := segments_piece hb hm
  by_contra hs
  have := h.shown_lt_kept (by omega) (hc s hm b after h)
  have := length_eq_of_flatMap_eq hle he s hm
  omega

theorem clean_of_stays (hs : TaggedStays reads blocks)
    (he : printed 0 reads (blocks.flatMap Block.bytes) = (blocks.map Block.text).flatten) :
    TaggedClean reads blocks := by
  rw [printed_eq, texts_eq reads] at he
  have hle : ∀ s ∈ segments 1000 0 reads (stream blocks), (kept s.2).length ≤ (shown s.2).length := by
    intro s hm
    obtain ⟨b, after, h⟩ := segments_piece hb hm
    by_cases hc : CleanAt b (s.1 % 1000) s.2
    · exact Nat.le_of_eq (congrArg List.length (h.shown_eq_kept (hs s hm) hc).symm)
    · exact Nat.le_of_lt (h.kept_lt_shown (hs s hm) hc)
  intro s hm b after h
  by_contra hc
  have := h.kept_lt_shown (hs s hm) hc
  have := length_eq_of_flatMap_eq hle he.symm s hm
  omega

end Blocks

theorem staysInBlocks_iff (reads : ℕ → ℕ) (blocks : List Block) :
    StaysInBlocks reads (blocks.flatMap Block.bytes) ↔ TaggedStays reads blocks := by
  rw [StaysInBlocks, TaggedStays, bytes_eq_stream, segments_map, List.forall_mem_map]
  apply forall₂_congr
  intro s hs
  obtain ⟨-, -, -, h₀, -⟩ := mem_segments hs
  simp only [List.length_map]
  omega

theorem startsClean_iff {blocks : List Block} (hb : ∀ b ∈ blocks.tail, b.text ≠ []) (reads : ℕ → ℕ)
    {file : List UInt8} (ht : blocks.map Block.text = [] :: lines file) :
    StartsClean reads file (blocks.flatMap Block.bytes) ↔ TaggedClean reads blocks := by
  rw [StartsClean, TaggedClean, bytes_eq_stream, segments_map, List.forall_mem_map]
  apply forall₂_congr
  intro s hs
  have htext : ∀ b after, Piece blocks s b after → ([] :: lines file)[s.1 / 1000]?.getD [] = b.text := by
    intro b after h
    rw [← ht, List.getElem?_map, h.block]
    rfl
  constructor
  · intro h b after hp
    rwa [htext b after hp] at h
  · intro h
    obtain ⟨b, after, hp⟩ := segments_piece hb hs
    rw [htext b after hp]
    exact h b after hp

/-- If no piece of the stream crosses a block boundary and none starts behind a line's end on a byte
left over from an earlier line, the client's file is the server's; where only one of the two fails,
it is not. -/
theorem transfer_faithful (file : List UInt8) (hn : 0 ∉ file) (reads : ℕ → ℕ)
    (buffer : List UInt8) :
    ∃ sent written, Sends file sent ∧ Receives reads buffer sent written ∧
      (StaysInBlocks reads sent ∧ StartsClean reads file sent → written = file) ∧
      (written = file → (StaysInBlocks reads sent ↔ StartsClean reads file sent)) := by
  obtain ⟨rest, hsends, htexts⟩ := sends_blocks file hn
  have hb : ∀ b ∈ (Block.first :: rest).tail, b.text ≠ [] := by
    intro b hm
    apply lines_ne_nil
    rw [← htexts]
    exact List.mem_map_of_mem hm
  have ht : (Block.first :: rest).map Block.text = [] :: lines file := by
    rw [List.map_cons, htexts]
    rfl
  have hf : ((Block.first :: rest).map Block.text).flatten = file := by
    rw [ht, List.flatten_cons, lines_flatten]
    rfl
  refine ⟨_, printed 0 reads ((Block.first :: rest).flatMap Block.bytes), hsends, ?_, ?_⟩
  · have hnul : ∀ s ∈ segments 1000 0 reads ((Block.first :: rest).flatMap Block.bytes), HasNul s.2 := by
      rw [bytes_eq_stream, segments_map, List.forall_mem_map]
      intro s hs
      obtain ⟨b, after, hp⟩ := segments_piece hb hs
      exact hp.hasNul
    exact receives_printed reads buffer _ hnul
  · rw [staysInBlocks_iff, startsClean_iff hb reads ht]
    constructor
    · rintro ⟨hs, hc⟩
      rw [printed_of_stays_of_clean hb hs hc, hf]
    · intro he
      rw [← hf] at he
      exact ⟨fun hs => clean_of_stays hb hs (hf ▸ he), fun hc => stays_of_clean hb hc (hf ▸ he)⟩

def linesStream : List UInt8 :=
  List.replicate 1000 0 ++ ([97, 98, 10] ++ List.replicate 997 0) ++ ([99, 0, 10] ++ List.replicate 997 0)

def linesReads (i : ℕ) : ℕ := if i = 1 then 2 else if i = 2 then 998 else 1000

theorem linesStream_segments : segments 1000 0 linesReads linesStream =
    [(0, List.replicate 1000 0), (1000, [97, 98]), (1002, 10 :: List.replicate 997 0),
      (2000, 99 :: 0 :: 10 :: List.replicate 997 0)] := by
  rw [segments_next (by decide +kernel), segments_next (by decide +kernel), segments_next (by decide +kernel),
    segments_next (by decide +kernel), segments_end (by decide +kernel)]
  decide +kernel

theorem transfer_faithful_lines : Sends [97, 98, 10, 99] linesStream ∧
    Receives linesReads [] linesStream [97, 98, 10, 99] := by
  obtain ⟨sent, written, hsends, hreceives, hfaithful, -⟩ := transfer_faithful [97, 98, 10, 99] (by decide) linesReads []
  obtain rfl : sent = linesStream := hsends.unique ⟨4, by decide +kernel⟩
  obtain rfl : written = [97, 98, 10, 99] := by
    refine hfaithful ⟨?_, ?_⟩
    · rw [StaysInBlocks, linesStream_segments]
      decide +kernel
    · rw [StartsClean, linesStream_segments]
      decide +kernel
  exact ⟨hsends, hreceives⟩

def letterStream : List UInt8 := List.replicate 1000 0 ++ 65 :: List.replicate 999 0

theorem crossing_read_loses_letter : Sends [65] letterStream ∧
    Receives (fun i => if i = 0 then 999 else 1000) [] letterStream [] ∧
    ¬ Receives (fun i => if i = 0 then 999 else 1000) [] letterStream [65] := by
  have h : Receives (fun i => if i = 0 then 999 else 1000) [] letterStream [] := ⟨4, by decide +kernel⟩
  refine ⟨⟨2, by decide +kernel⟩, h, ?_⟩
  intro h'
  exact absurd (h.unique h') (by decide)

example : (sendFile 4 [97, 98, 99, 10, 120, 10, 10]).bind
    (receiveFile 6 (fun i => if i = 2 then 3 else if i = 3 then 998 else 1000) []) =
      some [97, 98, 99, 10, 120, 10, 10] := by decide +kernel

end NgkNet.Exercise8
