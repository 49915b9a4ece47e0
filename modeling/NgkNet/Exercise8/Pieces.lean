import NgkNet.Exercise8.ReceiveFile
import NgkNet.Exercise8.SendFile

set_option autoImplicit false

namespace NgkNet.Exercise8

open Bytes CString Segments

abbrev Tagged := UInt8 × Bool

def Block.tagged (b : Block) : List Tagged :=
  b.text.map (fun x => (x, true)) ++ (0, false) :: b.stale.map (fun x => (x, false))

def shown (seg : List Tagged) : List UInt8 := (seg.map Prod.fst).takeWhile (fun x => x ≠ 0)

def kept (seg : List Tagged) : List UInt8 := (seg.filter Prod.snd).map Prod.fst

theorem Block.tagged_bytes (b : Block) : b.tagged.map Prod.fst = b.bytes := by
  simp [tagged, bytes, Function.comp_def]

theorem Block.tagged_length (b : Block) : b.tagged.length = 1000 := by
  rw [← b.bytes_length, ← b.tagged_bytes, List.length_map]

theorem kept_append (xs ys : List Tagged) : kept (xs ++ ys) = kept xs ++ kept ys := by
  simp [kept]

theorem kept_text (xs : List UInt8) : kept (xs.map (fun x => (x, true))) = xs := by
  induction xs with
  | nil => rfl
  | cons x xs ih => exact congrArg (x :: ·) ih

theorem kept_filler {seg : List Tagged} (h : ∀ x ∈ seg, x.2 = false) : kept seg = [] := by
  rw [kept, List.filter_eq_nil_iff.mpr, List.map_nil]
  intro x hx
  simp [h x hx]

theorem Block.filler (b : Block) : ∀ x ∈ ((0, false) :: b.stale.map (fun x => (x, false)) : List Tagged),
    x.2 = false := by
  intro x hx
  rw [List.mem_cons, List.mem_map] at hx
  obtain rfl | ⟨y, -, rfl⟩ := hx <;> rfl

theorem Block.kept_tagged (b : Block) : kept b.tagged = b.text := by
  rw [tagged, kept_append, kept_text, kept_filler b.filler, List.append_nil]

theorem Block.drop_text (b : Block) {o : ℕ} (h : o ≤ b.text.length) :
    b.tagged.drop o = (b.text.drop o).map (fun x => (x, true)) ++
      (0, false) :: b.stale.map (fun x => (x, false)) := by
  rw [tagged, List.drop_append_of_le_length (by simpa using h), List.map_drop]

theorem Block.drop_filler (b : Block) {o : ℕ} (h : b.text.length ≤ o) :
    ∀ x ∈ b.tagged.drop o, x.2 = false := by
  intro x hx
  rw [tagged, List.drop_append, List.drop_of_length_le (by simpa using h), List.nil_append] at hx
  exact b.filler x (List.mem_of_mem_drop hx)

theorem Block.part_text (b : Block) {o : ℕ} (h : o < b.text.length) (r : ℕ) :
    shown ((b.tagged.drop o).take r) = (b.text.drop o).take r ∧
      kept ((b.tagged.drop o).take r) = (b.text.drop o).take r := by
  have hn : 0 ∉ (b.text.drop o).take r :=
    fun h₀ => b.nul_free (List.mem_of_mem_drop (List.mem_of_mem_take h₀))
  rw [b.drop_text (Nat.le_of_lt h), List.take_append, ← List.map_take]
  constructor
  · rw [shown, List.map_append, List.map_map]
    simp only [Function.comp_def, List.map_id']
    rw [takeWhile_append _ _ hn]
    cases r - ((b.text.drop o).map (fun x => (x, true))).length with
    | zero => simp
    | succ k => simp
  · rw [kept_append, kept_text, kept_filler, List.append_nil]
    exact fun x hx => b.filler x (List.mem_of_mem_take hx)

theorem Block.part_filler (b : Block) {o : ℕ} (h : b.text.length ≤ o) (r : ℕ) :
    kept ((b.tagged.drop o).take r) = [] :=
  kept_filler (fun x hx => b.drop_filler h x (List.mem_of_mem_take hx))

theorem shown_eq_nil_iff {seg : List Tagged} (h : seg ≠ []) :
    shown seg = [] ↔ (seg.map Prod.fst).head? = some 0 := by
  cases seg with
  | nil => exact absurd rfl h
  | cons x seg =>
    by_cases hx : x.1 = 0 <;> simp [shown, hx]

theorem shown_append {xs : List Tagged} (h : 0 ∈ xs.map Prod.fst) (ys : List Tagged) :
    shown (xs ++ ys) = shown xs := by
  obtain ⟨as, bs, he, ha⟩ := List.eq_append_cons_of_mem h
  rw [shown, shown, List.map_append, he, List.append_assoc, takeWhile_append as _ ha,
    takeWhile_append as _ ha]
  simp

def CleanAt (b : Block) (o : ℕ) (seg : List Tagged) : Prop :=
  o < b.text.length ∨ (seg.map Prod.fst).head? = some 0

theorem part_clean (b : Block) {o r : ℕ} (hr : 0 < r)
    (h : CleanAt b o ((b.tagged.drop o).take r)) (ho : o < 1000) :
    shown ((b.tagged.drop o).take r) = kept ((b.tagged.drop o).take r) := by
  by_cases ht : o < b.text.length
  · rw [(b.part_text ht r).1, (b.part_text ht r).2]
  · have hne : (b.tagged.drop o).take r ≠ [] := by
      apply List.ne_nil_of_length_pos
      rw [List.length_take, List.length_drop, b.tagged_length]
      omega
    rw [b.part_filler (Nat.le_of_not_lt ht), shown_eq_nil_iff hne]
    exact h.resolve_left ht

theorem part_not_clean (b : Block) {o r : ℕ} (hr : 0 < r)
    (h : ¬ CleanAt b o ((b.tagged.drop o).take r)) (ho : o < 1000) :
    (kept ((b.tagged.drop o).take r)).length < (shown ((b.tagged.drop o).take r)).length := by
  have ht : ¬ o < b.text.length := fun ht => h (.inl ht)
  have hne : (b.tagged.drop o).take r ≠ [] := by
    apply List.ne_nil_of_length_pos
    rw [List.length_take, List.length_drop, b.tagged_length]
    omega
  rw [b.part_filler (Nat.le_of_not_lt ht), List.length_nil, List.length_pos_iff, ne_eq,
    shown_eq_nil_iff hne]
  exact fun h₀ => h (.inr h₀)

theorem Block.zero_mem_drop (b : Block) {o : ℕ} (h : o < 1000) : 0 ∈ (b.tagged.drop o).map Prod.fst := by
  rw [List.map_drop, b.tagged_bytes]
  apply List.mem_of_getLast?
  rw [List.getLast?_drop, b.bytes_length, if_neg (by omega), b.bytes_last]

def stream (blocks : List Block) : List Tagged := blocks.flatMap Block.tagged

theorem drop_stream (blocks : List Block) (p : ℕ) (hp : p < (stream blocks).length) :
    ∃ before b after, blocks = before ++ b :: after ∧ before.length = p / 1000 ∧
      (stream blocks).drop p = b.tagged.drop (p % 1000) ++ stream after := by
  induction blocks generalizing p with
  | nil => simp [stream] at hp
  | cons b blocks ih =>
    have hc : stream (b :: blocks) = b.tagged ++ stream blocks := List.flatMap_cons
    have hl := b.tagged_length
    by_cases h : p < 1000
    · refine ⟨[], b, blocks, rfl, by simp only [List.length_nil]; omega, ?_⟩
      rw [hc, List.drop_append_of_le_length (by omega), Nat.mod_eq_of_lt h]
    · rw [hc, List.length_append] at hp
      obtain ⟨before, c, after, rfl, hb, hd⟩ := ih (p - 1000) (by omega)
      refine ⟨b :: before, c, after, rfl, by rw [List.length_cons]; omega, ?_⟩
      rw [hc, List.drop_append, List.drop_of_length_le (by omega), List.nil_append, hl, hd,
        show (p - 1000) % 1000 = p % 1000 by omega]

structure Piece (blocks : List Block) (s : ℕ × List Tagged) (b : Block) (after : List Block) : Prop where
  block : blocks[s.1 / 1000]? = some b
  after_text : ∀ a ∈ after, a.text ≠ []
  pos : 0 < s.2.length
  bytes : s.2 = (b.tagged.drop (s.1 % 1000) ++ stream after).take s.2.length

theorem segments_piece {blocks : List Block} (hb : ∀ b ∈ blocks.tail, b.text ≠ []) {reads : ℕ → ℕ}
    {s : ℕ × List Tagged} (hs : s ∈ segments 1000 0 reads (stream blocks)) :
    ∃ b after, Piece blocks s b after := by
  obtain ⟨k, hk, he, h₀, -⟩ := mem_segments hs
  rw [Nat.zero_add] at hk
  subst hk
  have hp : s.1 < (stream blocks).length := by
    have := congrArg List.length he
    rw [List.length_take, List.length_drop] at this
    omega
  obtain ⟨before, b, after, hblocks, hlen, hd⟩ := drop_stream blocks s.1 hp
  refine ⟨b, after, ?_, ?_, h₀, hd ▸ he⟩
  · rw [hblocks, ← hlen]
    simp
  · intro a ha
    apply hb
    rw [hblocks]
    cases before with
    | nil => exact ha
    | cons c before => simp [ha]

namespace Piece

variable {blocks : List Block} {s : ℕ × List Tagged} {b : Block} {after : List Block}

theorem stays (h : Piece blocks s b after) (hs : s.1 % 1000 + s.2.length ≤ 1000) :
    s.2 = (b.tagged.drop (s.1 % 1000)).take s.2.length := by
  have := h.bytes
  rwa [List.take_append_of_le_length (by rw [List.length_drop, b.tagged_length]; omega)] at this

theorem crosses (h : Piece blocks s b after) (hs : 1000 < s.1 % 1000 + s.2.length) :
    ∃ x ys, s.2 = b.tagged.drop (s.1 % 1000) ++ (x, true) :: ys := by
  have hl : (b.tagged.drop (s.1 % 1000)).length = 1000 - s.1 % 1000 := by
    rw [List.length_drop, b.tagged_length]
  have he := h.bytes
  have hm : s.1 % 1000 < 1000 := Nat.mod_lt _ (by omega)
  cases after with
  | nil =>
    have := congrArg List.length he
    simp [stream, b.tagged_length] at this
    omega
  | cons a after =>
    obtain ⟨x, xs, hx⟩ := List.exists_cons_of_ne_nil (h.after_text a List.mem_cons_self)
    obtain ⟨ys, hy⟩ : ∃ ys, stream (a :: after) = (x, true) :: ys := by
      simp [stream, Block.tagged, hx]
    rw [hy, List.take_append, List.take_of_length_le (by omega),
      show s.2.length - (b.tagged.drop (s.1 % 1000)).length =
        (s.2.length - (1000 - s.1 % 1000) - 1) + 1 by omega, List.take_succ_cons] at he
    exact ⟨x, _, he⟩

theorem hasNul (h : Piece blocks s b after) : HasNul (s.2.map Prod.fst) := by
  have hm : s.1 % 1000 < 1000 := Nat.mod_lt _ (by omega)
  by_cases hl : s.2.length < 1000
  · exact .inr (by rwa [List.length_map])
  · left
    have he := h.bytes
    rw [List.take_append, List.take_of_length_le (by rw [List.length_drop, b.tagged_length]; omega)] at he
    rw [he, List.map_append]
    exact List.mem_append_left _ (b.zero_mem_drop hm)

theorem shown_eq_kept (h : Piece blocks s b after) (hs : s.1 % 1000 + s.2.length ≤ 1000)
    (hc : CleanAt b (s.1 % 1000) s.2) : shown s.2 = kept s.2 := by
  rw [h.stays hs] at hc ⊢
  exact part_clean b h.pos hc (Nat.mod_lt _ (by omega))

theorem kept_lt_shown (h : Piece blocks s b after) (hs : s.1 % 1000 + s.2.length ≤ 1000)
    (hc : ¬ CleanAt b (s.1 % 1000) s.2) : (kept s.2).length < (shown s.2).length := by
  rw [h.stays hs] at hc ⊢
  exact part_not_clean b h.pos hc (Nat.mod_lt _ (by omega))

theorem shown_lt_kept (h : Piece blocks s b after) (hs : 1000 < s.1 % 1000 + s.2.length)
    (hc : CleanAt b (s.1 % 1000) s.2) : (shown s.2).length < (kept s.2).length := by
  have hm : s.1 % 1000 < 1000 := Nat.mod_lt _ (by omega)
  have hlen : (b.tagged.drop (s.1 % 1000)).length = 1000 - s.1 % 1000 := by
    rw [List.length_drop, b.tagged_length]
  have hall : (b.tagged.drop (s.1 % 1000)).take 1000 = b.tagged.drop (s.1 % 1000) :=
    List.take_of_length_le (by omega)
  obtain ⟨x, ys, he⟩ := h.crosses hs
  have hpart : shown (b.tagged.drop (s.1 % 1000)) = kept (b.tagged.drop (s.1 % 1000)) := by
    rw [← hall]
    apply part_clean b (by omega) _ hm
    rw [hall]
    rw [he] at hc
    apply hc.imp_right
    intro h₀
    obtain ⟨y, zs, hy⟩ := List.exists_cons_of_length_pos (by omega : 0 < (b.tagged.drop (s.1 % 1000)).length)
    rw [hy] at h₀ ⊢
    exact h₀
  rw [he, shown_append (b.zero_mem_drop hm), hpart, kept_append, List.length_append]
  simp [kept]

end Piece

end NgkNet.Exercise8
