import Mathlib.Data.List.Rotate
import Mathlib.Data.Nat.ModEq

set_option autoImplicit false

namespace NgkNet

/-- A queue in a circular array. A cell that leaves the queue keeps its content until it is used again. -/
structure Ring (α : Type) where
  cells : List α
  first : ℕ
  count : ℕ
  first_lt : first = 0 ∨ first < cells.length
  count_le : count ≤ cells.length
  deriving DecidableEq

namespace Ring

variable {α : Type}

def ofCells (cells : List α) : Ring α where
  cells := cells
  first := 0
  count := 0
  first_lt := .inl rfl
  count_le := Nat.zero_le _

variable (r : Ring α) (i : ℕ) (f : α → α)

def index : ℕ := (r.first + i) % r.cells.length

def get? : Option α := r.cells[r.index i]?

def modify : Ring α where
  cells := r.cells.modify (r.index i) f
  first := r.first
  count := r.count
  first_lt := by simpa using r.first_lt
  count_le := by simpa using r.count_le

def grow (h : r.count < r.cells.length) : Ring α where
  cells := r.cells
  first := r.first
  count := r.count + 1
  first_lt := r.first_lt
  count_le := h

def push : Ring α := if h : r.count < r.cells.length then (r.grow h).modify r.count f else r

def next : ℕ := if r.first + 1 = r.cells.length then 0 else r.first + 1

def shrink (h : 0 < r.count) : Ring α where
  cells := r.cells
  first := r.next
  count := r.count - 1
  first_lt := by
    have := r.first_lt
    have := r.count_le
    rw [next]
    split <;> omega
  count_le := (Nat.sub_le _ _).trans r.count_le

def pop : Ring α := if h : 0 < r.count then r.shrink h else r

def ordered : List α := r.cells.rotate r.first

def live : List α := r.ordered.take r.count

def spare : List α := r.ordered.drop r.count

@[simp] theorem ordered_length : r.ordered.length = r.cells.length := List.length_rotate ..

@[simp] theorem live_length : r.live.length = r.count := by
  rw [live, List.length_take, ordered_length, Nat.min_eq_left r.count_le]

theorem spare_length : r.spare.length = r.cells.length - r.count := by
  rw [spare, List.length_drop, ordered_length]

@[simp] theorem ofCells_live (cells : List α) : (ofCells cells).live = [] := rfl

@[simp] theorem ofCells_spare (cells : List α) : (ofCells cells).spare = cells := List.rotate_zero cells

variable {r i f}

theorem get?_eq_ordered (h : i < r.cells.length) : r.get? i = r.ordered[i]? := by
  rw [get?, index, ordered, List.getElem?_rotate h, Nat.add_comm]

theorem get?_eq_live (h : i < r.count) : r.get? i = r.live[i]? := by
  rw [get?_eq_ordered (h.trans_le r.count_le), live, List.getElem?_take_of_lt h]

theorem index_inj {j : ℕ} (hi : i < r.cells.length) (hj : j < r.cells.length) :
    r.index i = r.index j ↔ i = j := by
  refine ⟨fun h => ?_, congrArg _⟩
  have h : i ≡ j [MOD r.cells.length] := Nat.ModEq.add_left_cancel' r.first h
  exact Nat.ModEq.eq_of_lt_of_lt h hi hj

theorem modify_ordered (h : i < r.cells.length) : (r.modify i f).ordered = r.ordered.modify i f := by
  apply List.ext_getElem?
  intro j
  by_cases hj : j < r.cells.length
  · have hj' : j < (r.modify i f).cells.length := by simpa [modify] using hj
    rw [← get?_eq_ordered hj', List.getElem?_modify, ← get?_eq_ordered hj]
    have hindex : (r.modify i f).index j = r.index j := by simp [index, modify]
    rw [get?, hindex, modify, List.getElem?_modify, get?]
    simp only [index_inj h hj]
  · rw [List.getElem?_eq_none, List.getElem?_eq_none] <;> simp [modify] <;> omega

theorem modify_live (h : i < r.count) : (r.modify i f).live = r.live.modify i f := by
  rw [live, modify_ordered (h.trans_le r.count_le), live, modify, List.take_modify]

theorem modify_spare (h : i < r.count) : (r.modify i f).spare = r.spare := by
  rw [spare, modify_ordered (h.trans_le r.count_le), spare, modify, List.drop_modify_of_lt _ _ _ _ h]

theorem push_of_spare {c : α} {rest : List α} (h : r.spare = c :: rest) :
    (r.push f).live = r.live ++ [f c] ∧ (r.push f).spare = rest := by
  have hlt : r.count < r.cells.length := by
    have := r.spare_length
    rw [h, List.length_cons] at this
    omega
  have hordered : r.ordered = r.live ++ c :: rest := by
    rw [← h, live, spare, List.take_append_drop]
  have hpushed : ((r.grow hlt).modify r.count f).ordered = r.live ++ f c :: rest := by
    have hgrow : (r.grow hlt).ordered = r.ordered := rfl
    rw [modify_ordered (r := r.grow hlt) hlt, hgrow, hordered, List.modify_eq_take_drop, ← r.live_length,
      List.take_left, List.drop_left, List.modifyHead_cons]
  have hcount : ((r.grow hlt).modify r.count f).count = r.live.length + 1 := by simp [modify, grow]
  rw [push, dif_pos hlt, live, spare, hpushed, hcount]
  constructor
  · simp [List.take_append]
  · simp [List.drop_append]

theorem pop_of_live {c : α} {rest : List α} (h : r.live = c :: rest) :
    r.pop.live = rest ∧ r.pop.spare = r.spare ++ [c] := by
  have hcount : r.count = rest.length + 1 := by rw [← r.live_length, h, List.length_cons]
  have hpos : 0 < r.count := by omega
  have hordered : r.ordered = c :: (rest ++ r.spare) := by
    rw [← List.cons_append, ← h, live, spare, List.take_append_drop]
  have hrotate : (r.shrink hpos).ordered = r.ordered.rotate 1 := by
    rw [ordered, ordered, List.rotate_rotate]
    change r.cells.rotate r.next = _
    rw [next]
    split
    · next hwrap => rw [hwrap, List.rotate_length, List.rotate_zero]
    · rfl
  have hshrunk : (r.shrink hpos).count = rest.length := by
    simp only [shrink]
    omega
  rw [pop, dif_pos hpos, live, spare, hrotate, hshrunk, hordered, List.rotate_cons_succ, List.rotate_zero,
    List.append_assoc]
  exact ⟨List.take_left, List.drop_left⟩

end Ring

end NgkNet
