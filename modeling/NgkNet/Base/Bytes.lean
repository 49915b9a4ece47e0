import Mathlib.Data.List.TakeDrop
import Mathlib.Data.Nat.Notation
import Mathlib.Tactic.Common

set_option autoImplicit false

namespace NgkNet.Bytes

variable {α : Type}

def overwrite (buf xs : List α) : List α := xs ++ buf.drop xs.length

/-- What one `read`, `recv` or `write` moves; the system chooses how much of it. -/
def deliver (choice request : ℕ) (stream : List α) : List α := stream.take (min (max 1 choice) request)

theorem deliver_length (choice request : ℕ) (stream : List α) :
    (deliver choice request stream).length = min (min (max 1 choice) request) stream.length :=
  List.length_take

theorem deliver_take (choice request : ℕ) (stream : List α) :
    deliver choice request (stream.take request) = deliver choice request stream := by
  rw [deliver, deliver, List.take_take, Nat.min_eq_left (Nat.min_le_right _ _)]

theorem deliver_append_drop (choice request : ℕ) (stream : List α) :
    deliver choice request stream ++ stream.drop (deliver choice request stream).length = stream := by
  rw [deliver_length, deliver]
  rcases Nat.le_total (min (max 1 choice) request) stream.length with h | h
  · rw [Nat.min_eq_left h, List.take_append_drop]
  · rw [Nat.min_eq_right h, List.take_of_length_le h, List.drop_length, List.append_nil]

theorem append_eq_iff {xs ys zs : List α} {k : ℕ} (hx : xs.length = k) (hz : k ≤ zs.length) :
    xs ++ ys = zs ↔ xs = zs.take k ∧ ys = zs.drop k := by
  constructor
  · rintro rfl
    simp [← hx]
  · rintro ⟨h₁, h₂⟩
    rw [h₁, h₂, List.take_append_drop]

theorem drop_split {xs : List α} {r k : ℕ} (h : r ≤ k) : xs.drop r = (xs.drop r).take (k - r) ++ xs.drop k := by
  conv_lhs => rw [← List.take_append_drop (k - r) (xs.drop r)]
  rw [List.drop_drop, Nat.add_sub_of_le h]

section Zero

variable [Zero α]

def Zeros (xs : List α) : Prop := ∀ x ∈ xs, x = 0

def padded (k : ℕ) (xs : List α) : List α := xs ++ List.replicate (k - xs.length) 0

theorem padded_length {k : ℕ} {xs : List α} (h : xs.length ≤ k) : (padded k xs).length = k := by
  simp only [padded, List.length_append, List.length_replicate]
  omega

theorem padded_of_length {k : ℕ} {xs : List α} (h : xs.length = k) : padded k xs = xs := by
  simp [padded, h]

theorem take_overwrite_zeroed {k size : ℕ} {buf xs : List α} (hx : xs.length ≤ k) (hk : k ≤ size) :
    (overwrite (overwrite buf (List.replicate size 0)) xs).take k = padded k xs := by
  have hd : (List.replicate size (0 : α) ++ buf.drop size).drop xs.length =
      List.replicate (size - xs.length) 0 ++ buf.drop size := by
    rw [List.drop_append_of_le_length (by simp; omega), List.drop_replicate]
  simp only [overwrite, List.length_replicate, hd, padded]
  rw [List.take_append, List.take_of_length_le hx, List.take_append_of_le_length (by simp; omega),
    List.take_replicate, Nat.min_eq_left (by omega)]

theorem zeros_append {xs ys : List α} : Zeros (xs ++ ys) ↔ Zeros xs ∧ Zeros ys := by
  simp only [Zeros, List.mem_append]
  exact ⟨fun h => ⟨fun x hx => h x (.inl hx), fun x hx => h x (.inr hx)⟩,
    fun h x hx => hx.elim (h.1 x) (h.2 x)⟩

theorem Zeros.eq_replicate {xs : List α} (h : Zeros xs) : xs = List.replicate xs.length 0 :=
  List.eq_replicate_iff.mpr ⟨rfl, h⟩

theorem Zeros.getElem?_getD {xs : List α} (h : Zeros xs) (i : ℕ) : xs[i]?.getD 0 = 0 := by
  cases hx : xs[i]? with
  | none => rfl
  | some x => exact h x (List.mem_of_getElem? hx)

theorem zeros_of_getElem?_getD {xs : List α} (h : ∀ i < xs.length, xs[i]?.getD 0 = 0) : Zeros xs := by
  intro x hx
  obtain ⟨i, hi, rfl⟩ := List.getElem_of_mem hx
  simpa [hi] using h i hi

theorem padded_getElem?_getD (k : ℕ) (xs : List α) (i : ℕ) : (padded k xs)[i]?.getD 0 = xs[i]?.getD 0 := by
  rcases Nat.lt_or_ge i xs.length with h | h
  · rw [padded, List.getElem?_append_left h]
  · rw [padded, List.getElem?_append_right h, List.getElem?_replicate, List.getElem?_eq_none h]
    split <;> rfl

theorem padded_take_iff {xs : List α} {r k : ℕ} (hr : r ≤ k) (hk : k ≤ xs.length) :
    padded k (xs.take r) = xs.take k ↔ Zeros ((xs.drop r).take (k - r)) := by
  have hlen : (xs.take r).length = r := by rw [List.length_take]; omega
  have hlag : ((xs.drop r).take (k - r)).length = k - r := by simp; omega
  rw [padded, append_eq_iff hlen (by rw [List.length_take]; omega), List.take_take, List.drop_take, hlen,
    Nat.min_eq_left hr]
  simp only [true_and]
  rw [eq_comm, List.eq_replicate_iff]
  exact ⟨fun h => h.2, fun h => ⟨hlag, h⟩⟩

theorem padded_lag_iff (lag xs ys : List α) (r : ℕ) (hl : lag ≠ []) (hz : Zeros lag) (hr : r ≤ xs.length) :
    padded xs.length ((lag ++ (xs ++ ys)).take r) = xs ↔ Zeros xs := by
  have hlen : ((lag ++ (xs ++ ys)).take r).length = r := by simp; omega
  have hpos : 0 < lag.length := List.length_pos_iff.mpr hl
  constructor
  · intro h
    apply zeros_of_getElem?_getD
    intro i
    -- byte `i` is a byte of the lag, a pad byte, or a byte of `xs` further to the front
    induction i using Nat.strongRecOn with
    | _ i ih =>
      intro hi
      rw [← h, padded_getElem?_getD, List.getElem?_take]
      split
      · rcases Nat.lt_or_ge i lag.length with hlag | hlag
        · rw [List.getElem?_append_left hlag]
          exact hz.getElem?_getD i
        · rw [List.getElem?_append_right hlag, List.getElem?_append_left (by omega)]
          exact ih _ (by omega) (by omega)
      · rfl
  · intro h
    have hall : Zeros ((lag ++ xs).take r) := fun x hx =>
      zeros_append.mpr ⟨hz, h⟩ x (List.mem_of_mem_take hx)
    have ht : (lag ++ (xs ++ ys)).take r = (lag ++ xs).take r := by
      rw [← List.append_assoc, List.take_append_of_le_length (by simp; omega)]
    rw [ht] at hlen ⊢
    rw [hall.eq_replicate, hlen, padded, List.length_replicate, List.replicate_append_replicate,
      h.eq_replicate]
    simp [hr]

def lastByte (writes : List (List α)) (k : ℕ) : α :=
  match writes.find? (fun w => k < w.length) with
  | some w => w[k]?.getD 0
  | none => 0

theorem overwrite_getElem?_getD (buf xs : List α) (k : ℕ) :
    (overwrite buf xs)[k]?.getD 0 = if k < xs.length then xs[k]?.getD 0 else buf[k]?.getD 0 := by
  by_cases h : k < xs.length
  · rw [overwrite, List.getElem?_append_left h, if_pos h]
  · rw [overwrite, List.getElem?_append_right (by omega), List.getElem?_drop, if_neg h]
    congr 2
    omega

theorem lastByte_cons (xs : List α) (writes : List (List α)) (k : ℕ) :
    lastByte (xs :: writes) k = if k < xs.length then xs[k]?.getD 0 else lastByte writes k := by
  by_cases h : k < xs.length <;> simp [lastByte, h]

theorem overwrite_lastByte {buf : List α} {writes : List (List α)}
    (h : ∀ k, buf[k]?.getD 0 = lastByte writes k) (xs : List α) (k : ℕ) :
    (overwrite buf xs)[k]?.getD 0 = lastByte (xs :: writes) k := by
  rw [overwrite_getElem?_getD, lastByte_cons, h]

end Zero

theorem overwrite_replicate (buf : List α) (size : ℕ) (x : α) :
    overwrite buf (List.replicate size x) = List.replicate size x ++ buf.drop size := by
  rw [overwrite, List.length_replicate]

theorem overwrite_length {buf xs : List α} (h : xs.length ≤ buf.length) :
    (overwrite buf xs).length = buf.length := by
  simp only [overwrite, List.length_append, List.length_drop]
  omega

end NgkNet.Bytes
