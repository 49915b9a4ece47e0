import NgkNet.Base.Bytes

set_option autoImplicit false

namespace NgkNet.Segments

open Bytes

variable {α β : Type}

/-- The pieces in which a stream is received, each with the position at which it starts. -/
def segments (request position : ℕ) (reads : ℕ → ℕ) (stream : List α) : List (ℕ × List α) :=
  if h : (deliver (reads 0) request stream).length = 0 then []
  else (position, deliver (reads 0) request stream) ::
    segments request (position + (deliver (reads 0) request stream).length) (fun i => reads (i + 1))
      (stream.drop (deliver (reads 0) request stream).length)
termination_by stream.length
decreasing_by
  have := deliver_length (reads 0) request stream
  rw [List.length_drop]
  omega

theorem segments_end {request position : ℕ} {reads : ℕ → ℕ} {stream : List α}
    (h : (deliver (reads 0) request stream).length = 0) : segments request position reads stream = [] := by
  rw [segments, dif_pos h]

theorem segments_next {request position : ℕ} {reads : ℕ → ℕ} {stream : List α}
    (h : (deliver (reads 0) request stream).length ≠ 0) :
    segments request position reads stream = (position, deliver (reads 0) request stream) ::
      segments request (position + (deliver (reads 0) request stream).length) (fun i => reads (i + 1))
        (stream.drop (deliver (reads 0) request stream).length) := by
  rw [segments, dif_neg h]

theorem deliver_map (f : α → β) (choice request : ℕ) (stream : List α) :
    deliver choice request (stream.map f) = (deliver choice request stream).map f := by
  simp only [deliver, List.map_take]

theorem segments_map (f : α → β) (request position : ℕ) (reads : ℕ → ℕ) (stream : List α) :
    segments request position reads (stream.map f) =
      (segments request position reads stream).map (fun s => (s.1, s.2.map f)) := by
  induction hn : stream.length using Nat.strongRecOn generalizing position reads stream with
  | _ n ih =>
    have hlen := deliver_length (reads 0) request stream
    by_cases h : (deliver (reads 0) request stream).length = 0
    · rw [segments_end h, segments_end (by rw [deliver_map, List.length_map, h])]
      rfl
    · rw [segments_next h, segments_next (by rw [deliver_map, List.length_map]; exact h), deliver_map,
        List.length_map, ← List.map_drop, ih _ (by rw [List.length_drop]; omega) _ _ _ rfl]
      rfl

theorem segments_flatten {request : ℕ} (hr : 0 < request) (position : ℕ) (reads : ℕ → ℕ) (stream : List α) :
    ((segments request position reads stream).map Prod.snd).flatten = stream := by
  induction hn : stream.length using Nat.strongRecOn generalizing position reads stream with
  | _ n ih =>
    have hlen := deliver_length (reads 0) request stream
    by_cases h : (deliver (reads 0) request stream).length = 0
    · rw [segments_end h]
      exact (List.length_eq_zero_iff.mp (by omega)).symm
    · rw [segments_next h, List.map_cons, List.flatten_cons, ih _ (by rw [List.length_drop]; omega) _ _ _ rfl]
      exact deliver_append_drop _ _ _

theorem mem_segments {request position : ℕ} {reads : ℕ → ℕ} {stream : List α} {s : ℕ × List α}
    (h : s ∈ segments request position reads stream) :
    ∃ k, s.1 = position + k ∧ s.2 = (stream.drop k).take s.2.length ∧ 0 < s.2.length ∧
      s.2.length ≤ request := by
  induction hn : stream.length using Nat.strongRecOn generalizing position reads stream with
  | _ n ih =>
    have hlen := deliver_length (reads 0) request stream
    by_cases h₀ : (deliver (reads 0) request stream).length = 0
    · simp [segments_end h₀] at h
    · rw [segments_next h₀, List.mem_cons] at h
      rcases h with rfl | h
      · refine ⟨0, rfl, ?_, by simp only; omega, by simp only; omega⟩
        exact List.prefix_iff_eq_take.mp ⟨_, deliver_append_drop (reads 0) request stream⟩
      · obtain ⟨k, hp, hs, h₁, h₂⟩ := ih _ (by rw [List.length_drop]; omega) h rfl
        refine ⟨(deliver (reads 0) request stream).length + k, by omega, ?_, h₁, h₂⟩
        rwa [List.drop_drop] at hs

end NgkNet.Segments
