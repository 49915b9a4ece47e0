import NgkNet.Base.Bytes

set_option autoImplicit false

namespace NgkNet.CString

def strlen (buf : List UInt8) : Option ℕ := buf.idxOf? 0

def text (buf : List UInt8) : Option (List UInt8) := (strlen buf).map (fun n => buf.take n)

theorem strlen_eq_some_iff (buf : List UInt8) (n : ℕ) :
    strlen buf = some n ↔ buf[n]? = some 0 ∧ 0 ∉ buf.take n := by
  rw [strlen, List.idxOf?_eq_some_iff]
  constructor
  · rintro ⟨hn, h₀, hlt⟩
    refine ⟨by rw [List.getElem?_eq_getElem hn, h₀], ?_⟩
    intro hm
    obtain ⟨i, hi, he⟩ := List.getElem_of_mem hm
    rw [List.length_take] at hi
    exact hlt i (by omega) (by simpa using he)
  · rintro ⟨h₀, hm⟩
    obtain ⟨hn, h₀⟩ := List.getElem?_eq_some_iff.mp h₀
    refine ⟨hn, h₀, ?_⟩
    intro i hi he
    apply hm
    rw [List.mem_take_iff_getElem]
    exact ⟨i, by omega, he⟩

theorem text_append (xs ys : List UInt8) (h : 0 ∉ xs) : text (xs ++ 0 :: ys) = some xs := by
  have hlen : strlen (xs ++ 0 :: ys) = some xs.length := by
    rw [strlen_eq_some_iff, List.take_left]
    exact ⟨by simp, h⟩
  rw [text, hlen, Option.map_some, List.take_left]

theorem takeWhile_append (xs ys : List UInt8) (h : 0 ∉ xs) :
    (xs ++ ys).takeWhile (fun x => x ≠ 0) = xs ++ ys.takeWhile (fun x => x ≠ 0) := by
  apply List.takeWhile_append_of_pos
  intro x hx
  simp only [ne_eq, decide_eq_true_eq]
  rintro rfl
  exact h hx

theorem text_append_of_stop (xs ys : List UInt8) (h : 0 ∈ xs ∨ ys.head? = some 0) :
    text (xs ++ ys) = some (xs.takeWhile (fun x => x ≠ 0)) := by
  by_cases hx : 0 ∈ xs
  · obtain ⟨as, bs, rfl, ha⟩ := List.eq_append_cons_of_mem hx
    rw [takeWhile_append as _ ha, List.append_assoc, List.cons_append, text_append as _ ha]
    simp
  · obtain ⟨zs, rfl⟩ : ∃ zs, ys = 0 :: zs := List.head?_eq_some_iff.mp (h.resolve_left hx)
    have := takeWhile_append xs [] hx
    rw [List.append_nil] at this
    rw [text_append xs zs hx, this]
    simp

end NgkNet.CString
