import NgkNet.Base.Ecma.Match
import Mathlib.Data.List.TakeDrop

set_option autoImplicit false

namespace NgkNet.Ecma

open Ascii

variable {icase : Bool}

theorem State.clear_nil (x : State) : x.clear [] = x := by
  rw [State.clear, List.filter_eq_self.mpr]
  simp

theorem State.next_zero (x : State) : x.next 0 = x := rfl

theorem State.next_next (x : State) (m n : ℕ) : (x.next m).next n = x.next (m + n) := by
  simp [State.next, Nat.add_assoc, List.drop_drop]

theorem mem_results_set {s : CharSet} {x y : State} :
    y ∈ results icase (.set s) x ↔ (x.rest.head?.any (s.test icase)) = true ∧ y = x.next 1 := by
  cases hx : x.rest with
  | nil => simp [results, hx]
  | cons c rest =>
    by_cases hc : s.test icase c = true <;> simp [results, hx, hc]

theorem mem_results_cat_cons {r : Regex} {rs : List Regex} {x y : State} :
    y ∈ results icase (.cat (r :: rs)) x ↔ ∃ z ∈ results icase r x, y ∈ results icase (.cat rs) z := by
  cases rs with
  | nil => simp [Regex.cat, results]
  | cons s rs => simp [Regex.cat, results]

theorem mem_results_cat_append {rs ss : List Regex} {x y : State} :
    y ∈ results icase (.cat (rs ++ ss)) x ↔
      ∃ z ∈ results icase (.cat rs) x, y ∈ results icase (.cat ss) z := by
  induction rs generalizing x with
  | nil => simp [Regex.cat, results]
  | cons r rs ih =>
    rw [List.cons_append, mem_results_cat_cons]
    constructor
    · rintro ⟨z, hz, hy⟩
      obtain ⟨u, hu, hy⟩ := ih.mp hy
      exact ⟨u, mem_results_cat_cons.mpr ⟨z, hz, hu⟩, hy⟩
    · rintro ⟨u, hu, hy⟩
      obtain ⟨z, hz, hu⟩ := mem_results_cat_cons.mp hu
      exact ⟨z, hz, ih.mpr ⟨u, hu, hy⟩⟩

def literals (w : Str) : List Regex := w.map (fun c => .set (.literal c))

theorem mem_results_literals {w : Str} {x y : State} :
    y ∈ results icase (.cat (literals w)) x ↔
      (x.rest.take w.length).map (fold icase) = w.map (fold icase) ∧ y = x.next w.length := by
  induction w generalizing x with
  | nil => simp [literals, Regex.cat, results, State.next_zero]
  | cons c w ih =>
    rw [literals, List.map_cons, mem_results_cat_cons]
    have hw : w.map (fun c => Regex.set (.literal c)) = literals w := rfl
    simp only [hw, mem_results_set, ih]
    cases hx : x.rest with
    | nil => simp
    | cons d rest =>
      constructor
      · rintro ⟨z, ⟨hd, rfl⟩, hz, rfl⟩
        simp only [State.next, hx, List.drop_succ_cons, List.drop_zero] at hz
        refine ⟨?_, by rw [State.next_next, List.length_cons, Nat.add_comm]⟩
        simpa [CharSet.test, hz] using hd
      · rintro ⟨he, rfl⟩
        simp only [List.length_cons, List.take_succ_cons, List.map_cons, List.cons.injEq] at he
        refine ⟨x.next 1, ⟨by simpa [CharSet.test] using he.1, rfl⟩, ?_, ?_⟩
        · simpa [State.next, hx] using he.2
        · rw [State.next_next, List.length_cons, Nat.add_comm]

theorem mem_repeatMatch_done {m : State → List State} {greedy : Bool} {fuel min : ℕ} {x y : State} :
    y ∈ repeatMatch m greedy (fuel + 1) min (some 0) x ↔ y = x := by
  simp [repeatMatch]

theorem mem_repeatMatch_succ {m : State → List State} {greedy : Bool} {fuel min : ℕ} {max : Option ℕ}
    {x y : State} (hm : max ≠ some 0) :
    y ∈ repeatMatch m greedy (fuel + 1) min max x ↔ (min = 0 ∧ y = x) ∨
      ∃ z ∈ m x, ¬ (min = 0 ∧ z.pos = x.pos) ∧
        y ∈ repeatMatch m greedy fuel (min - 1) (max.map (fun k => k - 1)) z := by
  rw [repeatMatch, if_neg hm]
  have hmore : y ∈ (m x).flatMap (fun z => if min = 0 ∧ z.pos = x.pos then []
        else repeatMatch m greedy fuel (min - 1) (max.map (fun k => k - 1)) z) ↔
      ∃ z ∈ m x, ¬ (min = 0 ∧ z.pos = x.pos) ∧
        y ∈ repeatMatch m greedy fuel (min - 1) (max.map (fun k => k - 1)) z := by
    rw [List.mem_flatMap]
    apply exists_congr
    intro z
    by_cases h : min = 0 ∧ z.pos = x.pos <;> simp [h]
  rw [← hmore]
  generalize (m x).flatMap _ = more
  by_cases h₀ : min = 0
  · cases greedy <;> simp [h₀, or_comm]
  · simp [h₀]

section OneChar

variable {m : State → List State} {test : UInt8 → Bool} {greedy : Bool} {x y : State}

theorem next_pos_ne (x : State) : (x.next 1).pos ≠ x.pos := by
  simp [State.next]

variable (hm : ∀ x z, z ∈ m x ↔ (x.rest.head?.any test) = true ∧ z = x.next 1)
include hm

theorem mem_repeat_optional (fuel : ℕ) (hf : x.rest.length < fuel) :
    y ∈ repeatMatch m greedy fuel 0 (some 1) x ↔ y = x ∨ y ∈ m x := by
  obtain ⟨fuel, rfl⟩ : ∃ k, fuel = k + 1 := ⟨fuel - 1, by omega⟩
  rw [mem_repeatMatch_succ (by simp)]
  simp only [true_and, Option.map_some, Nat.sub_self]
  apply or_congr_right
  constructor
  · rintro ⟨z, hz, -, hy⟩
    obtain ⟨k, rfl⟩ : ∃ k, fuel = k + 1 := by
      refine ⟨fuel - 1, ?_⟩
      cases hx : x.rest with
      | nil => simp [hm, hx] at hz
      | cons c rest =>
        rw [hx, List.length_cons] at hf
        omega
    rw [mem_repeatMatch_done] at hy
    rwa [hy]
  · intro hy
    obtain ⟨hc, rfl⟩ := (hm x y).mp hy
    refine ⟨_, hy, next_pos_ne x, ?_⟩
    cases hx : x.rest with
    | nil => simp [hx] at hc
    | cons c rest =>
      rw [hx, List.length_cons] at hf
      obtain ⟨k, rfl⟩ : ∃ k, fuel = k + 1 := ⟨fuel - 1, by omega⟩
      exact mem_repeatMatch_done.mpr rfl

theorem exists_next_iff {Q : State → Prop}
    (hQ : x.rest ≠ [] → (Q (x.next 1) ↔ ∃ n ≤ (x.next 1).rest.length,
      (∀ c ∈ (x.next 1).rest.take n, test c = true) ∧ y = (x.next 1).next n)) :
    (∃ z ∈ m x, Q z) ↔
      ∃ n, 1 ≤ n ∧ n ≤ x.rest.length ∧ (∀ c ∈ x.rest.take n, test c = true) ∧ y = x.next n := by
  cases hx : x.rest with
  | nil =>
    constructor
    · rintro ⟨z, hz, -⟩
      simp [hm, hx] at hz
    · rintro ⟨n, h₁, hn, -⟩
      rw [List.length_nil] at hn
      omega
  | cons c rest =>
    have hr : (x.next 1).rest = rest := by simp [State.next, hx]
    have hq := hQ (by simp [hx])
    rw [hr] at hq
    constructor
    · rintro ⟨z, hz, hy⟩
      obtain ⟨hc, rfl⟩ := (hm x z).mp hz
      obtain ⟨n, hn, hall, rfl⟩ := hq.mp hy
      rw [hx] at hc
      refine ⟨n + 1, by omega, by rw [List.length_cons]; omega, ?_, by rw [State.next_next, Nat.add_comm]⟩
      rw [List.take_succ_cons, List.forall_mem_cons]
      exact ⟨by simpa using hc, hall⟩
    · rintro ⟨n, h₁, hn, hall, rfl⟩
      obtain ⟨n, rfl⟩ : ∃ k, n = k + 1 := ⟨n - 1, by omega⟩
      rw [List.take_succ_cons, List.forall_mem_cons] at hall
      rw [List.length_cons] at hn
      refine ⟨x.next 1, (hm _ _).mpr ⟨by simpa [hx] using hall.1, rfl⟩, ?_⟩
      exact hq.mpr ⟨n, by omega, hall.2, by rw [State.next_next, Nat.add_comm]⟩

theorem mem_repeat_star (fuel : ℕ) (hf : x.rest.length < fuel) :
    y ∈ repeatMatch m greedy fuel 0 none x ↔
      ∃ n ≤ x.rest.length, (∀ c ∈ x.rest.take n, test c = true) ∧ y = x.next n := by
  induction fuel generalizing x with
  | zero => omega
  | succ fuel ih =>
    have hnext : x.rest ≠ [] → (x.next 1).rest.length < fuel := by
      intro h
      have := List.length_pos_iff.mpr h
      simp only [State.next, List.length_drop]
      omega
    have hmore := exists_next_iff hm (Q := fun z => y ∈ repeatMatch m greedy fuel 0 none z)
      (fun h => ih (hnext h))
    rw [mem_repeatMatch_succ (by simp)]
    have hz : (∃ z ∈ m x, ¬ (0 = 0 ∧ z.pos = x.pos) ∧
        y ∈ repeatMatch m greedy fuel (0 - 1) (Option.map (fun k => k - 1) none) z) ↔
        ∃ z ∈ m x, y ∈ repeatMatch m greedy fuel 0 none z := by
      constructor
      · rintro ⟨z, hz, -, hy⟩
        exact ⟨z, hz, hy⟩
      · rintro ⟨z, hz, hy⟩
        exact ⟨z, hz, fun h => next_pos_ne x (((hm x z).mp hz).2 ▸ h.2), hy⟩
    rw [hz, hmore]
    constructor
    · rintro (⟨-, rfl⟩ | ⟨n, -, h⟩)
      · exact ⟨0, Nat.zero_le _, by simp, rfl⟩
      · exact ⟨n, h⟩
    · rintro ⟨n, hn, hall, rfl⟩
      by_cases h₀ : n = 0
      · exact .inl ⟨rfl, by rw [h₀, State.next_zero]⟩
      · exact .inr ⟨n, by omega, hn, hall, rfl⟩

theorem mem_repeat_plus (fuel : ℕ) (hf : x.rest.length < fuel) :
    y ∈ repeatMatch m greedy (fuel + 1) 1 none x ↔
      ∃ n, 1 ≤ n ∧ n ≤ x.rest.length ∧ (∀ c ∈ x.rest.take n, test c = true) ∧ y = x.next n := by
  have hl : (x.next 1).rest.length < fuel := by
    simp only [State.next, List.length_drop]
    omega
  have hmore := exists_next_iff hm (Q := fun z => y ∈ repeatMatch m greedy fuel 0 none z)
    (fun _ => mem_repeat_star hm fuel hl)
  rw [mem_repeatMatch_succ (by simp), ← hmore]
  simp

end OneChar

theorem results_rep (min : ℕ) (max : Option ℕ) (greedy : Bool) (r : Regex) (x : State) :
    results icase (.rep min max greedy r) x =
      repeatMatch (fun y => results icase r (y.clear r.groups)) greedy (min + x.rest.length + 1) min max x :=
  rfl

theorem mem_results_set_clear (s : CharSet) (x z : State) :
    z ∈ results icase (.set s) (x.clear (Regex.set s).groups) ↔
      (x.rest.head?.any (s.test icase)) = true ∧ z = x.next 1 := by
  rw [Regex.groups, State.clear_nil, mem_results_set]

theorem mem_results_optional {s : CharSet} {greedy : Bool} {x y : State} :
    y ∈ results icase (.rep 0 (some 1) greedy (.set s)) x ↔
      y = x ∨ (x.rest.head?.any (s.test icase)) = true ∧ y = x.next 1 := by
  rw [results_rep, mem_repeat_optional (mem_results_set_clear s) _ (by omega), mem_results_set_clear]

theorem mem_results_plus {s : CharSet} {greedy : Bool} {x y : State} :
    y ∈ results icase (.rep 1 none greedy (.set s)) x ↔
      ∃ n, 1 ≤ n ∧ n ≤ x.rest.length ∧ (∀ c ∈ x.rest.take n, s.test icase c = true) ∧ y = x.next n := by
  rw [results_rep, mem_repeat_plus (mem_results_set_clear s) _ (by omega)]

theorem mem_results_group {i : ℕ} {r : Regex} {x y : State} :
    y ∈ results icase (.group i r) x ↔ ∃ z ∈ results icase r x, y = z.capture i x.pos := by
  simp [results, eq_comm]

theorem mem_results_atEnd {x y : State} : y ∈ results icase .atEnd x ↔ x.rest = [] ∧ y = x := by
  by_cases h : x.rest = [] <;> simp [results, h]

theorem searchFrom_anchored (rs : List Regex) (pos : ℕ) (s : Str) :
    searchFrom icase (.cat (.atBegin :: rs)) (pos + 1) s = none := by
  have hnone : ∀ p s, results icase (.cat (.atBegin :: rs)) ⟨p + 1, s, []⟩ = [] := by
    intro p s
    rw [List.eq_nil_iff_forall_not_mem]
    intro y hy
    obtain ⟨z, hz, -⟩ := mem_results_cat_cons.mp hy
    simp [results] at hz
  induction s generalizing pos with
  | nil => simp [searchFrom, hnone]
  | cons c s ih => simp [searchFrom, hnone, ih]

theorem mem_results_anchored {rs : List Regex} {s : Str} {y : State} :
    y ∈ results icase (.cat (.atBegin :: rs)) ⟨0, s, []⟩ ↔ y ∈ results icase (.cat rs) ⟨0, s, []⟩ := by
  rw [mem_results_cat_cons]
  simp [results]

theorem search_anchored (rs : List Regex) (s : Str) :
    search icase (.cat (.atBegin :: rs)) s =
      (results icase (.cat (.atBegin :: rs)) ⟨0, s, []⟩).head?.map (fun y => (0, y)) := by
  cases s with
  | nil => rfl
  | cons c s =>
    rw [search, searchFrom]
    cases (results icase (.cat (.atBegin :: rs)) ⟨0, c :: s, []⟩).head? with
    | none => simpa using searchFrom_anchored rs 0 s
    | some y => rfl

end NgkNet.Ecma
