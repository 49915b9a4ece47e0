import NgkNet.Base.Ecma.Lemmas
import NgkNet.Restinio.Express

set_option autoImplicit false

namespace NgkNet.Restinio

open Ascii Ecma Path2Regex

variable {icase : Bool}

namespace Path2Regex

def groupBody : Regex :=
  .rep 1 none true (.alt (.seq (.set (.literal (code '\\'))) (.set .any))
    (.set (.oneOf true [.single (code '\\'), .single (code '('), .single (code ')')])))

def parenthesized (i : ℕ) : Regex :=
  .seq (.set (.literal (code '('))) (.seq (.group i groupBody) (.set (.literal (code ')'))))

def pathRegex : Regex :=
  .alt (.group 1 (.seq (.set (.literal (code '\\'))) (.set .any)))
    (.seq
      (.alt
        (.seq (.set (.literal (code ':'))) (.seq (.group 2 (.rep 1 none true (.set (.oneOf false [.word false]))))
          (.rep 0 (some 1) true (parenthesized 3))))
        (parenthesized 4))
      (.rep 0 (some 1) true
        (.group 5 (.set (.oneOf false [.single (code '+'), .single (code '*'), .single (code '?')])))))

theorem parse_pathRegexStr : Ecma.parse pathRegexStr = some pathRegex := by decide +kernel

end Path2Regex

def slash : UInt8 := code '/'

def trailing : List Regex := [.rep 0 (some 1) true (.set (.literal slash)), .atEnd]

def plainShape (w : Str) : Regex := .cat (.atBegin :: (literals w ++ trailing))

def paramShape (w : Str) (s : CharSet) (greedy : Bool) : Regex :=
  .cat (.atBegin :: (literals w ++ .group 1 (.rep 1 none greedy (.set s)) :: trailing))

def OptionalSlash (t : Str) : Prop := t = [] ∨ t = [slash]

theorem fold_eq_slash (c : UInt8) : fold icase c = fold icase slash ↔ c = slash := by
  cases icase with
  | false => rfl
  | true => exact toLower_eq_iff (by decide) (by decide)

theorem mem_results_trailing {x y : State} :
    y ∈ results icase (.cat trailing) x ↔
      OptionalSlash x.rest ∧ y = ⟨x.pos + x.rest.length, [], x.captures⟩ := by
  rw [trailing, mem_results_cat_cons]
  simp only [Regex.cat, mem_results_optional, mem_results_atEnd]
  have htest : ∀ c, (CharSet.literal slash).test icase c = true ↔ c = slash := by
    intro c
    simp [CharSet.test, fold_eq_slash]
  constructor
  · rintro ⟨z, rfl | ⟨hc, rfl⟩, hz, rfl⟩
    · refine ⟨.inl hz, ?_⟩
      cases y
      simp_all
    · cases hx : x.rest with
      | nil => simp [hx] at hc
      | cons c rest =>
        rw [hx] at hc
        have hr : rest = [] := by simpa [State.next, hx] using hz
        have hs : c = slash := (htest c).mp (by simpa using hc)
        rw [hr, hs]
        exact ⟨.inr rfl, by simp [State.next, hx, hr]⟩
  · rintro ⟨h | h, rfl⟩
    · exact ⟨x, .inl rfl, h, by cases x; simp_all⟩
    · refine ⟨x.next 1, .inr ⟨by simp [h, htest], rfl⟩, by simp [State.next, h], by simp [State.next, h]⟩

def FoldEq (icase : Bool) (v w : Str) : Prop := v.map (fold icase) = w.map (fold icase)

theorem FoldEq.length {v w : Str} (h : FoldEq icase v w) : v.length = w.length := by
  simpa using congrArg List.length h

theorem mem_results_literals_start {w path : Str} {z : State} :
    z ∈ results icase (.cat (literals w)) ⟨0, path, []⟩ ↔
      ∃ v t, path = v ++ t ∧ FoldEq icase v w ∧ z = ⟨w.length, t, []⟩ := by
  rw [mem_results_literals]
  constructor
  · rintro ⟨h, rfl⟩
    refine ⟨path.take w.length, path.drop w.length, (List.take_append_drop _ _).symm, h, ?_⟩
    simp [State.next]
  · rintro ⟨v, t, rfl, h, rfl⟩
    simp only [State.next]
    rw [← h.length, List.take_left, List.drop_left, Nat.zero_add]
    exact ⟨h, rfl⟩

theorem mem_results_plainShape {w path : Str} {y : State} :
    y ∈ results icase (plainShape w) ⟨0, path, []⟩ ↔
      ∃ v t, path = v ++ t ∧ FoldEq icase v w ∧ OptionalSlash t ∧ y = ⟨path.length, [], []⟩ := by
  rw [plainShape, mem_results_anchored, mem_results_cat_append]
  simp only [mem_results_literals_start, mem_results_trailing]
  constructor
  · rintro ⟨z, ⟨v, t, rfl, h, rfl⟩, ht, rfl⟩
    refine ⟨v, t, rfl, h, ht, ?_⟩
    rw [List.length_append, h.length]
  · rintro ⟨v, t, rfl, h, ht, rfl⟩
    refine ⟨_, ⟨v, t, rfl, h, rfl⟩, ht, ?_⟩
    rw [List.length_append, h.length]

structure Segmented (icase : Bool) (w : Str) (s : CharSet) (path v seg t : Str) : Prop where
  path : path = v ++ (seg ++ t)
  literal : FoldEq icase v w
  nonempty : seg ≠ []
  chars : ∀ c ∈ seg, s.test icase c = true
  tail : OptionalSlash t

theorem mem_results_paramShape {w path : Str} {s : CharSet} {greedy : Bool} {y : State} :
    y ∈ results icase (paramShape w s greedy) ⟨0, path, []⟩ ↔
      ∃ v seg t, Segmented icase w s path v seg t ∧
        y = ⟨path.length, [], [(1, w.length, w.length + seg.length)]⟩ := by
  rw [paramShape, mem_results_anchored, mem_results_cat_append]
  simp only [mem_results_cat_cons, mem_results_literals_start, mem_results_group, mem_results_plus,
    mem_results_trailing]
  constructor
  · rintro ⟨z, ⟨v, u, rfl, h, rfl⟩, z', ⟨z'', ⟨n, h₁, hn, hall, rfl⟩, rfl⟩, ht, rfl⟩
    have hl : (u.take n).length = n := by
      rw [List.length_take]
      exact Nat.min_eq_left hn
    refine ⟨v, u.take n, u.drop n, ⟨by rw [List.take_append_drop], h, ?_, hall, ht⟩, ?_⟩
    · apply List.ne_nil_of_length_pos
      omega
    · have := h.length
      simp only [State.capture, State.next, State.clear, List.filter_nil, List.length_append, hl,
        List.length_drop, State.mk.injEq, and_true]
      simp only at hn
      omega
  · rintro ⟨v, seg, t, ⟨rfl, h, h₀, hall, ht⟩, rfl⟩
    refine ⟨_, ⟨v, seg ++ t, rfl, h, rfl⟩, _, ⟨_, ⟨seg.length, List.length_pos_iff.mpr h₀, by simp, ?_, rfl⟩, rfl⟩,
      ?_, ?_⟩
    · rwa [List.take_left]
    · simpa [State.capture, State.next] using ht
    · have := h.length
      simp [State.capture, State.next, State.clear]
      omega

theorem Segmented.unique {w path v seg t v' seg' t' : Str} {s : CharSet} (hs : s.test icase slash = false)
    (h : Segmented icase w s path v seg t) (h' : Segmented icase w s path v' seg' t') :
    v = v' ∧ seg = seg' ∧ t = t' := by
  have hlen : v.length = v'.length := by rw [h.literal.length, h'.literal.length]
  obtain ⟨rfl, he⟩ := List.append_inj (h.path.symm.trans h'.path) hlen
  have hno : ∀ seg : Str, (∀ c ∈ seg, s.test icase c = true) → slash ∉ seg := by
    intro seg hall hm
    simp [hall slash hm] at hs
  rcases h.tail with rfl | rfl <;> rcases h'.tail with rfl | rfl
  · simpa using he
  · rw [List.append_nil] at he
    exact absurd (he ▸ by simp : slash ∈ seg) (hno seg h.chars)
  · rw [List.append_nil] at he
    exact absurd (he ▸ by simp : slash ∈ seg') (hno seg' h'.chars)
  · simpa using he

theorem head?_eq_some_of_unique {α : Type} {l : List α} {y : α} (hy : y ∈ l) (h : ∀ z ∈ l, z = y) :
    l.head? = some y := by
  cases l with
  | nil => simp at hy
  | cons z l => rw [List.head?_cons, h z List.mem_cons_self]

theorem matchRoute_plainShape {w path : Str} {params : List ParamName} :
    (matchRoute ⟨plainShape w, icase, params⟩ path).isSome ↔
      ∃ v t, path = v ++ t ∧ FoldEq icase v w ∧ OptionalSlash t := by
  rw [matchRoute, plainShape, search_anchored, Option.isSome_map, Option.isSome_map, ← plainShape,
    List.isSome_head?, ← List.length_pos_iff, List.length_pos_iff_exists_mem]
  simp only [mem_results_plainShape]
  constructor
  · rintro ⟨y, v, t, he, h, ht, -⟩
    exact ⟨v, t, he, h, ht⟩
  · rintro ⟨v, t, he, h, ht⟩
    exact ⟨_, v, t, he, h, ht, rfl⟩

theorem matchRoute_paramShape {w path key : Str} {s : CharSet} {greedy : Bool} {params : RouteParams}
    (hs : s.test icase slash = false) :
    matchRoute ⟨paramShape w s greedy, icase, [.named key]⟩ path = some params ↔
      ∃ v seg t, Segmented icase w s path v seg t ∧ params = ⟨path, [(key, seg)], []⟩ := by
  have hfound : ∀ v seg t, Segmented icase w s path v seg t →
      matchRoute ⟨paramShape w s greedy, icase, [.named key]⟩ path = some ⟨path, [(key, seg)], []⟩ := by
    intro v seg t h
    have hhead : (results icase (paramShape w s greedy) ⟨0, path, []⟩).head? =
        some ⟨path.length, [], [(1, w.length, w.length + seg.length)]⟩ := by
      apply head?_eq_some_of_unique (mem_results_paramShape.mpr ⟨v, seg, t, h, rfl⟩)
      intro z hz
      obtain ⟨v', seg', t', h', rfl⟩ := mem_results_paramShape.mp hz
      obtain ⟨-, rfl, -⟩ := h.unique hs h'
      rfl
    have hslice : (path.drop w.length).take seg.length = seg := by
      rw [h.path, ← h.literal.length, List.drop_left, List.take_left]
    rw [matchRoute, paramShape, search_anchored, ← paramShape, hhead]
    simp [State.captured, hslice, slice]
  constructor
  · intro h
    cases hr : (results icase (paramShape w s greedy) ⟨0, path, []⟩).head? with
    | none =>
      rw [matchRoute, paramShape, search_anchored, ← paramShape, hr] at h
      simp at h
    | some y =>
      obtain ⟨v, seg, t, hseg, -⟩ := mem_results_paramShape.mp (List.mem_of_head? hr)
      refine ⟨v, seg, t, hseg, ?_⟩
      rw [hfound v seg t hseg] at h
      exact (Option.some.inj h).symm
  · rintro ⟨v, seg, t, hseg, rfl⟩
    exact hfound v seg t hseg

end NgkNet.Restinio
