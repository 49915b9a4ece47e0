import NgkNet.Restinio.RouteShapes

set_option autoImplicit false

namespace NgkNet.Weather

open Ascii Ecma Restinio Path2Regex

section Shapes

def RootPath (q : Str) : Prop := q = ascii "/" ∨ q = ascii "//"

def IdPath (q ID : Str) : Prop :=
  ∃ t, q = slash :: (ID ++ t) ∧ ID ≠ [] ∧ (∀ c ∈ ID, isDigit c = true) ∧ OptionalSlash t

def PlainPath (w q : Str) : Prop := ∃ v t, q = v ++ t ∧ v.map toLower = w ∧ OptionalSlash t

abbrev ThreePath (q : Str) : Prop := PlainPath (ascii "/three") q

abbrev ChatPath (q : Str) : Prop := PlainPath (ascii "/chat") q

def SegmentPath (w q segment : Str) : Prop :=
  ∃ v t, q = v ++ (segment ++ t) ∧ v.map toLower = w ∧ segment ≠ [] ∧ slash ∉ segment ∧ OptionalSlash t

abbrev DatePath (q Date : Str) : Prop := SegmentPath (ascii "/date/") q Date

inductive Path where
  | root
  | three
  | chat
  | date
  | ident
  | number
  deriving DecidableEq

def Path.Contains (q : Str) : Path → Prop
  | .root => RootPath q
  | .three => ThreePath q
  | .chat => ChatPath q
  | .date => ∃ Date, DatePath q Date
  | .ident => ∃ ID, SegmentPath (ascii "/id/") q ID
  | .number => ∃ ID, IdPath q ID

def Path.of (q : Str) : Path :=
  match (q.map toLower)[1]? with
  | none => .root
  | some c =>
    if isDigit c then .number
    else if c = code 't' then .three
    else if c = code 'c' then .chat
    else if c = code 'd' then .date
    else if c = code 'i' then .ident
    else .root

theorem Path.of_append {v w t : Str} (h : v.map toLower = w) (hw : 1 < w.length) (hl : w.map toLower = w) :
    Path.of (v ++ t) = Path.of w := by
  have hsecond : ((v ++ t).map toLower)[1]? = (w.map toLower)[1]? := by
    rw [List.map_append, h, hl, List.getElem?_append_left hw]
  rw [Path.of, Path.of, hsecond]

theorem Path.Contains.eq_of {p : Path} {q : Str} (h : p.Contains q) : Path.of q = p := by
  cases p with
  | root =>
    obtain rfl | rfl := h
    · rfl
    · rfl
  | three =>
    obtain ⟨v, t, rfl, hv, -⟩ := h
    exact Path.of_append hv (by decide) (by decide)
  | chat =>
    obtain ⟨v, t, rfl, hv, -⟩ := h
    exact Path.of_append hv (by decide) (by decide)
  | date =>
    obtain ⟨Date, v, t, rfl, hv, -⟩ := h
    exact Path.of_append hv (by decide) (by decide)
  | ident =>
    obtain ⟨ID, v, t, rfl, hv, -⟩ := h
    exact Path.of_append hv (by decide) (by decide)
  | number =>
    obtain ⟨ID, t, rfl, h₀, hd, -⟩ := h
    obtain ⟨c, ID, rfl⟩ := List.exists_cons_of_ne_nil h₀
    have hc : isDigit (toLower c) = true := (isDigit_toLower c).trans (hd c List.mem_cons_self)
    simp [Path.of, hc]

theorem Path.Contains.unique {p p' : Path} {q : Str} (h : p.Contains q) (h' : p'.Contains q) : p = p' :=
  h.eq_of.symm.trans h'.eq_of

end Shapes

section Matchers

def digits : CharSet := .oneOf false [.digit false]

def notSlash : CharSet := .oneOf true [.single slash]

def plainMatcher (w : Str) : RouteMatcher := ⟨plainShape w, true, []⟩

def numberMatcher (key : Str) : RouteMatcher := ⟨paramShape (ascii "/") digits true, true, [.named key]⟩

def segmentMatcher (w key : Str) : RouteMatcher := ⟨paramShape w notSlash false, true, [.named key]⟩

theorem digits_test (c : UInt8) : digits.test true c = isDigit c := by
  simp [digits, CharSet.test, ClassItem.test, isDigit_toLower, isDigit_toUpper]

theorem notSlash_test (c : UInt8) : notSlash.test true c = true ↔ c ≠ slash := by
  have hl := toLower_eq_iff (c := c) (d := slash) (by decide) (by decide)
  have hu := toUpper_eq_iff (c := c) (d := slash) (by decide) (by decide)
  simp [notSlash, CharSet.test, ClassItem.test, hl, hu]

theorem foldEq_slash {v : Str} : FoldEq true v (ascii "/") ↔ v = [slash] := by
  constructor
  · intro h
    obtain ⟨c, rfl⟩ := List.length_eq_one_iff.mp h.length
    have hc : fold true c = fold true slash := (List.cons.inj h).1
    rw [(fold_eq_slash c).mp hc]
  · rintro rfl
    rfl

theorem match_root {q : Str} : (matchRoute (plainMatcher (ascii "/")) q).isSome ↔ RootPath q := by
  rw [plainMatcher, matchRoute_plainShape]
  simp only [foldEq_slash]
  constructor
  · rintro ⟨v, t, rfl, rfl, rfl | rfl⟩
    · exact .inl rfl
    · exact .inr rfl
  · rintro (rfl | rfl)
    · exact ⟨_, [], rfl, rfl, .inl rfl⟩
    · exact ⟨_, [slash], rfl, rfl, .inr rfl⟩

theorem match_plain {w q : Str} : (matchRoute (plainMatcher w) q).isSome ↔ PlainPath (w.map toLower) q :=
  matchRoute_plainShape

theorem match_number {key q : Str} {params : RouteParams} :
    matchRoute (numberMatcher key) q = some params ↔
      ∃ ID, IdPath q ID ∧ params = ⟨q, [(key, ID)], []⟩ := by
  rw [numberMatcher, matchRoute_paramShape (by decide)]
  constructor
  · rintro ⟨v, seg, t, h, rfl⟩
    obtain rfl := foldEq_slash.mp h.literal
    exact ⟨seg, ⟨t, h.path, h.nonempty, fun c hc => digits_test c ▸ h.chars c hc, h.tail⟩, rfl⟩
  · rintro ⟨ID, ⟨t, hq, h₀, hd, ht⟩, rfl⟩
    exact ⟨[slash], ID, t, ⟨hq, foldEq_slash.mpr rfl, h₀, fun c hc => (digits_test c).trans (hd c hc), ht⟩, rfl⟩

theorem match_segment {w key q : Str} {params : RouteParams} :
    matchRoute (segmentMatcher w key) q = some params ↔
      ∃ segment, SegmentPath (w.map toLower) q segment ∧ params = ⟨q, [(key, segment)], []⟩ := by
  rw [segmentMatcher, matchRoute_paramShape (by decide)]
  constructor
  · rintro ⟨v, seg, t, h, rfl⟩
    refine ⟨seg, ⟨v, t, h.path, h.literal, h.nonempty, ?_, h.tail⟩, rfl⟩
    intro hm
    exact (notSlash_test slash).mp (h.chars slash hm) rfl
  · rintro ⟨segment, ⟨v, t, hq, hv, h₀, hs, ht⟩, rfl⟩
    refine ⟨v, segment, t, ⟨hq, hv, h₀, ?_, ht⟩, rfl⟩
    intro c hc
    rw [notSlash_test]
    rintro rfl
    exact hs hc

theorem IdPath.unique {q ID ID' : Str} (h : IdPath q ID) (h' : IdPath q ID') : ID = ID' := by
  have hm : matchRoute (numberMatcher []) q = some ⟨q, [([], ID)], []⟩ := match_number.mpr ⟨ID, h, rfl⟩
  rw [match_number.mpr ⟨ID', h', rfl⟩] at hm
  simpa using hm.symm

theorem SegmentPath.unique {w q segment segment' : Str} (hw : w.map toLower = w) (h : SegmentPath w q segment)
    (h' : SegmentPath w q segment') : segment = segment' := by
  rw [← hw] at h h'
  have hm : matchRoute (segmentMatcher w []) q = some ⟨q, [([], segment)], []⟩ :=
    match_segment.mpr ⟨segment, h, rfl⟩
  rw [match_segment.mpr ⟨segment', h', rfl⟩] at hm
  simpa using hm.symm

theorem match_number_isSome {key q : Str} : (matchRoute (numberMatcher key) q).isSome ↔ ∃ ID, IdPath q ID := by
  simp only [Option.isSome_iff_exists, match_number]
  constructor
  · rintro ⟨params, ID, h, -⟩
    exact ⟨ID, h⟩
  · rintro ⟨ID, h⟩
    exact ⟨_, ID, h, rfl⟩

theorem match_segment_isSome {w key q : Str} :
    (matchRoute (segmentMatcher w key) q).isSome ↔ ∃ segment, SegmentPath (w.map toLower) q segment := by
  simp only [Option.isSome_iff_exists, match_segment]
  constructor
  · rintro ⟨params, segment, h, -⟩
    exact ⟨segment, h⟩
  · rintro ⟨segment, h⟩
    exact ⟨_, segment, h, rfl⟩

end Matchers

section Rows

/-- A line of a routing table with its regular expression and the paths that it stands for. -/
structure Row (H : Type) where
  methods : MethodMatcher
  pattern : Str
  handler : H
  path : Path
  matcher : RouteMatcher
  compiles : path2regex pattern .default = .ok matcher
  matches_iff : ∀ q, (matchRoute matcher q).isSome ↔ path.Contains q

variable {H : Type}

theorem path2regex_root : path2regex (ascii "/") .default = .ok (plainMatcher (ascii "/")) := by
  rw [path2regex, Path2Regex.parse, parse_pathRegexStr]
  decide +kernel

theorem path2regex_three : path2regex (ascii "/three") .default = .ok (plainMatcher (ascii "/three")) := by
  rw [path2regex, Path2Regex.parse, parse_pathRegexStr]
  decide +kernel

theorem path2regex_chat : path2regex (ascii "/chat") .default = .ok (plainMatcher (ascii "/chat")) := by
  rw [path2regex, Path2Regex.parse, parse_pathRegexStr]
  decide +kernel

theorem path2regex_date : path2regex (ascii "/Date/:Date") .default = .ok (segmentMatcher (ascii "/Date/") (ascii "Date")) := by
  rw [path2regex, Path2Regex.parse, parse_pathRegexStr]
  decide +kernel

theorem path2regex_lowerDate :
    path2regex (ascii "/date/:date") .default = .ok (segmentMatcher (ascii "/date/") (ascii "date")) := by
  rw [path2regex, Path2Regex.parse, parse_pathRegexStr]
  decide +kernel

theorem path2regex_ident : path2regex (ascii "/ID/:ID") .default = .ok (segmentMatcher (ascii "/ID/") (ascii "ID")) := by
  rw [path2regex, Path2Regex.parse, parse_pathRegexStr]
  decide +kernel

theorem path2regex_id : path2regex (ascii "/:ID(\\d+)") .default = .ok (numberMatcher (ascii "ID")) := by
  rw [path2regex, Path2Regex.parse, parse_pathRegexStr]
  decide +kernel

theorem path2regex_weathernum : path2regex (ascii "/:weathernum(\\d+)") .default = .ok (numberMatcher (ascii "weathernum")) := by
  rw [path2regex, Path2Regex.parse, parse_pathRegexStr]
  decide +kernel

theorem path2regex_weatherid : path2regex (ascii "/:weatherid(\\d+)") .default = .ok (numberMatcher (ascii "weatherid")) := by
  rw [path2regex, Path2Regex.parse, parse_pathRegexStr]
  decide +kernel

namespace Row

def root (methods : MethodMatcher) (handler : H) : Row H :=
  ⟨methods, ascii "/", handler, .root, plainMatcher (ascii "/"), path2regex_root, fun _ => match_root⟩

def three (methods : MethodMatcher) (handler : H) : Row H :=
  ⟨methods, ascii "/three", handler, .three, plainMatcher (ascii "/three"), path2regex_three, fun _ => match_plain⟩

def chat (methods : MethodMatcher) (handler : H) : Row H :=
  ⟨methods, ascii "/chat", handler, .chat, plainMatcher (ascii "/chat"), path2regex_chat, fun _ => match_plain⟩

def date (methods : MethodMatcher) (handler : H) : Row H :=
  ⟨methods, ascii "/Date/:Date", handler, .date, segmentMatcher (ascii "/Date/") (ascii "Date"),
    path2regex_date, fun _ => match_segment_isSome⟩

def lowerDate (methods : MethodMatcher) (handler : H) : Row H :=
  ⟨methods, ascii "/date/:date", handler, .date, segmentMatcher (ascii "/date/") (ascii "date"),
    path2regex_lowerDate, fun _ => match_segment_isSome⟩

def ident (methods : MethodMatcher) (handler : H) : Row H :=
  ⟨methods, ascii "/ID/:ID", handler, .ident, segmentMatcher (ascii "/ID/") (ascii "ID"),
    path2regex_ident, fun _ => match_segment_isSome⟩

def id (methods : MethodMatcher) (handler : H) : Row H :=
  ⟨methods, ascii "/:ID(\\d+)", handler, .number, numberMatcher (ascii "ID"),
    path2regex_id, fun _ => match_number_isSome⟩

def weathernum (methods : MethodMatcher) (handler : H) : Row H :=
  ⟨methods, ascii "/:weathernum(\\d+)", handler, .number, numberMatcher (ascii "weathernum"),
    path2regex_weathernum, fun _ => match_number_isSome⟩

def weatherid (methods : MethodMatcher) (handler : H) : Row H :=
  ⟨methods, ascii "/:weatherid(\\d+)", handler, .number, numberMatcher (ascii "weatherid"),
    path2regex_weatherid, fun _ => match_number_isSome⟩

def source (r : Row H) : MethodMatcher × Str × H := (r.methods, r.pattern, r.handler)

def entry (r : Row H) : RouteEntry H := ⟨r.methods, r.matcher, r.handler⟩

end Row

theorem mapM_make_rows (rows : List (Row H)) :
    (rows.map Row.source).mapM (fun r => RouteEntry.make r.1 r.2.1 r.2.2) = .ok (rows.map Row.entry) := by
  induction rows with
  | nil => rfl
  | cons r rows ih =>
    rw [List.map_cons, List.mapM_cons, ih]
    simp only [Row.source, RouteEntry.make, r.compiles]
    rfl

def firstRow (rows : List (Row H)) (method : Method) (p : Path) : Option (Row H) :=
  rows.find? (fun r => r.methods.test method && decide (r.path = p))

variable {rows : List (Row H)} {p : Path} {q : Str}

theorem dispatch_rows (hp : p.Contains q) (method : Method) :
    dispatch (rows.map Row.entry) method q = (firstRow rows method p).bind (fun r =>
      (matchRoute r.matcher q).map (fun params => (r.handler, params))) := by
  induction rows with
  | nil => rfl
  | cons r rows ih =>
    rw [dispatch, firstRow] at ih ⊢
    rw [List.map_cons, List.findSome?_cons, List.find?_cons, RouteEntry.match, Row.entry]
    by_cases hm : r.methods.test method = true
    · by_cases hr : r.path = p
      · obtain ⟨params, hparams⟩ := Option.isSome_iff_exists.mp ((r.matches_iff q).mpr (hr ▸ hp))
        simp [hm, hr, hparams]
      · have hnone : matchRoute r.matcher q = none := by
          rw [← Option.not_isSome_iff_eq_none, r.matches_iff]
          exact fun hc => hr (hc.unique hp)
        simpa [hm, hr, hnone] using ih
    · simpa [hm] using ih

theorem exists_row_of_dispatch {method : Method} {handler : H} {params : RouteParams}
    (h : dispatch (rows.map Row.entry) method q = some (handler, params)) :
    ∃ r ∈ rows, r.handler = handler ∧ r.methods.test method = true ∧ matchRoute r.matcher q = some params := by
  obtain ⟨e, he, hf⟩ := List.exists_of_findSome?_eq_some h
  obtain ⟨r, hr, rfl⟩ := List.mem_map.mp he
  obtain ⟨params', hm, hp⟩ := Option.map_eq_some_iff.mp hf
  obtain ⟨rfl, rfl⟩ := Prod.mk.inj hp
  obtain ⟨ht, hm⟩ := RouteEntry.match_eq_some_iff.mp hm
  exact ⟨r, hr, rfl, ht, hm⟩

theorem exists_dispatch_rows_iff (hp : p.Contains q) (method : Method) (handler : H) :
    (∃ params, dispatch (rows.map Row.entry) method q = some (handler, params)) ↔
      (firstRow rows method p).map Row.handler = some handler := by
  rw [dispatch_rows hp]
  cases hr : firstRow rows method p with
  | none => simp
  | some r =>
    have hpath : r.path = p := by
      have := List.find?_some hr
      simp only [Bool.and_eq_true, decide_eq_true_eq] at this
      exact this.2
    obtain ⟨params, hparams⟩ := Option.isSome_iff_exists.mp ((r.matches_iff q).mpr (hpath ▸ hp))
    simp [hparams]

section Unshadowed

variable {method : Method} {params : RouteParams}

theorem matching_rows_length_le_one (hrows : ((rows.filter (fun r => r.methods.test method)).map Row.path).Nodup) (q : Str) :
    (matching (rows.map Row.entry) method q).length ≤ 1 := by
  let meets : Row H → Bool := fun r => r.methods.test method && (matchRoute r.matcher q).isSome
  have hentry : ∀ r : Row H, (r.entry.match method q).isSome = meets r := by
    intro r
    simp only [RouteEntry.match, Row.entry, meets]
    by_cases h : r.methods.test method = true <;> simp [h]
  have hlen : (matching (rows.map Row.entry) method q).length = (rows.filter meets).length := by
    rw [matching, List.filter_map, List.length_map]
    congr 2
    funext r
    exact hentry r
  have hsplit : rows.filter meets = (rows.filter (fun r => r.methods.test method)).filter meets := by
    rw [List.filter_filter]
    congr 1
    funext r
    simp only [meets]
    cases r.methods.test method <;> simp
  have hnodup : ((rows.filter meets).map Row.path).Nodup := by
    rw [hsplit]
    exact hrows.sublist (List.filter_sublist.map _)
  have hall : (rows.filter meets).map Row.path = List.replicate (rows.filter meets).length (Path.of q) := by
    rw [List.eq_replicate_iff]
    refine ⟨List.length_map _, ?_⟩
    intro p hp
    obtain ⟨r, hr, rfl⟩ := List.mem_map.mp hp
    have hmeets := (List.mem_filter.mp hr).2
    simp only [meets, Bool.and_eq_true] at hmeets
    exact ((r.matches_iff q).mp hmeets.2).eq_of.symm
  rw [hall, List.nodup_replicate] at hnodup
  omega

theorem dispatch_row_iff [DecidableEq H] {r : Row H} (hle : (matching (rows.map Row.entry) method q).length ≤ 1)
    (hr : rows.filter (fun r' => r'.handler = r.handler) = [r]) :
    dispatch (rows.map Row.entry) method q = some (r.handler, params) ↔
      r.methods.test method = true ∧ matchRoute r.matcher q = some params := by
  constructor
  · intro hd
    obtain ⟨r', hr', hh, hm⟩ := exists_row_of_dispatch hd
    obtain rfl : r' = r := List.mem_singleton.mp (hr ▸ List.mem_filter.mpr ⟨hr', decide_eq_true hh⟩)
    exact hm
  · intro hm
    have hmem : r ∈ rows := (List.mem_filter.mp (hr ▸ List.mem_singleton_self r)).1
    rw [dispatch_eq_some_iff hle]
    exact ⟨r.entry, List.mem_map_of_mem hmem, rfl, RouteEntry.match_eq_some_iff.mpr hm⟩

theorem exists_dispatch_row_iff [DecidableEq H] {r : Row H} (hle : (matching (rows.map Row.entry) method q).length ≤ 1)
    (hr : rows.filter (fun r' => r'.handler = r.handler) = [r]) :
    (∃ params, dispatch (rows.map Row.entry) method q = some (r.handler, params)) ↔
      r.methods.test method = true ∧ r.path.Contains q := by
  simp only [dispatch_row_iff hle hr, exists_and_left, ← Option.isSome_iff_exists, r.matches_iff]

end Unshadowed

section Shadowed

variable {r : Row H} {method : Method}

def Meets (r : MethodMatcher × Str × H) (method : Method) (q : Str) : Prop :=
  r.1.test method = true ∧ ∃ matcher, path2regex r.2.1 .default = .ok matcher ∧ (matchRoute matcher q).isSome

def DispatchedTo (entries : List (RouteEntry H)) (handler : H) (method : Method) (q : Str) : Prop :=
  ∃ params, dispatch entries method q = some (handler, params)

theorem dispatchedTo_iff (h : Meets r.source method q) :
    DispatchedTo (rows.map Row.entry) r.handler method q ↔
      (firstRow rows method r.path).map Row.handler = some r.handler := by
  obtain ⟨-, matcher, hm, hq⟩ := h
  obtain rfl : r.matcher = matcher := Except.ok.inj (r.compiles.symm.trans hm)
  exact exists_dispatch_rows_iff ((r.matches_iff q).mp hq) method r.handler

def OnlyShadowed [DecidableEq H] (rows : List (Row H)) (refusal : H) (line : MethodMatcher × Str × H) (method : Method) :
    Prop :=
  ∀ r ∈ rows, r.handler ≠ refusal → r.methods.test method = true →
    ((firstRow rows method r.path).map Row.handler = some r.handler ↔ r.source ≠ line)

instance [DecidableEq H] (rows : List (Row H)) (refusal : H) (line : MethodMatcher × Str × H) (method : Method) :
    Decidable (OnlyShadowed rows refusal line method) :=
  inferInstanceAs (Decidable (∀ r ∈ rows, _))

theorem OnlyShadowed.dispatched_iff [DecidableEq H] {refusal : H} {line : MethodMatcher × Str × H}
    (h : OnlyShadowed rows refusal line method) :
    ∀ r ∈ rows.map Row.source, r.2.2 ≠ refusal → Meets r method q →
      (DispatchedTo (rows.map Row.entry) r.2.2 method q ↔ r ≠ line) := by
  intro r hr hrefusal hmeets
  obtain ⟨row, hrow, rfl⟩ := List.mem_map.mp hr
  rw [← h row hrow hrefusal hmeets.1]
  exact dispatchedTo_iff hmeets

end Shadowed

end Rows

end NgkNet.Weather
