import NgkNet.Restinio.PercentRoundTrip
import NgkNet.Weather.Server

set_option autoImplicit false

namespace NgkNet.Weather

open Ascii Restinio PercentEncoding

variable (env : Env)

def dateBody (Date : Str) (w : List Station) : Str :=
  if ∃ b ∈ w, b.Date = Date then (w.filter (fun b => b.Date = Date)).flatMap env.json.toJson
  else ascii "No weather with that date " ++ Date ++ ascii "\n"

theorem dateLoop_body (Date : Str) (w : List Station) (resp : ResponseBuilder) (answer : Bool) :
    let found := w.foldl (fun (acc : ResponseBuilder × Bool) b =>
      if Date = b.Date then (acc.1.appendBody (env.json.toJson b), true) else acc) (resp, answer)
    found.1.response.body = resp.response.body ++ (w.filter (fun b => b.Date = Date)).flatMap env.json.toJson ∧
      found.1.response.status = resp.response.status ∧
      (found.2 = true ↔ answer = true ∨ ∃ b ∈ w, b.Date = Date) := by
  induction w generalizing resp answer with
  | nil => simp
  | cons b w ih =>
    rw [List.foldl_cons]
    by_cases hb : b.Date = Date
    · obtain ⟨hbody, hstatus, hfound⟩ := ih (resp.appendBody (env.json.toJson b)) true
      rw [if_pos hb.symm]
      refine ⟨hbody.trans ?_, hstatus, hfound.trans ?_⟩
      · simp [ResponseBuilder.appendBody, hb]
      · simp [hb]
    · rw [if_neg (Ne.symm hb)]
      simpa [hb] using ih resp answer

theorem dateResponse_spec (req : Request) (Date : Str) (w : List Station) :
    (dateResponse env req Date w).response.status = statusOk ∧
      (dateResponse env req Date w).response.body = dateBody env Date w := by
  obtain ⟨hbody, hstatus, hfound⟩ := dateLoop_body env Date w (baseResponse env req) false
  simp only [Bool.false_eq_true, false_or] at hfound
  simp only [dateResponse, dateBody, hfound]
  split_ifs
  · exact ⟨hstatus, hbody⟩
  · exact ⟨hstatus, rfl⟩

/-- Whatever encoding of a date a client asks with, the handler compares with the date itself. -/
theorem date_fetched {Date e : Str} (h₀ : Date ≠ []) (hutf : Utf8 Date) (he : Encodes Date e) {req : Request}
    (hm : req.method = .get) (hp : req.path = ascii "/Date/" ++ e) (store : Store) :
    (∃ path params value, targetPath req.path = .ok path ∧
      dispatch entries req.method path = some (.dateGet, params) ∧
      params.get (ascii "Date") = some value ∧ unescapePercentEncoding value = .ok Date) ∧
    Answered (serve env req store) statusOk ∧
    (serve env req store).2.2.responses.map Response.body = [dateBody env Date store.weather] := by
  obtain ⟨r, hr, hsr⟩ := targetPath_encodes (a := ascii "/Date/") (by decide) hutf he
  rw [← hp] at hr
  have hpath : DatePath (ascii "/Date/" ++ r) r :=
    ⟨ascii "/Date/", [], by rw [List.append_nil], by decide, hsr.ne_nil h₀, hsr.no_slash, .inl rfl⟩
  have hd := dispatch_dateGet.mpr ⟨hm, r, hpath, rfl⟩
  have hu : unescapePercentEncoding r = .ok Date := unescapeFrom_encodes hsr (decodes_of_utf8 hutf) 0
  refine ⟨⟨_, _, r, hr, hd, get_single _ _ _, hu⟩, ?_⟩
  obtain ⟨hstatus, hbody⟩ := dateResponse_spec env req Date store.weather
  rw [serve_of_dispatch env store hr hd, runHandler, onDateGet_run env req store (get_single _ _ _), hu]
  refine ⟨answered_iff.mpr hstatus, ?_⟩
  rw [← hbody]
  rfl

theorem accented_date_fetched :
    (serve sampleEnv (sampleRequest .get (ascii "/Date/%c3%A9") []) initialStore).2.2.responses.map Response.body =
      [dateBody sampleEnv [0xC3, 0xA9] initialStore.weather] := by
  have hutf : Utf8 [0xC3, 0xA9] := ⟨['é'], by decide⟩
  refine (date_fetched (e := ascii "%c3%A9") sampleEnv (by decide) hutf ?_ rfl (by decide) initialStore).2.2
  exact .escape (.inr (by decide)) (.inl (by decide)) (.escape (.inl (by decide)) (.inl (by decide)) .nil)

def latest (w : List Station) : List (Station × ℕ) :=
  w.zipIdx.filter (fun b => (w.length + 2 ^ 64 - 3) % 2 ^ 64 ≤ b.2)

theorem map_fst_filter_zipIdx {α : Type} (w : List α) (i t : ℕ) :
    ((w.zipIdx i).filter (fun b => t ≤ b.2)).map Prod.fst = w.drop (t - i) := by
  induction w generalizing i with
  | nil => simp
  | cons b w ih =>
    rw [List.zipIdx_cons]
    by_cases h : t ≤ i
    · rw [List.filter_cons_of_pos (by simpa using h), List.map_cons, ih, Nat.sub_eq_zero_of_le h,
        Nat.sub_eq_zero_of_le (Nat.le_succ_of_le h)]
      rfl
    · rw [List.filter_cons_of_neg (by simpa using h), ih, show t - i = t - (i + 1) + 1 by omega, List.drop_succ_cons]

theorem drop_eq_drop_iff {α : Type} {w : List α} {s t : ℕ} :
    w.drop s = w.drop t ↔ w.length - s = w.length - t := by
  constructor
  · intro h
    simpa using congrArg List.length h
  · intro h
    by_cases hs : s < w.length
    · rw [show s = t by omega]
    · rw [List.drop_eq_nil_of_le (by omega), List.drop_eq_nil_of_le (by omega)]

theorem latest_eq_iff (w : List Station) :
    (latest w).map Prod.fst = w.drop (w.length - 3) ↔
      w.length ≠ 1 ∧ w.length ≠ 2 ∧ w.length < 2 ^ 64 + 3 := by
  rw [latest, map_fst_filter_zipIdx, Nat.sub_zero, drop_eq_drop_iff]
  omega

theorem latestLoop_body (size : ℕ) (l : List (Station × ℕ)) (resp : ResponseBuilder) :
    (l.foldl (fun acc b =>
      if (size + 2 ^ 64 - 3) % 2 ^ 64 ≤ b.2 then acc.appendBody (env.json.toJson b.1) else acc) resp).response.body =
      resp.response.body ++
        (l.filter (fun b => (size + 2 ^ 64 - 3) % 2 ^ 64 ≤ b.2)).flatMap (fun b => env.json.toJson b.1) := by
  induction l generalizing resp with
  | nil => simp
  | cons b l ih =>
    rw [List.foldl_cons, ih]
    by_cases h : (size + 2 ^ 64 - 3) % 2 ^ 64 ≤ b.2
    · rw [if_pos h, List.filter_cons_of_pos (by simpa using h), List.flatMap_cons, ← List.append_assoc]
      rfl
    · rw [if_neg h, List.filter_cons_of_neg (by simpa using h)]

theorem serve_latest_iff {req : Request} {q : Str} (hm : req.method = .get) (hp : targetPath req.path = .ok q)
    (hq : ThreePath q) (store : Store) :
    (serve env req store).2.2.responses.map Response.body =
        [ascii "3 latest entries:\n" ++ (latest store.weather).flatMap (fun b => env.json.toJson b.1)] ∧
      ((latest store.weather).map Prod.fst = store.weather.drop (store.weather.length - 3) ↔
        store.weather.length ≠ 1 ∧ store.weather.length ≠ 2 ∧ store.weather.length < 2 ^ 64 + 3) := by
  obtain ⟨params, hd⟩ := dispatch_weatherLatest.mpr ⟨hm, hq⟩
  rw [serve_of_dispatch env store hp hd, runHandler, onWeatherLatest_run]
  exact ⟨congrArg (fun b => [b]) (latestLoop_body env _ _ _), latest_eq_iff store.weather⟩

end NgkNet.Weather
