import NgkNet.Lab2.Server

set_option autoImplicit false

namespace NgkNet.Lab2

open Ascii Restinio Path2Regex Weather PercentEncoding

def pathDigits : Str → Option Str
  | [] => none
  | c :: rest =>
    let digits := if rest.getLast? = some slash then rest.dropLast else rest
    if c = slash ∧ digits ≠ [] ∧ digits.all isDigit = true then some digits else none

def pathNumber (memory : UInt8 → UInt8) (q : Str) : Option UInt32 :=
  (pathDigits q).bind (fun digits => (castToUInt32 memory digits).toOption)

inductive Operation where
  | append (b : Station)
  | replace (k : ℕ) (b : Station)
  | remove (k : ℕ)
  | nothing

def Operation.apply (w : List Station) : Operation → List Station
  | .append b => w ++ [b]
  | .replace k b => if 1 ≤ k ∧ k ≤ w.length then w.set (k - 1) b else w
  | .remove k => if 1 ≤ k ∧ k ≤ w.length then w.eraseIdx (k - 1) else w
  | .nothing => w

instance (q : Str) : Decidable (RootPath q) := inferInstanceAs (Decidable (_ ∨ _))

def requestedAt (env : Env) (req : Request) (q : Str) : Operation :=
  match req.method, env.json.fromJson req.body, pathNumber env.memory q with
  | .post, some b, _ => if RootPath q then .append b else .nothing
  | .put, some b, some n => .replace n.toNat b
  | .delete, _, some n => .remove n.toNat
  | _, _, _ => .nothing

def requested (env : Env) (req : Request) : Operation :=
  match targetPath req.path with
  | .error _ => .nothing
  | .ok q => requestedAt env req q

theorem pathDigits_eq_some_iff {q digits : Str} : pathDigits q = some digits ↔ IdPath q digits := by
  cases q with
  | nil =>
    refine iff_of_false (by simp [pathDigits]) ?_
    rintro ⟨t, ht, -⟩
    exact absurd ht (by simp)
  | cons c rest =>
    rw [pathDigits, Option.ite_none_right_eq_some, Option.some.injEq]
    constructor
    · rintro ⟨⟨rfl, h₀, hd⟩, rfl⟩
      by_cases hl : rest.getLast? = some slash
      · rw [if_pos hl] at h₀ hd ⊢
        obtain ⟨ys, rfl⟩ := List.getLast?_eq_some_iff.mp hl
        rw [List.dropLast_concat] at h₀ hd ⊢
        exact ⟨[slash], rfl, h₀, List.all_eq_true.mp hd, .inr rfl⟩
      · rw [if_neg hl] at h₀ hd ⊢
        exact ⟨[], by rw [List.append_nil], h₀, List.all_eq_true.mp hd, .inl rfl⟩
    · rintro ⟨t, hq, h₀, hd, ht⟩
      obtain ⟨rfl, rfl⟩ := List.cons.inj hq
      have hstrip : (if (digits ++ t).getLast? = some slash then (digits ++ t).dropLast else digits ++ t) =
          digits := by
        rcases ht with rfl | rfl
        · rw [List.append_nil, if_neg]
          intro hl
          have := hd slash (List.mem_of_getLast? hl)
          exact absurd this (by decide)
        · rw [List.getLast?_concat, if_pos rfl, List.dropLast_concat]
      rw [hstrip]
      exact ⟨⟨rfl, h₀, List.all_eq_true.mpr hd⟩, rfl⟩

variable {env : Env} {req : Request} {q : Str}

theorem pathNumber_of_idPath {digits : Str} (h : IdPath q digits) :
    pathNumber env.memory q = (cast env digits).toOption := by
  rw [pathNumber, pathDigits_eq_some_iff.mpr h]
  rfl

theorem serve_of_row (hp : targetPath req.path = .ok q) {p : Path} (hc : p.Contains q) {r : Row Handler}
    (hr : firstRow rows req.method p = some r) {params : RouteParams} (hm : matchRoute r.matcher q = some params)
    (w : Weathers) : serve env req w = (runHandler env req params r.handler).run (w, .fresh req) := by
  have hd : dispatch entries req.method q = some (r.handler, params) := by
    rw [entries, dispatch_rows hc, hr, Option.bind_some, hm]
    rfl
  simp only [serve, hp, hd]

section Served

variable (hp : targetPath req.path = .ok q) (w : Weathers)
include hp

theorem serve_list (hm : req.method = .get) (hq : RootPath q) :
    serve env req w = (.ok .accepted, w, answered ((baseResponse env req).setBody (listBody w))) := by
  obtain ⟨params, hparams⟩ := Option.isSome_iff_exists.mp (match_root.mpr hq)
  have hr : firstRow rows req.method .root = some (.root (.simple .get) .weathersList) := by rw [hm]; rfl
  rw [serve_of_row hp (p := .root) hq hr hparams]
  exact onWeathersList_run env req w

theorem serve_three (hm : req.method = .get) (hq : ThreePath q) :
    serve env req w =
      (.ok .accepted, w, answered ((baseResponse env req).appendBody (printed (numbered (latest w))))) := by
  obtain ⟨params, hparams⟩ := Option.isSome_iff_exists.mp ((match_plain (w := ascii "/three")).mpr hq)
  have hr : firstRow rows req.method .three = some (.three (.simple .get) .weathersGetThreelist) := by rw [hm]; rfl
  rw [serve_of_row hp (p := .three) hq hr hparams]
  exact onWeathersGetThreelist_run env req w

theorem serve_date (hm : req.method = .get) {value Date : Str} (hq : DatePath q value)
    (hu : unescapePercentEncoding value = .ok Date) :
    serve env req w = (.ok .accepted, w, answered ((baseResponse env req).setBody (dateBody Date w))) := by
  have hr : firstRow rows req.method .date = some (.date (.simple .get) .weatherGetDate) := by rw [hm]; rfl
  rw [serve_of_row hp (p := .date) ⟨value, hq⟩ hr (match_segment.mpr ⟨value, hq, rfl⟩)]
  refine (onWeatherGetDate_run env req w (get_single _ _ _)).trans ?_
  rw [hu]

theorem serve_ID (hm : req.method = .get) {value ID : Str} (hq : SegmentPath (ascii "/id/") q value)
    (hu : unescapePercentEncoding value = .ok ID) :
    serve env req w = (.ok .accepted, w, answered ((baseResponse env req).setBody (IDBody ID w))) := by
  have hr : firstRow rows req.method .ident = some (.ident (.simple .get) .IDGet) := by rw [hm]; rfl
  rw [serve_of_row hp (p := .ident) ⟨value, hq⟩ hr (match_segment.mpr ⟨value, hq, rfl⟩)]
  refine (onIDGet_run env req w (get_single _ _ _)).trans ?_
  rw [hu]

theorem serve_post (hm : req.method = .post) (hq : RootPath q) :
    serve env req w = match env.json.fromJson req.body with
      | some b => (.ok .accepted, w ++ [b], answered (baseResponse env req))
      | none => (.ok .accepted, w, answered (markAsBadRequest (baseResponse env req))) := by
  obtain ⟨params, hparams⟩ := Option.isSome_iff_exists.mp (match_root.mpr hq)
  have hr : firstRow rows req.method .root = some (.root (.simple .post) .newWeather) := by rw [hm]; rfl
  rw [serve_of_row hp (p := .root) hq hr hparams]
  exact onNewWeather_run env req w

variable {digits : Str} (hq : IdPath q digits)
include hq

theorem serve_get (hm : req.method = .get) :
    serve env req w = match cast env digits with
      | .error e => (.error (.cast e), w, .fresh req)
      | .ok n => (.ok .accepted, w, answered ((baseResponse env req).setBody (getBody w n.toNat))) := by
  have hr : firstRow rows req.method .number = some (.weathernum (.simple .get) .weatherGet) := by rw [hm]; rfl
  rw [serve_of_row hp (p := .number) ⟨digits, hq⟩ hr (match_number.mpr ⟨digits, hq, rfl⟩)]
  exact onWeatherGet_run env req w (get_single _ _ _)

theorem serve_put (hm : req.method = .put) :
    serve env req w = match cast env digits, env.json.fromJson req.body with
      | .error e, _ => (.error (.cast e), w, .fresh req)
      | .ok _, none => (.ok .accepted, w, answered (markAsBadRequest (baseResponse env req)))
      | .ok n, some b => (.ok .accepted, replaced w n.toNat b, answered (updateResponse env req w n.toNat)) := by
  have hr : firstRow rows req.method .number = some (.weathernum (.simple .put) .weatherUpdate) := by rw [hm]; rfl
  rw [serve_of_row hp (p := .number) ⟨digits, hq⟩ hr (match_number.mpr ⟨digits, hq, rfl⟩)]
  exact onWeatherUpdate_run env req w (get_single _ _ _)

theorem serve_delete (hm : req.method = .delete) :
    serve env req w = match cast env digits with
      | .error e => (.error (.cast e), w, .fresh req)
      | .ok n => (.ok .accepted, removed w n.toNat,
          answered ((baseResponse env req).setBody (deleteBody w n.toNat))) := by
  have hr : firstRow rows req.method .number = some (.weathernum (.simple .delete) .weatherDelete) := by
    rw [hm]
    rfl
  rw [serve_of_row hp (p := .number) ⟨digits, hq⟩ hr (match_number.mpr ⟨digits, hq, rfl⟩)]
  exact onWeatherDelete_run env req w (get_single _ _ _)

end Served

section Reading

open Eff

variable {Q : Weathers → Prop}

theorem keeps_runHandler {params : RouteParams} {handler : Handler}
    (h : handler ∉ [.newWeather, .weatherUpdate, .weatherDelete]) :
    Keeps (fun s => Q s.1) (runHandler env req params handler) := by
  cases handler with
  | weathersList => exact keeps_bind (keeps_createResponse _ _) fun _ => keeps_bind keeps_read fun _ => keeps_done _
  | weathersGetThreelist =>
    exact keeps_bind (keeps_createResponse _ _) fun _ => keeps_bind keeps_read fun _ => keeps_done _
  | weatherGetDate =>
    refine keeps_bind (keeps_param _ _) fun _ => keeps_bind (keeps_unescape _) fun _ =>
      keeps_bind (keeps_createResponse _ _) fun _ => keeps_bind keeps_read fun _ => ?_
    dsimp only
    split
    · exact keeps_done _
    · exact keeps_done _
  | methodNotAllowed => exact keeps_bind (keeps_createResponse _ _) fun _ => keeps_done _
  | IDGet =>
    refine keeps_bind (keeps_createResponse _ _) fun _ => keeps_bind (keeps_catchAll ?_ keeps_pure) fun _ =>
      keeps_done _
    exact keeps_bind (keeps_param _ _) fun _ => keeps_bind (keeps_unescape _) fun _ =>
      keeps_bind keeps_read fun _ => keeps_pure
  | weatherGet =>
    refine keeps_bind (keeps_param _ _) fun _ => keeps_bind (keeps_castTo _ _) fun _ =>
      keeps_bind (keeps_createResponse _ _) fun _ => keeps_bind keeps_read fun _ => ?_
    dsimp only
    split
    · exact keeps_done _
    · exact keeps_done _
  | newWeather => simp at h
  | weatherUpdate => simp at h
  | weatherDelete => simp at h

end Reading

theorem mutating_rows : ∀ r ∈ rows, r.handler ∈ [.newWeather, .weatherUpdate, .weatherDelete] →
    (r.methods, r.path, r.handler) ∈ [(.simple .post, .root, .newWeather), (.simple .put, .root, .weatherUpdate),
      (.simple .put, .number, .weatherUpdate), (.simple .delete, .number, .weatherDelete)] ∧
    (r.path = .root → r.matcher.params = []) := by
  decide

theorem unnamed_of_match {m : RouteMatcher} {params : RouteParams} (hm : m.params = [])
    (h : matchRoute m q = some params) (key : Str) : params.get key = none := by
  rw [matchRoute, Option.map_eq_some_iff] at h
  obtain ⟨found, -, rfl⟩ := h
  simp [RouteParams.get, hm]

theorem onWeatherUpdate_unnamed {params : RouteParams} (h : params.get (ascii "weathernum") = none)
    (s : Weathers × Exchange) :
    (onWeatherUpdate env req params).run s = (.error (.invalidParameterName (ascii "weathernum")), s) := by
  simp only [onWeatherUpdate, weatherUpdateWith, Eff.run_bind, param, h, Eff.run_throw]

theorem serve_unchanged (hp : targetPath req.path = .ok q) (hpost : ¬ (req.method = .post ∧ RootPath q))
    (hput : ¬ (req.method = .put ∧ ∃ digits, IdPath q digits))
    (hdelete : ¬ (req.method = .delete ∧ ∃ digits, IdPath q digits)) (w : Weathers) :
    (serve env req w).2.1 = w := by
  cases hd : dispatch entries req.method q with
  | none => simp only [serve, hp, hd]
  | some found =>
    obtain ⟨handler, params⟩ := found
    simp only [serve, hp, hd]
    by_cases hmut : handler ∈ [.newWeather, .weatherUpdate, .weatherDelete]
    · obtain ⟨r, hr, rfl, ht, hm⟩ := exists_row_of_dispatch hd
      have hq := (r.matches_iff q).mp (by rw [hm]; rfl)
      obtain ⟨hrow, hroot⟩ := mutating_rows r hr hmut
      simp only [List.mem_cons, List.not_mem_nil, or_false, Prod.mk.injEq] at hrow
      rcases hrow with ⟨h₁, h₂, h₃⟩ | ⟨h₁, h₂, h₃⟩ | ⟨h₁, h₂, h₃⟩ | ⟨h₁, h₂, h₃⟩
      · rw [h₁, test_simple] at ht
        rw [h₂] at hq
        exact absurd ⟨ht, hq⟩ hpost
      · have hnone := unnamed_of_match (hroot h₂) hm (ascii "weathernum")
        rw [h₃, runHandler, onWeatherUpdate_unnamed hnone]
      · rw [h₁, test_simple] at ht
        rw [h₂] at hq
        exact absurd ⟨ht, hq⟩ hput
      · rw [h₁, test_simple] at ht
        rw [h₂] at hq
        exact absurd ⟨ht, hq⟩ hdelete
    · exact (keeps_runHandler (Q := fun w' => w' = w) hmut).run_snd rfl

theorem requestedAt_eq_nothing (hpost : ¬ (req.method = .post ∧ RootPath q))
    (hput : ¬ (req.method = .put ∧ ∃ digits, IdPath q digits))
    (hdelete : ¬ (req.method = .delete ∧ ∃ digits, IdPath q digits)) : requestedAt env req q = .nothing := by
  have hdigits : ∀ n, pathNumber env.memory q = some n → ∃ digits, IdPath q digits := by
    intro n hn
    obtain ⟨digits, hd, -⟩ := Option.bind_eq_some_iff.mp hn
    exact ⟨digits, pathDigits_eq_some_iff.mp hd⟩
  rw [requestedAt]
  split
  · next hm _ => exact if_neg fun hq => hpost ⟨hm, hq⟩
  · next hm _ hn => exact absurd ⟨hm, hdigits _ hn⟩ hput
  · next hm hn => exact absurd ⟨hm, hdigits _ hn⟩ hdelete
  · rfl

theorem replaced_eq (w : Weathers) (n : ℕ) (b : Station) : replaced w n b = (Operation.replace n b).apply w := by
  simp only [replaced, Operation.apply, Nat.one_le_iff_ne_zero, ne_comm]

theorem removed_eq (w : Weathers) (n : ℕ) : removed w n = (Operation.remove n).apply w := by
  simp only [removed, Operation.apply, Nat.one_le_iff_ne_zero, ne_comm]

theorem serve_weathers (req : Request) (w : Weathers) : (serve env req w).2.1 = (requested env req).apply w := by
  rw [requested]
  cases hp : targetPath req.path with
  | error e => simp only [serve, hp, Operation.apply]
  | ok q =>
    dsimp only
    by_cases hpost : req.method = .post ∧ RootPath q
    · rw [serve_post hp w hpost.1 hpost.2, requestedAt, hpost.1]
      cases env.json.fromJson req.body with
      | none => rfl
      | some b => simp only [if_pos hpost.2, Operation.apply]
    by_cases hput : req.method = .put ∧ ∃ digits, IdPath q digits
    · obtain ⟨hm, digits, hq⟩ := hput
      rw [serve_put hp w hq hm, requestedAt, hm, pathNumber_of_idPath hq]
      cases cast env digits with
      | error e => cases env.json.fromJson req.body <;> rfl
      | ok n =>
        cases env.json.fromJson req.body with
        | none => rfl
        | some b => exact replaced_eq w n.toNat b
    by_cases hdelete : req.method = .delete ∧ ∃ digits, IdPath q digits
    · obtain ⟨hm, digits, hq⟩ := hdelete
      rw [serve_delete hp w hq hm, requestedAt, hm, pathNumber_of_idPath hq]
      cases cast env digits with
      | error e => cases env.json.fromJson req.body <;> rfl
      | ok n => cases env.json.fromJson req.body <;> exact removed_eq w n.toNat
    · rw [serve_unchanged hp hpost hput hdelete, requestedAt_eq_nothing hpost hput hdelete]
      rfl

end NgkNet.Lab2
