import NgkNet.Weather.Server

set_option autoImplicit false

namespace NgkNet.Weather

open Ascii Restinio PercentEncoding

structure Convertible (method : Method) (q : Str) : Prop where
  ID : method = .put ∨ method = .delete → ∀ ID, IdPath q ID → ID.length ≤ 10 ∧ decimal ID < 2 ^ 32
  Date : method = .get → ∀ Date, DatePath q Date → ∀ c ∈ Date, Unescapable c

variable {env : Env} {q : Str}

theorem cast_ok_iff {ID : Str} (h : IdPath q ID) :
    (∃ n, cast env ID = .ok n) ↔ ID.length ≤ 10 ∧ decimal ID < 2 ^ 32 := by
  obtain ⟨t, -, h₀, hd, -⟩ := h
  simp only [cast, castToUInt32_digits env.memory hd h₀]
  constructor
  · rintro ⟨n, hl, hn⟩
    exact ⟨hl, hn ▸ n.toNat_lt⟩
  · rintro ⟨hl, hlt⟩
    exact ⟨UInt32.ofNat (decimal ID), hl, (UInt32.toNat_ofNat_of_lt hlt).symm⟩

theorem unescape_ok_iff {Date : Str} (hq : Wellformed .initial q) (h : DatePath q Date) :
    (∃ r, unescapePercentEncoding Date = .ok r) ↔ ∀ c ∈ Date, Unescapable c := by
  obtain ⟨v, t, rfl, hv, -, -, ht⟩ := h
  have hno : code '%' ∉ v := by
    intro hm
    have := List.mem_map_of_mem (f := toLower) hm
    rw [hv] at this
    exact absurd this (by decide)
  exact unescapeFrom_ok_iff ht (hq.drop hno) 0

section Dispatched

variable {req : Request} {handler : Handler} {params : RouteParams}

theorem convertible_of_dispatch (hd : dispatch entries req.method q = some (handler, params))
    (hh : handler ∉ [.weatherUpdate, .weatherDelete, .dateGet]) : Convertible req.method q := by
  constructor
  · rintro (hm | hm) ID hID
    · have hu := dispatch_weatherUpdate.mpr ⟨hm, ID, hID, rfl⟩
      rw [hd] at hu
      simp_all
    · have hu := dispatch_weatherDelete.mpr ⟨hm, ID, hID, rfl⟩
      rw [hd] at hu
      simp_all
  · intro hm Date hDate
    have hu := dispatch_dateGet.mpr ⟨hm, Date, hDate, rfl⟩
    rw [hd] at hu
    simp_all

theorem convertible_iff_cast (env : Env) {ID : Str} (hm : req.method = .put ∨ req.method = .delete) (hID : IdPath q ID) :
    Convertible req.method q ↔ ∃ n, cast env ID = .ok n := by
  rw [cast_ok_iff hID]
  constructor
  · intro h
    exact h.ID hm ID hID
  · intro h
    constructor
    · intro _ ID' hID'
      rwa [← hID.unique hID']
    · intro hg
      rcases hm with hm | hm <;> simp [hm] at hg

theorem convertible_iff_unescape {Date : Str} (hq : Wellformed .initial q) (hm : req.method = .get)
    (hDate : DatePath q Date) :
    Convertible req.method q ↔ ∃ r, unescapePercentEncoding Date = .ok r := by
  rw [unescape_ok_iff hq hDate]
  constructor
  · intro h
    exact h.Date hm Date hDate
  · intro h
    constructor
    · simp [hm]
    · intro _ Date' hDate'
      rwa [← SegmentPath.unique (by decide) hDate hDate']

theorem runHandler_cases (env : Env) (hp : targetPath req.path = .ok q)
    (hd : dispatch entries req.method q = some (handler, params)) (hl : handler ≠ .liveUpdate) (store : Store) :
    (Convertible req.method q ∧ ∃ w b, (runHandler env req params handler).run (store, .fresh req) =
      (.ok .accepted, { store with weather := w }, answered b)) ∨
    (¬ Convertible req.method q ∧ ∃ e c moves, (runHandler env req params handler).run (store, .fresh req) =
      (.error e, store, ⟨c, moves, [], []⟩) ∧ e ≠ .connectionAlreadyMoved ∧ moves ≤ 1) := by
  cases handler with
  | weatherList => exact .inl ⟨convertible_of_dispatch hd (by decide), _, _, onWeatherList_run env req store⟩
  | options => exact .inl ⟨convertible_of_dispatch hd (by decide), _, _, options_run env req store⟩
  | methodNotAllowed => exact .inl ⟨convertible_of_dispatch hd (by decide), _, _, methodNotAllowed_run req store⟩
  | weatherLatest => exact .inl ⟨convertible_of_dispatch hd (by decide), _, _, onWeatherLatest_run env req store⟩
  | postData =>
    refine .inl ⟨convertible_of_dispatch hd (by decide), ?_⟩
    rw [runHandler, onPostData_run]
    cases env.json.fromJson req.body with
    | none => exact ⟨_, _, rfl⟩
    | some b => exact ⟨_, _, rfl⟩
  | liveUpdate => exact absurd rfl hl
  | dateGet =>
    obtain ⟨hm, Date, hDate, rfl⟩ := dispatch_dateGet.mp hd
    rw [runHandler, onDateGet_run env req store (get_single _ _ _),
      convertible_iff_unescape (targetPath_wellformed hp) hm hDate]
    cases unescapePercentEncoding Date with
    | error e => exact .inr ⟨by simp, _, _, 0, rfl, by simp, Nat.zero_le 1⟩
    | ok r => exact .inl ⟨⟨r, rfl⟩, _, _, rfl⟩
  | weatherUpdate =>
    obtain ⟨hm, ID, hID, rfl⟩ := dispatch_weatherUpdate.mp hd
    rw [runHandler, onWeatherUpdate_run env req store (get_single _ _ _),
      convertible_iff_cast env (.inl hm) hID]
    cases cast env ID with
    | error e => exact .inr ⟨by simp, _, _, 0, rfl, by simp, Nat.zero_le 1⟩
    | ok n =>
      refine .inl ⟨⟨n, rfl⟩, ?_⟩
      cases env.json.fromJson req.body with
      | none => exact ⟨_, _, rfl⟩
      | some b => exact ⟨_, _, rfl⟩
  | weatherDelete =>
    obtain ⟨hm, ID, hID, rfl⟩ := dispatch_weatherDelete.mp hd
    rw [runHandler, onWeatherDelete_run env req store (get_single _ _ _),
      convertible_iff_cast env (.inr hm) hID]
    cases cast env ID with
    | error e => exact .inr ⟨by simp, _, _, 1, rfl, by simp, Nat.le_refl 1⟩
    | ok n => exact .inl ⟨⟨n, rfl⟩, _, _, rfl⟩

end Dispatched

end NgkNet.Weather
