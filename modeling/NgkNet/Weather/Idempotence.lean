import NgkNet.Weather.Blocking

set_option autoImplicit false

namespace NgkNet.Weather

open Ascii Restinio PercentEncoding

section Scans

variable (cast : Str → Except CastError UInt32) (env : Env)

theorem updated_idempotent (n : UInt32) (b : Station) (w : List Station) :
    updated cast n b (updated cast n b w) = updated cast n b w := by
  induction w with
  | nil => rfl
  | cons c w ih =>
    cases hc : cast c.ID with
    | error e => simp only [updated, hc]
    | ok m =>
      by_cases hm : n = m
      · -- the body replaced `c`: its own ID may stop the second run here, with nothing left to change
        cases hb : cast b.ID with
        | error e => simp only [updated, hc, if_pos hm, hb]
        | ok k => simp only [updated, hc, if_pos hm, hb, ite_self, ih]
      · simp only [updated, hc, if_neg hm, ih]

def updatedStore (req : Request) (ID : Str) (store : Store) : Store :=
  match cast ID, env.json.fromJson req.body with
  | .ok n, some b => { store with weather := updated cast n b store.weather }
  | _, _ => store

theorem updatedStore_idempotent (req : Request) (ID : Str) (store : Store) :
    updatedStore cast env req ID (updatedStore cast env req ID store) = updatedStore cast env req ID store := by
  rw [updatedStore]
  cases hc : cast ID with
  | error e => rfl
  | ok n =>
    cases hb : env.json.fromJson req.body with
    | none => rfl
    | some b => simp only [updatedStore, hc, hb, updated_idempotent]

theorem onWeatherUpdateWith_store (req : Request) {params : RouteParams} {ID : Str} (store : Store)
    (hp : params.get (ascii "ID") = some ID) :
    ((onWeatherUpdateWith env (.plain cast) req params).run (store, .fresh req)).2.1 = updatedStore cast env req ID store := by
  rw [onWeatherUpdateWith_run env cast req store hp, updatedStore]
  cases cast ID with
  | error e => rfl
  | ok n => cases env.json.fromJson req.body <;> rfl

theorem serveWith_weatherUpdate {req : Request} {path : Str} {params : RouteParams}
    (hp : targetPath req.path = .ok path)
    (hd : dispatch entries req.method path = some (.weatherUpdate, params)) :
    ∃ ID, ∀ store, (serveWith env (.plain cast) req store).2.1 = updatedStore cast env req ID store := by
  obtain ⟨-, ID, -, rfl⟩ := dispatch_weatherUpdate.mp hd
  refine ⟨ID, fun store => ?_⟩
  rw [serveWith_of_dispatch env _ store hp hd]
  exact onWeatherUpdateWith_store cast env req store (get_single _ _ _)

theorem serveWith_weather_of_put {req : Request} {path : Str} {handler : Handler} {params : RouteParams}
    (hm : req.method = .put) (hp : targetPath req.path = .ok path)
    (hd : dispatch entries req.method path = some (handler, params)) (hu : handler ≠ .weatherUpdate)
    (store : Store) : (serveWith env (.plain cast) req store).2.1.weather = store.weather := by
  have hpost : handler ≠ .postData := by
    rintro rfl
    exact absurd (hm.symm.trans (dispatch_postData.mp ⟨params, hd⟩).1) (by decide)
  have hdelete : handler ≠ .weatherDelete := by
    rintro rfl
    exact absurd (hm.symm.trans (dispatch_weatherDelete.mp hd).1) (by decide)
  have hrun : runHandlerWith env (.plain cast) req params handler = runHandler env req params handler := by
    cases handler with
    | weatherUpdate => exact absurd rfl hu
    | weatherDelete => exact absurd rfl hdelete
    | _ => rfl
  rw [serveWith_of_dispatch env _ store hp hd, hrun]
  exact serve_weather_of_not_mutating env hd (by simp [hu, hpost, hdelete]) store

theorem serveWith_idempotent {req : Request} (hm : req.method = .put) (store : Store) :
    (serveWith env (.plain cast) req (serveWith env (.plain cast) req store).2.1).2.1.weather =
      (serveWith env (.plain cast) req store).2.1.weather := by
  cases hp : targetPath req.path with
  | error e => rw [serveWith_of_error env _ store hp, serveWith_of_error env _ _ hp]
  | ok path =>
    cases hd : dispatch entries req.method path with
    | none => rw [serveWith_of_none env _ store hp hd, serveWith_of_none env _ _ hp hd]
    | some handled =>
      obtain ⟨handler, params⟩ := handled
      by_cases hu : handler = .weatherUpdate
      · subst hu
        obtain ⟨ID, hs⟩ := serveWith_weatherUpdate cast env hp hd
        rw [hs, hs, updatedStore_idempotent]
      · exact serveWith_weather_of_put cast env hm hp hd hu _

end Scans

/-- A repeated update leaves the collection as the first one left it, also when both stop half way. -/
theorem put_idempotent (env : Env) {req : Request} (hm : req.method = .put) (store : Store) :
    (∀ cast : Str → Except CastError UInt32,
      (serveWith env (.plain cast) req (serveWith env (.plain cast) req store).2.1).2.1.weather =
        (serveWith env (.plain cast) req store).2.1.weather) ∧
      (serve env req (serve env req store).2.1).2.1.weather = (serve env req store).2.1.weather :=
  ⟨fun cast => serveWith_idempotent cast env hm store, serveWith_idempotent (cast env) env hm store⟩

theorem put_idempotent_when_blocked :
    firstPut.method = .put ∧
      (serve sampleEnv firstPut (serve sampleEnv firstPut (storeAfter sampleEnv [blockingPost])).2.1).2.1.weather =
        (serve sampleEnv firstPut (storeAfter sampleEnv [blockingPost])).2.1.weather :=
  ⟨rfl, (put_idempotent sampleEnv rfl _).2⟩

end NgkNet.Weather
