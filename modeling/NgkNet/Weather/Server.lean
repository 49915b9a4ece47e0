import NgkNet.Weather.Loops

set_option autoImplicit false

namespace NgkNet.Weather

open Ascii Restinio PercentEncoding

def initialWeather : List Station :=
  [ ⟨ascii "1", ascii "20211105", ascii "12:15", ascii "Aarhus N", ascii "13.692", ascii "19.438",
      ascii "13.1", ascii "70%"⟩,
    ⟨ascii "2", ascii "20211105", ascii "12:30", ascii "Aarhus N", ascii "13.692", ascii "19.438",
      ascii "13.2", ascii "71%"⟩,
    ⟨ascii "3", ascii "20211105", ascii "12:45", ascii "Aarhus N", ascii "13.692", ascii "19.438",
      ascii "13.3", ascii "72%"⟩,
    ⟨ascii "4", ascii "20211105", ascii "13:00", ascii "Aarhus N", ascii "13.692", ascii "19.438",
      ascii "13.4", ascii "73%"⟩,
    ⟨ascii "5", ascii "20211105", ascii "13:15", ascii "Aarhus N", ascii "13.692", ascii "19.438",
      ascii "13.5", ascii "74%"⟩ ]

def initialStore : Store := ⟨initialWeather, []⟩

/-- The router with the handlers of the weather server, up to the status that it returns to the
connection or the exception that it lets through. -/
def serveWith {σ : Type} (env : Env) (scan : Scan σ) (req : Request) (s : σ) :
    Except Exception HandlingStatus × σ × Exchange :=
  match targetPath req.path with
  | .error e => (.error (.escape e), s, .fresh req)
  | .ok path =>
    match dispatch entries req.method path with
    | none => (.ok .notHandled, s, .fresh req)
    | some (handler, params) => (runHandlerWith env scan req params handler).run (s, .fresh req)

abbrev Outcome := Except Exception HandlingStatus × Store × Exchange

def serve (env : Env) (req : Request) (store : Store) : Outcome := serveWith env (.plain (cast env)) req store

section Routed

variable {σ : Type} (env : Env) (scan : Scan σ) {req : Request} {path : Str}

theorem serveWith_of_error {e : EscapeError} (s : σ) (hp : targetPath req.path = .error e) :
    serveWith env scan req s = (.error (.escape e), s, .fresh req) := by
  simp only [serveWith, hp]

theorem serveWith_of_none (s : σ) (hp : targetPath req.path = .ok path) (hd : dispatch entries req.method path = none) :
    serveWith env scan req s = (.ok .notHandled, s, .fresh req) := by
  simp only [serveWith, hp, hd]

theorem serveWith_of_dispatch {handler : Handler} {params : RouteParams} (s : σ) (hp : targetPath req.path = .ok path)
    (hd : dispatch entries req.method path = some (handler, params)) :
    serveWith env scan req s = (runHandlerWith env scan req params handler).run (s, .fresh req) := by
  simp only [serveWith, hp, hd]

theorem serve_of_dispatch {handler : Handler} {params : RouteParams} (store : Store) (hp : targetPath req.path = .ok path)
    (hd : dispatch entries req.method path = some (handler, params)) :
    serve env req store = (runHandler env req params handler).run (store, .fresh req) := by
  rw [serve, serveWith_of_dispatch env _ store hp hd, runHandlerWith_plain]

end Routed

def storeAfter (env : Env) (reqs : List Request) : Store :=
  reqs.foldl (fun store req => (serve env req store).2.1) initialStore

def jsonMember (name value : Str) : Str :=
  ascii "\"" ++ name ++ ascii "\":\"" ++ value ++ ascii "\""

def jsonText (s : Station) : Str :=
  ascii "\x7b" ++ jsonMember (ascii "ID") s.ID ++ ascii "," ++ jsonMember (ascii "Date") s.Date ++ ascii "," ++
    jsonMember (ascii "Time") s.Time ++ ascii "," ++ jsonMember (ascii "Name") s.Name ++ ascii "," ++
    jsonMember (ascii "Lat") s.Lat ++ ascii "," ++ jsonMember (ascii "Lon") s.Lon ++ ascii "," ++
    jsonMember (ascii "Temperature") s.Temperature ++ ascii "," ++
    jsonMember (ascii "Humidity") s.Humidity ++ ascii "\x7d"

def jsonOf (known : List Station) : JsonDto where
  fromJson body := known.find? (fun s => jsonText s = body)
  toJson := jsonText
  listToJson w := ascii "[" ++ ((w.map jsonText).intersperse (ascii ",")).flatten ++ ascii "]"

def sampleStation (ID : Str) : Station :=
  ⟨ID, ascii "20211106", ascii "08:00", ascii "Aarhus N", ascii "13.692", ascii "19.438", ascii "9.5",
    ascii "80%"⟩

def sampleEnv : Env :=
  ⟨jsonOf [sampleStation (ascii "abc"), sampleStation (ascii "1")], fun _ => 0xFF,
    ascii "Sat, 06 Nov 2021 07:00:00 GMT"⟩

theorem sampleEnv_fromJson {ID : Str} (h : ID = ascii "abc" ∨ ID = ascii "1") :
    sampleEnv.json.fromJson (jsonText (sampleStation ID)) = some (sampleStation ID) := by
  rw [sampleEnv, jsonOf]
  dsimp only
  obtain rfl | rfl := h
  · exact List.find?_cons_of_pos (decide_eq_true rfl)
  · rw [List.find?_cons_of_neg (by decide)]
    exact List.find?_cons_of_pos (decide_eq_true rfl)

def sampleRequest (method : Method) (path : Str) (body : Str) : Request :=
  ⟨method, path, body, false, none, true, 1⟩

variable (env : Env)

def baseResponse (req : Request) : ResponseBuilder :=
  initResp env ⟨⟨statusOk, [], req.keepAlive, []⟩, some req.connectionId⟩

theorem baseResponse_status (req : Request) : (baseResponse env req).response.status = statusOk := rfl

theorem statusOk_ne_badRequest : statusOk ≠ statusBadRequest := by decide

def answered (b : ResponseBuilder) : Exchange := ⟨none, 1, [b.response], []⟩

def Answered (out : Outcome) (status : StatusLine) : Prop :=
  out.1 = .ok .accepted ∧ out.2.2.responses.map Response.status = [status]

theorem answered_iff {b : ResponseBuilder} {store : Store} {status : StatusLine} :
    Answered (.ok .accepted, store, answered b) status ↔ b.response.status = status := by
  simp [Answered, answered]

theorem createResponse_fresh {σ : Type} (req : Request) (status : StatusLine) (store : σ) :
    (createResponse req status).run (store, .fresh req) =
      (.ok ⟨⟨status, [], req.keepAlive, []⟩, some req.connectionId⟩, store, ⟨none, 1, [], []⟩) := rfl

theorem onWeatherList_run (req : Request) (store : Store) :
    (onWeatherList env req).run (store, .fresh req) =
      (.ok .accepted, store, answered ((baseResponse env req).setBody (env.json.listToJson store.weather))) := rfl

def dateResponse (req : Request) (Date : Str) (w : List Station) : ResponseBuilder :=
  let found := w.foldl (fun acc b =>
    if Date = b.Date then (acc.1.appendBody (env.json.toJson b), true) else acc) (baseResponse env req, false)
  if found.2 then found.1 else found.1.setBody (ascii "No weather with that date " ++ Date ++ ascii "\n")

theorem dateLoop_connection (Date : Str) (w : List Station) (resp : ResponseBuilder) (answer : Bool) :
    (w.foldl (fun (acc : ResponseBuilder × Bool) b =>
      if Date = b.Date then (acc.1.appendBody (env.json.toJson b), true) else acc) (resp, answer)).1.connection =
      resp.connection := by
  induction w generalizing resp answer with
  | nil => rfl
  | cons b w ih =>
    rw [List.foldl_cons]
    by_cases h : Date = b.Date
    · rw [if_pos h, ih]
      rfl
    · rw [if_neg h, ih]

theorem done_run {σ : Type} {b : ResponseBuilder} {id : ℕ} (h : b.connection = some id) (store : σ) :
    b.done.run (store, ⟨none, 1, [], []⟩) = (.ok .accepted, store, answered b) := by
  simp [ResponseBuilder.done, h, answered]

theorem onDateGet_run (req : Request) {params : RouteParams} {value : Str} (store : Store)
    (hp : params.get (ascii "Date") = some value) :
    (onDateGet env req params).run (store, .fresh req) =
      match unescapePercentEncoding value with
      | .error e => (.error (.escape e), store, .fresh req)
      | .ok Date => (.ok .accepted, store, answered (dateResponse env req Date store.weather)) := by
  simp only [onDateGet, Eff.run_bind, param, hp, Eff.run_pure, unescape]
  cases hu : unescapePercentEncoding value with
  | error e => rfl
  | ok Date =>
    have hc := dateLoop_connection env Date store.weather (baseResponse env req) false
    simp only [Eff.run_pure, createResponse_fresh, weather, Eff.run_read, dateResponse]
    rw [baseResponse] at hc ⊢
    split
    · exact done_run hc store
    · refine done_run (?_ : _ = some req.connectionId) store
      exact hc

def latestResponse (req : Request) (w : List Station) : ResponseBuilder :=
  w.zipIdx.foldl (fun acc b =>
    if (w.length + 2 ^ 64 - 3) % 2 ^ 64 ≤ b.2 then acc.appendBody (env.json.toJson b.1) else acc)
    ((baseResponse env req).setBody (ascii "3 latest entries:\n"))

theorem latestLoop_connection (size : ℕ) (w : List (Station × ℕ)) (resp : ResponseBuilder) :
    (w.foldl (fun acc b =>
      if (size + 2 ^ 64 - 3) % 2 ^ 64 ≤ b.2 then acc.appendBody (env.json.toJson b.1) else acc) resp).connection =
      resp.connection := by
  induction w generalizing resp with
  | nil => rfl
  | cons b w ih =>
    rw [List.foldl_cons, ih]
    split <;> rfl

theorem onWeatherLatest_run (req : Request) (store : Store) :
    (onWeatherLatest env req).run (store, .fresh req) =
      (.ok .accepted, store, answered (latestResponse env req store.weather)) := by
  simp only [onWeatherLatest, Eff.run_bind, createResponse_fresh, weather, Eff.run_read]
  exact done_run (latestLoop_connection env _ _ _) store

def optionsResponse (req : Request) : ResponseBuilder :=
  baseResponse env req
    |>.appendHeader (ascii "Access-Control-Allow-Methods") (ascii "OPTIONS, GET, POST, PATCH, DELETE, PUT")
    |>.appendHeader (ascii "Access-Control-Allow-Headers") (ascii "content-type")
    |>.appendHeader (ascii "Access-Control-Max-Age") (ascii "86400")

theorem options_run (req : Request) (store : Store) :
    (options env req).run (store, .fresh req) = (.ok .accepted, store, answered (optionsResponse env req)) := rfl

def notAllowedResponse (req : Request) : ResponseBuilder :=
  ⟨⟨statusMethodNotAllowed, [], false, []⟩, some req.connectionId⟩

theorem methodNotAllowed_run (req : Request) (store : Store) :
    (methodNotAllowed req).run (store, .fresh req) =
      (.ok .accepted, store, answered (notAllowedResponse req)) := rfl

def emplaced (id : ℕ) (store : Store) : Store :=
  if id ∈ store.registry then store else { store with registry := id :: store.registry }

theorem onLiveUpdate_run (req : Request) (store : Store) :
    (onLiveUpdate env req).run (store, .fresh req) =
      match req.connectionUpgrade, req.secWebsocketKey with
      | false, _ => (.ok .rejected, store, .fresh req)
      | true, none => (.error (.fieldNotFound (ascii "Sec-WebSocket-Key")), store, .fresh req)
      | true, some _ =>
        (.error .connectionAlreadyMoved, emplaced req.connectionId store, ⟨none, 2, [], [req.connectionId]⟩) := by
  cases hu : req.connectionUpgrade with
  | false => simp only [onLiveUpdate, hu]; rfl
  | true =>
    cases hk : req.secWebsocketKey with
    | none => simp only [onLiveUpdate, hu, if_true, Eff.run_bind, upgrade, hk]
    | some key => simp only [onLiveUpdate, hu, if_true, Eff.run_bind, upgrade, hk]; rfl

theorem emplaced_weather (id : ℕ) (store : Store) : (emplaced id store).weather = store.weather := by
  rw [emplaced]
  split <;> rfl

theorem onPostData_run (req : Request) (store : Store) :
    (onPostData env req).run (store, .fresh req) =
      match env.json.fromJson req.body with
      | some b => (.ok .accepted, { store with weather := store.weather ++ [b] }, answered (baseResponse env req))
      | none => (.ok .accepted, store, answered (markAsBadRequest (baseResponse env req))) := by
  simp only [onPostData, Eff.run_bind, createResponse_fresh, Eff.catchAll]
  cases h : env.json.fromJson req.body with
  | some b => simp only [fromJson, h, Eff.run_pure, weather, Eff.run_read, setWeather, Eff.run_modify]; rfl
  | none => simp only [fromJson, h, Eff.run_throw, Eff.run_pure]; rfl

section Scans

variable (cast : Str → Except CastError UInt32)

def updateResponseWith (req : Request) (n : UInt32) (w : List Station) : ResponseBuilder :=
  match firstError cast w with
  | some _ => markAsBadRequest (baseResponse env req)
  | none =>
    if w.any (fun c => Matches cast n c) then baseResponse env req
    else (markAsBadRequest (baseResponse env req)).setBody
      (ascii "No weather with #" ++ ascii (toString n.toNat) ++ ascii "\n")

theorem onWeatherUpdateWith_run (req : Request) {params : RouteParams} {ID : Str} (store : Store)
    (hp : params.get (ascii "ID") = some ID) :
    (onWeatherUpdateWith env (.plain cast) req params).run (store, .fresh req) =
      match cast ID, env.json.fromJson req.body with
      | .error e, _ => (.error (.cast e), store, .fresh req)
      | .ok _, none => (.ok .accepted, store, answered (markAsBadRequest (baseResponse env req)))
      | .ok n, some b =>
        (.ok .accepted, { store with weather := updated cast n b store.weather },
          answered (updateResponseWith env cast req n store.weather)) := by
  simp only [onWeatherUpdateWith, Scan.plain_cast, Eff.run_bind, param, hp, Eff.run_pure, castBy_run]
  cases hc : cast ID with
  | error e => rfl
  | ok n =>
    simp only [createResponse_fresh, Eff.catchAll]
    cases h : env.json.fromJson req.body with
    | none => simp only [fromJson, h, Eff.run_throw, Eff.run_bind, Eff.run_pure]; rfl
    | some b =>
      have hloop := updateLoopWith_run cast n b [] store.weather (store.weather.length + 1) false store.registry
        ⟨none, 1, [], []⟩ (Nat.lt_succ_self _)
      simp only [List.nil_append, List.length_nil] at hloop
      simp only [fromJson, h, Scan.plain_onStore, Eff.run_bind, Eff.run_pure, weather, Eff.run_read, hloop,
        updateResponseWith]
      cases firstError cast store.weather with
      | some e => rfl
      | none =>
        simp only [Bool.false_or]
        cases store.weather.any (fun c => Matches cast n c) <;> rfl

def deleteResponseWith (req : Request) (n : UInt32) (w : List Station) : ResponseBuilder :=
  match firstError cast (visited cast n w) with
  | some _ => markAsBadRequest (baseResponse env req)
  | none => baseResponse env req

theorem onWeatherDeleteWith_run (req : Request) {params : RouteParams} {ID : Str} (store : Store)
    (hp : params.get (ascii "ID") = some ID) :
    (onWeatherDeleteWith env (.plain cast) req params).run (store, .fresh req) =
      match cast ID with
      | .error e => (.error (.cast e), store, ⟨none, 1, [], []⟩)
      | .ok n =>
        (.ok .accepted, { store with weather := deleted cast n store.weather },
          answered (deleteResponseWith env cast req n store.weather)) := by
  simp only [onWeatherDeleteWith, Scan.plain_cast, Eff.run_bind, createResponse_fresh, param, hp, Eff.run_pure, castBy_run]
  cases hc : cast ID with
  | error e => rfl
  | ok n =>
    have hloop := deleteLoopWith_run cast n [] store.weather (store.weather.length + 1) store.registry
      ⟨none, 1, [], []⟩ (Nat.lt_succ_self _)
    simp only [List.nil_append, List.length_nil] at hloop
    simp only [Scan.plain_onStore, Eff.catchAll, Eff.run_bind, weather, Eff.run_read, hloop, deleteResponseWith]
    cases firstError cast (visited cast n store.weather) <;> rfl

end Scans

def updateResponse : Request → UInt32 → List Station → ResponseBuilder := updateResponseWith env (cast env)

def deleteResponse : Request → UInt32 → List Station → ResponseBuilder := deleteResponseWith env (cast env)

theorem onWeatherUpdate_run (req : Request) {params : RouteParams} {ID : Str} (store : Store)
    (hp : params.get (ascii "ID") = some ID) :
    (onWeatherUpdate env req params).run (store, .fresh req) =
      match cast env ID, env.json.fromJson req.body with
      | .error e, _ => (.error (.cast e), store, .fresh req)
      | .ok _, none => (.ok .accepted, store, answered (markAsBadRequest (baseResponse env req)))
      | .ok n, some b =>
        (.ok .accepted, { store with weather := updated (cast env) n b store.weather },
          answered (updateResponse env req n store.weather)) :=
  onWeatherUpdateWith_run env (cast env) req store hp

theorem onWeatherDelete_run (req : Request) {params : RouteParams} {ID : Str} (store : Store)
    (hp : params.get (ascii "ID") = some ID) :
    (onWeatherDelete env req params).run (store, .fresh req) =
      match cast env ID with
      | .error e => (.error (.cast e), store, ⟨none, 1, [], []⟩)
      | .ok n =>
        (.ok .accepted, { store with weather := deleted (cast env) n store.weather },
          answered (deleteResponse env req n store.weather)) :=
  onWeatherDeleteWith_run env (cast env) req store hp

theorem get_single (path key value : Str) : (⟨path, [(key, value)], []⟩ : RouteParams).get key = some value := by
  simp [RouteParams.get]

section Served

variable {req : Request} {path : Str} {handler : Handler} {params : RouteParams}
  (hp : targetPath req.path = .ok path)

theorem serve_weather_of_not_mutating (hd : dispatch entries req.method path = some (handler, params))
    (hh : handler ∉ [.postData, .weatherUpdate, .weatherDelete]) (store : Store) :
    ((runHandler env req params handler).run (store, .fresh req)).2.1.weather = store.weather := by
  cases handler with
  | weatherList => rfl
  | options => rfl
  | methodNotAllowed => rfl
  | weatherLatest => rw [runHandler, onWeatherLatest_run]
  | liveUpdate =>
    rw [runHandler, onLiveUpdate_run]
    cases req.connectionUpgrade <;> cases req.secWebsocketKey <;> first | rfl | exact emplaced_weather _ _
  | dateGet =>
    obtain ⟨-, Date, -, rfl⟩ := dispatch_dateGet.mp hd
    rw [runHandler, onDateGet_run env req store (get_single _ _ _)]
    cases unescapePercentEncoding Date <;> rfl
  | postData => simp at hh
  | weatherUpdate => simp at hh
  | weatherDelete => simp at hh

include hp

theorem serve_postData (hd : dispatch entries req.method path = some (.postData, params)) (store : Store) :
    serve env req store = match env.json.fromJson req.body with
      | some b => (.ok .accepted, { store with weather := store.weather ++ [b] }, answered (baseResponse env req))
      | none => (.ok .accepted, store, answered (markAsBadRequest (baseResponse env req))) := by
  rw [serve_of_dispatch env store hp hd, runHandler, onPostData_run]

theorem serve_weatherUpdate (hd : dispatch entries req.method path = some (.weatherUpdate, params))
    (store : Store) : ∃ ID, req.method = .put ∧ IdPath path ID ∧
    serve env req store = match cast env ID, env.json.fromJson req.body with
      | .error e, _ => (.error (.cast e), store, .fresh req)
      | .ok _, none => (.ok .accepted, store, answered (markAsBadRequest (baseResponse env req)))
      | .ok n, some b =>
        (.ok .accepted, { store with weather := updated (cast env) n b store.weather },
          answered (updateResponse env req n store.weather)) := by
  obtain ⟨hm, ID, hID, rfl⟩ := dispatch_weatherUpdate.mp hd
  refine ⟨ID, hm, hID, ?_⟩
  rw [serve_of_dispatch env store hp hd, runHandler, onWeatherUpdate_run env req store (get_single _ _ _)]

theorem serve_weatherDelete (hd : dispatch entries req.method path = some (.weatherDelete, params))
    (store : Store) : ∃ ID, req.method = .delete ∧ IdPath path ID ∧
    serve env req store = match cast env ID with
      | .error e => (.error (.cast e), store, ⟨none, 1, [], []⟩)
      | .ok n =>
        (.ok .accepted, { store with weather := deleted (cast env) n store.weather },
          answered (deleteResponse env req n store.weather)) := by
  obtain ⟨hm, ID, hID, rfl⟩ := dispatch_weatherDelete.mp hd
  refine ⟨ID, hm, hID, ?_⟩
  rw [serve_of_dispatch env store hp hd, runHandler, onWeatherDelete_run env req store (get_single _ _ _)]

end Served

def Addresses (env : Env) (req : Request) (method : Method) (n : UInt32) : Prop :=
  req.method = method ∧ ∃ path ID, targetPath req.path = .ok path ∧ IdPath path ID ∧ cast env ID = .ok n

section Addressed

variable {env : Env}

theorem serve_put {req : Request} {n : UInt32} {b : Station} (h : Addresses env req .put n)
    (hb : env.json.fromJson req.body = some b) (store : Store) :
    serve env req store = (.ok .accepted, { store with weather := updated (cast env) n b store.weather },
      answered (updateResponse env req n store.weather)) := by
  obtain ⟨hm, path, ID, hp, hID, hc⟩ := h
  obtain ⟨ID', -, hID', hs⟩ := serve_weatherUpdate env hp (dispatch_weatherUpdate.mpr ⟨hm, ID, hID, rfl⟩) store
  obtain rfl := hID.unique hID'
  simpa [hc, hb] using hs

theorem serve_delete {req : Request} {n : UInt32} (h : Addresses env req .delete n) (store : Store) :
    serve env req store = (.ok .accepted, { store with weather := deleted (cast env) n store.weather },
      answered (deleteResponse env req n store.weather)) := by
  obtain ⟨hm, path, ID, hp, hID, hc⟩ := h
  obtain ⟨ID', -, hID', hs⟩ := serve_weatherDelete env hp (dispatch_weatherDelete.mpr ⟨hm, ID, hID, rfl⟩) store
  obtain rfl := hID.unique hID'
  simpa [hc] using hs

theorem addresses_of_idPath {req : Request} (ID : Str) {n : UInt32} (hp : targetPath req.path = .ok (slash :: ID))
    (h₀ : ID ≠ []) (hd : ∀ c ∈ ID, isDigit c = true) (hc : cast env ID = .ok n) :
    Addresses env req req.method n :=
  ⟨rfl, slash :: ID, ID, hp, ⟨[], by rw [List.append_nil], h₀, hd, .inl rfl⟩, hc⟩

end Addressed

theorem serve_samplePost {body : Str} {b : Station} (hb : env.json.fromJson body = some b) (store : Store) :
    (serve env (sampleRequest .post (ascii "/") body) store).2.1.weather = store.weather ++ [b] := by
  have hp : targetPath (ascii "/") = .ok (ascii "/") := by decide
  obtain ⟨params, hd⟩ := dispatch_postData.mpr ⟨rfl, .inl rfl⟩
  have hbody : env.json.fromJson (sampleRequest .post (ascii "/") body).body = some b := hb
  have hs := serve_postData env (show targetPath (sampleRequest .post (ascii "/") body).path = _ from hp) hd store
  rw [hs, hbody]

end NgkNet.Weather
