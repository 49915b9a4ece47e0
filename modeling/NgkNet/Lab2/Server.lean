import NgkNet.Lab2.Handlers
import NgkNet.Weather.Listing

set_option autoImplicit false

namespace NgkNet.Lab2

open Ascii Restinio Weather PercentEncoding

def initialWeathers : Weathers := initialWeather

variable (env : Env)

def weathersAfter (reqs : List Request) : Weathers :=
  reqs.foldl (fun w req => (serve env req w).2.1) initialWeathers

def stationText (k : ℕ) (b : Station) : Str :=
  ascii "\n\nWeather data " ++ number k ++ ascii ". \n" ++ (ascii "ID: " ++ b.ID ++ ascii "\n") ++
    ascii "Tidspunkt (dato og klokkeslet):\n" ++ (ascii "\t\tDato: " ++ b.Date ++ ascii "\n") ++
    (ascii "\t\tKlokkeslet: " ++ b.Time ++ ascii "\n") ++ ascii "Sted:\n" ++
    (ascii "\t\tNavn: " ++ b.Name ++ ascii "\n") ++ (ascii "\t\tLat: " ++ b.Lat ++ ascii "\n") ++
    (ascii "\t\tLon: " ++ b.Lon ++ ascii "\n") ++ (ascii "Temperatur: " ++ b.Temperature ++ ascii "\n") ++
    (ascii "Luftfugtighed: " ++ b.Humidity ++ ascii "\n")

def numbered (stations : List (Station × ℕ)) : List (ℕ × Station) := stations.map (fun b => (b.2 + 1, b.1))

def printed (stations : List (ℕ × Station)) : Str := stations.flatMap (fun b => stationText b.1 b.2)

theorem printed_cons (b : Station × ℕ) (stations : List (Station × ℕ)) :
    printed (numbered (b :: stations)) = stationText (b.2 + 1) b.1 ++ printed (numbered stations) := rfl

theorem appendBody_appendBody (resp : ResponseBuilder) (a b : Str) :
    (resp.appendBody a).appendBody b = resp.appendBody (a ++ b) := by
  simp [ResponseBuilder.appendBody]

theorem appendBody_nil (resp : ResponseBuilder) : resp.appendBody [] = resp := by
  simp [ResponseBuilder.appendBody]

theorem appendStation_eq (k : ℕ) (b : Station) (resp : ResponseBuilder) :
    appendStation k b resp = resp.appendBody (stationText k b) := by
  simp only [appendStation, appendBody_appendBody, stationText]

theorem foldl_appendStation (p : Station × ℕ → Bool) (l : List (Station × ℕ)) (resp : ResponseBuilder) :
    l.foldl (fun acc b => if p b then appendStation (b.2 + 1) b.1 acc else acc) resp =
      resp.appendBody (printed (numbered (l.filter p))) := by
  induction l generalizing resp with
  | nil => exact (appendBody_nil resp).symm
  | cons b l ih =>
    rw [List.foldl_cons]
    by_cases hb : p b = true
    · rw [if_pos hb, ih, List.filter_cons_of_pos hb, appendStation_eq, appendBody_appendBody, printed_cons]
    · rw [if_neg hb, ih, List.filter_cons_of_neg hb]

theorem foldl_appendStation_counter (p : Station × ℕ → Bool) (l : List (Station × ℕ)) (resp : ResponseBuilder)
    (counter : Int32) :
    l.foldl (fun (acc : ResponseBuilder × Int32) b =>
      if p b then (appendStation (b.2 + 1) b.1 acc.1, acc.2 + 1) else acc) (resp, counter) =
      (resp.appendBody (printed (numbered (l.filter p))), counter + Int32.ofNat (l.filter p).length) := by
  induction l generalizing resp counter with
  | nil => simp [printed, numbered, appendBody_nil]
  | cons b l ih =>
    rw [List.foldl_cons]
    by_cases hb : p b = true
    · have hone : Int32.ofNat 1 = 1 := by decide
      rw [if_pos hb, ih, List.filter_cons_of_pos hb, appendStation_eq, appendBody_appendBody, printed_cons,
        List.length_cons, Int32.ofNat_add, hone, Int32.add_comm (Int32.ofNat _), ← Int32.add_assoc]
    · rw [if_neg hb, ih, List.filter_cons_of_neg hb]

def baseResponse (req : Request) : ResponseBuilder :=
  initResp env ⟨⟨statusOk, [], req.keepAlive, []⟩, some req.connectionId⟩

def listBody (w : Weathers) : Str :=
  ascii "Weather collection (Weather count: " ++ number w.length ++ ascii ")\n" ++ printed (numbered w.zipIdx)

theorem onWeathersList_run (req : Request) (w : Weathers) :
    (onWeathersList env req).run (w, .fresh req) =
      (.ok .accepted, w, answered ((baseResponse env req).setBody (listBody w))) := by
  have hfold := foldl_appendStation (fun _ => true) w.zipIdx
  simp only [if_true, List.filter_true] at hfold
  simp only [onWeathersList, weathersListWith, Eff.run_bind, createResponse_fresh, weathers, Eff.run_read, hfold]
  rfl

theorem onWeathersGetThreelist_run (req : Request) (w : Weathers) :
    (onWeathersGetThreelist env req).run (w, .fresh req) =
      (.ok .accepted, w, answered ((baseResponse env req).appendBody (printed (numbered (latest w))))) := by
  have hfold := foldl_appendStation (fun b => (w.length + 2 ^ 64 - 3) % 2 ^ 64 ≤ b.2) w.zipIdx
  simp only [decide_eq_true_eq] at hfold
  simp only [onWeathersGetThreelist, Eff.run_bind, createResponse_fresh, weathers, Eff.run_read, hfold]
  rfl

def dateBody (Date : Str) (w : Weathers) : Str :=
  let found := w.zipIdx.filter (fun b => Date = b.1.Date)
  if Int32.ofNat found.length = 0 then ascii "No weather with that date " ++ Date ++ ascii "\n"
  else ascii "Weathers of " ++ Date ++ ascii ":\n" ++ printed (numbered found)

theorem onWeatherGetDate_run (req : Request) {params : RouteParams} {value : Str} (w : Weathers)
    (hp : params.get (ascii "Date") = some value) :
    (onWeatherGetDate env req params).run (w, .fresh req) =
      match unescapePercentEncoding value with
      | .error e => (.error (.escape e), w, .fresh req)
      | .ok Date => (.ok .accepted, w, answered ((baseResponse env req).setBody (dateBody Date w))) := by
  simp only [onWeatherGetDate, Eff.run_bind, param, hp, Eff.run_pure, unescape]
  cases unescapePercentEncoding value with
  | error e => rfl
  | ok Date =>
    have hfold := foldl_appendStation_counter (fun b => Date = b.1.Date) w.zipIdx
    simp only [decide_eq_true_eq] at hfold
    simp only [Eff.run_pure, createResponse_fresh, weathers, Eff.run_read, hfold, dateBody, Int32.zero_add]
    split <;> rfl

def IDBody (ID : Str) (w : Weathers) : Str :=
  ascii "Weathers of " ++ ID ++ ascii ":\n" ++ printed (numbered (w.zipIdx.filter (fun b => ID = b.1.ID)))

theorem onIDGet_run (req : Request) {params : RouteParams} {value : Str} (w : Weathers)
    (hp : params.get (ascii "ID") = some value) :
    (onIDGet env req params).run (w, .fresh req) =
      (.ok .accepted, w, answered (match unescapePercentEncoding value with
        | .error _ => markAsBadRequest (baseResponse env req)
        | .ok ID => (baseResponse env req).setBody (IDBody ID w))) := by
  simp only [onIDGet, IDGetWith, Eff.run_bind, createResponse_fresh, Eff.catchAll, param, hp, Eff.run_pure, unescape]
  cases unescapePercentEncoding value with
  | error e => rfl
  | ok ID =>
    have hfold := foldl_appendStation (fun b => ID = b.1.ID) w.zipIdx
    simp only [decide_eq_true_eq] at hfold
    simp only [Eff.run_pure, weathers, Eff.run_read, hfold]
    rfl

theorem onNewWeather_run (req : Request) (w : Weathers) :
    (onNewWeather env req).run (w, .fresh req) =
      match env.json.fromJson req.body with
      | some b => (.ok .accepted, w ++ [b], answered (baseResponse env req))
      | none => (.ok .accepted, w, answered (markAsBadRequest (baseResponse env req))) := by
  simp only [onNewWeather, Eff.run_bind, createResponse_fresh, Eff.catchAll, fromJson]
  cases env.json.fromJson req.body <;> rfl

section Numbered

variable (req : Request) {params : RouteParams} {value : Str} (w : Weathers)
  (hp : params.get (ascii "weathernum") = some value)

def absentBody (n : ℕ) : Str := ascii "No weather with #" ++ number n ++ ascii "\n"

def getBody (n : ℕ) : Str :=
  if h : 0 ≠ n ∧ n ≤ w.length then
    ascii "Weather #" ++ number n ++ ascii " is: " ++ (w.get ⟨n - 1, by omega⟩).Date ++ ascii " [" ++
      (w.get ⟨n - 1, by omega⟩).ID ++ ascii "]\n"
  else absentBody n

def deleteBody (n : ℕ) : Str :=
  if h : 0 ≠ n ∧ n ≤ w.length then
    ascii "Delete weather #" ++ number n ++ ascii ": " ++ (w.get ⟨n - 1, by omega⟩).Date ++ ascii "[" ++
      (w.get ⟨n - 1, by omega⟩).ID ++ ascii "]\n"
  else absentBody n

def replaced (n : ℕ) (b : Station) : Weathers := if 0 ≠ n ∧ n ≤ w.length then w.set (n - 1) b else w

def removed (n : ℕ) : Weathers := if 0 ≠ n ∧ n ≤ w.length then w.eraseIdx (n - 1) else w

def updateResponse (n : ℕ) : ResponseBuilder :=
  if 0 ≠ n ∧ n ≤ w.length then baseResponse env req
  else (markAsBadRequest (baseResponse env req)).setBody (absentBody n)

include hp

theorem onWeatherGet_run :
    (onWeatherGet env req params).run (w, .fresh req) =
      match cast env value with
      | .error e => (.error (.cast e), w, .fresh req)
      | .ok n => (.ok .accepted, w, answered ((baseResponse env req).setBody (getBody w n.toNat))) := by
  simp only [onWeatherGet, weatherGetWith, Eff.run_bind, param, hp, Eff.run_pure, castTo_run]
  cases cast env value with
  | error e => rfl
  | ok n =>
    simp only [createResponse_fresh, weathers, Eff.run_read, getBody]
    split <;> rfl

theorem onWeatherUpdate_run :
    (onWeatherUpdate env req params).run (w, .fresh req) =
      match cast env value, env.json.fromJson req.body with
      | .error e, _ => (.error (.cast e), w, .fresh req)
      | .ok _, none => (.ok .accepted, w, answered (markAsBadRequest (baseResponse env req)))
      | .ok n, some b => (.ok .accepted, replaced w n.toNat b, answered (updateResponse env req w n.toNat)) := by
  simp only [onWeatherUpdate, weatherUpdateWith, Eff.run_bind, param, hp, Eff.run_pure, castTo_run]
  cases cast env value with
  | error e => rfl
  | ok n =>
    simp only [createResponse_fresh, Eff.catchAll, fromJson]
    cases env.json.fromJson req.body with
    | none => rfl
    | some b =>
      by_cases h : 0 ≠ n.toNat ∧ n.toNat ≤ w.length
      · simp only [Eff.run_bind, Eff.run_pure, weathers, Eff.run_read, replaced, updateResponse, if_pos h]
        rfl
      · simp only [Eff.run_bind, Eff.run_pure, weathers, Eff.run_read, replaced, updateResponse, if_neg h]
        rfl

theorem onWeatherDelete_run :
    (onWeatherDelete env req params).run (w, .fresh req) =
      match cast env value with
      | .error e => (.error (.cast e), w, .fresh req)
      | .ok n => (.ok .accepted, removed w n.toNat,
          answered ((baseResponse env req).setBody (deleteBody w n.toNat))) := by
  simp only [onWeatherDelete, weatherDeleteWith, Eff.run_bind, param, hp, Eff.run_pure, castTo_run]
  cases cast env value with
  | error e => rfl
  | ok n =>
    simp only [createResponse_fresh, weathers, Eff.run_read, removed, deleteBody]
    split <;> rfl

end Numbered

end NgkNet.Lab2
