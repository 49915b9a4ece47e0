import NgkNet.Lab2.Routes
import NgkNet.Weather.Handlers

set_option autoImplicit false

namespace NgkNet.Lab2

open Ascii Restinio Weather PercentEncoding

abbrev Weathers := List Station

variable (env : Env)

def initResp (resp : ResponseBuilder) : ResponseBuilder :=
  resp.appendHeader (ascii "Server") (ascii "RESTinio sample server /v.0.6")
    |>.appendHeader (ascii "Date") env.date
    |>.appendHeader (ascii "Content-Type") (ascii "text/plain; charset=utf-8")

def weathers : Handling Weathers Weathers := Eff.read (fun s => s.1)

def setWeathers (w : Weathers) : Handling Weathers Unit := Eff.modify (fun s => (w, s.2))

def fromJson (body : Str) : Handling Weathers Station :=
  match env.json.fromJson body with
  | some b => pure b
  | none => Eff.throw .json

def number (n : ℕ) : Str := ascii (toString n)

def appendStation (k : ℕ) (b : Station) (resp : ResponseBuilder) : ResponseBuilder :=
  resp.appendBody (ascii "\n\nWeather data " ++ number k ++ ascii ". \n")
    |>.appendBody (ascii "ID: " ++ b.ID ++ ascii "\n")
    |>.appendBody (ascii "Tidspunkt (dato og klokkeslet):\n")
    |>.appendBody (ascii "\t\tDato: " ++ b.Date ++ ascii "\n")
    |>.appendBody (ascii "\t\tKlokkeslet: " ++ b.Time ++ ascii "\n")
    |>.appendBody (ascii "Sted:\n")
    |>.appendBody (ascii "\t\tNavn: " ++ b.Name ++ ascii "\n")
    |>.appendBody (ascii "\t\tLat: " ++ b.Lat ++ ascii "\n")
    |>.appendBody (ascii "\t\tLon: " ++ b.Lon ++ ascii "\n")
    |>.appendBody (ascii "Temperatur: " ++ b.Temperature ++ ascii "\n")
    |>.appendBody (ascii "Luftfugtighed: " ++ b.Humidity ++ ascii "\n")

section Shared

-- Voresmain has the same handlers, with response fields of its own.
variable (initResp : ResponseBuilder → ResponseBuilder)

def weathersListWith (req : Request) : Handling Weathers HandlingStatus := do
  let resp ← createResponse req statusOk
  let w ← weathers
  let resp := (initResp resp).setBody
    (ascii "Weather collection (Weather count: " ++ number w.length ++ ascii ")\n")
  (w.zipIdx.foldl (fun acc b => appendStation (b.2 + 1) b.1 acc) resp).done

def weatherGetWith (req : Request) (params : RouteParams) : Handling Weathers HandlingStatus := do
  let value ← param params (ascii "weathernum")
  let weathernum ← castTo env.memory value
  let resp ← createResponse req statusOk
  let resp := initResp resp
  let w ← weathers
  if h : 0 ≠ weathernum.toNat ∧ weathernum.toNat ≤ w.length then
    let b := w.get ⟨weathernum.toNat - 1, by omega⟩
    (resp.setBody (ascii "Weather #" ++ number weathernum.toNat ++ ascii " is: " ++ b.Date ++ ascii " [" ++ b.ID ++
      ascii "]\n")).done
  else (resp.setBody (ascii "No weather with #" ++ number weathernum.toNat ++ ascii "\n")).done

def IDGetWith (req : Request) (params : RouteParams) : Handling Weathers HandlingStatus := do
  let resp ← createResponse req statusOk
  let resp := initResp resp
  let resp ← Eff.catchAll
    (do
      let value ← param params (ascii "ID")
      let ID ← unescape value
      let w ← weathers
      pure (w.zipIdx.foldl (fun acc b => if ID = b.1.ID then appendStation (b.2 + 1) b.1 acc else acc)
        (resp.setBody (ascii "Weathers of " ++ ID ++ ascii ":\n"))))
    (pure (markAsBadRequest resp))
  resp.done

def weatherUpdateWith (req : Request) (params : RouteParams) : Handling Weathers HandlingStatus := do
  let value ← param params (ascii "weathernum")
  let weathernum ← castTo env.memory value
  let resp ← createResponse req statusOk
  let resp := initResp resp
  let resp ← Eff.catchAll
    (do
      let b ← fromJson env req.body
      let w ← weathers
      if 0 ≠ weathernum.toNat ∧ weathernum.toNat ≤ w.length then do
        setWeathers (w.set (weathernum.toNat - 1) b)
        pure resp
      else pure ((markAsBadRequest resp).setBody
        (ascii "No weather with #" ++ number weathernum.toNat ++ ascii "\n")))
    (pure (markAsBadRequest resp))
  resp.done

def weatherDeleteWith (req : Request) (params : RouteParams) : Handling Weathers HandlingStatus := do
  let value ← param params (ascii "weathernum")
  let weathernum ← castTo env.memory value
  let resp ← createResponse req statusOk
  let resp := initResp resp
  let w ← weathers
  if h : 0 ≠ weathernum.toNat ∧ weathernum.toNat ≤ w.length then do
    let b := w.get ⟨weathernum.toNat - 1, by omega⟩
    let resp := resp.setBody (ascii "Delete weather #" ++ number weathernum.toNat ++ ascii ": " ++ b.Date ++
      ascii "[" ++ b.ID ++ ascii "]\n")
    setWeathers (w.eraseIdx (weathernum.toNat - 1))
    resp.done
  else (resp.setBody (ascii "No weather with #" ++ number weathernum.toNat ++ ascii "\n")).done

end Shared

def onWeathersList (req : Request) : Handling Weathers HandlingStatus :=
  weathersListWith (initResp env) req

def onWeatherGet (req : Request) (params : RouteParams) : Handling Weathers HandlingStatus :=
  weatherGetWith env (initResp env) req params

def onWeathersGetThreelist (req : Request) : Handling Weathers HandlingStatus := do
  let resp ← createResponse req statusOk
  let w ← weathers
  (w.zipIdx.foldl (fun acc b =>
    if (w.length + 2 ^ 64 - 3) % 2 ^ 64 ≤ b.2 then appendStation (b.2 + 1) b.1 acc else acc)
    (initResp env resp)).done

def onWeatherGetDate (req : Request) (params : RouteParams) : Handling Weathers HandlingStatus := do
  let value ← param params (ascii "Date")
  let Date ← unescape value
  let resp ← createResponse req statusOk
  let w ← weathers
  let resp := (initResp env resp).setBody (ascii "Weathers of " ++ Date ++ ascii ":\n")
  let (resp, counter) := w.zipIdx.foldl (fun (acc : ResponseBuilder × Int32) b =>
    if Date = b.1.Date then (appendStation (b.2 + 1) b.1 acc.1, acc.2 + 1) else acc) (resp, 0)
  if counter = 0 then (resp.setBody (ascii "No weather with that date " ++ Date ++ ascii "\n")).done
  else resp.done

def onIDGet (req : Request) (params : RouteParams) : Handling Weathers HandlingStatus :=
  IDGetWith (initResp env) req params

def onNewWeather (req : Request) : Handling Weathers HandlingStatus := do
  let resp ← createResponse req statusOk
  let resp := initResp env resp
  let resp ← Eff.catchAll
    (do
      let b ← fromJson env req.body
      let w ← weathers
      setWeathers (w ++ [b])
      pure resp)
    (pure (markAsBadRequest resp))
  resp.done

def onWeatherUpdate (req : Request) (params : RouteParams) : Handling Weathers HandlingStatus :=
  weatherUpdateWith env (initResp env) req params

def onWeatherDelete (req : Request) (params : RouteParams) : Handling Weathers HandlingStatus :=
  weatherDeleteWith env (initResp env) req params

def methodNotAllowed (req : Request) : Handling Weathers HandlingStatus := do
  let resp ← createResponse req statusMethodNotAllowed
  resp.connectionClose.done

def runHandler (req : Request) (params : RouteParams) : Handler → Handling Weathers HandlingStatus
  | .weathersList => onWeathersList env req
  | .weathersGetThreelist => onWeathersGetThreelist env req
  | .weatherGetDate => onWeatherGetDate env req params
  | .newWeather => onNewWeather env req
  | .weatherUpdate => onWeatherUpdate env req params
  | .methodNotAllowed => methodNotAllowed req
  | .IDGet => onIDGet env req params
  | .weatherGet => onWeatherGet env req params
  | .weatherDelete => onWeatherDelete env req params

abbrev Outcome := Except Exception HandlingStatus × Weathers × Exchange

def serve (req : Request) (w : Weathers) : Outcome :=
  match targetPath req.path with
  | .error e => (.error (.escape e), w, .fresh req)
  | .ok path =>
    match dispatch entries req.method path with
    | none => (.ok .notHandled, w, .fresh req)
    | some (handler, params) => (runHandler env req params handler).run (w, .fresh req)

end NgkNet.Lab2
