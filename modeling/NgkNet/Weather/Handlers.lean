import NgkNet.Restinio.Request
import NgkNet.Weather.Routes

set_option autoImplicit false

namespace NgkNet.Weather

open Ascii Restinio

structure Station where
  ID : Str
  Date : Str
  Time : Str
  Name : Str
  Lat : Str
  Lon : Str
  Temperature : Str
  Humidity : Str
  deriving DecidableEq

structure JsonDto where
  fromJson : Str → Option Station
  toJson : Station → Str
  listToJson : List Station → Str

/-- What the handlers take from outside: the JSON library, the memory in front of the digits table
and the current date. -/
structure Env where
  json : JsonDto
  memory : UInt8 → UInt8
  date : Str

structure Store where
  weather : List Station
  registry : List ℕ
  deriving DecidableEq

variable {σ : Type} (env : Env)

def cast (s : Str) : Except CastError UInt32 := castToUInt32 env.memory s

def initResp (resp : ResponseBuilder) : ResponseBuilder :=
  resp.appendHeader (ascii "Server") (ascii "RESTinio sample server /v.0.6")
    |>.appendHeader (ascii "Date") env.date
    |>.appendHeader (ascii "Content-Type") (ascii "text/plain; charset=utf-8")
    |>.appendHeader (ascii "Access-Control-Allow-Origin") (ascii "*")

def markAsBadRequest (resp : ResponseBuilder) : ResponseBuilder := resp.setStatusLine statusBadRequest

def weather : Handling Store (List Station) := Eff.read (fun s => s.1.weather)

def setWeather (w : List Station) : Handling Store Unit :=
  Eff.modify (fun s => ({ s.1 with weather := w }, s.2))

def emplace (id : ℕ) : Handling Store Unit :=
  Eff.modify (fun s => (if id ∈ s.1.registry then s.1 else { s.1 with registry := id :: s.1.registry }, s.2))

def erase (id : ℕ) (registry : List ℕ) : List ℕ := registry.filter (fun i => i ≠ id)

def fromJson (body : Str) : Handling σ Station :=
  match env.json.fromJson body with
  | some b => pure b
  | none => Eff.throw .json

def onWeatherList (req : Request) : Handling Store HandlingStatus := do
  let resp ← createResponse req statusOk
  let w ← weather
  ((initResp env resp).setBody (env.json.listToJson w)).done

def onDateGet (req : Request) (params : RouteParams) : Handling Store HandlingStatus := do
  let value ← param params (ascii "Date")
  let Date ← unescape value
  let resp ← createResponse req statusOk
  let w ← weather
  let (resp, answer) := w.foldl (fun acc b =>
    if Date = b.Date then (acc.1.appendBody (env.json.toJson b), true) else acc) (initResp env resp, false)
  if answer then resp.done
  else (resp.setBody (ascii "No weather with that date " ++ Date ++ ascii "\n")).done

def onWeatherLatest (req : Request) : Handling Store HandlingStatus := do
  let resp ← createResponse req statusOk
  let w ← weather
  let resp := w.zipIdx.foldl (fun acc b =>
    if (w.length + 2 ^ 64 - 3) % 2 ^ 64 ≤ b.2 then acc.appendBody (env.json.toJson b.1) else acc)
    ((initResp env resp).setBody (ascii "3 latest entries:\n"))
  resp.done

def onPostData (req : Request) : Handling Store HandlingStatus := do
  let resp ← createResponse req statusOk
  let resp := initResp env resp
  let resp ← Eff.catchAll
    (do
      let b ← fromJson env req.body
      let w ← weather
      setWeather (w ++ [b])
      pure resp)
    (pure (markAsBadRequest resp))
  resp.done

/-- The conversion of the parameter and that of the stations' IDs, which may keep a record beside the store. -/
structure Scan (σ : Type) where
  cast : Str → Except CastError UInt32
  onStore : {α : Type} → Handling Store α → Handling σ α
  castId : Str → Handling σ UInt32

def Scan.plain (cast : Str → Except CastError UInt32) : Scan Store := ⟨cast, id, castBy cast⟩

@[simp]
theorem Scan.plain_cast (cast : Str → Except CastError UInt32) : (plain cast).cast = cast := rfl

@[simp]
theorem Scan.plain_onStore {α : Type} (cast : Str → Except CastError UInt32) (x : Handling Store α) :
    (plain cast).onStore x = x := rfl

@[simp]
theorem Scan.plain_castId (cast : Str → Except CastError UInt32) : (plain cast).castId = castBy cast := rfl

section Scans

variable (scan : Scan σ)

def updateLoopWith (ID : UInt32) (b : Station) : ℕ → ℕ → Bool → Handling σ Bool
  | 0, _, answer => pure answer
  | fuel + 1, i, answer => do
    let w ← scan.onStore weather
    match w[i]? with
    | none => pure answer
    | some c => do
      let n ← scan.castId c.ID
      if ID = n then do
        scan.onStore (setWeather (w.set i b))
        updateLoopWith ID b fuel (i + 1) true
      else updateLoopWith ID b fuel (i + 1) answer

def onWeatherUpdateWith (req : Request) (params : RouteParams) : Handling σ HandlingStatus := do
  let value ← param params (ascii "ID")
  let ID ← castBy scan.cast value
  let resp ← createResponse req statusOk
  let resp := initResp env resp
  let resp ← Eff.catchAll
    (do
      let b ← fromJson env req.body
      let w ← scan.onStore weather
      let answer ← updateLoopWith scan ID b (w.length + 1) 0 false
      if answer then pure resp
      else pure ((markAsBadRequest resp).setBody
        (ascii "No weather with #" ++ ascii (toString ID.toNat) ++ ascii "\n")))
    (pure (markAsBadRequest resp))
  resp.done

def deleteLoopWith (ID : UInt32) : ℕ → ℕ → Handling σ Unit
  | 0, _ => pure ()
  | fuel + 1, i => do
    let w ← scan.onStore weather
    match w[i]? with
    | none => pure ()
    | some c => do
      let n ← scan.castId c.ID
      if ID = n then do
        scan.onStore (setWeather (w.eraseIdx i))
        deleteLoopWith ID fuel (i + 1)
      else deleteLoopWith ID fuel (i + 1)

def onWeatherDeleteWith (req : Request) (params : RouteParams) : Handling σ HandlingStatus := do
  let resp ← createResponse req statusOk
  let resp := initResp env resp
  let value ← param params (ascii "ID")
  let ID ← castBy scan.cast value
  let resp ← Eff.catchAll
    (do
      let w ← scan.onStore weather
      deleteLoopWith scan ID (w.length + 1) 0
      pure resp)
    (pure (markAsBadRequest resp))
  resp.done

end Scans

def onWeatherUpdate : Request → RouteParams → Handling Store HandlingStatus := onWeatherUpdateWith env (.plain (cast env))

def onWeatherDelete : Request → RouteParams → Handling Store HandlingStatus := onWeatherDeleteWith env (.plain (cast env))

def onLiveUpdate (req : Request) : Handling Store HandlingStatus :=
  if req.connectionUpgrade then do
    let id ← upgrade req
    emplace id
    let resp ← createResponse req statusOk
    let _ ← (initResp env resp).done
    pure .accepted
  else pure .rejected

def options (req : Request) : Handling Store HandlingStatus := do
  let resp ← createResponse req statusOk
  (initResp env resp
    |>.appendHeader (ascii "Access-Control-Allow-Methods") (ascii "OPTIONS, GET, POST, PATCH, DELETE, PUT")
    |>.appendHeader (ascii "Access-Control-Allow-Headers") (ascii "content-type")
    |>.appendHeader (ascii "Access-Control-Max-Age") (ascii "86400")).done

def methodNotAllowed (req : Request) : Handling Store HandlingStatus := do
  let resp ← createResponse req statusMethodNotAllowed
  resp.connectionClose.done

def runHandler (req : Request) (params : RouteParams) : Handler → Handling Store HandlingStatus
  | .weatherList => onWeatherList env req
  | .postData => onPostData env req
  | .options => options env req
  | .weatherLatest => onWeatherLatest env req
  | .liveUpdate => onLiveUpdate env req
  | .methodNotAllowed => methodNotAllowed req
  | .dateGet => onDateGet env req params
  | .weatherUpdate => onWeatherUpdate env req params
  | .weatherDelete => onWeatherDelete env req params

def runHandlerWith (scan : Scan σ) (req : Request) (params : RouteParams) : Handler → Handling σ HandlingStatus
  | .weatherUpdate => onWeatherUpdateWith env scan req params
  | .weatherDelete => onWeatherDeleteWith env scan req params
  | handler => scan.onStore (runHandler env req params handler)

theorem runHandlerWith_plain (req : Request) (params : RouteParams) (handler : Handler) :
    runHandlerWith env (.plain (cast env)) req params handler = runHandler env req params handler := by
  cases handler <;> rfl

end NgkNet.Weather
