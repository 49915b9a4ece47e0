import NgkNet.Lab2.Handlers
import NgkNet.Restinio.WebSocket.Connection
import NgkNet.Voresmain.Routes

set_option autoImplicit false

namespace NgkNet.Voresmain

open Ascii Restinio Weather WebSocket PercentEncoding

structure Ws where
  wsConnectionHandle : Bool
  deriving DecidableEq

abbrev Registry := List (ℕ × Ws)

namespace Registry

def find (id : ℕ) (r : Registry) : Option Ws := (r.find? (fun e => e.1 = id)).map Prod.snd

def emplace (id : ℕ) (ws : Ws) : Registry → Registry
  | [] => [(id, ws)]
  | e :: r => if id < e.1 then (id, ws) :: e :: r else if id = e.1 then e :: r else e :: emplace id ws r

def erase (id : ℕ) (r : Registry) : Registry := r.filter (fun e => e.1 ≠ id)

def release (id : ℕ) (r : Registry) : Registry := r.map (fun e => if e.1 = id then (e.1, ⟨false⟩) else e)

end Registry

structure Store where
  weathers : Lab2.Weathers
  registry : Registry

structure Hub where
  store : Store
  conns : ℕ → Option Conn

/-- The surroundings, with what a read outside of the collection gives. -/
structure Host extends Env where
  outside : Lab2.Weathers → ℕ → Station

def Store.connectionId (id : ℕ) (s : Store) : ℕ :=
  match s.registry.find id with
  | some ws => if ws.wsConnectionHandle then id else 0
  | none => id

def Store.send (id : ℕ) (m : Message) (s : Store) : Except Exception Store :=
  match s.registry.find id with
  | some ws =>
    if ws.wsConnectionHandle then
      if m.opcode = .connectionCloseFrame then .ok { s with registry := s.registry.release id } else .ok s
    else .error .websocketIsNotAvailable
  | none => .error .websocketIsNotAvailable

def Store.reply (id : ℕ) (m : Message) (s : Store) : Store × List Message :=
  -- The connection catches what the message handler throws.
  match s.send id m with
  | .ok s => (s, [m])
  | .error _ => (s, [])

def liveUpdateCall (id : ℕ) (m : Message) (s : Store) : Store × List Message :=
  if m.opcode = .textFrame ∨ m.opcode = .binaryFrame ∨ m.opcode = .continuationFrame then s.reply id m
  else if m.opcode = .pingFrame then s.reply id { m with opcode := .pongFrame }
  else if m.opcode = .connectionCloseFrame then
    ({ s with registry := s.registry.erase (s.connectionId id) }, [])
  else (s, [])

section Handlers

variable (host : Host) (k : Clock)

def onWeathers {α : Type} (x : Handling Lab2.Weathers α) : Handling Hub α :=
  ⟨fun s =>
    match x.run (s.1.store.weathers, s.2) with
    | (r, w, exchange) => (r, { s.1 with store.weathers := w }, exchange)⟩

def emplace (id : ℕ) : Handling Hub Unit :=
  Eff.modify (fun s => ({ s.1 with store.registry := s.1.store.registry.emplace id ⟨true⟩ }, s.2))

def wsSendMessage (m : Message) (id : ℕ) : Handling Hub Unit :=
  ⟨fun s =>
    match s.1.store.send id m with
    | .ok store =>
      (.ok (), ⟨store, Function.update s.1.conns id ((s.1.conns id).map (Conn.sendMessage k m))⟩, s.2)
    | .error e => (.error e, s)⟩

def sendLoop (m : Message) : Registry → Handling Hub Unit
  | [] => pure ()
  | e :: r => do
    wsSendMessage k m e.1
    sendLoop m r

def sendMessage (message : Str) : Handling Hub Unit := do
  let registry ← Eff.read (fun s => s.1.store.registry)
  sendLoop k ⟨true, .textFrame, message⟩ registry

def onWeathersList (req : Request) : Handling Hub HandlingStatus :=
  onWeathers (Lab2.weathersListWith (initResp host.toEnv) req)

def onLiveUpdate (req : Request) : Handling Hub HandlingStatus :=
  if req.connectionUpgrade then do
    let id ← upgrade req
    emplace id
    let resp ← createResponse req statusOk
    let _ ← (initResp host.toEnv resp).done
    pure .accepted
  else pure .rejected

def onWeatherGet (req : Request) (params : RouteParams) : Handling Hub HandlingStatus :=
  onWeathers (Lab2.weatherGetWith host.toEnv (initResp host.toEnv) req params)

@[irreducible] def tempSize (size i : ℕ) : Int16 := Int16.ofNat ((size + 2 ^ 64 - i) % 2 ^ 64)

def threelistLoop (w : Lab2.Weathers) : ℕ → ℕ → ResponseBuilder → ResponseBuilder
  -- The first read is behind the last station.
  | 0, _, resp => resp
  | j + 1, i, resp =>
    if 0 ≤ tempSize w.length i then
      let n := (tempSize w.length i).toNatClampNeg
      threelistLoop w j (i + 1) (Lab2.appendStation n (w[n]?.getD (host.outside w n)) resp)
    else threelistLoop w j i resp

def onWeathersGetThreelist (req : Request) : Handling Hub HandlingStatus := do
  let resp ← createResponse req statusOk
  let resp := initResp host.toEnv resp
  let w ← onWeathers Lab2.weathers
  let resp := threelistLoop host w 3 0 resp
  resp.done

def onIDGet (req : Request) (params : RouteParams) : Handling Hub HandlingStatus :=
  onWeathers (Lab2.IDGetWith (initResp host.toEnv) req params)

def onNewWeather (req : Request) : Handling Hub HandlingStatus := do
  let resp ← createResponse req statusOk
  let resp := initResp host.toEnv resp
  let resp ← Eff.catchAll
    (do
      let b ← onWeathers (Lab2.fromJson host.toEnv req.body)
      let w ← onWeathers Lab2.weathers
      onWeathers (Lab2.setWeathers (w ++ [b]))
      let b ← onWeathers (Lab2.fromJson host.toEnv req.body)
      sendMessage k (ascii "POST: id =" ++ b.ID)
      pure resp)
    (pure (markAsBadRequest resp))
  resp.done

def onWeatherUpdate (req : Request) (params : RouteParams) : Handling Hub HandlingStatus :=
  onWeathers (Lab2.weatherUpdateWith host.toEnv (initResp host.toEnv) req params)

def onWeatherDelete (req : Request) (params : RouteParams) : Handling Hub HandlingStatus :=
  onWeathers (Lab2.weatherDeleteWith host.toEnv (initResp host.toEnv) req params)

def options (req : Request) : Handling Hub HandlingStatus := do
  let resp ← createResponse req statusOk
  (initResp host.toEnv resp
    |>.appendHeader (ascii "Access-Control-Allow-Methods") (ascii "OPTIONS, GET, POST, PATCH, DELETE, PUT")
    |>.appendHeader (ascii "Access-Control-Allow-Headers") (ascii "contrent-type")
    |>.appendHeader (ascii "Access-Control-Max-Age") (ascii "86400")).done

def methodNotAllowed (req : Request) : Handling Hub HandlingStatus := do
  let resp ← createResponse req statusMethodNotAllowed
  resp.connectionClose.done

def runHandler (req : Request) (params : RouteParams) : Handler → Handling Hub HandlingStatus
  | .weathersList => onWeathersList host req
  | .weathersGetThreelist => onWeathersGetThreelist host req
  | .options => options host req
  | .newWeather => onNewWeather host k req
  | .weatherUpdate => onWeatherUpdate host req params
  | .liveUpdate => onLiveUpdate host req
  | .methodNotAllowed => methodNotAllowed req
  | .IDGet => onIDGet host req params
  | .weatherGet => onWeatherGet host req params
  | .weatherDelete => onWeatherDelete host req params

def serve (req : Request) (hub : Hub) : Except Exception HandlingStatus × Hub × Exchange :=
  match targetPath req.path with
  | .error e => (.error (.escape e), hub, .fresh req)
  | .ok path =>
    match dispatch entries req.method path with
    | none => (.ok .notHandled, hub, .fresh req)
    | some (handler, params) => (runHandler host k req params handler).run (hub, .fresh req)

end Handlers

end NgkNet.Voresmain
