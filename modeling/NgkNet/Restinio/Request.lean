import NgkNet.Base.Effect
import NgkNet.Restinio.Express
import NgkNet.Restinio.FromString
import NgkNet.Restinio.PercentEncoding

set_option autoImplicit false

namespace NgkNet.Restinio

open Ascii PercentEncoding

inductive Exception where
  | connectionAlreadyMoved
  | noConnectionForUpgrade
  | doneCalledTwice
  | websocketIsNotAvailable
  | invalidParameterName (key : Str)
  | fieldNotFound (field : Str)
  | cast (e : CastError)
  | escape (e : EscapeError)
  | json
  deriving DecidableEq

inductive HandlingStatus where
  | accepted
  | rejected
  | notHandled
  deriving DecidableEq

structure StatusLine where
  code : ℕ
  reason : Str
  deriving DecidableEq

def statusOk : StatusLine := ⟨200, ascii "OK"⟩

def statusBadRequest : StatusLine := ⟨400, ascii "Bad Request"⟩

def statusMethodNotAllowed : StatusLine := ⟨405, ascii "Method Not Allowed"⟩

structure Request where
  method : Method
  path : Str
  body : Str
  connectionUpgrade : Bool
  secWebsocketKey : Option Str
  keepAlive : Bool
  connectionId : ℕ

structure Response where
  status : StatusLine
  fields : List (Str × Str)
  keepAlive : Bool
  body : Str
  deriving DecidableEq

structure ResponseBuilder where
  response : Response
  connection : Option ℕ

namespace ResponseBuilder

def appendHeader (name value : Str) (b : ResponseBuilder) : ResponseBuilder :=
  { b with response.fields := b.response.fields ++ [(name, value)] }

def setStatusLine (status : StatusLine) (b : ResponseBuilder) : ResponseBuilder :=
  { b with response.status := status }

def connectionClose (b : ResponseBuilder) : ResponseBuilder := { b with response.keepAlive := false }

def setBody (body : Str) (b : ResponseBuilder) : ResponseBuilder := { b with response.body := body }

def appendBody (part : Str) (b : ResponseBuilder) : ResponseBuilder :=
  { b with response.body := b.response.body ++ part }

end ResponseBuilder

/-- The connection that a request still holds, how often a handler has reached for it, the responses
written so far and the connections turned into websockets. -/
structure Exchange where
  connection : Option ℕ
  moves : ℕ
  responses : List Response
  upgraded : List ℕ

def Exchange.fresh (req : Request) : Exchange := ⟨some req.connectionId, 0, [], []⟩

variable {σ : Type}

abbrev Handling (σ α : Type) := Eff Exception (σ × Exchange) α

def createResponse (req : Request) (status : StatusLine) : Handling σ ResponseBuilder :=
  ⟨fun s =>
    match s.2.connection with
    | none => (.error .connectionAlreadyMoved, s.1, { s.2 with moves := s.2.moves + 1 })
    | some id =>
      (.ok ⟨⟨status, [], req.keepAlive, []⟩, some id⟩, s.1,
        { s.2 with connection := none, moves := s.2.moves + 1 })⟩

def ResponseBuilder.done (b : ResponseBuilder) : Handling σ HandlingStatus :=
  ⟨fun s =>
    match b.connection with
    | none => (.error .doneCalledTwice, s)
    | some _ => (.ok .accepted, s.1, { s.2 with responses := s.2.responses ++ [b.response] })⟩

def upgrade (req : Request) : Handling σ ℕ :=
  -- The websocket is active when `upgrade` returns; its handle carries the connection's id.
  ⟨fun s =>
    match req.secWebsocketKey with
    | none => (.error (.fieldNotFound (ascii "Sec-WebSocket-Key")), s)
    | some _ =>
      match s.2.connection with
      | none => (.error .noConnectionForUpgrade, s.1, { s.2 with moves := s.2.moves + 1 })
      | some id =>
        (.ok id, s.1,
          { s.2 with connection := none, moves := s.2.moves + 1, upgraded := s.2.upgraded ++ [id] })⟩

def param (params : RouteParams) (key : Str) : Handling σ Str :=
  match params.get key with
  | some value => pure value
  | none => Eff.throw (.invalidParameterName key)

def castBy (cast : Str → Except CastError UInt32) (s : Str) : Handling σ UInt32 :=
  match cast s with
  | .ok n => pure n
  | .error e => Eff.throw (.cast e)

def castTo (memory : UInt8 → UInt8) (s : Str) : Handling σ UInt32 := castBy (castToUInt32 memory) s

def unescape (s : Str) : Handling σ Str :=
  match unescapePercentEncoding s with
  | .ok r => pure r
  | .error e => Eff.throw (.escape e)

section Keeps

open Eff

variable {Q : σ → Prop} {P : σ × Exchange → Prop} {ids : List ℕ}

theorem createResponse_frame (req : Request) (status : StatusLine) (s : σ × Exchange) :
    ((createResponse req status).run s).2.1 = s.1 ∧
      ((createResponse req status).run s).2.2.upgraded = s.2.upgraded := by
  obtain ⟨s, ⟨c, moves, responses, upgraded⟩⟩ := s
  cases c <;> exact ⟨rfl, rfl⟩

theorem done_frame (b : ResponseBuilder) (s : σ × Exchange) :
    ((b.done : Handling σ HandlingStatus).run s).2.1 = s.1 ∧
      ((b.done : Handling σ HandlingStatus).run s).2.2.upgraded = s.2.upgraded := by
  rw [ResponseBuilder.done]
  cases b.connection <;> exact ⟨rfl, rfl⟩

theorem keeps_createResponse (req : Request) (status : StatusLine) :
    Keeps (fun s => Q s.1) (createResponse req status : Handling σ ResponseBuilder) := by
  refine keeps_of_run fun s hs => ?_
  rw [(createResponse_frame req status s).1]
  exact hs

theorem keeps_done (b : ResponseBuilder) : Keeps (fun s => Q s.1) (b.done : Handling σ HandlingStatus) := by
  refine keeps_of_run fun s hs => ?_
  rw [(done_frame b s).1]
  exact hs

theorem createResponse_upgraded (req : Request) (status : StatusLine) :
    Keeps (fun s => s.2.upgraded = ids) (createResponse req status : Handling σ ResponseBuilder) :=
  keeps_of_run fun s hs => (createResponse_frame req status s).2.trans hs

theorem done_upgraded (b : ResponseBuilder) :
    Keeps (fun s => s.2.upgraded = ids) (b.done : Handling σ HandlingStatus) :=
  keeps_of_run fun s hs => (done_frame b s).2.trans hs

theorem keeps_param (params : RouteParams) (key : Str) : Keeps P (param params key : Handling σ Str) := by
  rw [param]
  cases params.get key
  · exact keeps_throw
  · exact keeps_pure

theorem keeps_castTo (memory : UInt8 → UInt8) (s : Str) : Keeps P (castTo memory s : Handling σ UInt32) := by
  rw [castTo, castBy]
  cases castToUInt32 memory s
  · exact keeps_throw
  · exact keeps_pure

theorem keeps_unescape (s : Str) : Keeps P (unescape s : Handling σ Str) := by
  rw [unescape]
  cases unescapePercentEncoding s
  · exact keeps_throw
  · exact keeps_pure

end Keeps

end NgkNet.Restinio
