import NgkNet.Base.Effect
import NgkNet.Restinio.WebSocket.Validator

set_option autoImplicit false

namespace NgkNet.Restinio.WebSocket

open Ascii

structure Message where
  finalFlag : Bool
  opcode : Opcode
  payload : Str
  deriving DecidableEq

inductive StatusCode where
  | normalClosure
  | protocolError
  | connectionLost
  | invalidMessageData
  | unexpectedCondition
  deriving DecidableEq

def StatusCode.number : StatusCode → BitVec 64
  | .normalClosure => 1000
  | .protocolError => 1002
  | .connectionLost => 1006
  | .invalidMessageData => 1007
  | .unexpectedCondition => 1011

def statusCodeToBin (code : StatusCode) : Str := writeNumberToBigEndianBytes 2 code.number

inductive ReadState where
  | readAnyFrame
  | readOnlyCloseFrame
  | readNothing
  deriving DecidableEq

inductive WriteState where
  | writeEnabled
  | writeDisabled
  deriving DecidableEq

inductive Reading where
  | nothing
  | header
  | payload (lengthRemaining : ℕ) (doValidate : Bool)
  deriving DecidableEq

abbrev WriteGroup := List Str

structure Conn where
  -- A one-shot action is `true` as long as it may still run.
  parser : Parser
  payload : Str
  validator : Validator
  reading : Reading
  readState : ReadState
  writeState : WriteState
  outgoingData : List WriteGroup
  currentWg : Option WriteGroup
  nextWritableItemIndex : ℕ
  writeOperationTimeoutAfter : ℕ
  closeFrameFromPeerTimeoutAfter : Option ℕ
  timeoutChecking : Bool
  closeFrameToUser : Bool
  closeFrameToPeer : Bool
  closeImpl : Bool
  socketOpen : Bool
  deriving DecidableEq

structure Clock where
  now : ℕ
  writeHttpResponseTimelimit : ℕ
  readNextHttpMessageTimelimit : ℕ

namespace Conn

variable (k : Clock)

def initial : Conn where
  parser := .initial
  payload := []
  validator := .initial true
  reading := .nothing
  readState := .readNothing
  writeState := .writeEnabled
  outgoingData := []
  currentWg := none
  nextWritableItemIndex := 0
  writeOperationTimeoutAfter := 0
  closeFrameFromPeerTimeoutAfter := none
  timeoutChecking := false
  closeFrameToUser := true
  closeFrameToPeer := true
  closeImpl := true
  socketOpen := true

def close (c : Conn) : Conn :=
  if c.closeImpl then { c with closeImpl := false, socketOpen := false } else c

def startWaitingCloseFrameOnly (c : Conn) : Conn :=
  { c with
    readState := .readOnlyCloseFrame
    closeFrameFromPeerTimeoutAfter := some (k.now + k.readNextHttpMessageTimelimit) }

def initWrite (c : Conn) : List WriteGroup → Conn
  | [] => { c with outgoingData := [], currentWg := none }
  | wg :: queue =>
    if c.nextWritableItemIndex < wg.length then
      { c with
        outgoingData := queue
        currentWg := some wg
        nextWritableItemIndex := wg.length
        writeOperationTimeoutAfter := k.now + k.writeHttpResponseTimelimit }
    else initWrite { c with nextWritableItemIndex := 0 } queue

def initWriteIfNecessary (c : Conn) : Conn := if c.currentWg.isSome then c else c.initWrite k c.outgoingData

def append (wg : WriteGroup) (c : Conn) : Conn := { c with outgoingData := c.outgoingData ++ [wg] }

def sendCloseFrameToPeer (payload : Str) (c : Conn) : Conn :=
  let c := c.append [writeMessageDetails (.make true .connectionCloseFrame payload.length), payload]
  { c.initWriteIfNecessary k with writeState := .writeDisabled }

def gracefulClose (c : Conn) : Conn :=
  if c.closeFrameToPeer then
    ({ c with closeFrameToPeer := false }.sendCloseFrameToPeer k
      (statusCodeToBin .normalClosure)).startWaitingCloseFrameOnly k
  else c

def shutdown (c : Conn) : Conn := { c with closeFrameToUser := false }.gracefulClose k

def writeDataImpl (wg : WriteGroup) (isCloseFrame : Bool) (c : Conn) : Conn :=
  if c.socketOpen then
    let c := if isCloseFrame then
        { c with closeFrameToPeer := false, closeFrameToUser := false,
                 writeState := .writeDisabled }.startWaitingCloseFrameOnly k
      else c
    (c.append wg).initWriteIfNecessary k
  else c

def writeData (wg : WriteGroup) (isCloseFrame : Bool) (c : Conn) : Conn :=
  if c.writeState = .writeEnabled then c.writeDataImpl k wg isCloseFrame else c

def sendMessage (m : Message) (c : Conn) : Conn :=
  c.writeData k [writeMessageDetails (.make m.finalFlag m.opcode m.payload.length), m.payload]
    (m.opcode = .connectionCloseFrame)

def resetParserAndPayload (c : Conn) : Conn := { c with parser := .initial, payload := [] }

def afterWrite (c : Conn) : Conn :=
  { c with nextWritableItemIndex := 0, currentWg := none }.initWriteIfNecessary k

def activated (upgradeResponse : Str) : Conn :=
  { initial.writeData k [upgradeResponse] false with
    timeoutChecking := true
    readState := .readAnyFrame
    reading := .header }

end Conn

inductive Ending where
  | peerClose
  | protocolError
  | invalidPayload
  | connectionLost
  | writeTimeout
  | unexpectedCondition
  deriving DecidableEq

inductive Happening where
  | upgraded (id : ℕ)
  | called (id : ℕ) (opcode : Opcode)
  | ended (id : ℕ) (ending : Ending)
  deriving DecidableEq

structure Entry (σ : Type) where
  what : Happening
  app : σ

structure Loc (σ : Type) where
  conn : Conn
  app : σ
  log : List (Entry σ)

/-- A message handler gives the new state of the application and the messages that it sends through
its handle; `holds` says whether the application keeps the handle of a connection. -/
structure MessageHandler (σ : Type) where
  call : ℕ → Message → σ → σ × List Message
  holds : σ → ℕ → Bool

structure Context (σ : Type) where
  id : ℕ
  clock : Clock
  payloadMaxSize : ℕ
  handler : MessageHandler σ

section Calls

variable {σ : Type} (K : Context σ)

def Loc.update (f : Conn → Conn) (s : Loc σ) : Loc σ := { s with conn := f s.conn }

def Loc.ended (ending : Ending) (s : Loc σ) : Loc σ :=
  { s with log := s.log ++ [⟨.ended K.id ending, s.app⟩] }

/-- The weak handle can be locked as long as the application keeps the handle. When the last one goes
away with the call, the destructor of the websocket shuts the connection down. -/
def callMessageHandler (m : Message) (s : Loc σ) : Loc σ :=
  if K.handler.holds s.app K.id then
    let (app, out) := K.handler.call K.id m s.app
    let conn := out.foldl (fun c m => c.sendMessage K.clock m) s.conn
    { conn := if K.handler.holds app K.id then conn else conn.shutdown K.clock
      app := app
      log := s.log ++ [⟨.called K.id m.opcode, app⟩] }
  else s

def callCloseHandlerIfNecessary (status : StatusCode) (s : Loc σ) : Loc σ :=
  if s.conn.closeFrameToUser then
    callMessageHandler K ⟨true, .connectionCloseFrame, statusCodeToBin status⟩
      (s.update (fun c => { c with closeFrameToUser := false }))
  else s

def triggerErrorAndClose (status : StatusCode) (s : Loc σ) : Loc σ :=
  (callCloseHandlerIfNecessary K status s).update Conn.close

def closeFrameToPeerIfFirst (f : Conn → Conn) (c : Conn) : Conn :=
  if c.closeFrameToPeer then f { c with closeFrameToPeer := false } else c

def handleReadError (s : Loc σ) : Loc σ := triggerErrorAndClose K .connectionLost (s.ended K .connectionLost)

def handleInvalidHeader (s : Loc σ) : Loc σ :=
  let s := s.ended K .protocolError
  match s.conn.readState with
  | .readAnyFrame =>
    callCloseHandlerIfNecessary K .protocolError (s.update (closeFrameToPeerIfFirst
      (fun c => c.sendCloseFrameToPeer K.clock (statusCodeToBin .protocolError))))
  | .readOnlyCloseFrame => s.update Conn.close
  | .readNothing => s

def handleInvalidPayload (result : ValidationState) (s : Loc σ) : Loc σ :=
  let s := s.ended K .invalidPayload
  if result = .invalidCloseCode then
    match s.conn.readState with
    | .readAnyFrame =>
      callCloseHandlerIfNecessary K .protocolError (s.update (closeFrameToPeerIfFirst
        (fun c => c.sendCloseFrameToPeer K.clock (statusCodeToBin .protocolError))))
    | .readOnlyCloseFrame => s.update Conn.close
    | .readNothing => s
  else
    match s.conn.readState with
    | .readAnyFrame =>
      callCloseHandlerIfNecessary K .invalidMessageData (s.update (closeFrameToPeerIfFirst
        (fun c => (c.sendCloseFrameToPeer K.clock
          (statusCodeToBin .invalidMessageData)).startWaitingCloseFrameOnly K.clock)))
    | _ => s

end Calls

inductive Next where
  | readHeader (buf : Str)
  | wait

def Next.rounds : Next → ℕ
  | .readHeader buf => buf.length + 1
  | .wait => 0

section Reads

variable {σ : Type} (K : Context σ)

abbrev Ws (σ α : Type) := Eff WsException (Loc σ) α

def getConn : Ws σ Conn := Eff.read Loc.conn

def update (f : Conn → Conn) : Ws σ Unit := Eff.modify (Loc.update f)

def lift {α : Type} (x : Except WsException α) : Ws σ α :=
  match x with
  | .ok a => pure a
  | .error e => Eff.throw e

def consumeHeaderFromSocket : Ws σ Next := do
  update (fun c => { c with reading := .header })
  pure .wait

def startReadPayload (lengthRemaining : ℕ) (doValidate : Bool) : Ws σ Next := do
  update (fun c => { c with reading := .payload lengthRemaining doValidate })
  pure .wait

def handleCloseFrame (s : Loc σ) : Loc σ :=
  let s := s.ended K .peerClose
  s.update (fun c =>
    let c := closeFrameToPeerIfFirst (fun c => c.sendCloseFrameToPeer K.clock c.payload)
      { c with closeFrameToUser := false }
    { c with readState := .readNothing })

def handleAnyFrame (m : Message) (buf : Str) : Ws σ Next := do
  Eff.modify (fun s => callMessageHandler K m (if m.opcode = .connectionCloseFrame then handleCloseFrame K s else s))
  let c ← getConn
  if c.readState ≠ .readNothing then pure (.readHeader buf) else pure .wait

def handleExpectedFrame (opcode : Opcode) (buf : Str) : Ws σ Next :=
  if opcode = .connectionCloseFrame then do
    update (fun c => { c with timeoutChecking := false }.close)
    pure .wait
  else pure (.readHeader buf)

def callHandlerOnCurrentMessage (buf : Str) : Ws σ Next := do
  let c ← getConn
  update (fun c => { c with validator := c.validator.finishFrame.2 })
  if c.validator.finishFrame.1 = .frameIsValid then
    if c.readState = .readAnyFrame then
      handleAnyFrame K ⟨c.parser.currentMsg.finalFlag, c.parser.currentMsg.opcode, c.payload⟩ buf
    else handleExpectedFrame c.parser.currentMsg.opcode buf
  else do
    Eff.modify (handleInvalidPayload K c.validator.finishFrame.1)
    pure .wait

def validatePayloadPart (part : Str) (nextLengthRemaining : ℕ) (buf : Str) : Ws σ (Option Next) := do
  let c ← getConn
  let r ← lift (c.validator.processAndUnmaskNextPayloadPart part)
  update (fun c => { c with payload := c.payload ++ r.2.1, validator := r.2.2 })
  if r.1 = .payloadPartIsValid then pure none
  else do
    Eff.modify (handleInvalidPayload K r.1)
    if r.1 = .incorrectUtf8Data then do
      update (fun c => { c with validator := c.validator.reset })
      if nextLengthRemaining = 0 then pure (some (.readHeader buf))
      else do
        let next ← startReadPayload nextLengthRemaining false
        pure (some next)
    else pure (some .wait)

def handlePayload (part : Str) (lengthRemaining : ℕ) (buf : Str) : Ws σ Next := do
  let invalid ← validatePayloadPart K part lengthRemaining buf
  match invalid with
  | some next => pure next
  | none =>
    if lengthRemaining = 0 then callHandlerOnCurrentMessage K buf
    else startReadPayload lengthRemaining true

def handleParsedAndValidHeader (md : MessageDetails) (buf : Str) : Ws σ Next :=
  if K.payloadMaxSize < md.payloadLen then Eff.throw .lengthError
  else if md.payloadLen = 0 then callHandlerOnCurrentMessage K buf
  else handlePayload K (buf.take md.payloadLen) (md.payloadLen - (buf.take md.payloadLen).length)
    (buf.drop md.payloadLen)

def handleParsedHeader (md : MessageDetails) (buf : Str) : Ws σ Next := do
  let c ← getConn
  let r ← lift (c.validator.processNewFrame md)
  update (fun c => { c with validator := r.2 })
  if r.1 = .frameHeaderIsValid then handleParsedAndValidHeader K md buf
  else do
    Eff.modify (handleInvalidHeader K)
    pure .wait

def consumeHeaderFromBuffer (data : Str) : Ws σ Next := do
  let c ← getConn
  let r ← lift (c.parser.parserExecute data)
  update (fun c => { c with parser := r.1 })
  if r.1.headerParsed then handleParsedHeader K r.1.currentMsg r.2
  else consumeHeaderFromSocket

def startReadHeader (buf : Str) : Ws σ Next := do
  update Conn.resetParserAndPayload
  if buf.length = 0 then consumeHeaderFromSocket else consumeHeaderFromBuffer K buf

def readOn : ℕ → Next → Ws σ Unit
  | _, .wait => pure ()
  | 0, .readHeader _ => pure ()
  | fuel + 1, .readHeader buf => do
    let next ← startReadHeader K buf
    readOn fuel next

def readAll (next : Next) : Ws σ Unit := readOn K next.rounds next

def headerMaxSize : ℕ := 14

def afterReadHeader : Option Str → Ws σ Unit
  | none => Eff.modify (handleReadError K)
  | some data => do
    let next ← consumeHeaderFromBuffer K (data.take headerMaxSize)
    readAll K next

def skipPayload (lengthRemaining : ℕ) : Ws σ Next :=
  if lengthRemaining = 0 then pure (.readHeader []) else startReadPayload lengthRemaining false

def takePayload (part : Str) (lengthRemaining : ℕ) (doValidate : Bool) : Ws σ Next :=
  if doValidate then handlePayload K part lengthRemaining [] else skipPayload lengthRemaining

def afterReadPayload (lengthRemaining : ℕ) (doValidate : Bool) : Option Str → Ws σ Unit
  | none => Eff.modify (handleReadError K)
  | some data => do
    let part := data.take lengthRemaining
    let next ← takePayload K part (lengthRemaining - part.length) doValidate
    readAll K next

def guarded (x : Ws σ Unit) : Ws σ Unit :=
  Eff.catchAll x (Eff.modify (fun s =>
    triggerErrorAndClose K .unexpectedCondition (s.ended K .unexpectedCondition)))

def readDone (result : Option Str) (s : Loc σ) : Loc σ :=
  match s.conn.reading with
  | .nothing => s
  | .header =>
    ((guarded K (afterReadHeader K result)).run (s.update (fun c => { c with reading := .nothing }))).2
  | .payload lengthRemaining doValidate =>
    ((guarded K (afterReadPayload K lengthRemaining doValidate result)).run
      (s.update (fun c => { c with reading := .nothing }))).2

def writeDone (ok : Bool) (s : Loc σ) : Loc σ :=
  match s.conn.currentWg with
  | none => s
  | some _ =>
    if ok then s.update (Conn.afterWrite K.clock)
    else (triggerErrorAndClose K .connectionLost (s.ended K .connectionLost)).update
      (fun c => { c with currentWg := none })

def checkTimeout (s : Loc σ) : Loc σ :=
  if s.conn.timeoutChecking then
    if s.conn.currentWg.isSome && s.conn.writeOperationTimeoutAfter < K.clock.now then
      let s := s.ended K .writeTimeout
      let s := s.update (fun c => { c with timeoutChecking := false, closeFrameToPeer := false })
      (callCloseHandlerIfNecessary K .unexpectedCondition s).update Conn.close
    else if s.conn.closeFrameFromPeerTimeoutAfter.any (· < K.clock.now) then
      s.update (fun c => { c with timeoutChecking := false }.close)
    else s
  else s

end Reads

end NgkNet.Restinio.WebSocket
