import NgkNet.Base.Procedures
import NgkNet.Restinio.Http.Coordinator
import NgkNet.Restinio.Request

set_option autoImplicit false

namespace NgkNet.Restinio.Http

open Ascii Prog

section Output

def maxIovLen : ℕ := 64

inductive WriteOperation where
  | none
  | trivial (bufs : List Str)
  | file (content : Str) (timelimit : ℕ)
  deriving DecidableEq

def WriteOperation.bytes : WriteOperation → Str
  | none => []
  | trivial bufs => bufs.flatten
  | file content _ => content

structure OutputCtx where
  currentWg : Option WriteGroup
  nextWritableItemIndex : ℕ
  deriving DecidableEq

namespace OutputCtx

def initial : OutputCtx := ⟨none, 0⟩

variable (o : OutputCtx)

def transmitting : Bool := o.currentWg.isSome

def startNextWriteGroup (wg : WriteGroup) : OutputCtx := { o with currentWg := some wg }

def prepareTrivialBuffersWo : ℕ → List WritableItem → List Str
  | room + 1, .trivialWriteOperation buf :: items => buf :: prepareTrivialBuffersWo room items
  | _, _ => []

def extractNextWriteOperation : WriteOperation × OutputCtx :=
  let items := (o.currentWg.map WriteGroup.items).getD []
  match items[o.nextWritableItemIndex]? with
  | none => (.none, o)
  | some (.trivialWriteOperation _) =>
    let bufs := prepareTrivialBuffersWo maxIovLen (items.drop o.nextWritableItemIndex)
    (.trivial bufs, { o with nextWritableItemIndex := o.nextWritableItemIndex + bufs.length })
  | some (.fileWriteOperation content timelimit) =>
    (.file content timelimit, { o with nextWritableItemIndex := o.nextWritableItemIndex + 1 })

def resetWriteGroup (_ : OutputCtx) : OutputCtx := .initial

def failWriteGroup : OutputCtx := { o with currentWg := none }

def takeNotificator : OutputCtx := { o with currentWg := o.currentWg.map WriteGroup.takeNotificator }

end OutputCtx

end Output

inductive ErrorCode where
  | success
  | operationAborted
  | systemError
  | writeWasNotExecuted
  | writeGroupDestroyedPassively
  deriving DecidableEq

inductive ConnectionException where
  | coordinator (e : CoordinatorError)
  | afterWriteCallbackFailed
  | application
  deriving DecidableEq

/-- Code of the application: it has a state of its own, may hand over parts of responses through the
requests that it holds, and may turn the connection into a websocket. -/
inductive UserCode (τ α : Type) where
  | pure (a : α)
  | throw
  | update (g : τ → τ) (k : τ → UserCode τ α)
  | writeResponseParts (id : RequestId) (flags : ResponseOutputFlags) (wg : WriteGroup) (k : UserCode τ α)
  | moveUpgradeInternals (k : UserCode τ α)

structure Application (ρ τ : Type) where
  handler : RequestId → ρ → UserCode τ HandlingStatus
  notificator : Notificator → ErrorCode → UserCode τ Unit

/-- The parser of requests with its callbacks. `execute` gives the number of bytes taken and whether there
was no error; `moved` is what is left when the request has been handed over, `reset` prepares for the next one. -/
structure HttpParser (π ρ : Type) where
  init : π
  execute : π → Str → ℕ × Bool × π
  messageComplete : π → Bool
  upgrade : π → Bool
  request : π → ρ
  moved : π → π
  reset : π → π
  reset_init : reset init = init

structure Settings where
  bufferSize : ℕ
  maxPipelinedRequests : ℕ
  readNextHttpMessageTimelimit : ℕ
  handleRequestTimeout : ℕ
  writeHttpResponseTimelimit : ℕ

structure Environment (π ρ τ : Type) where
  settings : Settings
  parser : HttpParser π ρ
  application : Application ρ τ

inductive UpgradeStage where
  | none
  | pendingUpgradeHandling
  | waitForUpgradeHandlingResultOrNothing
  deriving DecidableEq

inductive TimeoutCb where
  | handleReadTimeout
  | handleRequestHandlingTimeout
  | handleWriteResponseTimeout
  | handleSendfileTimeout
  deriving DecidableEq

structure Notification where
  notificator : Notificator
  ec : ErrorCode
  socketOpen : Bool
  deriving DecidableEq

/-- The last six fields record what has happened: whether `close` was called, what was written, what the
coordinator did until then, which requests were given to the handler, which notificators came with
parts of responses and which were called. -/
structure Connection (π ρ τ : Type) where
  socketOpen : Bool
  parser : π
  buf : Str
  upgradeStage : UpgradeStage
  readOperationIsRunning : Bool
  output : OutputCtx
  writing : Option Str
  initReadAfterThisWrite : Bool
  coordinator : Coordinator
  currentTimeoutCb : Option TimeoutCb
  currentTimeoutAfter : ℕ
  timerScheduled : Bool
  now : ℕ
  app : τ
  ended : Bool
  wire : Str
  events : List Event
  handled : List ρ
  offered : List Notificator
  notified : List Notification

inductive Fn where
  | waitForHttpMessage
  | consumeData
  | onRequestMessageComplete
  | writeResponseParts (id : RequestId) (flags : ResponseOutputFlags) (wg : WriteGroup)
  | writeResponsePartsImpl (id : RequestId) (flags : ResponseOutputFlags) (wg : WriteGroup)
  | handleCurrentWriteCtx
  | resetCoordinator
  | notificator (n : Notificator) (ec : ErrorCode)

variable {π ρ τ : Type} (K : Environment π ρ τ)

abbrev Code (π ρ τ α : Type) := Prog (Connection π ρ τ) ConnectionException Fn α

namespace Connection

variable (c : Connection π ρ τ)

def initial (app : τ) : Connection π ρ τ where
  socketOpen := true
  parser := K.parser.init
  buf := []
  upgradeStage := .none
  readOperationIsRunning := false
  output := .initial
  writing := none
  initReadAfterThisWrite := false
  coordinator := .initial K.settings.maxPipelinedRequests
  currentTimeoutCb := none
  currentTimeoutAfter := 0
  timerScheduled := false
  now := 0
  app := app
  ended := false
  wire := []
  events := []
  handled := []
  offered := []
  notified := []

def scheduleOperationTimeoutCallback (timeout : ℕ) (cb : TimeoutCb) : Connection π ρ τ :=
  { c with currentTimeoutAfter := c.now + timeout, currentTimeoutCb := some cb }

def guardReadOperation : Connection π ρ τ :=
  if c.coordinator.empty then
    c.scheduleOperationTimeoutCallback K.settings.readNextHttpMessageTimelimit .handleReadTimeout
  else c

def guardRequestHandlingOperation : Connection π ρ τ :=
  if c.output.transmitting then c
  else c.scheduleOperationTimeoutCallback K.settings.handleRequestTimeout .handleRequestHandlingTimeout

def guardWriteOperation : Connection π ρ τ :=
  c.scheduleOperationTimeoutCallback K.settings.writeHttpResponseTimelimit .handleWriteResponseTimeout

def guardSendfileOperation (timelimit : ℕ) : Connection π ρ τ :=
  c.scheduleOperationTimeoutCallback (if timelimit = 0 then K.settings.writeHttpResponseTimelimit else timelimit)
    .handleSendfileTimeout

def cancelTimeoutChecking : Connection π ρ τ := { c with currentTimeoutCb := none, timerScheduled := false }

def resetParser : Connection π ρ τ := { c with parser := K.parser.reset c.parser }

def record (e : Event) : Connection π ρ τ := if c.ended then c else { c with events := c.events ++ [e] }

def notify (n : Notificator) (ec : ErrorCode) : Connection π ρ τ :=
  { c with notified := c.notified ++ [⟨n, ec, c.socketOpen⟩] }

def startWrite (operation : WriteOperation) : Connection π ρ τ :=
  -- Nothing can be written to a socket that is closed or has been moved out.
  { c with writing := some (if c.socketOpen then operation.bytes else []) }

end Connection

namespace UserCode

def run {α : Type} : UserCode τ α → Code π ρ τ α
  | .pure a => .ret a
  | .throw => .throw .application
  | .update g k => .update (fun c => { c with app := g c.app }) (fun c => (k c.app).run)
  | .writeResponseParts id flags wg k => .attempt (.writeResponseParts id flags wg) (fun _ => k.run)
  | .moveUpgradeInternals k => .update (fun c => { c with socketOpen := false }) (fun _ => k.run)

end UserCode

section Notifying

def notificator (n : Notificator) (ec : ErrorCode) : Code π ρ τ Unit := do
  change (fun c => c.notify n ec)
  (K.application.notificator n ec).run

def invokeQuietly (wg : WriteGroup) (ec : ErrorCode) : Code π ρ τ Unit :=
  -- What the notificator throws is logged or dropped.
  match wg.afterWriteNotificator with
  | none => pure ()
  | some n => guarded (.notificator n ec) (fun _ => pure ())

def resetCoordinator : Code π ρ τ Unit := do
  let c ← current
  match c.coordinator.resetStep with
  | none => pure ()
  | some (some wg, k) => do
    change (fun c => { c with coordinator := k })
    invokeQuietly wg .writeWasNotExecuted
    call .resetCoordinator
  | some (none, k) => do
    change (fun c => { c with coordinator := k })
    call .resetCoordinator

def close : Code π ρ τ Unit := do
  change (fun c => { c with socketOpen := false, ended := true })
  change Connection.cancelTimeoutChecking
  call .resetCoordinator

end Notifying

section Reading

def consumeMessage : Code π ρ τ Unit := change (fun c => { c with readOperationIsRunning := true })

def callHandler (id : RequestId) : Code π ρ τ HandlingStatus := do
  -- A request is handed to its handler once; the parser is left without it.
  let c ← current
  change (fun c => { c with
    handled := c.handled ++ [K.parser.request c.parser]
    parser := K.parser.moved c.parser })
  (K.application.handler id (K.parser.request c.parser)).run

def registerNewRequest : Code π ρ τ RequestId := do
  let c ← current
  match c.coordinator.registerNewRequest with
  | .error e => .throw (.coordinator e)
  | .ok (id, k) => do
    change (fun c => { c with coordinator := k }.record .registered)
    pure id

def createNotImplementedResp : List WritableItem :=
  [.trivialWriteOperation (ascii ("HTTP/1.1 501 Not Implemented\r\nConnection: close\r\nContent-Length: 0\r\n\r\n"))]

def sayNotImplemented (id : RequestId) : Code π ρ τ Unit :=
  call (.writeResponsePartsImpl id ⟨.finalParts, .connectionClose⟩ (.ofItems createNotImplementedResp))

def handleUpgradeRequest : Code π ρ τ Unit := do
  let id ← registerNewRequest
  change Connection.cancelTimeoutChecking
  change (fun c => { c with upgradeStage := .waitForUpgradeHandlingResultOrNothing })
  let result ← callHandler K id
  match result with
  | .accepted => pure ()
  | .rejected | .notHandled => do
    let c ← current
    when c.socketOpen (sayNotImplemented id)

def onRequestMessageComplete : Code π ρ τ Unit := do
  change (fun c => if K.parser.upgrade c.parser then { c with upgradeStage := .pendingUpgradeHandling } else c)
  let c ← current
  if c.upgradeStage = .none then do
    let id ← registerNewRequest
    change (Connection.guardRequestHandlingOperation K)
    let result ← callHandler K id
    match result with
    | .rejected | .notHandled => sayNotImplemented id
    | .accepted => do
      let c ← current
      when c.coordinator.isAbleToGetMoreMessages (call .waitForHttpMessage)
  else when c.coordinator.empty (handleUpgradeRequest K)

def consumeData : Code π ρ τ Unit := do
  let c ← current
  let (nparsed, ok, parser) := K.parser.execute c.parser c.buf
  change (fun c => { c with parser := parser, buf := c.buf.drop nparsed })
  if ok then
    if K.parser.messageComplete parser then guarded .onRequestMessageComplete (fun _ => close)
    else consumeMessage
  else close

def waitForHttpMessage : Code π ρ τ Unit := do
  change (Connection.resetParser K)
  change (Connection.guardReadOperation K)
  let c ← current
  if c.buf.length ≠ 0 then call .consumeData else consumeMessage

end Reading

section Writing

def handleNothingToWrite : Code π ρ τ Unit := do
  let c ← current
  if c.coordinator.closed then close
  else if c.coordinator.empty then change (Connection.guardReadOperation K)
  else change (Connection.guardRequestHandlingOperation K)

def initWrite : Code π ρ τ Unit := do
  let c ← current
  match c.coordinator.popReadyBuffers with
  | .error e => .throw (.coordinator e)
  | .ok (some (wg, _), k) => do
    change (fun c => { c with
      coordinator := k
      initReadAfterThisWrite := c.coordinator.isFull && !k.isFull
      output := c.output.startNextWriteGroup wg }.record
        (.popped wg (k.contextTable.count < c.coordinator.contextTable.count)))
    guarded .handleCurrentWriteCtx (fun _ => close)
  | .ok (none, k) => do
    change (fun c => { c with coordinator := k })
    handleNothingToWrite K

def initWriteIfNecessary : Code π ρ τ Unit := do
  let c ← current
  if c.output.transmitting then pure () else initWrite K

def finishWriteGroup : Code π ρ τ Unit := do
  let c ← current
  change (fun c => { c with output := c.output.takeNotificator })
  match c.output.currentWg.bind WriteGroup.afterWriteNotificator with
  | none => pure ()
  | some n =>
    guarded (.notificator n .success) (fun _ => do
      change (fun c => { c with output := c.output.resetWriteGroup })
      .throw .afterWriteCallbackFailed)
  change (fun c => { c with output := c.output.resetWriteGroup })

def finishHandlingCurrentWriteCtx : Code π ρ τ Unit := do
  finishWriteGroup
  let c ← current
  if c.coordinator.closed then close
  else if c.upgradeStage = .none then do
    when c.initReadAfterThisWrite (call .waitForHttpMessage)
    initWriteIfNecessary K
  else if c.coordinator.empty then handleUpgradeRequest K
  else initWriteIfNecessary K

def handleWriteOperation (operation : WriteOperation) (output : OutputCtx) : Code π ρ τ Unit :=
  match operation with
  | .none => finishHandlingCurrentWriteCtx K
  | .trivial _ => change (fun c => ({ c with output := output }.startWrite operation).guardWriteOperation K)
  | .file _ timelimit =>
    change (fun c => ({ c with output := output }.startWrite operation).guardSendfileOperation K timelimit)

def handleCurrentWriteCtx : Code π ρ τ Unit := do
  let c ← current
  handleWriteOperation K c.output.extractNextWriteOperation.1 c.output.extractNextWriteOperation.2

def appendResponse (id : RequestId) (flags : ResponseOutputFlags) (wg : WriteGroup) : Code π ρ τ Unit := do
  -- A group that is refused is destroyed; its notificator is then told so.
  let c ← current
  match c.coordinator.appendResponse id flags wg with
  | .ok k => change (fun c => { c with coordinator := k }.record (.appended id flags wg))
  | .error e => do
    invokeQuietly wg .writeGroupDestroyedPassively
    .throw (.coordinator e)

def writeResponsePartsImpl (id : RequestId) (flags : ResponseOutputFlags) (wg : WriteGroup) : Code π ρ τ Unit := do
  change (fun c => { c with offered := c.offered ++ wg.afterWriteNotificator.toList })
  let c ← current
  if c.socketOpen then do
    when (c.upgradeStage = .waitForUpgradeHandlingResultOrNothing ∧ ¬ c.coordinator.isFull) (call .waitForHttpMessage)
    let c ← current
    if c.coordinator.closed then invokeQuietly wg .writeWasNotExecuted
    else do
      appendResponse id flags wg
      initWriteIfNecessary K
  else invokeQuietly wg .writeWasNotExecuted

def writeResponseParts (id : RequestId) (flags : ResponseOutputFlags) (wg : WriteGroup) : Code π ρ τ Unit :=
  guarded (.writeResponsePartsImpl id flags wg) (fun _ => close)

end Writing

def body : Fn → Code π ρ τ Unit
  | .waitForHttpMessage => waitForHttpMessage K
  | .consumeData => consumeData K
  | .onRequestMessageComplete => onRequestMessageComplete K
  | .writeResponseParts id flags wg => writeResponseParts id flags wg
  | .writeResponsePartsImpl id flags wg => writeResponsePartsImpl K id flags wg
  | .handleCurrentWriteCtx => handleCurrentWriteCtx K
  | .resetCoordinator => resetCoordinator
  | .notificator n ec => notificator K n ec

section Callbacks

def afterRead : Except ErrorCode Str → Code π ρ τ Unit
  | .ok data => do
    change (fun c => { c with buf := data.take K.settings.bufferSize })
    guarded .consumeData (fun _ => close)
  | .error .operationAborted => pure ()
  | .error _ => close

def failWriteGroup (ec : ErrorCode) : Code π ρ τ Unit := do
  let c ← current
  change (fun c => { c with output := c.output.takeNotificator })
  match c.output.currentWg.bind WriteGroup.afterWriteNotificator with
  | none => change (fun c => { c with output := c.output.failWriteGroup })
  | some n => .attempt (.notificator n ec) (fun r => match r with
    | .ok _ => change (fun c => { c with output := c.output.failWriteGroup })
    | .error _ => change (fun c => { c with output := c.output.resetWriteGroup }))

def afterWrite : ErrorCode → Code π ρ τ Unit
  | .success => guarded .handleCurrentWriteCtx (fun _ => close)
  | ec => do
    when (ec ≠ .operationAborted) close
    failWriteGroup ec

def checkTimeoutImpl : Code π ρ τ Unit := do
  let c ← current
  if c.currentTimeoutAfter < c.now then
    match c.currentTimeoutCb with
    | none => pure ()
    | some _ => close
  else change (fun c => { c with timerScheduled := true })

/-- What may happen to a connection while none of its code runs. A failed write has put out a part of
the data; only closing the socket aborts it. -/
inductive Happening (τ : Type) where
  | readDone (result : Except ErrorCode Str)
  | writeDone (ec : ErrorCode) (written : ℕ)
  | responseParts (id : RequestId) (flags : ResponseOutputFlags) (wg : WriteGroup)
  | timer
  | timePasses (now : ℕ)
  | appChanges (app : τ)

def onHappening : Happening τ → Code π ρ τ Unit
  | .readDone result => do
    let c ← current
    if c.readOperationIsRunning then do
      change (fun c => { c with readOperationIsRunning := false })
      afterRead K result
    else pure ()
  | .writeDone ec written => do
    let c ← current
    match c.writing with
    | none => pure ()
    | some data =>
      if ec = .operationAborted ∧ c.socketOpen then pure ()
      else do
        change (fun c => { c with
          writing := none
          wire := c.wire ++ if ec = .success then data else data.take written })
        afterWrite ec
  | .responseParts id flags wg => writeResponseParts id flags wg
  | .timer => do
    change (fun c => { c with timerScheduled := false })
    checkTimeoutImpl
  | .timePasses now => change (fun c => { c with now := max c.now now })
  | .appChanges app => change (fun c => { c with app := app })

def start : Code π ρ τ Unit := do
  change (fun c => { c with timerScheduled := true })
  waitForHttpMessage K

inductive Reaches (app : τ) : List (Happening τ) → Connection π ρ τ → Prop where
  | start {r : Except ConnectionException Unit} {c : Connection π ρ τ} (h : Evals (body K) (start K) (.initial K app) r c) :
      Reaches app [] c
  | next {past : List (Happening τ)} {c c' : Connection π ρ τ} {x : Happening τ} {r : Except ConnectionException Unit}
      (hc : Reaches app past c) (h : Evals (body K) (onHappening K x) c r c') : Reaches app (past ++ [x]) c'

end Callbacks

end NgkNet.Restinio.Http
