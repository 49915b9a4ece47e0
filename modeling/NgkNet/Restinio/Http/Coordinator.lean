import NgkNet.Base.Ascii
import NgkNet.Base.Ring

set_option autoImplicit false

namespace NgkNet.Restinio.Http

open Ascii

abbrev RequestId := UInt32

inductive ResponseParts where
  | notFinalParts
  | finalParts
  deriving DecidableEq

inductive ResponseConnection where
  | connectionKeepalive
  | connectionClose
  deriving DecidableEq

def responseConnectionAttr (shouldKeepAlive : Bool) : ResponseConnection :=
  if shouldKeepAlive then .connectionKeepalive else .connectionClose

structure ResponseOutputFlags where
  responseParts : ResponseParts
  responseConnection : ResponseConnection
  deriving DecidableEq

inductive WritableItem where
  | trivialWriteOperation (buf : Str)
  | fileWriteOperation (content : Str) (timelimit : ℕ)
  deriving DecidableEq

namespace WritableItem

def bytes : WritableItem → Str
  | trivialWriteOperation buf => buf
  | fileWriteOperation content _ => content

def size (item : WritableItem) : ℕ := item.bytes.length

end WritableItem

inductive CoordinatorError where
  | tableIsFull
  | tableIsEmpty
  | appendToClosed
  | noContext (id : RequestId)
  | markedAsComplete
  | popFromClosed
  deriving DecidableEq

def CoordinatorError.what : CoordinatorError → Str
  | tableIsFull => ascii "unable to insert context because response_context_table is full"
  | tableIsEmpty => ascii "unable to pop context because response_context_table is empty"
  | appendToClosed => ascii "unable to append response parts, response coordinator is closed"
  | noContext id => ascii "no context associated with request " ++ ascii (toString id.toNat)
  | markedAsComplete => ascii "unable to append response, it marked as complete"
  | popFromClosed => ascii "unable to prepare output buffers, response coordinator is closed"

abbrev Notificator := ℕ

structure WriteGroup where
  items : List WritableItem
  statusLineSize : ℕ
  afterWriteNotificator : Option Notificator
  statusLine : statusLineSize = 0 ∨ ∃ buf rest, items = .trivialWriteOperation buf :: rest ∧ statusLineSize ≤ buf.length
  deriving DecidableEq

namespace WriteGroup

def ofItems (items : List WritableItem) : WriteGroup := ⟨items, 0, none, .inl rfl⟩

def merge (first second : WriteGroup) : WriteGroup where
  items := first.items ++ second.items
  statusLineSize := first.statusLineSize
  afterWriteNotificator := second.afterWriteNotificator
  statusLine := by
    rcases first.statusLine with h | ⟨buf, rest, hitems, hsize⟩
    · exact .inl h
    · exact .inr ⟨buf, rest ++ second.items, by rw [hitems, List.cons_append], hsize⟩

def bytes (wg : WriteGroup) : Str := wg.items.flatMap WritableItem.bytes

def takeNotificator (wg : WriteGroup) : WriteGroup := { wg with afterWriteNotificator := none }

end WriteGroup

structure ResponseContext where
  requestId : RequestId
  writeGroups : List WriteGroup
  responseOutputFlags : ResponseOutputFlags
  deriving DecidableEq

namespace ResponseContext

def initial : ResponseContext := ⟨0, [], ⟨.notFinalParts, .connectionKeepalive⟩⟩

def reinit (id : RequestId) (ctx : ResponseContext) : ResponseContext :=
  { ctx with requestId := id, responseOutputFlags := ⟨.notFinalParts, .connectionKeepalive⟩ }

def enqueueGroup (wg : WriteGroup) (ctx : ResponseContext) : ResponseContext :=
  match ctx.writeGroups.getLast? with
  | none => { ctx with writeGroups := [wg] }
  | some back =>
    if back.afterWriteNotificator.isNone ∧ wg.statusLineSize = 0 then
      { ctx with writeGroups := ctx.writeGroups.dropLast ++ [back.merge wg] }
    else { ctx with writeGroups := ctx.writeGroups ++ [wg] }

def dequeueGroup (ctx : ResponseContext) : ResponseContext := { ctx with writeGroups := ctx.writeGroups.tail }

def isComplete (ctx : ResponseContext) : Bool :=
  ctx.writeGroups.isEmpty ∧ ctx.responseOutputFlags.responseParts = .finalParts

end ResponseContext

abbrev ResponseContextTable := Ring ResponseContext

namespace ResponseContextTable

variable (t : ResponseContextTable)

def empty : Bool := t.count = 0

def isFull : Bool := t.cells.length = t.count

def front : Option ResponseContext := t.get? 0

def back : Option ResponseContext := t.get? (t.count - 1)

def getByReqId (id : RequestId) : Option ℕ :=
  if empty t then none
  else
    match front t, back t with
    | some first, some last =>
      if id < first.requestId ∨ last.requestId < id then none else some (id - first.requestId).toNat
    | _, _ => none

def pushResponseContext (id : RequestId) : Except CoordinatorError ResponseContextTable :=
  if isFull t then .error .tableIsFull else .ok (t.push (ResponseContext.reinit id))

def popResponseContext : Except CoordinatorError ResponseContextTable :=
  if empty t then .error .tableIsEmpty else .ok t.pop

end ResponseContextTable

open ResponseContextTable

structure Coordinator where
  requestIdCounter : RequestId
  connectionClosedResponseOccured : Bool
  contextTable : ResponseContextTable
  deriving DecidableEq

namespace Coordinator

def initial (maxReqCount : ℕ) : Coordinator :=
  ⟨0, false, .ofCells (List.replicate maxReqCount .initial)⟩

variable (c : Coordinator)

def closed : Bool := c.connectionClosedResponseOccured

def empty : Bool := ResponseContextTable.empty c.contextTable

def isFull : Bool := ResponseContextTable.isFull c.contextTable

def isAbleToGetMoreMessages : Bool := !c.closed && !c.isFull

def registerNewRequest : Except CoordinatorError (RequestId × Coordinator) := do
  let table ← pushResponseContext c.contextTable c.requestIdCounter
  pure (c.requestIdCounter,
    { c with contextTable := table, requestIdCounter := c.requestIdCounter + 1 })

def appendResponse (id : RequestId) (flags : ResponseOutputFlags) (wg : WriteGroup) :
    Except CoordinatorError Coordinator :=
  if c.closed then .error .appendToClosed
  else
    match getByReqId c.contextTable id with
    | none => .error (.noContext id)
    | some i =>
      match c.contextTable.get? i with
      | none => .error (.noContext id)
      | some ctx =>
        if ctx.responseOutputFlags.responseParts = .finalParts then .error .markedAsComplete
        else .ok { c with contextTable := c.contextTable.modify i
                            (fun ctx => { ctx with responseOutputFlags := flags }.enqueueGroup wg) }

def popReadyBuffers : Except CoordinatorError (Option (WriteGroup × RequestId) × Coordinator) :=
  -- A context that becomes complete leaves the table.
  -- If its response closes the connection, nothing more is given out.
  if c.closed then .error .popFromClosed
  else if ResponseContextTable.empty c.contextTable then .ok (none, c)
  else
    match front c.contextTable with
    | none => .ok (none, c)
    | some ctx =>
      match ctx.writeGroups with
      | [] => .ok (none, c)
      | wg :: _ =>
        let current := ctx.dequeueGroup
        let table := c.contextTable.modify 0 ResponseContext.dequeueGroup
        if current.isComplete then do
          let table ← popResponseContext table
          pure (some (wg, ctx.requestId),
            { c with
              contextTable := table
              connectionClosedResponseOccured :=
                current.responseOutputFlags.responseParts = .finalParts ∧
                  current.responseOutputFlags.responseConnection = .connectionClose })
        else pure (some (wg, ctx.requestId), { c with contextTable := table })

/-- One round of `reset`: the next group to be dropped, or the first context when it has none left. -/
def resetStep : Option (Option WriteGroup × Coordinator) :=
  if ResponseContextTable.empty c.contextTable then none
  else
    match (front c.contextTable).map ResponseContext.writeGroups with
    | some (wg :: _) => some (some wg, { c with contextTable := c.contextTable.modify 0 ResponseContext.dequeueGroup })
    | _ => some (none, { c with contextTable := c.contextTable.pop })

end Coordinator

inductive Event where
  | registered
  | appended (id : RequestId) (flags : ResponseOutputFlags) (wg : WriteGroup)
  | popped (wg : WriteGroup) (last : Bool)
  deriving DecidableEq

end NgkNet.Restinio.Http
