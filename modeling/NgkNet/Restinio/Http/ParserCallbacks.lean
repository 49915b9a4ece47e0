import NgkNet.Restinio.Express
import NgkNet.Restinio.Http.Headers

set_option autoImplicit false

namespace NgkNet.Restinio.Http

open Ascii

section Target

def memchrHelper (chr : UInt8) (s : Str) : ℕ := s.findIdx (· == chr)

structure RequestTarget where
  requestTarget : Str
  querySeparatorPos : ℕ
  fragmentSeparatorPos : ℕ
  deriving DecidableEq

namespace RequestTarget

def ofString (t : Str) : RequestTarget :=
  let fragmentSeparatorPos := memchrHelper (code '#') t
  ⟨t, memchrHelper (code '?') (t.take fragmentSeparatorPos), fragmentSeparatorPos⟩

variable (r : RequestTarget)

def appendRequestTarget (piece : Str) : RequestTarget :=
  if r.requestTarget.length = r.fragmentSeparatorPos then
    let inc := memchrHelper (code '#') piece
    { requestTarget := r.requestTarget ++ piece
      querySeparatorPos :=
        if r.requestTarget.length = r.querySeparatorPos then
          r.querySeparatorPos + memchrHelper (code '?') (piece.take inc)
        else r.querySeparatorPos
      fragmentSeparatorPos := r.fragmentSeparatorPos + inc }
  else { r with requestTarget := r.requestTarget ++ piece }

def path : Str := r.requestTarget.take r.querySeparatorPos

def query : Str :=
  if r.fragmentSeparatorPos = r.querySeparatorPos then []
  else (r.requestTarget.drop (r.querySeparatorPos + 1)).take (r.fragmentSeparatorPos - r.querySeparatorPos - 1)

def fragment : Str :=
  if r.requestTarget.length = r.fragmentSeparatorPos then [] else r.requestTarget.drop (r.fragmentSeparatorPos + 1)

end RequestTarget

theorem memchrHelper_le (chr : UInt8) (s : Str) : memchrHelper chr s ≤ s.length := List.findIdx_le_length

theorem memchrHelper_append (chr : UInt8) (s t : Str) :
    memchrHelper chr (s ++ t) =
      if memchrHelper chr s = s.length then s.length + memchrHelper chr t else memchrHelper chr s := by
  have hle := memchrHelper_le chr s
  rw [memchrHelper, List.findIdx_append, ← memchrHelper, ← memchrHelper]
  split <;> split <;> omega

theorem memchrHelper_cons (chr c : UInt8) (s : Str) :
    memchrHelper chr (c :: s) = if c = chr then 0 else memchrHelper chr s + 1 := by
  rw [memchrHelper, List.findIdx_cons, ← memchrHelper]
  by_cases h : c = chr
  · rw [if_pos h, beq_iff_eq.mpr h, cond_true]
  · rw [if_neg h, beq_eq_false_iff_ne.mpr h, cond_false]

theorem memchrHelper_split (chr : UInt8) (s : Str) :
    chr ∉ s.take (memchrHelper chr s) ∧
      (memchrHelper chr s = s.length ∨ s = s.take (memchrHelper chr s) ++ chr :: s.drop (memchrHelper chr s + 1)) := by
  induction s with
  | nil => exact ⟨List.not_mem_nil, .inl rfl⟩
  | cons c s ih =>
    rw [memchrHelper_cons]
    by_cases h : c = chr
    · rw [if_pos h, h]
      exact ⟨List.not_mem_nil, .inr rfl⟩
    · rw [if_neg h, List.take_succ_cons, List.mem_cons, not_or, List.length_cons, Nat.add_right_cancel_iff, List.cons_append,
        List.drop_succ_cons, List.cons_inj_right]
      exact ⟨⟨fun heq => h heq.symm, ih.1⟩, ih.2⟩

theorem appendRequestTarget_ofString (t piece : Str) :
    (RequestTarget.ofString t).appendRequestTarget piece = .ofString (t ++ piece) := by
  have hle := memchrHelper_le (code '#') t
  rw [RequestTarget.ofString, RequestTarget.ofString, RequestTarget.appendRequestTarget]
  dsimp only
  rw [memchrHelper_append (code '#')]
  by_cases h : t.length = memchrHelper (code '#') t
  · rw [if_pos h, if_pos h.symm, ← h, List.take_length, List.take_length_add_append, memchrHelper_append (code '?')]
    by_cases hquery : t.length = memchrHelper (code '?') t
    · rw [if_pos hquery, if_pos hquery.symm, ← hquery]
    · rw [if_neg hquery, if_neg (Ne.symm hquery)]
  · rw [if_neg h, if_neg (Ne.symm h), List.take_append_of_le_length hle]

theorem foldl_appendRequestTarget (pieces : List Str) (t : Str) :
    pieces.foldl RequestTarget.appendRequestTarget (.ofString t) = .ofString (t ++ pieces.flatten) := by
  induction pieces generalizing t with
  | nil => rw [List.foldl_nil, List.flatten_nil, List.append_nil]
  | cons piece pieces ih => rw [List.foldl_cons, appendRequestTarget_ofString, ih, List.flatten_cons, List.append_assoc]

theorem ofString_fragment (t : Str) :
    ∃ fragment, t = t.take (memchrHelper (code '#') t) ++ fragment ∧
      (fragment = [] ∧ (RequestTarget.ofString t).fragment = [] ∨
        fragment = code '#' :: (RequestTarget.ofString t).fragment) := by
  rw [RequestTarget.fragment, RequestTarget.ofString]
  dsimp only
  rcases (memchrHelper_split (code '#') t).2 with h | h
  · refine ⟨[], ?_, .inl ⟨rfl, if_pos h.symm⟩⟩
    rw [h, List.take_length, List.append_nil]
  · refine ⟨_, h, .inr ?_⟩
    rw [if_neg]
    intro hlength
    have := congrArg List.length h
    simp only [List.length_append, List.length_take, List.length_cons, List.length_drop] at this
    omega

theorem ofString_query (t : Str) :
    ∃ query, t.take (memchrHelper (code '#') t) = (RequestTarget.ofString t).path ++ query ∧
      (query = [] ∧ (RequestTarget.ofString t).query = [] ∨ query = code '?' :: (RequestTarget.ofString t).query) ∧
      code '?' ∉ (RequestTarget.ofString t).path := by
  have hle := memchrHelper_le (code '#') t
  rw [RequestTarget.path, RequestTarget.query, RequestTarget.ofString]
  dsimp only
  -- `u` is the target without its fragment.
  obtain ⟨u, hu⟩ : ∃ u, t.take (memchrHelper (code '#') t) = u := ⟨_, rfl⟩
  have hlength : u.length = memchrHelper (code '#') t := by rw [← hu, List.length_take, min_eq_left hle]
  have hle' := memchrHelper_le (code '?') u
  have hpath : t.take (memchrHelper (code '?') u) = u.take (memchrHelper (code '?') u) := by
    rw [← hu, List.take_take, hu, min_eq_left (by omega)]
  obtain ⟨hpath', hquery⟩ := memchrHelper_split (code '?') u
  rw [hu, ← hlength, hpath]
  rcases hquery with h | h
  · refine ⟨[], ?_, .inl ⟨rfl, if_pos h.symm⟩, hpath'⟩
    rw [h, List.take_length, List.append_nil]
  · refine ⟨_, h, .inr ?_, hpath'⟩
    have hlt := congrArg List.length h
    simp only [List.length_append, List.length_take, List.length_cons, List.length_drop] at hlt
    rw [if_neg (by omega), Nat.sub_sub, ← List.drop_take, hlength, hu]

def RequestTarget.ofPieces (pieces : List Str) : RequestTarget :=
  pieces.foldl RequestTarget.appendRequestTarget ⟨[], 0, 0⟩

theorem ofPieces_eq (pieces : List Str) : RequestTarget.ofPieces pieces = .ofString pieces.flatten :=
  foldl_appendRequestTarget pieces []

/-- In whatever pieces a target comes, it is split at its first `?` before any `#`, and at its first `#`. -/
theorem request_target_split (pieces : List Str) :
    code '?' ∉ (RequestTarget.ofPieces pieces).path ∧
      code '#' ∉ (RequestTarget.ofPieces pieces).path ++ (RequestTarget.ofPieces pieces).query ∧
      ∃ query fragment, pieces.flatten = (RequestTarget.ofPieces pieces).path ++ query ++ fragment ∧
        (query = [] ∧ (RequestTarget.ofPieces pieces).query = [] ∨
          query = code '?' :: (RequestTarget.ofPieces pieces).query) ∧
        (fragment = [] ∧ (RequestTarget.ofPieces pieces).fragment = [] ∨
          fragment = code '#' :: (RequestTarget.ofPieces pieces).fragment) := by
  rw [ofPieces_eq]
  obtain ⟨fragment, hfragment, hfragment'⟩ := ofString_fragment pieces.flatten
  obtain ⟨query, hquery, hquery', hpath⟩ := ofString_query pieces.flatten
  have hhash := (memchrHelper_split (code '#') pieces.flatten).1
  refine ⟨hpath, ?_, query, fragment, ?_, hquery', hfragment'⟩
  · rw [hquery, List.mem_append, not_or] at hhash
    rw [List.mem_append, not_or]
    refine ⟨hhash.1, ?_⟩
    rcases hquery' with ⟨-, hnil⟩ | hcons
    · rw [hnil]
      exact List.not_mem_nil
    · rw [hcons] at hhash
      exact fun hmem => hhash.2 (List.mem_cons_of_mem _ hmem)
  · rw [← hquery]
    exact hfragment

end Target

section Callbacks

structure IncomingHttpMsgLimits where
  maxUrlSize : ℕ
  maxFieldNameSize : ℕ
  maxFieldValueSize : ℕ
  maxFieldCount : ℕ
  maxBodySize : ℕ

structure RequestHeader where
  method : Method
  connection : ConnectionHeader
  target : RequestTarget
  fields : HeaderFields
  deriving DecidableEq

structure ChunkInfo where
  startedAt : ℕ
  size : ℕ
  deriving DecidableEq

structure ChunkedInputInfoBlock where
  chunks : List ChunkInfo
  trailingFields : HeaderFields
  deriving DecidableEq

structure HttpParserCtx where
  header : RequestHeader
  body : Str
  currentFieldName : Str
  lastValueTotalSize : ℕ
  lastWasValue : Bool
  leadingHeadersCompleted : Bool
  chunkedInfoBlock : ChunkedInputInfoBlock
  messageComplete : Bool
  totalFieldCount : ℕ
  deriving DecidableEq

/-- What the parser calls, with what the callbacks look at in it: a length that is not known is `none`. -/
inductive Callback where
  | url (piece : Str)
  | headerField (piece : Str)
  | headerValue (piece : Str)
  | headersComplete (contentLength : Option ℕ)
  | body (piece : Str)
  | chunkHeader (contentLength : ℕ)
  | chunkComplete
  | messageComplete (method : Method) (upgrade shouldKeepAlive : Bool)

def HeaderFields.appendLastField (fields : HeaderFields) (value : Str) : HeaderFields :=
  fields.modify (fields.length - 1) (fun f => (f.1, f.2 ++ value))

namespace HttpParserCtx

def initial : HttpParserCtx := ⟨⟨.get, .close, ⟨[], 0, 0⟩, []⟩, [], [], 0, true, false, ⟨[], []⟩, false, 0⟩

def reset (c : HttpParserCtx) : HttpParserCtx :=
  -- The information about chunks stays.
  { initial with chunkedInfoBlock := c.chunkedInfoBlock }

def updateFields (update : HeaderFields → HeaderFields) (c : HttpParserCtx) : HttpParserCtx :=
  if c.leadingHeadersCompleted then
    { c with chunkedInfoBlock.trailingFields := update c.chunkedInfoBlock.trailingFields }
  else { c with header.fields := update c.header.fields }

def handle (limits : IncomingHttpMsgLimits) (c : HttpParserCtx) : Callback → Option HttpParserCtx
  -- `none` stands for the error that ends the parsing.
  | .url piece =>
    let c := { c with header.target := c.header.target.appendRequestTarget piece }
    if limits.maxUrlSize < c.header.target.requestTarget.length then none else some c
  | .headerField piece =>
    if c.lastWasValue ∧ c.totalFieldCount = limits.maxFieldCount then none
    else
      let name := if c.lastWasValue then piece else c.currentFieldName ++ piece
      if limits.maxFieldNameSize < name.length then none
      else some { c with currentFieldName := name, lastWasValue := false }
  | .headerValue piece =>
    let size := if c.lastWasValue then c.lastValueTotalSize + piece.length else piece.length
    if limits.maxFieldValueSize ≤ size then none
    else if c.lastWasValue then
      some { c.updateFields (·.appendLastField piece) with lastValueTotalSize := size }
    else
      some { c.updateFields (·.addField c.currentFieldName piece) with
        currentFieldName := []
        lastValueTotalSize := size
        lastWasValue := true
        totalFieldCount := c.totalFieldCount + 1 }
  | .headersComplete contentLength =>
    if 0 < contentLength.getD 0 ∧ limits.maxBodySize < contentLength.getD 0 then none
    else some { c with leadingHeadersCompleted := true }
  | .body piece =>
    if limits.maxBodySize < c.body.length + piece.length then none else some { c with body := c.body ++ piece }
  | .chunkHeader contentLength =>
    if contentLength ≠ 0 then
      some { c with chunkedInfoBlock.chunks := c.chunkedInfoBlock.chunks ++ [⟨c.body.length, contentLength⟩] }
    else some c
  | .chunkComplete => some c
  | .messageComplete method upgrade shouldKeepAlive =>
    -- A last trailing field without a value.
    let c := if ¬ c.lastWasValue ∧ c.currentFieldName ≠ [] then
        { c with
          chunkedInfoBlock.trailingFields := c.chunkedInfoBlock.trailingFields.addField c.currentFieldName []
          currentFieldName := [] }
      else c
    some { c with
      messageComplete := true
      header.method := method
      header.connection := if upgrade then .upgrade else if shouldKeepAlive then .keepAlive else .close }

def run (limits : IncomingHttpMsgLimits) (c : HttpParserCtx) (callbacks : List Callback) : Option HttpParserCtx :=
  callbacks.foldlM (handle limits) c

end HttpParserCtx

structure ReceivedRequest where
  header : RequestHeader
  body : Str
  chunkedInputInfo : Option ChunkedInputInfoBlock
  deriving DecidableEq

namespace HttpParserCtx

def makeChunkedInputInfoIfNecessary (c : HttpParserCtx) : Option ChunkedInputInfoBlock × HttpParserCtx :=
  if c.chunkedInfoBlock.chunks ≠ [] ∨ c.chunkedInfoBlock.trailingFields.length ≠ 0 then
    (some c.chunkedInfoBlock, { c with chunkedInfoBlock := ⟨[], []⟩ })
  else (none, c)

def handOver (c : HttpParserCtx) : ReceivedRequest × HttpParserCtx :=
  (⟨c.header, c.body, c.makeChunkedInputInfoIfNecessary.1⟩, c.makeChunkedInputInfoIfNecessary.2.reset)

end HttpParserCtx

def ChunkInfo.makeStringView (chunk : ChunkInfo) (fullBody : Str) : Option Str :=
  if fullBody.length ≤ chunk.startedAt ∨ fullBody.length < chunk.startedAt + chunk.size then none
  else some ((fullBody.drop chunk.startedAt).take chunk.size)

end Callbacks

section Messages

structure RawField where
  name : Str
  namePieces : List Str
  value : Str
  valuePieces : List Str

namespace RawField

variable (f : RawField)

def field : Str × Str := (f.name ++ f.namePieces.flatten, f.value ++ f.valuePieces.flatten)

def callbacks : List Callback :=
  (.headerField f.name :: f.namePieces.map .headerField) ++ (.headerValue f.value :: f.valuePieces.map .headerValue)

def Fits (limits : IncomingHttpMsgLimits) : Prop :=
  f.field.1.length ≤ limits.maxFieldNameSize ∧ f.field.2.length < limits.maxFieldValueSize

instance (limits : IncomingHttpMsgLimits) : Decidable (f.Fits limits) := inferInstanceAs (Decidable (_ ∧ _))

end RawField

structure RawChunk where
  pieces : List Str
  ne_nil : pieces.flatten ≠ []

def RawChunk.callbacks (c : RawChunk) : List Callback :=
  .chunkHeader c.pieces.flatten.length :: (c.pieces.map .body ++ [.chunkComplete])

inductive RawBody where
  | absent
  | whole (pieces : List Str)
  | chunked (chunks : List RawChunk) (trailing : List RawField)

namespace RawBody

def callbacks : RawBody → List Callback
  | absent => [.headersComplete none]
  | whole pieces => .headersComplete (some pieces.flatten.length) :: pieces.map .body
  | chunked chunks trailing =>
    .headersComplete none :: (chunks.flatMap RawChunk.callbacks ++
      (.chunkHeader 0 :: (trailing.flatMap RawField.callbacks ++ [.chunkComplete])))

def text : RawBody → Str
  | absent => []
  | whole pieces => pieces.flatten
  | chunked chunks _ => chunks.flatMap fun c => c.pieces.flatten

def trailing : RawBody → List RawField
  | chunked _ trailing => trailing
  | _ => []

def chunksFrom (start : ℕ) : List RawChunk → List ChunkInfo
  | [] => []
  | c :: chunks => ⟨start, c.pieces.flatten.length⟩ :: chunksFrom (start + c.pieces.flatten.length) chunks

def chunks : RawBody → List ChunkInfo
  | chunked chunks _ => chunksFrom 0 chunks
  | _ => []

end RawBody

structure RawMessage where
  url : List Str
  fields : List RawField
  body : RawBody
  method : Method
  upgrade : Bool
  shouldKeepAlive : Bool

namespace RawMessage

variable (m : RawMessage)

def callbacks : List Callback :=
  m.url.map .url ++ (m.fields.flatMap RawField.callbacks ++ (m.body.callbacks ++
    [.messageComplete m.method m.upgrade m.shouldKeepAlive]))

def header : RequestHeader where
  method := m.method
  connection := if m.upgrade then .upgrade else if m.shouldKeepAlive then .keepAlive else .close
  target := .ofString m.url.flatten
  fields := m.fields.map RawField.field

def Within (limits : IncomingHttpMsgLimits) : Prop :=
  m.url.flatten.length ≤ limits.maxUrlSize ∧ (∀ f ∈ m.fields ++ m.body.trailing, f.Fits limits) ∧
    (m.fields ++ m.body.trailing).length ≤ limits.maxFieldCount ∧ m.body.text.length ≤ limits.maxBodySize

def received : ReceivedRequest where
  header := m.header
  body := m.body.text
  chunkedInputInfo :=
    if m.body.chunks ≠ [] ∨ m.body.trailing.map RawField.field ≠ [] then
      some ⟨m.body.chunks, m.body.trailing.map RawField.field⟩
    else none

instance (limits : IncomingHttpMsgLimits) : Decidable (m.Within limits) := inferInstanceAs (Decidable (_ ∧ _))

end RawMessage

/-- The requests that come out of the callbacks for one message after the other, as far as there is no error. -/
def receive (limits : IncomingHttpMsgLimits) : HttpParserCtx → List RawMessage → List ReceivedRequest
  | _, [] => []
  | c, m :: messages =>
    match c.run limits m.callbacks with
    | none => []
    | some d => d.handOver.1 :: receive limits d.handOver.2 messages

end Messages

section Pieces

theorem foldlM_pieces {γ : Type} {step : γ → Str → Option γ} (state : Str → γ) {fits : ℕ → Prop} [DecidablePred fits]
    (hstep : ∀ t piece, step (state t) piece = if fits (t ++ piece).length then some (state (t ++ piece)) else none)
    (hfits : ∀ m n, m ≤ n → fits n → fits m) (t : Str) (ht : fits t.length) (pieces : List Str) :
    pieces.foldlM step (state t) =
      if fits (t ++ pieces.flatten).length then some (state (t ++ pieces.flatten)) else none := by
  induction pieces generalizing t with
  | nil => rw [List.flatten_nil, List.append_nil, if_pos ht]; rfl
  | cons piece pieces ih =>
    rw [List.foldlM_cons, hstep, List.flatten_cons, ← List.append_assoc]
    by_cases h : fits (t ++ piece).length
    · rw [if_pos h]
      exact ih _ h
    · rw [if_neg h, if_neg]
      · rfl
      · intro hall
        refine h (hfits _ _ ?_ hall)
        simp only [List.length_append]
        omega

end Pieces

section Runs

namespace HttpParserCtx

variable {limits : IncomingHttpMsgLimits} {c : HttpParserCtx}

theorem run_append (callbacks callbacks' : List Callback) :
    c.run limits (callbacks ++ callbacks') = (c.run limits callbacks).bind (·.run limits callbacks') :=
  List.foldlM_append

theorem run_cons (callback : Callback) (callbacks : List Callback) :
    c.run limits (callback :: callbacks) = (c.handle limits callback).bind (·.run limits callbacks) :=
  List.foldlM_cons

theorem run_url {t : Str} (htarget : c.header.target = .ofString t) (ht : t.length ≤ limits.maxUrlSize) (pieces : List Str) :
    c.run limits (pieces.map .url) =
      if (t ++ pieces.flatten).length ≤ limits.maxUrlSize then
        some { c with header.target := .ofString (t ++ pieces.flatten) }
      else none := by
  have hstart : c = { c with header.target := .ofString t } := by rw [← htarget]
  rw [run, List.foldlM_map]
  conv_lhs => rw [hstart]
  refine foldlM_pieces (fun t => { c with header.target := .ofString t }) (fun t piece => ?_)
    (fun _ _ => Nat.le_trans) t ht pieces
  rw [handle]
  dsimp only
  rw [appendRequestTarget_ofString]
  simp only [← Nat.not_le, ite_not]
  rfl

theorem run_body {t : Str} (hbody : c.body = t) (ht : t.length ≤ limits.maxBodySize) (pieces : List Str) :
    c.run limits (pieces.map .body) =
      if (t ++ pieces.flatten).length ≤ limits.maxBodySize then some { c with body := t ++ pieces.flatten } else none := by
  have hstart : c = { c with body := t } := by rw [← hbody]
  rw [run, List.foldlM_map]
  conv_lhs => rw [hstart]
  refine foldlM_pieces (fun t => { c with body := t }) (fun t piece => ?_) (fun _ _ => Nat.le_trans) t ht pieces
  rw [handle]
  simp only [← Nat.not_le, ite_not, List.length_append]

theorem appendLastField_concat (fields : HeaderFields) (name value piece : Str) :
    HeaderFields.appendLastField (fields ++ [(name, value)]) piece = fields ++ [(name, value ++ piece)] := by
  rw [HeaderFields.appendLastField, List.length_append, List.length_singleton, Nat.add_sub_cancel]
  exact HeaderFields.modify_middle fields [] (name, value) _

def afterField (c : HttpParserCtx) (f : Str × Str) : HttpParserCtx :=
  { c.updateFields (· ++ [f]) with
    currentFieldName := []
    lastValueTotalSize := f.2.length
    lastWasValue := true
    totalFieldCount := c.totalFieldCount + 1 }

theorem afterField_append (c : HttpParserCtx) (name value piece : Str) :
    { (c.afterField (name, value)).updateFields (·.appendLastField piece) with
      lastValueTotalSize := (value ++ piece).length } = c.afterField (name, value ++ piece) := by
  rw [afterField, afterField, updateFields, updateFields, updateFields]
  cases c.leadingHeadersCompleted <;> simp [appendLastField_concat]

theorem run_name {n : Str} (hname : n.length ≤ limits.maxFieldNameSize) (pieces : List Str) :
    run limits { c with currentFieldName := n, lastWasValue := false } (pieces.map .headerField) =
      if (n ++ pieces.flatten).length ≤ limits.maxFieldNameSize then
        some { c with currentFieldName := n ++ pieces.flatten, lastWasValue := false }
      else none := by
  rw [run, List.foldlM_map]
  refine foldlM_pieces (fun n => { c with currentFieldName := n, lastWasValue := false }) (fun n piece => ?_)
    (fun _ _ => Nat.le_trans) n hname pieces
  rw [handle]
  simp only [Bool.false_eq_true, false_and, ↓reduceIte, ← Nat.not_le, ite_not]

theorem run_value {name value : Str} (hvalue : value.length < limits.maxFieldValueSize) (pieces : List Str) :
    run limits (c.afterField (name, value)) (pieces.map .headerValue) =
      if (value ++ pieces.flatten).length < limits.maxFieldValueSize then
        some (c.afterField (name, value ++ pieces.flatten))
      else none := by
  rw [run, List.foldlM_map]
  refine foldlM_pieces (fun value => c.afterField (name, value)) (fun value piece => ?_)
    (fun _ _ => Nat.lt_of_le_of_lt) value hvalue pieces
  rw [handle, ← afterField_append]
  simp only [← Nat.not_lt, ite_not, List.length_append]
  rfl

theorem handle_headerField (hlast : c.lastWasValue = true) (hcount : c.totalFieldCount ≤ limits.maxFieldCount) (piece : Str) :
    c.handle limits (.headerField piece) =
      if c.totalFieldCount < limits.maxFieldCount ∧ piece.length ≤ limits.maxFieldNameSize then
        some { c with currentFieldName := piece, lastWasValue := false }
      else none := by
  rw [handle]
  simp only [hlast, true_and, ↓reduceIte]
  split
  · rw [if_neg (by omega)]
  · split
    · rw [if_neg (by omega)]
    · rw [if_pos (by omega)]

theorem handle_headerValue (name piece : Str) :
    handle limits { c with currentFieldName := name, lastWasValue := false } (.headerValue piece) =
      if piece.length < limits.maxFieldValueSize then some (c.afterField (name, piece)) else none := by
  rw [handle]
  simp only [Bool.false_eq_true, ↓reduceIte, ← Nat.not_lt, ite_not]
  rw [afterField, updateFields, updateFields]
  cases c.leadingHeadersCompleted <;> rfl

theorem run_field (hlast : c.lastWasValue = true) (hcount : c.totalFieldCount ≤ limits.maxFieldCount) (f : RawField) :
    c.run limits f.callbacks =
      if c.totalFieldCount < limits.maxFieldCount ∧ f.Fits limits then some (c.afterField f.field) else none := by
  have hname : f.name.length ≤ f.field.1.length := by simp [RawField.field]
  have hvalue : f.value.length ≤ f.field.2.length := by simp [RawField.field]
  rw [RawField.callbacks, run_append, run_cons, handle_headerField hlast hcount]
  by_cases hfirst : c.totalFieldCount < limits.maxFieldCount ∧ f.name.length ≤ limits.maxFieldNameSize
  · rw [if_pos hfirst, Option.bind_some, run_name hfirst.2]
    by_cases hwhole : (f.name ++ f.namePieces.flatten).length ≤ limits.maxFieldNameSize
    · rw [if_pos hwhole, Option.bind_some, run_cons, handle_headerValue]
      by_cases hfirst' : f.value.length < limits.maxFieldValueSize
      · rw [if_pos hfirst', Option.bind_some, run_value hfirst']
        by_cases hwhole' : (f.value ++ f.valuePieces.flatten).length < limits.maxFieldValueSize
        · rw [if_pos hwhole', if_pos ⟨hfirst.1, hwhole, hwhole'⟩]
          rfl
        · rw [if_neg hwhole', if_neg fun h => hwhole' h.2.2]
      · rw [if_neg hfirst', if_neg fun h => hfirst' (hvalue.trans_lt h.2.2)]
        rfl
    · rw [if_neg hwhole, if_neg fun h => hwhole h.2.1]
      rfl
  · rw [if_neg hfirst, if_neg fun h => hfirst ⟨h.1, hname.trans h.2.1⟩]
    rfl

def afterFields (c : HttpParserCtx) (fs : List RawField) : HttpParserCtx := fs.foldl (fun c f => c.afterField f.field) c

theorem run_fields (hlast : c.lastWasValue = true) (hcount : c.totalFieldCount ≤ limits.maxFieldCount) (fs : List RawField) :
    c.run limits (fs.flatMap RawField.callbacks) =
      if (∀ f ∈ fs, f.Fits limits) ∧ c.totalFieldCount + fs.length ≤ limits.maxFieldCount then some (c.afterFields fs)
      else none := by
  induction fs generalizing c with
  | nil =>
    rw [if_pos ⟨by simp, hcount⟩]
    rfl
  | cons f fs ih =>
    rw [List.flatMap_cons, run_append, run_field hlast hcount]
    by_cases h : c.totalFieldCount < limits.maxFieldCount ∧ f.Fits limits
    · rw [if_pos h, Option.bind_some, ih rfl (by exact h.1)]
      apply if_congr _ rfl rfl
      rw [List.forall_mem_cons, and_assoc, and_iff_right h.2, List.length_cons, Nat.add_comm fs.length, ← Nat.add_assoc]
      rfl
    · rw [if_neg h, if_neg]
      · rfl
      · rintro ⟨hfits, hlength⟩
        rw [List.length_cons] at hlength
        exact h ⟨by omega, hfits f List.mem_cons_self⟩

theorem afterFields_eq (hlast : c.lastWasValue = true) (fs : List RawField) :
    ∃ name size, c.afterFields fs = { c.updateFields (· ++ fs.map RawField.field) with
      currentFieldName := name
      lastValueTotalSize := size
      totalFieldCount := c.totalFieldCount + fs.length } := by
  induction fs generalizing c with
  | nil =>
    refine ⟨c.currentFieldName, c.lastValueTotalSize, ?_⟩
    rw [updateFields]
    cases h : c.leadingHeadersCompleted <;> simp [afterFields, ← h]
  | cons f fs ih =>
    obtain ⟨name, size, hfields⟩ := ih (c := c.afterField f.field) rfl
    refine ⟨name, size, ?_⟩
    rw [afterFields, List.foldl_cons, ← afterFields, hfields, afterField, updateFields, updateFields, updateFields]
    cases c.leadingHeadersCompleted <;> simp [hlast, Nat.add_comm, Nat.add_left_comm]

theorem run_chunk (chunk : RawChunk) (hbody : c.body.length ≤ limits.maxBodySize) :
    c.run limits chunk.callbacks =
      if c.body.length + chunk.pieces.flatten.length ≤ limits.maxBodySize then
        some { c with
          body := c.body ++ chunk.pieces.flatten
          chunkedInfoBlock.chunks := c.chunkedInfoBlock.chunks ++ [⟨c.body.length, chunk.pieces.flatten.length⟩] }
      else none := by
  have hsize : chunk.pieces.flatten.length ≠ 0 := fun h => chunk.ne_nil (List.eq_nil_of_length_eq_zero h)
  rw [RawChunk.callbacks, run_cons, handle, if_pos hsize, Option.bind_some, run_append, run_body rfl (by exact hbody),
    List.length_append]
  split <;> rfl

theorem run_chunks (chunks : List RawChunk) (hbody : c.body.length ≤ limits.maxBodySize) :
    c.run limits (chunks.flatMap RawChunk.callbacks) =
      if c.body.length + (chunks.flatMap fun chunk => chunk.pieces.flatten).length ≤ limits.maxBodySize then
        some { c with
          body := c.body ++ chunks.flatMap fun chunk => chunk.pieces.flatten
          chunkedInfoBlock.chunks := c.chunkedInfoBlock.chunks ++ RawBody.chunksFrom c.body.length chunks }
      else none := by
  induction chunks generalizing c with
  | nil =>
    rw [if_pos (by simpa using hbody)]
    simp [RawBody.chunksFrom, run]
  | cons chunk chunks ih =>
    rw [List.flatMap_cons, run_append, run_chunk chunk hbody, List.flatMap_cons, List.length_append, ← Nat.add_assoc]
    by_cases h : c.body.length + chunk.pieces.flatten.length ≤ limits.maxBodySize
    · rw [if_pos h, Option.bind_some, ih (by simpa using h)]
      simp only [List.length_append, List.append_assoc, List.singleton_append, RawBody.chunksFrom]
    · rw [if_neg h, if_neg (by omega)]
      rfl

def afterBody (c : HttpParserCtx) (body : RawBody) (name : Str) (size : ℕ) : HttpParserCtx :=
  { c with
    body := body.text
    currentFieldName := name
    lastValueTotalSize := size
    leadingHeadersCompleted := true
    chunkedInfoBlock := ⟨c.chunkedInfoBlock.chunks ++ body.chunks,
      c.chunkedInfoBlock.trailingFields ++ body.trailing.map RawField.field⟩
    totalFieldCount := c.totalFieldCount + body.trailing.length }

variable (limits) in
theorem run_rawBody (hlast : c.lastWasValue = true) (hbody : c.body = [])
    (hcount : c.totalFieldCount ≤ limits.maxFieldCount) (body : RawBody) :
    ∃ name size, c.run limits body.callbacks =
      if body.text.length ≤ limits.maxBodySize ∧ (∀ f ∈ body.trailing, f.Fits limits) ∧
        c.totalFieldCount + body.trailing.length ≤ limits.maxFieldCount then some (c.afterBody body name size)
      else none := by
  cases body with
  | absent =>
    refine ⟨c.currentFieldName, c.lastValueTotalSize, ?_⟩
    rw [if_pos ⟨Nat.zero_le _, by simp [RawBody.trailing], hcount⟩, RawBody.callbacks, run_cons, handle, if_neg (by simp),
      Option.bind_some, afterBody]
    simp [RawBody.text, RawBody.chunks, RawBody.trailing, run, ← hbody]
  | whole pieces =>
    refine ⟨c.currentFieldName, c.lastValueTotalSize, ?_⟩
    have htrailing : (RawBody.whole pieces).trailing = [] := rfl
    rw [RawBody.callbacks, run_cons, handle, RawBody.text, Option.getD_some]
    by_cases h : pieces.flatten.length ≤ limits.maxBodySize
    · rw [if_neg (by omega), if_pos ⟨h, by simp [htrailing], hcount⟩, Option.bind_some, run_body (by exact hbody) (Nat.zero_le _),
        List.nil_append, if_pos h, afterBody]
      simp [RawBody.text, RawBody.chunks, RawBody.trailing]
    · rw [if_pos (by omega), if_neg fun h' => h h'.1]
      rfl
  | chunked chunks trailing =>
    obtain ⟨d, hd⟩ : ∃ d : HttpParserCtx, d = { c with
      body := chunks.flatMap fun chunk => chunk.pieces.flatten
      leadingHeadersCompleted := true
      chunkedInfoBlock.chunks := c.chunkedInfoBlock.chunks ++ RawBody.chunksFrom 0 chunks } := ⟨_, rfl⟩
    have hlast' : d.lastWasValue = true := by rw [hd]; exact hlast
    have htotal : d.totalFieldCount = c.totalFieldCount := by rw [hd]
    obtain ⟨name, size, hfields⟩ := afterFields_eq hlast' trailing
    refine ⟨name, size, ?_⟩
    rw [RawBody.callbacks, run_cons, handle, if_neg (by simp), Option.bind_some, run_append, run_chunks _ (by simp [hbody])]
    simp only [hbody, List.length_nil, Nat.zero_add, List.nil_append]
    rw [← hd, RawBody.text, RawBody.trailing]
    by_cases h : (chunks.flatMap fun chunk => chunk.pieces.flatten).length ≤ limits.maxBodySize
    · rw [if_pos h, Option.bind_some, run_cons, handle, if_neg (not_not_intro rfl), Option.bind_some, run_append,
        run_fields hlast' (htotal.trans_le hcount), htotal]
      by_cases hfits : (∀ f ∈ trailing, f.Fits limits) ∧ c.totalFieldCount + trailing.length ≤ limits.maxFieldCount
      · rw [if_pos hfits, if_pos ⟨h, hfits⟩, Option.bind_some, hfields, afterBody, updateFields, hd]
        rfl
      · rw [if_neg hfits, if_neg fun h' => hfits h'.2]
        rfl
    · rw [if_neg h, if_neg fun h' => h h'.1]
      rfl

theorem handle_messageComplete (hlast : c.lastWasValue = true) (method : Method) (upgrade shouldKeepAlive : Bool) :
    c.handle limits (.messageComplete method upgrade shouldKeepAlive) = some { c with
      messageComplete := true
      header.method := method
      header.connection := if upgrade then .upgrade else if shouldKeepAlive then .keepAlive else .close } := by
  rw [handle]
  simp only [hlast, not_true_eq_false, false_and, ↓reduceIte]

variable (limits) in
theorem run_message (m : RawMessage) :
    ∃ name size total, initial.run limits m.callbacks =
      if m.Within limits then
        some ⟨m.header, m.body.text, name, size, true, true, ⟨m.body.chunks, m.body.trailing.map RawField.field⟩, true, total⟩
      else none := by
  obtain ⟨c, hc⟩ : ∃ c : HttpParserCtx, c = { initial with header.target := .ofString m.url.flatten } := ⟨_, rfl⟩
  have hlast : c.lastWasValue = true := by rw [hc]; rfl
  have hcount : c.totalFieldCount = 0 := by rw [hc]; rfl
  obtain ⟨name, size, hfields⟩ := afterFields_eq hlast m.fields
  obtain ⟨d, hd⟩ : ∃ d, d = c.afterFields m.fields := ⟨_, rfl⟩
  have hd' : d = { c with
      header.fields := m.fields.map RawField.field
      currentFieldName := name
      lastValueTotalSize := size
      totalFieldCount := m.fields.length } := by
    rw [hd, hfields, updateFields, hc]
    simp [initial]
  have hlast' : d.lastWasValue = true := by rw [hd']; exact hlast
  have htotal : d.totalFieldCount = m.fields.length := by rw [hd']
  have hurl : initial.run limits (m.url.map .url) = if m.url.flatten.length ≤ limits.maxUrlSize then some c else none := by
    rw [run_url (t := []) rfl (Nat.zero_le _), List.nil_append, hc]
  rw [RawMessage.callbacks, run_append, hurl]
  by_cases hurl : m.url.flatten.length ≤ limits.maxUrlSize
  · rw [if_pos hurl, Option.bind_some, run_append, run_fields hlast (by rw [hcount]; exact Nat.zero_le _), hcount,
      Nat.zero_add, ← hd]
    by_cases hleading : (∀ f ∈ m.fields, f.Fits limits) ∧ m.fields.length ≤ limits.maxFieldCount
    · obtain ⟨name', size', hbody⟩ := run_rawBody limits hlast' (by rw [hd', hc]; rfl) (htotal.trans_le hleading.2) m.body
      refine ⟨name', size', d.totalFieldCount + m.body.trailing.length, ?_⟩
      rw [if_pos hleading, Option.bind_some, run_append, hbody, htotal]
      by_cases hrest : m.body.text.length ≤ limits.maxBodySize ∧ (∀ f ∈ m.body.trailing, f.Fits limits) ∧
          m.fields.length + m.body.trailing.length ≤ limits.maxFieldCount
      · have hwithin : m.Within limits := by
          rw [RawMessage.Within, List.forall_mem_append, List.length_append]
          exact ⟨hurl, ⟨hleading.1, hrest.2.1⟩, hrest.2.2, hrest.1⟩
        rw [if_pos hrest, if_pos hwithin, Option.bind_some, run_cons, handle_messageComplete (by exact hlast'), hd', hc]
        rfl
      · rw [if_neg hrest, if_neg]
        · rfl
        · rw [RawMessage.Within, List.forall_mem_append, List.length_append]
          rintro ⟨-, hfits, hlength, htext⟩
          exact hrest ⟨htext, hfits.2, hlength⟩
    · refine ⟨[], 0, 0, ?_⟩
      rw [if_neg hleading, if_neg]
      · rfl
      · rw [RawMessage.Within, List.forall_mem_append, List.length_append]
        rintro ⟨-, hfits, hlength, -⟩
        exact hleading ⟨hfits.1, by omega⟩
  · refine ⟨[], 0, 0, ?_⟩
    rw [if_neg hurl, if_neg fun h => hurl h.1]
    rfl

theorem handOver_message (m : RawMessage) (name : Str) (size total : ℕ) (d : HttpParserCtx) (hd : d =
    ⟨m.header, m.body.text, name, size, true, true, ⟨m.body.chunks, m.body.trailing.map RawField.field⟩, true, total⟩) :
    d.handOver = (m.received, initial) := by
  subst hd
  rw [handOver, makeChunkedInputInfoIfNecessary, RawMessage.received]
  simp only [ne_eq, List.length_eq_zero_iff]
  split
  · rfl
  · next h =>
    rw [not_or, not_not, not_not] at h
    rw [reset, h.1, h.2]
    rfl

end HttpParserCtx

end Runs

section Results

variable {limits : IncomingHttpMsgLimits}

theorem receive_within {m : RawMessage} (h : m.Within limits) (messages : List RawMessage) :
    receive limits .initial (m :: messages) = m.received :: receive limits .initial messages := by
  obtain ⟨name, size, total, hrun⟩ := HttpParserCtx.run_message limits m
  rw [receive, hrun, if_pos h]
  dsimp only
  rw [HttpParserCtx.handOver_message m name size total _ rfl]

/-- In whatever pieces the parser gives them, requests come out as they are, one after the other, up to the first one that
exceeds a limit; nothing of one request gets into the next one. -/
theorem requests_received (messages : List RawMessage) :
    receive limits .initial messages =
      (messages.takeWhile (fun m => decide (m.Within limits))).map RawMessage.received := by
  induction messages with
  | nil => rfl
  | cons m messages ih =>
    by_cases h : m.Within limits
    · rw [List.takeWhile_cons_of_pos (by exact decide_eq_true h), List.map_cons, ← ih, receive_within h]
    · obtain ⟨name, size, total, hrun⟩ := HttpParserCtx.run_message limits m
      rw [List.takeWhile_cons_of_neg (by simpa using h), receive, hrun, if_neg h]
      rfl

theorem chunksFrom_views (chunks : List RawChunk) (front : Str) :
    (RawBody.chunksFrom front.length chunks).map
        (·.makeStringView (front ++ chunks.flatMap fun chunk => chunk.pieces.flatten)) =
      chunks.map fun chunk => some chunk.pieces.flatten := by
  induction chunks generalizing front with
  | nil => rfl
  | cons chunk chunks ih =>
    have hsize : 0 < chunk.pieces.flatten.length := List.length_pos_iff.mpr chunk.ne_nil
    have hrest := ih (front ++ chunk.pieces.flatten)
    rw [List.length_append, List.append_assoc] at hrest
    rw [RawBody.chunksFrom, List.map_cons, List.map_cons, List.flatMap_cons, hrest, ChunkInfo.makeStringView, if_neg]
    · rw [List.drop_left, List.take_left]
    · dsimp only
      rw [List.length_append, List.length_append]
      omega

/-- Every chunk of a body can be looked at alone, and is what was sent, whatever requests came before. -/
theorem received_chunks_viewed {before after : List RawMessage} {m : RawMessage} {chunks : List RawChunk}
    {trailing : List RawField} (hbefore : ∀ b ∈ before, b.Within limits) (hbody : m.body = .chunked chunks trailing)
    (hwithin : m.Within limits) :
    ∃ r, (receive limits .initial (before ++ m :: after))[before.length]? = some r ∧
      r.body = chunks.flatMap (fun chunk => chunk.pieces.flatten) ∧
      (r.chunkedInputInfo = none ↔ chunks = [] ∧ trailing = []) ∧
      ∀ info, r.chunkedInputInfo = some info → info.trailingFields = trailing.map RawField.field ∧
        info.chunks.map (·.makeStringView r.body) = chunks.map fun chunk => some chunk.pieces.flatten := by
  have hchunks : RawBody.chunksFrom 0 chunks = [] ↔ chunks = [] := by cases chunks <;> simp [RawBody.chunksFrom]
  refine ⟨m.received, ?_, ?_, ?_, ?_⟩
  · induction before with
    | nil =>
      rw [List.nil_append, receive_within hwithin]
      rfl
    | cons b before ih =>
      rw [List.cons_append, receive_within (hbefore b List.mem_cons_self), List.length_cons, List.getElem?_cons_succ]
      exact ih fun b' hb' => hbefore b' (List.mem_cons_of_mem _ hb')
  · rw [RawMessage.received, hbody]
    rfl
  · rw [RawMessage.received, hbody]
    simp only [RawBody.chunks, RawBody.trailing, ne_eq, List.map_eq_nil_iff, hchunks, ite_eq_right_iff, reduceCtorEq,
      imp_false, not_or, not_not]
  · intro info hinfo
    rw [RawMessage.received, hbody] at hinfo ⊢
    dsimp only at hinfo ⊢
    split at hinfo
    · cases hinfo
      exact ⟨rfl, chunksFrom_views chunks []⟩
    · cases hinfo

def sampleMessage : RawMessage where
  url := [ascii "/a", ascii "?b"]
  fields := []
  body := .chunked [⟨[ascii "He", ascii "llo"], by decide⟩, ⟨[ascii "!"], by decide⟩] [⟨ascii "X", [], [], []⟩]
  method := .post
  upgrade := false
  shouldKeepAlive := true

theorem received_chunks_viewed_hello :
    ∃ r, (receive ⟨8, 8, 8, 8, 8⟩ .initial [sampleMessage, sampleMessage])[1]? = some r ∧ r.body = ascii "Hello!" ∧
      ∀ info, r.chunkedInputInfo = some info →
        info.chunks.map (·.makeStringView r.body) = [some (ascii "Hello"), some (ascii "!")] := by
  have hwithin : sampleMessage.Within ⟨8, 8, 8, 8, 8⟩ := by decide
  have hbefore : ∀ b ∈ [sampleMessage], b.Within ⟨8, 8, 8, 8, 8⟩ := List.forall_mem_singleton.mpr hwithin
  obtain ⟨r, hr, hbody, -, hinfo⟩ := @received_chunks_viewed ⟨8, 8, 8, 8, 8⟩ _ [] _ _ _ hbefore rfl hwithin
  exact ⟨r, hr, hbody, fun info h => (hinfo info h).2⟩

end Results

end NgkNet.Restinio.Http
