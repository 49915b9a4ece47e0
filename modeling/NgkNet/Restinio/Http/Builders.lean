import NgkNet.Restinio.Http.Coordinator
import NgkNet.Restinio.Http.Messages

set_option autoImplicit false

namespace NgkNet.Restinio.Http

open Ascii Reader

structure Parts where
  flags : ResponseOutputFlags
  group : WriteGroup

section Base

inductive BaseCall where
  | header (change : ResponseHeader → ResponseHeader)
  | appendHeader (name value : Str)
  | appendHeaderDateField (date : Str)
  | connectionClose
  | connectionKeepAlive

def BaseCall.run (h : ResponseHeader) : BaseCall → ResponseHeader
  | header change => change h
  | appendHeader name value => { h with fields := h.fields.addField name value }
  | appendHeaderDateField date => { h with fields := h.fields.setFieldById (ascii "Date") date }
  | connectionClose => h.setShouldKeepAlive false
  -- The attribute is read here and not set.
  | connectionKeepAlive => h

def createHeader (statusLine : StatusLine) (shouldKeepAlive : Bool) : ResponseHeader :=
  (ResponseHeader.ofStatusLine statusLine .keepAlive).setShouldKeepAlive shouldKeepAlive

def headerGroup (header : ResponseHeader) (presence : ContentLengthFieldPresence) (items : List WritableItem)
    (wscb : Option Notificator) : WriteGroup where
  items := .trivialWriteOperation (createHeaderString header presence) :: items
  statusLineSize := calculateStatusLineSize header
  afterWriteNotificator := wscb
  statusLine := .inr ⟨_, _, rfl, calculateStatusLineSize_le header presence⟩

theorem headerGroup_bytes (header : ResponseHeader) (presence : ContentLengthFieldPresence) (items : List WritableItem)
    (wscb : Option Notificator) :
    (headerGroup header presence items wscb).bytes = createHeaderString header presence ++ items.flatMap WritableItem.bytes :=
  rfl

end Base

section Controlled

structure ControlledBuilder where
  -- The element in front that is reserved for the header is left out of the parts.
  header : ResponseHeader
  connected : Bool
  bodySize : ℕ
  responseParts : List WritableItem

namespace ControlledBuilder

def create (statusLine : StatusLine) (shouldKeepAlive : Bool) : ControlledBuilder :=
  ⟨createHeader statusLine shouldKeepAlive, true, 0, []⟩

variable (b : ControlledBuilder)

def setBody (body : WritableItem) : ControlledBuilder :=
  { b with responseParts := if 0 < body.size then [body] else [], bodySize := body.size }

def appendBody (part : WritableItem) : ControlledBuilder :=
  if 0 < part.size then { b with responseParts := b.responseParts ++ [part], bodySize := b.bodySize + part.size } else b

def done (wscb : Option Notificator) : Except Exception (Parts × ControlledBuilder) :=
  if b.connected then
    let header := { b.header with contentLength := b.bodySize }
    .ok (⟨⟨.finalParts, responseConnectionAttr header.shouldKeepAlive⟩,
      headerGroup header .addContentLength b.responseParts wscb⟩,
      { b with header := header, connected := false, responseParts := [] })
  else .error .doneCalledTwice

end ControlledBuilder

inductive ControlledCall where
  | base (call : BaseCall)
  | setBody (body : WritableItem)
  | appendBody (part : WritableItem)

namespace ControlledCall

def run (b : ControlledBuilder) : ControlledCall → ControlledBuilder
  | base call => { b with header := call.run b.header }
  | setBody body => b.setBody body
  | appendBody part => b.appendBody part

def describe (r : ResponseHeader × Str) : ControlledCall → ResponseHeader × Str
  | base call => (call.run r.1, r.2)
  | setBody body => (r.1, body.bytes)
  | appendBody part => (r.1, r.2 ++ part.bytes)

end ControlledCall

structure ControlledBuilder.Holds (b : ControlledBuilder) (r : ResponseHeader × Str) : Prop where
  header : b.header = r.1
  connected : b.connected = true
  size : b.bodySize = r.2.length
  bytes : b.responseParts.flatMap WritableItem.bytes = r.2

theorem ControlledBuilder.Holds.run {b : ControlledBuilder} {r : ResponseHeader × Str} (h : b.Holds r) (call : ControlledCall) :
    (call.run b).Holds (call.describe r) := by
  have hempty : ∀ item : WritableItem, ¬ 0 < item.size → item.bytes = [] := by
    intro item hsize
    rw [WritableItem.size, List.length_pos_iff, not_not] at hsize
    exact hsize
  cases call with
  | base call => exact ⟨congrArg (BaseCall.run · call) h.header, h.connected, h.size, h.bytes⟩
  | setBody body =>
    refine ⟨h.header, h.connected, rfl, ?_⟩
    change (if 0 < body.size then [body] else []).flatMap WritableItem.bytes = body.bytes
    split
    · exact List.append_nil _
    · next hsize => rw [hempty body hsize, List.flatMap_nil]
  | appendBody part =>
    rw [ControlledCall.run, appendBody, ControlledCall.describe]
    split
    · refine ⟨h.header, h.connected, ?_, ?_⟩
      · dsimp only
        rw [h.size, List.length_append, WritableItem.size]
      · dsimp only
        rw [List.flatMap_append, h.bytes, List.flatMap_singleton]
    · next hsize =>
      rw [hempty part hsize, List.append_nil]
      exact h

theorem ControlledBuilder.Holds.foldl {b : ControlledBuilder} {r : ResponseHeader × Str} (h : b.Holds r)
    (calls : List ControlledCall) : (calls.foldl ControlledCall.run b).Holds (calls.foldl ControlledCall.describe r) := by
  induction calls generalizing b r with
  | nil => exact h
  | cons call calls ih => exact ih (h.run call)

def described (statusLine : StatusLine) (shouldKeepAlive : Bool) (calls : List ControlledCall) : ResponseHeader × Str :=
  calls.foldl ControlledCall.describe (createHeader statusLine shouldKeepAlive, [])

theorem controlled_done (statusLine : StatusLine) (shouldKeepAlive : Bool) (calls : List ControlledCall)
    (wscb : Option Notificator) {r : ResponseHeader × Str} (hr : described statusLine shouldKeepAlive calls = r) :
    ∃ parts b, (calls.foldl ControlledCall.run (.create statusLine shouldKeepAlive)).done wscb = .ok (parts, b) ∧
      parts.flags = ⟨.finalParts, responseConnectionAttr r.1.shouldKeepAlive⟩ ∧
      parts.group.bytes = createHeaderString { r.1 with contentLength := r.2.length } .addContentLength ++ r.2 ∧
      b.connected = false := by
  have hstart : (ControlledBuilder.create statusLine shouldKeepAlive).Holds (createHeader statusLine shouldKeepAlive, []) :=
    ⟨rfl, rfl, rfl, rfl⟩
  obtain ⟨hheader, hconnected, hsize, hbytes⟩ := hstart.foldl calls
  rw [← described, hr] at hheader hsize hbytes
  refine ⟨_, _, if_pos hconnected, ?_, ?_, rfl⟩
  · dsimp only
    rw [hheader]
    rfl
  · dsimp only
    rw [headerGroup_bytes, hheader, hsize, hbytes]

/-- What the builder that counts the length sends is read back as the response that the calls described. -/
theorem controlled_response_read_back (statusLine : StatusLine) (shouldKeepAlive : Bool) (calls : List ControlledCall)
    (wscb : Option Notificator) {h : ResponseHeader} {body : Str}
    (hdescribed : described statusLine shouldKeepAlive calls = (h, body)) (hclean : h.Clean)
    (hbody : ¬ bodyless h.statusLine.code ∨ body = []) (hcoding : h.fields.valuesOf (ascii "Transfer-Encoding") = [])
    (hlength : h.fields.valuesOf (ascii "Content-Length") = []) :
    ∃ parts b, (calls.foldl ControlledCall.run (.create statusLine shouldKeepAlive)).done wscb = .ok (parts, b) ∧
      parts.flags = ⟨.finalParts, responseConnectionAttr h.shouldKeepAlive⟩ ∧
      Reads readMessage parts.group.bytes ⟨h.httpMajor, h.httpMinor, h.statusLine,
        sentFields { h with contentLength := body.length } .addContentLength, body⟩ ∧
      ∀ wscb', b.done wscb' = .error .doneCalledTwice := by
  obtain ⟨parts, b, hdone, hflags, hbytes, hconnected⟩ := controlled_done statusLine shouldKeepAlive calls wscb hdescribed
  refine ⟨parts, b, hdone, hflags, ?_, ?_⟩
  · rw [hbytes]
    exact reads_readMessage_length (h := { h with contentLength := body.length })
      ⟨hclean.major, hclean.minor, hclean.code, hclean.reason, hclean.fields⟩ hbody hcoding hlength rfl
  · intro wscb'
    rw [ControlledBuilder.done, hconnected]
    rfl

theorem controlled_response_read_back_hello :
    ∃ parts b, ([.base (.appendHeader (ascii "Server") (ascii "s")), .setBody (.trivialWriteOperation (ascii "hello")),
        .appendBody (.trivialWriteOperation (ascii "!"))].foldl ControlledCall.run (.create statusOk true)).done none =
          .ok (parts, b) ∧
      readMessage.run parts.group.bytes = some (⟨1, 1, statusOk, [(ascii "Connection", ascii "keep-alive"),
        (ascii "Content-Length", ascii "6"), (ascii "Server", ascii "s")], ascii "hello!"⟩, []) := by
  obtain ⟨parts, b, hdone, -, hreads, -⟩ := controlled_response_read_back statusOk true
    [.base (.appendHeader (ascii "Server") (ascii "s")), .setBody (.trivialWriteOperation (ascii "hello")),
      .appendBody (.trivialWriteOperation (ascii "!"))] none rfl ⟨by decide, by decide, by decide, by decide, by decide⟩
    (.inl (by decide)) (by decide) (by decide)
  have hread := hreads []
  rw [List.append_nil] at hread
  exact ⟨parts, b, hdone, hread⟩

end Controlled

section Streaming

/-- How the parts of a body that is sent bit by bit are collected and put into buffers. -/
structure Output (κ : Type) where
  prepare : ResponseHeader → ResponseHeader
  presence : ContentLengthFieldPresence
  add : List WritableItem → κ → List WritableItem
  bufs : ResponseParts → List WritableItem → List WritableItem

structure StreamBuilder where
  header : ResponseHeader
  connected : Bool
  headerWasSent : Bool
  shouldKeepAliveWhenHeaderWasSent : Bool
  pending : List WritableItem

namespace StreamBuilder

variable {κ : Type} (O : Output κ)

def create (statusLine : StatusLine) (shouldKeepAlive : Bool) : StreamBuilder :=
  ⟨createHeader statusLine shouldKeepAlive, true, false, true, []⟩

variable (b : StreamBuilder)

def sendReadyData (parts : ResponseParts) (wscb : Option Notificator) : List Parts × StreamBuilder :=
  if b.headerWasSent then
    let items := O.bufs parts b.pending
    (if items ≠ [] ∨ wscb.isSome ∨ parts = .finalParts then
        [⟨⟨parts, responseConnectionAttr b.shouldKeepAliveWhenHeaderWasSent⟩, ⟨items, 0, wscb, .inl rfl⟩⟩]
      else [],
      { b with pending := [] })
  else
    let header := O.prepare b.header
    ([⟨⟨parts, responseConnectionAttr header.shouldKeepAlive⟩, headerGroup header O.presence (O.bufs parts b.pending) wscb⟩],
      { b with
        header := header
        headerWasSent := true
        shouldKeepAliveWhenHeaderWasSent := header.shouldKeepAlive
        pending := [] })

def flush (wscb : Option Notificator) : List Parts × StreamBuilder :=
  if b.connected then b.sendReadyData O .notFinalParts wscb else ([], b)

def done (wscb : Option Notificator) : Except Exception (List Parts × StreamBuilder) :=
  if b.connected then .ok ({ b with connected := false }.sendReadyData O .finalParts wscb) else .error .doneCalledTwice

end StreamBuilder

inductive StreamCall (κ : Type) where
  | base (call : BaseCall)
  | add (content : κ)
  | flush (wscb : Option Notificator)

namespace StreamCall

variable {κ : Type} (O : Output κ)

def run (b : StreamBuilder) : StreamCall κ → List Parts × StreamBuilder
  | base call => ([], { b with header := call.run b.header })
  | add content => ([], { b with pending := O.add b.pending content })
  | flush wscb => b.flush O wscb

def runAll : List (StreamCall κ) → StreamBuilder → List Parts × StreamBuilder
  | [], b => ([], b)
  | call :: calls, b =>
    ((call.run O b).1 ++ (runAll calls (call.run O b).2).1, (runAll calls (call.run O b).2).2)

def sentHeader (h : ResponseHeader) : List (StreamCall κ) → ResponseHeader
  | [] => h
  | base call :: calls => sentHeader (call.run h) calls
  | add _ :: calls => sentHeader h calls
  | flush _ :: _ => h

def sentContent (pending : List WritableItem) : List (StreamCall κ) → Str
  | [] => (O.bufs .finalParts pending).flatMap WritableItem.bytes
  | base _ :: calls => sentContent pending calls
  | add content :: calls => sentContent (O.add pending content) calls
  | flush _ :: calls => (O.bufs .notFinalParts pending).flatMap WritableItem.bytes ++ sentContent [] calls

end StreamCall

namespace StreamBuilder

variable {κ : Type} {O : Output κ} {b : StreamBuilder} {parts : ResponseParts} {wscb : Option Notificator}

def allBytes (outs : List Parts) : Str := outs.flatMap fun out => out.group.bytes

def attr (O : Output κ) (b : StreamBuilder) (h : ResponseHeader) : ResponseConnection :=
  responseConnectionAttr (if b.headerWasSent then b.shouldKeepAliveWhenHeaderWasSent else (O.prepare h).shouldKeepAlive)

def headerText (O : Output κ) (b : StreamBuilder) (h : ResponseHeader) : Str :=
  if b.headerWasSent then [] else createHeaderString (O.prepare h) O.presence

theorem sendReadyData_bytes : allBytes (b.sendReadyData O parts wscb).1 =
    headerText O b b.header ++ (O.bufs parts b.pending).flatMap WritableItem.bytes := by
  rw [sendReadyData, headerText]
  cases b.headerWasSent with
  | false => exact List.append_nil _
  | true =>
    rw [if_pos rfl, if_pos rfl, List.nil_append]
    dsimp only
    split
    · exact List.append_nil _
    · next hnone =>
      have hitems : O.bufs parts b.pending = [] := by
        by_contra hne
        exact hnone (.inl hne)
      rw [hitems]
      rfl

variable (O b wscb) in
theorem sendReadyData_flags : ∀ out ∈ (b.sendReadyData O parts wscb).1, out.flags = ⟨parts, b.attr O b.header⟩ := by
  rw [sendReadyData, attr]
  cases b.headerWasSent with
  | false => exact List.forall_mem_singleton.mpr rfl
  | true =>
    rw [if_pos rfl, if_pos rfl]
    dsimp only
    split
    · exact List.forall_mem_singleton.mpr rfl
    · exact fun out hout => absurd hout List.not_mem_nil

variable (O b wscb) in
theorem sendReadyData_final : ∃ last, (b.sendReadyData O .finalParts wscb).1 = [last] := by
  rw [sendReadyData]
  cases b.headerWasSent with
  | false => exact ⟨_, rfl⟩
  | true =>
    rw [if_pos rfl]
    exact ⟨_, if_pos (.inr (.inr rfl))⟩

variable (O b parts wscb) in
theorem sendReadyData_state : (b.sendReadyData O parts wscb).2.headerWasSent = true ∧
    (b.sendReadyData O parts wscb).2.pending = [] ∧ (b.sendReadyData O parts wscb).2.connected = b.connected ∧
    ∀ h, (b.sendReadyData O parts wscb).2.attr O h = b.attr O b.header := by
  rw [sendReadyData, attr]
  cases b.headerWasSent with
  | false => exact ⟨rfl, rfl, rfl, fun _ => rfl⟩
  | true => exact ⟨rfl, rfl, rfl, fun _ => rfl⟩

theorem runAll_done (calls : List (StreamCall κ)) (hconnected : b.connected = true) (wscb : Option Notificator) :
    ∃ outs last b₁ b₂, StreamCall.runAll O calls b = (outs, b₁) ∧ b₁.done O wscb = .ok ([last], b₂) ∧
      allBytes (outs ++ [last]) =
        headerText O b (StreamCall.sentHeader b.header calls) ++ StreamCall.sentContent O b.pending calls ∧
      (∀ out ∈ outs, out.flags = ⟨.notFinalParts, b.attr O (StreamCall.sentHeader b.header calls)⟩) ∧
      last.flags = ⟨.finalParts, b.attr O (StreamCall.sentHeader b.header calls)⟩ ∧ b₂.connected = false := by
  induction calls generalizing b with
  | nil =>
    obtain ⟨last, hlast⟩ := sendReadyData_final O { b with connected := false } wscb
    refine ⟨[], last, b, ({ b with connected := false }.sendReadyData O .finalParts wscb).2, rfl, ?_, ?_, by simp, ?_, ?_⟩
    · rw [done, if_pos hconnected, ← hlast]
    · rw [List.nil_append, ← hlast, sendReadyData_bytes]
      rfl
    · exact sendReadyData_flags O { b with connected := false } wscb last (by rw [hlast]; simp)
    · exact (sendReadyData_state _ _ _ _).2.2.1
  | cons call calls ih =>
    cases call with
    | base call =>
      obtain ⟨outs, last, b₁, b₂, hrun, hdone, hbytes, hflags, hlast, hb₂⟩ :=
        ih (b := { b with header := call.run b.header }) hconnected
      exact ⟨outs, last, b₁, b₂, by rw [StreamCall.runAll, StreamCall.run, hrun]; rfl, hdone, hbytes, hflags, hlast, hb₂⟩
    | add content =>
      obtain ⟨outs, last, b₁, b₂, hrun, hdone, hbytes, hflags, hlast, hb₂⟩ :=
        ih (b := { b with pending := O.add b.pending content }) hconnected
      exact ⟨outs, last, b₁, b₂, by rw [StreamCall.runAll, StreamCall.run, hrun]; rfl, hdone, hbytes, hflags, hlast, hb₂⟩
    | flush cb =>
      obtain ⟨hsent, hpending, hconnected', hattr⟩ := sendReadyData_state O b .notFinalParts cb
      obtain ⟨outs, last, b₁, b₂, hrun, hdone, hbytes, hflags, hlast, hb₂⟩ := ih (hconnected'.trans hconnected)
      have hflush : b.flush O cb = b.sendReadyData O .notFinalParts cb := if_pos hconnected
      rw [headerText, if_pos hsent, List.nil_append, hpending] at hbytes
      rw [hattr] at hlast
      refine ⟨(b.sendReadyData O .notFinalParts cb).1 ++ outs, last, b₁, b₂, ?_, hdone, ?_, ?_, hlast, hb₂⟩
      · rw [StreamCall.runAll, StreamCall.run, hflush, hrun]
      · rw [List.append_assoc, allBytes, List.flatMap_append, ← allBytes, ← allBytes, sendReadyData_bytes, hbytes,
          List.append_assoc]
        rfl
      · rw [List.forall_mem_append]
        refine ⟨sendReadyData_flags O b cb, fun out hout => ?_⟩
        rw [hflags out hout, hattr]
        rfl

end StreamBuilder

end Streaming

section UserControlled

inductive UserContent where
  | setBody (body : WritableItem)
  | appendBody (part : WritableItem)

def userControlledOutput : Output UserContent where
  prepare h := h
  presence := .addContentLength
  add
    | _, .setBody body => if 0 < body.size then [body] else []
    | pending, .appendBody part => if part.size = 0 then pending else pending ++ [part]
  bufs _ pending := pending

def userBody (pending : Str) : List (StreamCall UserContent) → Str
  | [] => pending
  | .base _ :: calls => userBody pending calls
  | .add (.setBody body) :: calls => userBody body.bytes calls
  | .add (.appendBody part) :: calls => userBody (pending ++ part.bytes) calls
  | .flush _ :: calls => pending ++ userBody [] calls

theorem sentContent_userControlled (calls : List (StreamCall UserContent)) (pending : List WritableItem) :
    StreamCall.sentContent userControlledOutput pending calls = userBody (pending.flatMap WritableItem.bytes) calls := by
  induction calls generalizing pending with
  | nil => rfl
  | cons call calls ih =>
    cases call with
    | base call => exact ih pending
    | flush wscb =>
      rw [StreamCall.sentContent, userBody, ih]
      rfl
    | add content =>
      rw [StreamCall.sentContent, ih]
      cases content with
      | setBody body =>
        rw [userBody, userControlledOutput]
        dsimp only
        split
        · rw [List.flatMap_singleton]
        · next hsize =>
          rw [WritableItem.size, List.length_pos_iff, not_not] at hsize
          rw [hsize, List.flatMap_nil]
      | appendBody part =>
        rw [userBody, userControlledOutput]
        dsimp only
        split
        · next hsize =>
          rw [WritableItem.size, List.length_eq_zero_iff] at hsize
          rw [hsize, List.append_nil]
        · rw [List.flatMap_append, List.flatMap_singleton]

/-- A response that is sent in parts is the header as it was at the first flush and then the body; with the right length
in the header it is read back as a whole. -/
theorem user_controlled_response_read_back (statusLine : StatusLine) (shouldKeepAlive : Bool)
    (calls : List (StreamCall UserContent)) (wscb : Option Notificator) {h : ResponseHeader}
    (hsent : StreamCall.sentHeader (createHeader statusLine shouldKeepAlive) calls = h) :
    ∃ outs last b b', StreamCall.runAll userControlledOutput calls (.create statusLine shouldKeepAlive) = (outs, b) ∧
      b.done userControlledOutput wscb = .ok ([last], b') ∧
      (∀ out ∈ outs, out.flags = ⟨.notFinalParts, responseConnectionAttr h.shouldKeepAlive⟩) ∧
      last.flags = ⟨.finalParts, responseConnectionAttr h.shouldKeepAlive⟩ ∧
      StreamBuilder.allBytes (outs ++ [last]) = createHeaderString h .addContentLength ++ userBody [] calls ∧
      (h.Clean → h.contentLength = (userBody [] calls).length →
        (¬ bodyless h.statusLine.code ∨ userBody [] calls = []) →
        h.fields.valuesOf (ascii "Transfer-Encoding") = [] → h.fields.valuesOf (ascii "Content-Length") = [] →
        Reads readMessage (StreamBuilder.allBytes (outs ++ [last]))
          ⟨h.httpMajor, h.httpMinor, h.statusLine, sentFields h .addContentLength, userBody [] calls⟩) := by
  obtain ⟨outs, last, b, b', hrun, hdone, hbytes, hflags, hlast, -⟩ := StreamBuilder.runAll_done (O := userControlledOutput)
    (b := .create statusLine shouldKeepAlive) calls rfl wscb
  rw [sentContent_userControlled] at hbytes
  change StreamCall.sentHeader (StreamBuilder.create statusLine shouldKeepAlive).header calls = h at hsent
  rw [hsent] at hbytes hflags hlast
  refine ⟨outs, last, b, b', hrun, hdone, hflags, hlast, hbytes, fun hclean hsize hbody hcoding hlength => ?_⟩
  rw [hbytes]
  exact reads_readMessage_length hclean hbody hcoding hlength hsize

theorem user_controlled_response_read_back_parts :
    ∃ outs last b b', StreamCall.runAll userControlledOutput [.base (.header fun h => { h with contentLength := 3 }),
        .add (.appendBody (.trivialWriteOperation (ascii "a"))), .flush none,
        .add (.setBody (.trivialWriteOperation (ascii "bc")))] (.create statusOk false) = (outs, b) ∧
      b.done userControlledOutput none = .ok ([last], b') ∧
      readMessage.run (StreamBuilder.allBytes (outs ++ [last])) = some (⟨1, 1, statusOk,
        [(ascii "Connection", ascii "close"), (ascii "Content-Length", ascii "3")], ascii "abc"⟩, []) := by
  obtain ⟨outs, last, b, b', hrun, hdone, -, -, -, hreads⟩ := user_controlled_response_read_back statusOk false
    [.base (.header fun h => { h with contentLength := 3 }), .add (.appendBody (.trivialWriteOperation (ascii "a"))), .flush none,
      .add (.setBody (.trivialWriteOperation (ascii "bc")))] none rfl
  have hread := hreads ⟨by decide, by decide, by decide, by decide, by decide⟩ (by decide) (.inl (by decide)) (by decide)
    (by decide) []
  rw [List.append_nil] at hread
  exact ⟨outs, last, b, b', hrun, hdone, hread⟩

end UserControlled

section Chunked

section TransferEncoding

variable {h : ResponseHeader}

end TransferEncoding

end Chunked

section Closing

end Closing

end NgkNet.Restinio.Http
