import NgkNet.Restinio.Http.Builders
import NgkNet.Restinio.Http.Conversation

set_option autoImplicit false

namespace NgkNet.Restinio

open Ascii Reader Http

namespace Response

variable (r : Response)

def described : ResponseHeader × Str :=
  (⟨1, 1, 0, if r.keepAlive then .keepAlive else .close, r.status, r.fields⟩, r.body)

def header : ResponseHeader := { r.described.1 with contentLength := r.body.length }

def text : Str := createHeaderString r.header .addContentLength ++ r.body

def message : Message := ⟨1, 1, r.status, sentFields r.header .addContentLength, r.body⟩

theorem described_shouldKeepAlive : r.described.1.shouldKeepAlive = r.keepAlive := by
  rw [described, ResponseHeader.shouldKeepAlive]
  cases r.keepAlive <;> rfl

structure Clean : Prop where
  header : r.header.Clean
  body : ¬ bodyless r.status.code
  coding : r.header.fields.valuesOf (ascii "Transfer-Encoding") = []
  length : r.header.fields.valuesOf (ascii "Content-Length") = []

variable {r}

theorem Clean.reads (h : r.Clean) : Reads readMessage r.text r.message :=
  reads_readMessage_length h.header (.inl h.body) h.coding h.length rfl

theorem text_ne_nil : r.text ≠ [] := by
  simp [text, createHeaderString, statusLineText, ascii]

def whole (r : Response) : Whole where
  group := headerGroup r.header .addContentLength [.trivialWriteOperation r.body] none
  items := by simp [headerGroup]
  notificator := rfl

theorem whole_bytes (r : Response) : r.whole.group.bytes = r.text := by
  rw [whole, headerGroup_bytes, List.flatMap_singleton, WritableItem.bytes, text]

end Response

namespace Http

section Building

def Makes (calls : List ControlledCall) (status : StatusLine) (keepAlive : Bool) (r : Response) : Prop :=
  described status keepAlive calls = r.described

theorem makes_nil (status : StatusLine) (keepAlive : Bool) : Makes [] status keepAlive ⟨status, [], keepAlive, []⟩ := by
  cases keepAlive <;> rfl

section Calls

variable {calls : List ControlledCall} {status : StatusLine} {keepAlive : Bool} {b : ResponseBuilder}

theorem Makes.next (h : Makes calls status keepAlive b.response) {call : ControlledCall} {r : Response}
    (hr : call.describe b.response.described = r.described) : Makes (calls ++ [call]) status keepAlive r := by
  rw [Makes, described, List.foldl_append, ← described, h]
  exact hr

theorem Makes.appendHeader (h : Makes calls status keepAlive b.response) (name value : Str) :
    Makes (calls ++ [.base (.appendHeader name value)]) status keepAlive (b.appendHeader name value).response :=
  h.next rfl

theorem Makes.appendHeaderDateField (h : Makes calls status keepAlive b.response)
    (hdate : HeaderFields.find b.response.fields (ascii "Date") = none) (date : Str) :
    Makes (calls ++ [.base (.appendHeaderDateField date)]) status keepAlive
      (b.appendHeader (ascii "Date") date).response := by
  refine h.next ?_
  simp only [ControlledCall.describe, BaseCall.run, Response.described, HeaderFields.setFieldById, hdate]
  rfl

theorem Makes.connectionClose (h : Makes calls status keepAlive b.response) :
    Makes (calls ++ [.base .connectionClose]) status keepAlive b.connectionClose.response :=
  h.next rfl

theorem Makes.setStatusLine (h : Makes calls status keepAlive b.response) (line : StatusLine) :
    Makes (calls ++ [.base (.header fun header => { header with statusLine := line })]) status keepAlive
      (b.setStatusLine line).response :=
  h.next rfl

theorem Makes.setBody (h : Makes calls status keepAlive b.response) (body : Str) :
    Makes (calls ++ [.setBody (.trivialWriteOperation body)]) status keepAlive (b.setBody body).response :=
  h.next rfl

theorem Makes.appendBody (h : Makes calls status keepAlive b.response) (part : Str) :
    Makes (calls ++ [.appendBody (.trivialWriteOperation part)]) status keepAlive (b.appendBody part).response :=
  h.next rfl

theorem Makes.done {r : Response} (h : Makes calls status keepAlive r) (wscb : Option Notificator) :
    ∃ parts b, (calls.foldl ControlledCall.run (.create status keepAlive)).done wscb = .ok (parts, b) ∧
      parts.flags = ⟨.finalParts, responseConnectionAttr r.keepAlive⟩ ∧ parts.group.bytes = r.text := by
  obtain ⟨parts, b, hdone, hflags, hbytes, -⟩ := controlled_done status keepAlive calls wscb h
  refine ⟨parts, b, hdone, ?_, hbytes⟩
  rw [hflags, r.described_shouldKeepAlive]

end Calls

end Building

section Answers

inductive Verdict where
  | response (r : Response)
  | refused
  | failed

abbrev Outcome (σ : Type) := Except Exception HandlingStatus × σ × Exchange

def verdictOf {σ : Type} (out : Outcome σ) : Option Verdict :=
  -- There is none for a request that has been upgraded, and none for one that has been accepted without an immediate
  -- response.
  if out.2.2.upgraded ≠ [] then none
  else
    match out.1, out.2.2.responses with
    | .ok .accepted, [r] => some (.response r)
    | .ok .rejected, [] => some .refused
    | .ok .notHandled, [] => some .refused
    | .error _, [] => some .failed
    | _, _ => none

inductive Verdict.Is : Verdict → Reply → Prop where
  | response {r : Response} {whole : Whole} (h : whole.group.bytes = r.text) :
      Is (.response r) (.respond whole r.keepAlive)
  | refused {status : HandlingStatus} (h : status ≠ .accepted) : Is .refused (.refuse status h)
  | failed : Is .failed .fail

variable {π ρ σ : Type}

/-- The handler of the application does what `serve` says. -/
def Implements (A : Application ρ σ) (serve : ρ → σ → Outcome σ) : Prop :=
  ∀ request s verdict, verdictOf (serve request s) = some verdict →
    ∃ reply, verdict.Is reply ∧ A.Replies request s (serve request s).2.1 reply

def Verdict.Clean : Verdict → Prop
  | response r => r.Clean
  | refused => True
  | failed => True

def notImplemented : Response := ⟨⟨501, ascii "Not Implemented"⟩, [], false, []⟩

theorem notImplemented_text : (WriteGroup.ofItems createNotImplementedResp).bytes = notImplemented.text := by decide

theorem notImplemented_clean : notImplemented.Clean :=
  ⟨⟨by decide, by decide, by decide, by decide, by decide⟩, by decide, by decide, by decide⟩

def Verdict.messages : Verdict → List Message
  | response r => [r.message]
  | refused => [notImplemented.message]
  | failed => []

def Verdict.keeps : Verdict → Bool
  | response r => r.keepAlive
  | refused => false
  | failed => false

structure Talk (ρ σ : Type) where
  handled : List ρ
  messages : List Message
  state : σ
  kept : Bool

def talk (serve : ρ → σ → Outcome σ) : σ → List ρ → Talk ρ σ
  | s, [] => ⟨[], [], s, true⟩
  | s, request :: requests =>
    let out := serve request s
    let verdict := (verdictOf out).getD .failed
    let rest := if verdict.keeps then talk serve out.2.1 requests else ⟨[], [], out.2.1, false⟩
    ⟨request :: rest.handled, verdict.messages ++ rest.messages, rest.state, rest.kept⟩

variable {serve : ρ → σ → Outcome σ}

theorem talk_handled (s : σ) (requests : List ρ) : (talk serve s requests).handled <+: requests := by
  induction requests generalizing s with
  | nil => exact List.prefix_rfl
  | cons request requests ih =>
    rw [talk]
    dsimp only
    rw [List.prefix_cons_inj]
    split
    · exact ih _
    · exact List.nil_prefix

theorem talk_single (s : σ) (request : ρ) : (talk serve s [request]).handled = [request] := by
  rw [talk]
  dsimp only
  split <;> rfl

theorem talk_state (s : σ) (requests : List ρ) :
    (talk serve s requests).state = (talk serve s requests).handled.foldl (fun s request => (serve request s).2.1) s := by
  induction requests generalizing s with
  | nil => rfl
  | cons request requests ih =>
    rw [talk]
    dsimp only
    split
    · exact ih _
    · rfl

theorem conversation_talk {A : Application ρ σ} (hA : Implements A serve) {requests : List ρ}
    (h : ∀ request ∈ requests, ∀ s, ∃ verdict, verdictOf (serve request s) = some verdict ∧ verdict.Clean) (s : σ) :
    ∃ bytes, Conversation A s (talk serve s requests).handled (talk serve s requests).state bytes (talk serve s requests).kept ∧
      all readMessage bytes = some (talk serve s requests).messages := by
  induction requests generalizing s with
  | nil => exact ⟨[], .nil s, rfl⟩
  | cons request requests ih =>
    obtain ⟨verdict, hverdict, hclean⟩ := h request List.mem_cons_self s
    obtain ⟨reply, hreply, hreplies⟩ := hA request s verdict hverdict
    rw [talk]
    dsimp only
    rw [hverdict, Option.getD_some]
    cases hreply with
    | failed => exact ⟨[], .fail hreplies, rfl⟩
    | refused hstatus =>
      refine ⟨_, .refuse hreplies, ?_⟩
      rw [notImplemented_text, ← List.append_nil notImplemented.text]
      exact all_append notImplemented_clean.reads Response.text_ne_nil rfl
    | @response r whole hbytes =>
      have hclean : r.Clean := hclean
      cases hkeep : r.keepAlive with
      | false =>
        rw [hkeep] at hreplies
        rw [Verdict.keeps, hkeep, if_neg Bool.false_ne_true]
        refine ⟨_, .close hreplies, ?_⟩
        rw [hbytes, ← List.append_nil r.text]
        exact all_append hclean.reads Response.text_ne_nil rfl
      | true =>
        rw [hkeep] at hreplies
        rw [Verdict.keeps, hkeep, if_pos rfl]
        obtain ⟨bytes, hconversation, hread⟩ :=
          ih (fun request hmem => h request (List.mem_cons_of_mem _ hmem)) (serve request s).2.1
        refine ⟨_, .keep hreplies hconversation, ?_⟩
        rw [hbytes]
        exact all_append hclean.reads Response.text_ne_nil hread

end Answers

section Service

variable {ρ σ : Type}

def resultCode : Except Exception HandlingStatus → UserCode σ HandlingStatus
  | .ok status => .pure status
  | .error _ => .throw

def outcomeCode (id : RequestId) (result : Except Exception HandlingStatus) (exchange : Exchange) :
    UserCode σ HandlingStatus :=
  exchange.upgraded.foldr (fun _ k => .moveUpgradeInternals k)
    (exchange.responses.foldr
      (fun r k => .writeResponseParts id ⟨.finalParts, responseConnectionAttr r.keepAlive⟩ r.whole.group k)
      (resultCode result))

def service (serve : ρ → σ → Outcome σ) : Application ρ σ where
  handler id request := .update (fun s => (serve request s).2.1) fun s =>
    outcomeCode id (serve request s).1 (serve request s).2.2
  notificator _ _ := .pure ()

theorem service_implements (serve : ρ → σ → Outcome σ) : Implements (service serve) serve := by
  intro request s verdict hverdict
  suffices hdoes : ∃ reply, verdict.Is reply ∧ ∀ id (b : σ),
      (outcomeCode id (serve request s).1 (serve request s).2.2).Does id b b reply by
    obtain ⟨reply, hreply, hdoes⟩ := hdoes
    exact ⟨reply, hreply, fun id => .update (hdoes id _)⟩
  rw [verdictOf] at hverdict
  split at hverdict
  · cases hverdict
  · next hupgraded =>
    unfold outcomeCode
    rw [not_not.mp hupgraded]
    split at hverdict <;> cases hverdict <;> rename_i hresult hresponses <;> rw [hresult, hresponses]
    · next r => exact ⟨.respond r.whole r.keepAlive, .response r.whole_bytes, fun id b => .reply b (.respond r.whole r.keepAlive)⟩
    · exact ⟨.refuse .rejected (by decide), .refused _, fun id b => .reply b (.refuse .rejected (by decide))⟩
    · exact ⟨.refuse .notHandled (by decide), .refused _, fun id b => .reply b (.refuse .notHandled (by decide))⟩
    · exact ⟨.fail, .failed, fun id b => .reply b .fail⟩

end Service

end Http

end NgkNet.Restinio
