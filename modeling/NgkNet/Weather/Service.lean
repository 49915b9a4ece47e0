import NgkNet.Restinio.Http.Service
import NgkNet.Weather.Conversion

set_option autoImplicit false

namespace NgkNet.Weather

open Ascii Restinio Restinio.Http PercentEncoding Reader

section Building

variable {env : Env} {req : Request} {b : ResponseBuilder}

variable (env req) in
inductive Built : ResponseBuilder → Prop where
  | base : Built (baseResponse env req)
  | options : Built (optionsResponse env req)
  | notAllowed : Built (notAllowedResponse req)
  | markAsBadRequest {b : ResponseBuilder} (h : Built b) : Built (markAsBadRequest b)
  | setBody {b : ResponseBuilder} (h : Built b) (body : Str) : Built (b.setBody body)
  | appendBody {b : ResponseBuilder} (h : Built b) (part : Str) : Built (b.appendBody part)

theorem built_dateResponse (Date : Str) (w : List Station) : Built env req (dateResponse env req Date w) := by
  have hloop : Built env req (w.foldl (fun acc b =>
      if Date = b.Date then (acc.1.appendBody (env.json.toJson b), true) else acc) (baseResponse env req, false)).1 := by
    apply List.foldlRecOn (motive := fun acc : ResponseBuilder × Bool => Built env req acc.1)
    · exact .base
    · intro acc hacc b _
      split
      · exact hacc.appendBody _
      · exact hacc
  rw [dateResponse]
  split
  · exact hloop
  · exact hloop.setBody _

theorem built_latestResponse (w : List Station) : Built env req (latestResponse env req w) := by
  rw [latestResponse]
  apply List.foldlRecOn (motive := Built env req)
  · exact .setBody .base _
  · intro acc hacc b _
    split
    · exact hacc.appendBody _
    · exact hacc

theorem built_updateResponse (n : UInt32) (w : List Station) : Built env req (updateResponse env req n w) := by
  rw [updateResponse, updateResponseWith]
  split
  · exact .markAsBadRequest .base
  · split
    · exact .base
    · exact .setBody (.markAsBadRequest .base) _

theorem built_deleteResponse (n : UInt32) (w : List Station) : Built env req (deleteResponse env req n w) := by
  rw [deleteResponse, deleteResponseWith]
  split
  · exact .markAsBadRequest .base
  · exact .base

variable (env req) in
theorem makes_baseResponse : ∃ calls, Makes calls statusOk req.keepAlive (baseResponse env req).response := by
  have hserver := (makes_nil statusOk req.keepAlive).appendHeader
    (b := ⟨⟨statusOk, [], req.keepAlive, []⟩, some req.connectionId⟩) (ascii "Server") (ascii "RESTinio sample server /v.0.6")
  exact ⟨_, ((hserver.appendHeaderDateField rfl env.date).appendHeader _ _).appendHeader _ _⟩

theorem Built.makes (h : Built env req b) : ∃ status calls, Makes calls status req.keepAlive b.response := by
  induction h with
  | base =>
    obtain ⟨calls, hcalls⟩ := makes_baseResponse env req
    exact ⟨_, calls, hcalls⟩
  | options =>
    obtain ⟨calls, hcalls⟩ := makes_baseResponse env req
    exact ⟨_, _, ((hcalls.appendHeader _ _).appendHeader _ _).appendHeader _ _⟩
  | notAllowed =>
    have hclose := (makes_nil statusMethodNotAllowed req.keepAlive).connectionClose
      (b := ⟨⟨statusMethodNotAllowed, [], req.keepAlive, []⟩, some req.connectionId⟩)
    exact ⟨_, _, hclose⟩
  | markAsBadRequest _ ih =>
    obtain ⟨status, calls, hcalls⟩ := ih
    exact ⟨status, _, hcalls.setStatusLine statusBadRequest⟩
  | setBody _ body ih =>
    obtain ⟨status, calls, hcalls⟩ := ih
    exact ⟨status, _, hcalls.setBody body⟩
  | appendBody _ part ih =>
    obtain ⟨status, calls, hcalls⟩ := ih
    exact ⟨status, _, hcalls.appendBody part⟩

theorem Built.sent (h : Built env req b) (wscb : Option Notificator) :
    ∃ status calls parts b', (List.foldl ControlledCall.run (.create status req.keepAlive) calls).done wscb = .ok (parts, b') ∧
      parts.flags = ⟨.finalParts, responseConnectionAttr b.response.keepAlive⟩ ∧ parts.group.bytes = b.response.text := by
  obtain ⟨status, calls, hmakes⟩ := h.makes
  exact ⟨status, calls, hmakes.done wscb⟩

end Building

section Cleanness

variable {env : Env} {req : Request} {b : ResponseBuilder}

def fixedFields : List (Str × Str) :=
  [ (ascii "Server", ascii "RESTinio sample server /v.0.6"),
    (ascii "Content-Type", ascii "text/plain; charset=utf-8"),
    (ascii "Access-Control-Allow-Origin", ascii "*"),
    (ascii "Access-Control-Allow-Methods", ascii "OPTIONS, GET, POST, PATCH, DELETE, PUT"),
    (ascii "Access-Control-Allow-Headers", ascii "content-type"),
    (ascii "Access-Control-Max-Age", ascii "86400") ]

def statuses : List StatusLine := [statusOk, statusBadRequest, statusMethodNotAllowed]

theorem Built.fields (h : Built env req b) :
    b.response.status ∈ statuses ∧ b.response.fields ⊆ (ascii "Date", env.date) :: fixedFields := by
  have hbase : (baseResponse env req).response.fields ⊆ (ascii "Date", env.date) :: fixedFields := by
    simp [baseResponse, initResp, ResponseBuilder.appendHeader, fixedFields]
  induction h with
  | base => exact ⟨.head _, hbase⟩
  | options =>
    refine ⟨.head _, ?_⟩
    simp [optionsResponse, baseResponse, initResp, ResponseBuilder.appendHeader, fixedFields]
  | notAllowed => exact ⟨.tail _ (.tail _ (.head _)), List.nil_subset _⟩
  | markAsBadRequest _ ih => exact ⟨.tail _ (.head _), ih.2⟩
  | setBody _ _ ih => exact ih
  | appendBody _ _ ih => exact ih

theorem fixedFields_clean : ∀ f ∈ fixedFields, CleanField f ∧ isEqualCaseless f.1 (ascii "Transfer-Encoding") = false ∧
    isEqualCaseless f.1 (ascii "Content-Length") = false := by
  decide

theorem statuses_clean : ∀ status ∈ statuses, status.code < 1000 ∧ code '\r' ∉ status.reason ∧ ¬ bodyless status.code := by
  decide

theorem Built.clean (hdate : CleanField (ascii "Date", env.date)) (h : Built env req b) : b.response.Clean := by
  obtain ⟨hstatus, hfields⟩ := h.fields
  obtain ⟨hcode, hreason, hbody⟩ := statuses_clean _ hstatus
  have hall : ∀ f ∈ b.response.fields, CleanField f ∧ isEqualCaseless f.1 (ascii "Transfer-Encoding") = false ∧
      isEqualCaseless f.1 (ascii "Content-Length") = false := by
    intro f hf
    rcases List.mem_cons.mp (hfields hf) with rfl | hf
    · refine ⟨hdate, ?_⟩
      dsimp only
      decide
    · exact fixedFields_clean f hf
  refine ⟨⟨Nat.one_lt_ofNat, Nat.one_lt_ofNat, hcode, hreason, fun f hf => (hall f hf).1⟩, hbody, ?_, ?_⟩
  · exact valuesOf_eq_nil fun f hf => (hall f hf).2.1
  · exact valuesOf_eq_nil fun f hf => (hall f hf).2.2

end Cleanness

section Verdicts

variable (env : Env) {req : Request}

theorem runHandler_built {handler : Handler} {params : RouteParams} {q : Str}
    (hd : dispatch entries req.method q = some (handler, params)) (hplain : req.connectionUpgrade = false) (store : Store) :
    (∃ store' b, (runHandler env req params handler).run (store, .fresh req) = (.ok .accepted, store', answered b) ∧
      Built env req b) ∨
    (runHandler env req params handler).run (store, .fresh req) = (.ok .rejected, store, .fresh req) ∨
    ∃ e c moves, (runHandler env req params handler).run (store, .fresh req) = (.error e, store, ⟨c, moves, [], []⟩) := by
  cases handler with
  | weatherList => exact .inl ⟨_, _, onWeatherList_run env req store, .setBody .base _⟩
  | options => exact .inl ⟨_, _, options_run env req store, .options⟩
  | methodNotAllowed => exact .inl ⟨_, _, methodNotAllowed_run req store, .notAllowed⟩
  | weatherLatest => exact .inl ⟨_, _, onWeatherLatest_run env req store, built_latestResponse _⟩
  | postData =>
    rw [runHandler, onPostData_run]
    cases env.json.fromJson req.body with
    | none => exact .inl ⟨_, _, rfl, .markAsBadRequest .base⟩
    | some b => exact .inl ⟨_, _, rfl, .base⟩
  | liveUpdate =>
    rw [runHandler, onLiveUpdate_run, hplain]
    exact .inr (.inl rfl)
  | dateGet =>
    obtain ⟨-, Date, -, rfl⟩ := dispatch_dateGet.mp hd
    rw [runHandler, onDateGet_run env req store (get_single _ _ _)]
    cases unescapePercentEncoding Date with
    | error e => exact .inr (.inr ⟨_, _, _, rfl⟩)
    | ok r => exact .inl ⟨_, _, rfl, built_dateResponse r _⟩
  | weatherUpdate =>
    obtain ⟨-, ID, -, rfl⟩ := dispatch_weatherUpdate.mp hd
    rw [runHandler, onWeatherUpdate_run env req store (get_single _ _ _)]
    cases cast env ID with
    | error e => exact .inr (.inr ⟨_, _, _, rfl⟩)
    | ok n =>
      cases env.json.fromJson req.body with
      | none => exact .inl ⟨_, _, rfl, .markAsBadRequest .base⟩
      | some b => exact .inl ⟨_, _, rfl, built_updateResponse n _⟩
  | weatherDelete =>
    obtain ⟨-, ID, -, rfl⟩ := dispatch_weatherDelete.mp hd
    rw [runHandler, onWeatherDelete_run env req store (get_single _ _ _)]
    cases cast env ID with
    | error e => exact .inr (.inr ⟨_, _, _, rfl⟩)
    | ok n => exact .inl ⟨_, _, rfl, built_deleteResponse n _⟩

theorem serve_verdict (hdate : CleanField (ascii "Date", env.date)) (hplain : req.connectionUpgrade = false) (store : Store) :
    ∃ verdict, verdictOf (serve env req store) = some verdict ∧ verdict.Clean := by
  rw [serve, serveWith]
  split
  · exact ⟨.failed, rfl, trivial⟩
  · split
    · exact ⟨.refused, rfl, trivial⟩
    · next hd =>
      rw [runHandlerWith_plain]
      rcases runHandler_built env hd hplain store with ⟨store', b, hrun, hbuilt⟩ | hrun | ⟨e, c, moves, hrun⟩
      · rw [hrun]
        exact ⟨.response b.response, rfl, hbuilt.clean hdate⟩
      · rw [hrun]
        exact ⟨.refused, rfl, trivial⟩
      · rw [hrun]
        exact ⟨.failed, rfl, trivial⟩

end Verdicts

section EndToEnd

variable {π : Type} {K : Environment π Request Store}

/-- From the bytes of the requests to the bytes of the responses and back: a client that waits for each response reads
exactly the responses of the handlers, in order, until one ends the connection. -/
theorem weather_responses_read_back {env : Env} (hdate : CleanField (ascii "Date", env.date))
    (hK : Implements K.application (serve env)) (hmax : 0 < K.settings.maxPipelinedRequests) (store : Store)
    {requests : List Request} (hplain : ∀ req ∈ requests, req.connectionUpgrade = false) {cuts : List (List Str)}
    (hcuts : List.Forall₂ (fun cut request => ∃ text after, Scans K.parser text request after ∧
      CutOf K.settings.bufferSize cut text) cuts (talk (serve env) store requests).handled) :
    ∃ counts c, List.length counts = cuts.length ∧ Reaches K store (List.zipWith exchange cuts counts).flatten c ∧
      all readMessage c.wire = some (talk (serve env) store requests).messages ∧ c.handled <+: requests ∧
      c.app = c.handled.foldl (fun store req => (serve env req store).2.1) store ∧
      (c.socketOpen = true ↔ (talk (serve env) store requests).kept = true) := by
  obtain ⟨bytes, hconversation, hread⟩ := conversation_talk hK
    (fun req hreq store => serve_verdict env hdate (hplain req hreq) store) store
  obtain ⟨c, hc, hidle, hparser, hwire, rfl, hhandled⟩ := reaches_idle K store
  obtain ⟨counts, d, hcounts, hruns, hsocket, -, -, hwire', happ, hhandled'⟩ :=
    runs_conversation hmax hconversation hcuts hidle hparser
  rw [hwire, List.nil_append] at hwire'
  rw [hhandled, List.nil_append] at hhandled'
  refine ⟨counts, d, hcounts, hc.runs hruns, ?_, ?_, ?_, ?_⟩
  · rw [hwire', hread]
  · rw [hhandled']
    exact talk_handled _ _
  · rw [happ, hhandled', talk_state]
  · rw [hsocket]

def pathEnvironment : Environment (Str × Bool) Request Store :=
  ⟨defaultSettings, lineParser.map fun path => sampleRequest .get path [], service (serve sampleEnv)⟩

theorem weather_responses_read_back_root :
    ∃ counts c, List.length counts = 1 ∧
      Reaches pathEnvironment initialStore (List.zipWith exchange [[ascii "/", ascii "\n"]] counts).flatten c ∧
      all readMessage c.wire = some (talk (serve sampleEnv) initialStore [sampleRequest .get (ascii "/") []]).messages := by
  have hcut : CutOf 4096 [ascii "/", ascii "\n"] (ascii "/" ++ [code '\n']) := ⟨by decide, by decide, by decide⟩
  have hplain : ∀ req ∈ [sampleRequest .get (ascii "/") []], req.connectionUpgrade = false :=
    List.forall_mem_singleton.mpr rfl
  have hscans := (scans_line (ascii "/") (by decide)).map fun path => sampleRequest .get path []
  have hcuts : List.Forall₂ (fun cut request => ∃ text after, Scans pathEnvironment.parser text request after ∧
      CutOf 4096 cut text) [[ascii "/", ascii "\n"]]
      (talk (serve sampleEnv) initialStore [sampleRequest .get (ascii "/") []]).handled := by
    rw [talk_single]
    exact .cons ⟨_, _, hscans, hcut⟩ .nil
  have hdate : CleanField (ascii "Date", sampleEnv.date) := by decide
  obtain ⟨counts, c, hcounts, hc, hread, -⟩ := weather_responses_read_back (K := pathEnvironment) hdate
    (service_implements _) (show 0 < defaultSettings.maxPipelinedRequests by decide) initialStore hplain hcuts
  exact ⟨counts, c, hcounts, hc, hread⟩

end EndToEnd

end NgkNet.Weather
