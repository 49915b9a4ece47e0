import NgkNet.Restinio.WebSocket.Receiving
import NgkNet.Restinio.WebSocket.Site
import NgkNet.Voresmain.Owning
import NgkNet.Weather.Conversion

set_option autoImplicit false

namespace NgkNet.Voresmain

open Ascii Restinio Weather WebSocket PercentEncoding

structure Sent (c d : Conn) : Prop where
  state : d.state = c.state
  input : d.input = c.input
  tidy : c.Tidy → d.Tidy

theorem Sent.refl (c : Conn) : Sent c c := ⟨rfl, rfl, id⟩

theorem Sent.trans {c d e : Conn} (h : Sent c d) (h' : Sent d e) : Sent c e :=
  ⟨h'.state.trans h.state, h'.input.trans h.input, fun hc => h'.tidy (h.tidy hc)⟩

structure Quiet (hub : Hub) (s : Hub × Exchange) : Prop where
  registry : s.1.store.registry = hub.store.registry
  sent : ∀ id, ∃ f, (∀ c, Sent c (f c)) ∧ s.1.conns id = (hub.conns id).map f
  upgraded : s.2.upgraded = []

section Quiet

open Eff

variable {host : Host} {k : Clock} {req : Request} {hub : Hub}

theorem keeps_onWeathers {α : Type} {x : Handling Lab2.Weathers α} (hx : Keeps (fun s => s.2.upgraded = []) x) :
    Keeps (Quiet hub) (onWeathers x) := by
  refine keeps_of_run fun s hs => ?_
  exact ⟨hs.registry, hs.sent, hx.run_snd (s := (s.1.store.weathers, s.2)) hs.upgraded⟩

theorem Quiet.congr {s t : Hub × Exchange} (h : Quiet hub s) (ht : t.1 = s.1) (hu : t.2.upgraded = s.2.upgraded) :
    Quiet hub t := by
  obtain ⟨hr, hs, hup⟩ := h
  exact ⟨ht ▸ hr, ht ▸ hs, hu.trans hup⟩

theorem quiet_createResponse (status : StatusLine) : Keeps (Quiet hub) (createResponse req status) :=
  keeps_of_run fun s hs => hs.congr (createResponse_frame req status s).1 (createResponse_frame req status s).2

theorem quiet_done (b : ResponseBuilder) : Keeps (Quiet hub) b.done :=
  keeps_of_run fun s hs => hs.congr (done_frame b s).1 (done_frame b s).2

theorem quiet_wsSendMessage {m : Message} (hm : m.opcode ≠ .connectionCloseFrame) (id : ℕ) :
    Keeps (Quiet hub) (wsSendMessage k m id) := by
  refine keeps_of_run fun s hs => ?_
  rw [wsSendMessage]
  dsimp only
  cases hsend : s.1.store.send id m with
  | error e => exact hs
  | ok store =>
    have hstore : store = s.1.store := by
      have : (s.1.store.reply id m).1 = s.1.store := Store.reply_fst hm
      rwa [Store.reply, hsend] at this
    refine ⟨hstore ▸ hs.registry, fun j => ?_, hs.upgraded⟩
    dsimp only
    obtain ⟨f, hf, he⟩ := hs.sent j
    by_cases hj : j = id
    · subst hj
      refine ⟨Conn.sendMessage k m ∘ f, fun c => (hf c).trans ?_, ?_⟩
      · exact ⟨(f c).sendMessage_state k hm, (f c).sendMessage_input k m, fun hc => hc.sendMessage m⟩
      · rw [Function.update_self, he, Option.map_map]
    · exact ⟨f, hf, by rw [Function.update_of_ne hj, he]⟩

theorem quiet_sendLoop {m : Message} (hm : m.opcode ≠ .connectionCloseFrame) (r : Registry) :
    Keeps (Quiet hub) (sendLoop k m r) := by
  induction r with
  | nil => exact keeps_pure
  | cons e r ih => exact keeps_bind (quiet_wsSendMessage hm e.1) fun _ => ih

theorem keeps_fromJson {env : Env} {body : Str} {P : Lab2.Weathers × Exchange → Prop} :
    Keeps P (Lab2.fromJson env body) := by
  rw [Lab2.fromJson]
  cases env.json.fromJson body
  · exact keeps_throw
  · exact keeps_pure

theorem quiet_runHandler {params : RouteParams} {handler : Handler} (h : handler ≠ .liveUpdate) :
    Keeps (Quiet hub) (runHandler host k req params handler) := by
  cases handler with
  | liveUpdate => exact absurd rfl h
  | weathersList =>
    refine keeps_onWeathers (keeps_bind (createResponse_upgraded _ _) fun _ => keeps_bind keeps_read fun _ => ?_)
    exact done_upgraded _
  | weathersGetThreelist =>
    have hread : Keeps (Quiet hub) (onWeathers Lab2.weathers) := keeps_onWeathers keeps_read
    exact keeps_bind (quiet_createResponse _) fun _ => keeps_bind hread fun _ => quiet_done _
  | options => exact keeps_bind (quiet_createResponse _) fun _ => quiet_done _
  | methodNotAllowed => exact keeps_bind (quiet_createResponse _) fun _ => quiet_done _
  | newWeather =>
    have hjson : Keeps (Quiet hub) (onWeathers (Lab2.fromJson host.toEnv req.body)) := keeps_onWeathers keeps_fromJson
    refine keeps_bind (quiet_createResponse _) fun _ => keeps_bind (keeps_catchAll ?_ keeps_pure) fun _ => quiet_done _
    refine keeps_bind hjson fun b => keeps_bind (keeps_onWeathers keeps_read) fun w =>
      keeps_bind (keeps_onWeathers (keeps_modify fun _ hs => hs)) fun _ => keeps_bind hjson fun b => ?_
    exact keeps_bind (keeps_bind keeps_read fun r => quiet_sendLoop (by simp) r) fun _ => keeps_pure
  | weatherUpdate =>
    refine keeps_onWeathers (keeps_bind (keeps_param _ _) fun _ => keeps_bind (keeps_castTo _ _) fun n =>
      keeps_bind (createResponse_upgraded _ _) fun _ => keeps_bind (keeps_catchAll ?_ keeps_pure) fun _ =>
        done_upgraded _)
    refine keeps_bind keeps_fromJson fun b => keeps_bind keeps_read fun w => ?_
    split
    · exact keeps_bind (keeps_modify fun _ hs => hs) fun _ => keeps_pure
    · exact keeps_pure
  | IDGet =>
    refine keeps_onWeathers (keeps_bind (createResponse_upgraded _ _) fun _ =>
      keeps_bind (keeps_catchAll ?_ keeps_pure) fun _ => done_upgraded _)
    exact keeps_bind (keeps_param _ _) fun _ => keeps_bind (keeps_unescape _) fun _ =>
      keeps_bind keeps_read fun _ => keeps_pure
  | weatherGet =>
    refine keeps_onWeathers (keeps_bind (keeps_param _ _) fun _ => keeps_bind (keeps_castTo _ _) fun n =>
      keeps_bind (createResponse_upgraded _ _) fun _ => keeps_bind keeps_read fun w => ?_)
    dsimp only
    split
    · exact done_upgraded _
    · exact done_upgraded _
  | weatherDelete =>
    refine keeps_onWeathers (keeps_bind (keeps_param _ _) fun _ => keeps_bind (keeps_castTo _ _) fun n =>
      keeps_bind (createResponse_upgraded _ _) fun _ => keeps_bind keeps_read fun w => ?_)
    dsimp only
    split
    · exact keeps_bind (keeps_modify fun _ hs => hs) fun _ => done_upgraded _
    · exact done_upgraded _

theorem onLiveUpdate_run (host : Host) (req : Request) (hub : Hub) :
    (onLiveUpdate host req).run (hub, .fresh req) =
      match req.connectionUpgrade, req.secWebsocketKey with
      | false, _ => (.ok .rejected, hub, .fresh req)
      | true, none => (.error (.fieldNotFound (ascii "Sec-WebSocket-Key")), hub, .fresh req)
      | true, some _ =>
        (.error .connectionAlreadyMoved,
          { hub with store.registry := hub.store.registry.emplace req.connectionId ⟨true⟩ },
          ⟨none, 2, [], [req.connectionId]⟩) := by
  cases hu : req.connectionUpgrade with
  | false => simp only [onLiveUpdate, hu]; rfl
  | true =>
    cases hk : req.secWebsocketKey with
    | none => simp only [onLiveUpdate, hu, if_true, Eff.run_bind, upgrade, hk]
    | some key => simp only [onLiveUpdate, hu, if_true, Eff.run_bind, upgrade, hk]; rfl

theorem Quiet.fresh (hub : Hub) (req : Request) : Quiet hub (hub, .fresh req) :=
  ⟨rfl, fun _ => ⟨id, Sent.refl, by simp⟩, rfl⟩

theorem serve_cases (host : Host) (k : Clock) (req : Request) (hub : Hub) :
    Quiet hub (serve host k req hub).2 ∨
      (serve host k req hub).2.2.upgraded = [req.connectionId] ∧
        (serve host k req hub).2.1 =
          { hub with store.registry := hub.store.registry.emplace req.connectionId ⟨true⟩ } := by
  rw [serve]
  cases targetPath req.path with
  | error e => exact .inl (.fresh hub req)
  | ok path =>
    dsimp only
    cases dispatch entries req.method path with
    | none => exact .inl (.fresh hub req)
    | some found =>
      dsimp only
      by_cases hl : found.1 = .liveUpdate
      · rw [hl, runHandler, onLiveUpdate_run]
        cases req.connectionUpgrade with
        | false => exact .inl (.fresh hub req)
        | true =>
          cases req.secWebsocketKey with
          | none => exact .inl (.fresh hub req)
          | some key => exact .inr ⟨rfl, rfl⟩
      · exact .inl ((quiet_runHandler hl).run_snd (.fresh hub req))

end Quiet

theorem Store.Owning.congr {s t : Store} (h : s.Owning) (hr : t.registry = s.registry) : t.Owning :=
  ⟨hr ▸ h.ordered, hr ▸ h.owned⟩

theorem serve_owning (host : Host) (k : Clock) (req : Request) {hub : Hub} (h : hub.store.Owning) :
    (serve host k req hub).2.1.store.Owning := by
  rcases serve_cases host k req hub with hq | ⟨-, hs⟩
  · exact h.congr hq.registry
  · rw [hs]
    exact h.emplace req.connectionId

def postMessage (ID : Str) : Message := ⟨true, .textFrame, ascii "POST: id =" ++ ID⟩

def Hub.delivered (k : Clock) (m : Message) (ids : List ℕ) (hub : Hub) : Hub :=
  { hub with conns := fun id => if id ∈ ids then (hub.conns id).map (Conn.sendMessage k m) else hub.conns id }

theorem sendLoop_run (k : Clock) {m : Message} (hm : m.opcode ≠ .connectionCloseFrame) (hub : Hub)
    (h : hub.store.Owning) {r : Registry} (hr : ∀ id ∈ r.ids, id ∈ hub.store.registry.ids) (hn : r.ids.Nodup)
    (x : Exchange) : (sendLoop k m r).run (hub, x) = (.ok (), hub.delivered k m r.ids, x) := by
  induction r generalizing hub with
  | nil => simp [sendLoop, Hub.delivered, Registry.ids]
  | cons e r ih =>
    have hids : Registry.ids (e :: r) = e.1 :: Registry.ids r := rfl
    rw [hids] at hr hn ⊢
    obtain ⟨he, hn⟩ := List.nodup_cons.mp hn
    have hsend := h.send (hr e.1 List.mem_cons_self) hm
    simp only [sendLoop, Eff.run_bind, wsSendMessage, hsend]
    rw [ih ⟨hub.store, Function.update hub.conns e.1 ((hub.conns e.1).map (Conn.sendMessage k m))⟩ h
      (fun id hid => hr id (List.mem_cons_of_mem _ hid)) hn]
    refine congrArg (fun conns => (Except.ok (), (⟨hub.store, conns⟩ : Hub), x)) (funext fun id => ?_)
    by_cases hid : id = e.1
    · subst hid
      rw [if_neg he, if_pos List.mem_cons_self]
      exact Function.update_self _ _ _
    · simp [hid]

theorem sendMessage_run (k : Clock) (message : Str) (hub : Hub) (h : hub.store.Owning) (x : Exchange) :
    (sendMessage k message).run (hub, x) =
      (.ok (), hub.delivered k ⟨true, .textFrame, message⟩ hub.store.registry.ids, x) := by
  have hn : hub.store.registry.ids.Nodup := (List.pairwise_map.mpr h.ordered).imp fun hab => hab.ne
  exact sendLoop_run k (by simp) hub h (fun _ hid => hid) hn x

theorem onNewWeather_run (host : Host) (k : Clock) (req : Request) {hub : Hub} (h : hub.store.Owning) :
    (onNewWeather host k req).run (hub, .fresh req) =
      match host.json.fromJson req.body with
      | some b =>
        (.ok .accepted, (Hub.mk { hub.store with weathers := hub.store.weathers ++ [b] } hub.conns).delivered k
          (postMessage b.ID) hub.store.registry.ids, answered (baseResponse host.toEnv req))
      | none => (.ok .accepted, hub, answered (markAsBadRequest (baseResponse host.toEnv req))) := by
  simp only [onNewWeather, Eff.run_bind, createResponse_fresh, Eff.catchAll, onWeathers, Lab2.fromJson]
  cases host.json.fromJson req.body with
  | none => rfl
  | some b =>
    have howning : ({ hub.store with weathers := hub.store.weathers ++ [b] } : Store).Owning := h.congr rfl
    have hsend := sendMessage_run k (ascii "POST: id =" ++ b.ID)
      ⟨{ hub.store with weathers := hub.store.weathers ++ [b] }, hub.conns⟩ howning
    simp only [Eff.run_pure, Lab2.weathers, Lab2.setWeathers, Eff.run_read, Eff.run_modify, hsend]
    rfl

theorem newWeather_dispatched {q : Str} (hq : RootPath q) :
    ∃ params, dispatch entries .post q = some (.newWeather, params) := by
  rw [entries, exists_dispatch_rows_iff (p := .root) hq]
  decide

theorem serve_post (host : Host) (k : Clock) {req : Request} {q : Str} (hub : Hub) (hm : req.method = .post)
    (hp : targetPath req.path = .ok q) (hq : RootPath q) :
    serve host k req hub = (onNewWeather host k req).run (hub, .fresh req) := by
  obtain ⟨params, hd⟩ := newWeather_dispatched hq
  rw [serve, hp]
  dsimp only
  rw [hm, hd]
  rfl

abbrev World := Site OwningStore

section World

variable (host : Host) (settings : Settings)

def World.initial : World := ⟨⟨⟨initialWeather, []⟩, ⟨.nil, by simp⟩⟩, fun _ => none, []⟩

def World.hub (w : World) : Hub := ⟨w.app.1, w.conns⟩

def World.outcome (now : ℕ) (req : Request) (w : World) : Except Exception HandlingStatus × Hub × Exchange :=
  serve host (clockAt settings now) req w.hub

def World.handled (now : ℕ) (req : Request) (w : World) : World :=
  ⟨⟨(w.outcome host settings now req).2.1.store, serve_owning host _ req w.app.2⟩,
    (w.outcome host settings now req).2.1.conns, w.log⟩

def World.onRequest (now : ℕ) (req : Request) (w : World) : World :=
  if (w.conns req.connectionId).isSome then w
  else
    (w.outcome host settings now req).2.2.upgraded.foldl
      (fun w id => w.upgraded (.activated (clockAt settings now) (upgradeText req)) id)
      (w.handled host settings now req)

def World.step (w : World) (o : Occurrence) : World :=
  Site.step liveUpdateHandler settings (World.onRequest host settings) w o

def World.after (events : List Occurrence) : World := events.foldl (World.step host settings) .initial

structure World.Sound (w : World) : Prop where
  site : Site.Sound liveUpdateHandler settings w
  tidied : Site.Tidied w

variable {host settings} {req : Request} {q : Str}

theorem World.initial_sound : World.initial.Sound settings :=
  ⟨Site.sound_initial fun _ => rfl, fun _ _ hc => (nomatch hc)⟩

theorem World.Sound.onRequest {w : World} (h : w.Sound settings) (now : ℕ) (req : Request) :
    (w.onRequest host settings now req).Sound settings := by
  rw [World.onRequest]
  split
  · exact h
  next hid =>
    have hcases : Quiet w.hub (w.outcome host settings now req).2 ∨
        (w.outcome host settings now req).2.2.upgraded = [req.connectionId] ∧ _ :=
      serve_cases host (clockAt settings now) req w.hub
    rcases hcases with hq | ⟨hup, hs⟩
    · rw [hq.upgraded]
      have hholds : ∀ id, liveUpdateHandler.holds (w.handled host settings now req).app id =
          liveUpdateHandler.holds w.app id := fun id =>
        congrArg (fun r : Registry => decide (id ∈ r.ids)) hq.registry
      have happ := h.site.withApp hholds
      refine ⟨happ.withConns fun id => ?_, fun id d hd => ?_⟩
      · obtain ⟨f, hf, he⟩ := hq.sent id
        exact ⟨f, fun c => ⟨(hf c).state, (hf c).input⟩, he⟩
      · obtain ⟨f, hf, he⟩ := hq.sent id
        obtain ⟨c, hc, rfl⟩ := Option.map_eq_some_iff.mp (he.symm.trans hd)
        exact (hf c).tidy (h.tidied id c hc)
    · rw [hup]
      have hconns : (w.outcome host settings now req).2.1.conns = w.conns := congrArg Hub.conns hs
      have hreg : (w.outcome host settings now req).2.1.store.registry =
          w.app.1.registry.emplace req.connectionId ⟨true⟩ := congrArg (fun hub => hub.store.registry) hs
      rw [List.foldl_cons, List.foldl_nil, World.handled, hconns]
      refine ⟨h.site.upgrade (by simpa using hid) fun j => ?_, Site.Tidied.upgraded h.tidied _ _ _⟩
      simp only [liveUpdateHandler, decide_eq_true_eq, hreg]
      exact Registry.mem_ids_emplace

theorem World.Sound.step {w : World} (h : w.Sound settings) (o : Occurrence) :
    (w.step host settings o).Sound settings where
  site := h.site.step liveUpdateHandler_lawful (fun now req => (h.onRequest now req).site) o
  tidied := h.tidied.step (fun now req => (h.onRequest now req).tidied) o

theorem World.after_sound (events : List Occurrence) : (World.after host settings events).Sound settings := by
  have hrun : ∀ w : World, w.Sound settings → World.Sound settings (events.foldl (World.step host settings) w) := by
    induction events with
    | nil => exact fun w h => h
    | cons o events ih => exact fun w h => ih _ (h.step o)
  exact hrun _ World.initial_sound

/-- The bytes of the frame stand once behind what each registered connection has still to write, and nowhere
else. -/
def Delivered (m : Message) (ids : List ℕ) (conns conns' : ℕ → Option Conn) : Prop :=
  ∀ id, if id ∈ ids then
      ∃ c c' group, conns id = some c ∧ conns' id = some c' ∧ c'.outgoing = c.outgoing ++ [group] ∧
        group.flatten = m.wire
    else conns' id = conns id

theorem World.Sound.delivered {w : World} (h : w.Sound settings) (k : Clock) {m : Message}
    (hop : m.opcode.isValid = true) (hm : m.opcode ≠ .connectionCloseFrame) :
    Delivered m w.app.1.registry.ids w.conns (w.hub.delivered k m w.app.1.registry.ids).conns := by
  intro id
  split
  next hid =>
    have hheld : liveUpdateHandler.holds w.app id = true := decide_eq_true hid
    obtain ⟨c, hc, hs⟩ := h.site.serving hheld
    refine ⟨c, c.sendMessage k m, m.writeGroup, hc, ?_, ?_, writeGroup_flatten hop⟩
    · simp only [Hub.delivered, if_pos hid, World.hub, hc, Option.map_some]
    · exact (h.tidied id c hc).outgoing_sendMessage hm hs.socketOpen hs.toPeer
  next hid => simp only [Hub.delivered, if_neg hid, World.hub]

theorem World.step_post {w : World} (hfree : w.conns req.connectionId = none) (hm : req.method = .post)
    (hp : targetPath req.path = .ok q) (hq : RootPath q) (now : ℕ) :
    w.step host settings ⟨now, .request req⟩ = w.handled host settings now req := by
  have hup : (w.outcome host settings now req).2.2.upgraded = [] := by
    rw [World.outcome, serve_post host _ _ hm hp hq, onNewWeather_run host _ _ w.app.2]
    cases host.json.fromJson req.body <;> rfl
  show w.onRequest host settings now req = w.handled host settings now req
  rw [World.onRequest, if_neg (by simp [hfree]), hup, List.foldl_nil]

/-- Whatever happened before, a POST whose body decodes stores the station and tells exactly the registered
connections about it; any other POST changes nothing. -/
theorem post_broadcast (host : Host) (settings : Settings) (events : List Occurrence) (now : ℕ) {w : World}
    (hw : w = World.after host settings events) (hfree : w.conns req.connectionId = none)
    (hm : req.method = .post) (hp : targetPath req.path = .ok q) (hq : RootPath q) :
    (∀ e ∈ w.app.1.registry, e.2.wsConnectionHandle = true) ∧
      (∀ message x, ((sendMessage (clockAt settings now) message).run (w.hub, x)).1 = .ok ()) ∧
      (∀ b, host.json.fromJson req.body = some b →
        (w.outcome host settings now req).1 = .ok .accepted ∧
          (w.outcome host settings now req).2.2.responses.map Response.status = [statusOk] ∧
          (w.step host settings ⟨now, .request req⟩).app.1.weathers = w.app.1.weathers ++ [b] ∧
          (w.step host settings ⟨now, .request req⟩).app.1.registry = w.app.1.registry ∧
          Delivered (postMessage b.ID) w.app.1.registry.ids w.conns
            (w.step host settings ⟨now, .request req⟩).conns) ∧
      (host.json.fromJson req.body = none →
        (w.outcome host settings now req).1 = .ok .accepted ∧
          (w.outcome host settings now req).2.2.responses.map Response.status = [statusBadRequest] ∧
          w.step host settings ⟨now, .request req⟩ = w) := by
  have hsound : w.Sound settings := hw ▸ World.after_sound events
  have hout : w.outcome host settings now req = _ :=
    (serve_post host (clockAt settings now) w.hub hm hp hq).trans (onNewWeather_run host _ req w.app.2)
  rw [World.step_post hfree hm hp hq]
  refine ⟨w.app.2.owned, fun message x => ?_, fun b hb => ?_, fun hb => ?_⟩
  · rw [sendMessage_run _ message w.hub w.app.2 x]
  · rw [hb] at hout
    simp only [World.handled, hout]
    have hop : (postMessage b.ID).opcode.isValid = true := rfl
    exact ⟨trivial, rfl, rfl, rfl, hsound.delivered (clockAt settings now) hop (by simp [postMessage])⟩
  · rw [hb] at hout
    simp only [World.handled, hout]
    exact ⟨trivial, rfl, rfl⟩

end World

def sampleHost : Host := ⟨sampleEnv, fun _ _ => sampleStation []⟩

def sampleSettings : Settings := ⟨1, 10, 2 ^ 20⟩

def chatOpened : Occurrence :=
  ⟨0, .request { sampleRequest .get (ascii "/chat") [] with
    connectionUpgrade := true, secWebsocketKey := some (ascii "dGhlIHNhbXBsZSBub25jZQ==") }⟩

def secondPost : Request :=
  { sampleRequest .post (ascii "/") (jsonText (sampleStation (ascii "1"))) with connectionId := 2 }

theorem chat_told_of_post :
    (World.after sampleHost sampleSettings [chatOpened]).app.1.registry.ids = [1] ∧
      Delivered (postMessage (ascii "1")) [1] (World.after sampleHost sampleSettings [chatOpened]).conns
        ((World.after sampleHost sampleSettings [chatOpened]).step sampleHost sampleSettings
          ⟨0, .request secondPost⟩).conns := by
  have hids : (World.after sampleHost sampleSettings [chatOpened]).app.1.registry.ids = [1] := by decide +kernel
  have hfree : (World.after sampleHost sampleSettings [chatOpened]).conns secondPost.connectionId = none := by
    decide +kernel
  have hp : targetPath secondPost.path = .ok (ascii "/") := by decide
  have hpost := (post_broadcast sampleHost sampleSettings [chatOpened] 0 rfl hfree rfl hp (.inl rfl)).2.2.1
  have hdelivered := (hpost (sampleStation (ascii "1")) (sampleEnv_fromJson (.inr rfl))).2.2.2.2
  rw [hids] at hdelivered
  exact ⟨hids, hdelivered⟩

end NgkNet.Voresmain
