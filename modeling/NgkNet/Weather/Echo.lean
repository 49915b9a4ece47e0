import NgkNet.Restinio.WebSocket.Receiving
import NgkNet.Weather.Chat

set_option autoImplicit false

namespace NgkNet.Weather

open Ascii Restinio WebSocket PercentEncoding

def echo (m : Message) : List Message :=
  match m.opcode with
  | .textFrame | .binaryFrame | .continuationFrame => [m]
  | .pingFrame => [{ m with opcode := .pongFrame }]
  | _ => []

theorem liveUpdateHandler_answers : liveUpdateHandler.Answers echo := by
  intro id m store hm
  obtain ⟨final, opcode, payload⟩ := m
  cases opcode with
  | connectionCloseFrame => exact absurd rfl hm
  | _ => rfl

def InTime (now : ℕ) (c : Conn) : Prop :=
  (c.currentWg.isSome = true → now ≤ c.writeOperationTimeoutAfter) ∧
    ∀ limit, c.closeFrameFromPeerTimeoutAfter = some limit → now ≤ limit

/-- The server from the upgrade of a connection on, with the bytes that came on it and the groups that went out on it.
On this connection nothing fails and nothing times out; what happens besides is free. -/
inductive ChatSession (env : Env) (settings : Settings) (req : Request) : World → Str → List WriteGroup → Prop
  | opened (events : List Occurrence) (now : ℕ)
      (hfree : (World.after env settings events).conns req.connectionId = none) (hup : UpgradeRequest req) :
      ChatSession env settings req ((World.after env settings events).step env settings ⟨now, .request req⟩) [] []
  | read {w : World} {received : Str} {written : List WriteGroup} {c : Conn}
      (h : ChatSession env settings req w received written) (hc : w.conns req.connectionId = some c) (now : ℕ)
      (data : Str) (hdata : data.length ≤ c.reading.wanted) :
      ChatSession env settings req (w.step env settings ⟨now, .readDone req.connectionId (some data)⟩)
        (received ++ data) written
  | wrote {w : World} {received : Str} {written : List WriteGroup} {c : Conn} {wg : WriteGroup}
      (h : ChatSession env settings req w received written) (hc : w.conns req.connectionId = some c)
      (hwg : c.currentWg = some wg) (now : ℕ) :
      ChatSession env settings req (w.step env settings ⟨now, .writeDone req.connectionId true⟩) received
        (written ++ [wg])
  | checked {w : World} {received : Str} {written : List WriteGroup} {c : Conn}
      (h : ChatSession env settings req w received written) (hc : w.conns req.connectionId = some c) (now : ℕ)
      (htime : InTime now c) :
      ChatSession env settings req (w.step env settings ⟨now, .checkTimeout req.connectionId⟩) received written
  | other {w : World} {received : Str} {written : List WriteGroup} (h : ChatSession env settings req w received written)
      (o : Occurrence) (ho : o.event.connection ≠ some req.connectionId) :
      ChatSession env settings req (w.step env settings o) received written

def Echoes (w : World) (id : ℕ) (response : Str) (written : List WriteGroup) (frames : List ClientFrame) : Prop :=
  ∃ c, w.conns id = some c ∧ 0 < c.reading.wanted ∧ (c.currentWg = none → c.outgoing = []) ∧
    (written ++ c.outgoing).map List.flatten = response :: (frames.flatMap fun f => echo f.message).map Message.wire

variable {env : Env} {settings : Settings} {req : Request}

theorem conns_step_upgrade {w : World} (h : UpgradeRequest req) (hfree : w.conns req.connectionId = none) (now : ℕ) :
    (w.step env settings ⟨now, .request req⟩).conns req.connectionId =
      some (.activated (clockAt settings now) (upgradeText req)) := by
  rw [World.step_upgrade h hfree]
  exact Function.update_self _ _ _

theorem step_other {w : World} {id : ℕ} {c : Conn} (hc : w.conns id = some c) {o : Occurrence}
    (ho : o.event.connection ≠ some id) : (w.step env settings o).conns id = some c := by
  have hup : Upgrading liveUpdateHandler settings (World.onRequest env settings) := World.onRequest_upgrading
  rcases Site.step_other liveUpdateHandler_lawful hup w ho with ⟨hconns, -⟩ | ⟨hnone, -⟩
  · exact hconns.trans hc
  · cases hc.symm.trans hnone

theorem ChatSession.sound {w : World} {received : Str} {written : List WriteGroup}
    (h : ChatSession env settings req w received written) : w.Sound liveUpdateHandler settings := by
  induction h with
  | opened events now => exact World.step_sound (World.after_sound events) _
  | read h hc now data hdata ih => exact World.step_sound ih _
  | wrote h hc hwg now ih => exact World.step_sound ih _
  | checked h hc now htime ih => exact World.step_sound ih _
  | other h o ho ih => exact World.step_sound ih o

theorem checkTimeout_of_inTime {now id : ℕ} {s : Loc Store} (h : InTime now s.conn) :
    checkTimeout (contextAt liveUpdateHandler settings now id) s = s := by
  have hnow : (contextAt liveUpdateHandler settings now id).clock.now = now := rfl
  rw [checkTimeout, hnow]
  split
  · rw [if_neg, if_neg]
    · rw [Option.any_eq_true]
      rintro ⟨limit, hl, hlt⟩
      have := h.2 limit hl
      simp at hlt
      omega
    · rw [Bool.and_eq_true, decide_eq_true_eq]
      rintro ⟨hs, hlt⟩
      have := h.1 hs
      omega
  · rfl

theorem activated_progress (k : Clock) (response : Str) (frames : List ClientFrame) :
    Progress echo [] (.activated k response) .none frames [] [[response]] := by
  refine .waits (.header rfl ⟨rfl, rfl, rfl, Utf8Checker.tracks_nil.mpr Utf8Checker.initial_complete⟩ rfl rfl rfl
    fun f rest _ => ?_) rfl ⟨Conn.activated_tidy k response, rfl⟩
  exact Nat.lt_of_lt_of_le (by decide) f.header_length.1

theorem ChatSession.progress {w : World} {received : Str} {written : List WriteGroup}
    (h : ChatSession env settings req w received written) {frames : List ClientFrame} (hl : Legal .none frames)
    (hfit : ∀ f ∈ frames, f.message.payload.length ≤ settings.payloadMaxSize) (hr : received <+: wires frames) :
    ∃ c, w.conns req.connectionId = some c ∧
      Progress echo written c .none frames received [[upgradeText req]] := by
  induction h with
  | opened events now hfree hup => exact ⟨_, conns_step_upgrade hup hfree now, activated_progress _ _ frames⟩
  | @read w received written c h hc now data hdata ih =>
    obtain ⟨c', hc', hp⟩ := ih ((List.prefix_append _ _).trans hr)
    obtain rfl : c = c' := Option.some.inj (hc.symm.trans hc')
    refine ⟨_, Site.onConn_conns_self (K := contextAt liveUpdateHandler settings now req.connectionId) hc, ?_⟩
    have hserve : ServingOrOver (contextAt liveUpdateHandler settings now req.connectionId) (w.view c) :=
      (h.sound.known _ c hc).2.congr rfl rfl rfl rfl rfl Iff.rfl
    exact Progress.readDone (s := w.view c) liveUpdateHandler_lawful liveUpdateHandler_answers hp hserve hl hfit hr
      hdata
  | @wrote w received written c wg h hc hwg now ih =>
    obtain ⟨c', hc', hp⟩ := ih hr
    obtain rfl : c = c' := Option.some.inj (hc.symm.trans hc')
    refine ⟨_, Site.onConn_conns_self (K := contextAt liveUpdateHandler settings now req.connectionId) hc, ?_⟩
    have hconn : (writeDone (contextAt liveUpdateHandler settings now req.connectionId) true (w.view c)).conn =
        c.afterWrite (clockAt settings now) := by
      rw [writeDone, show (w.view c).conn.currentWg = some wg from hwg]
      rfl
    rw [hconn]
    exact hp.afterWrite _ hwg
  | @checked w received written c h hc now htime ih =>
    obtain ⟨c', hc', hp⟩ := ih hr
    obtain rfl : c = c' := Option.some.inj (hc.symm.trans hc')
    refine ⟨_, Site.onConn_conns_self (K := contextAt liveUpdateHandler settings now req.connectionId) hc, ?_⟩
    rw [checkTimeout_of_inTime (s := w.view c) htime]
    exact hp
  | other h o ho ih =>
    obtain ⟨c, hc, hp⟩ := ih hr
    exact ⟨c, step_other hc ho, hp⟩

theorem echo_spec {m : Message} (hm : m.opcode.isValid = true) {r : Message} (hr : r ∈ echo m) :
    r.opcode.isValid = true ∧ r.opcode ≠ .connectionCloseFrame ∧ r.payload = m.payload := by
  obtain ⟨final, opcode, payload⟩ := m
  cases opcode with
  | textFrame | binaryFrame | continuationFrame | pingFrame =>
    obtain rfl := List.mem_singleton.mp hr
    exact ⟨rfl, by simp, rfl⟩
  | connectionCloseFrame | pongFrame => cases hr
  | other code => cases hm

theorem flatten_echoes {frames : List ClientFrame} (hl : Legal .none frames) (n : ℕ) :
    ((arrived frames n).flatMap fun f => (echo f.message).map Message.writeGroup).map List.flatten =
      ((arrived frames n).flatMap fun f => echo f.message).map Message.wire := by
  rw [List.map_flatMap, List.map_flatMap]
  apply List.flatMap_congr
  intro f hf
  obtain ⟨-, hop, -⟩ := hl.mem (arrived_subset frames n hf)
  rw [List.map_map]
  apply List.map_congr_left
  intro r hr
  exact writeGroup_flatten (echo_spec hop hr).1

/-- The service answers every frame that has arrived as long as none of them is a control frame that comes where the
text so far ends inside a character; such a frame it answers with a close frame, and it reads no further. -/
theorem echoes_iff_unbroken {w : World} {received : Str} {written : List WriteGroup} {frames : List ClientFrame}
    (hs : ChatSession env settings req w received written) (hl : Legal .none frames)
    (hfit : ∀ f ∈ frames, f.message.payload.length ≤ settings.payloadMaxSize) (hr : received <+: wires frames) :
    Echoes w req.connectionId (upgradeText req) written (arrived frames received.length) ↔
      Unbroken .none (arrived frames received.length) := by
  obtain ⟨c, hc, hp⟩ := hs.progress hl hfit hr
  have hflat := flatten_echoes hl received.length
  rcases hp.answered hr with ⟨hu, hwanted, hdrained, htotal⟩ | ⟨hu, groups, htotal⟩
  · refine iff_of_true ⟨c, hc, hwanted, hdrained, ?_⟩ hu
    rw [htotal, List.map_append, hflat]
    simp
  · refine iff_of_false ?_ hu
    rintro ⟨d, hd, -, -, he⟩
    obtain rfl : c = d := Option.some.inj (hc.symm.trans hd)
    have hclose : (closeNotice .invalidMessageData).writeGroup.flatten = (closeNotice .invalidMessageData).wire :=
      writeGroup_flatten rfl
    rw [htotal, List.append_assoc, List.map_append, List.map_append] at he
    have hmem : (closeNotice .invalidMessageData).wire ∈
        ((arrived frames received.length).flatMap fun f => echo f.message).map Message.wire := by
      have htail : groups.map List.flatten ++ [(closeNotice .invalidMessageData).writeGroup.flatten] = _ :=
        (List.cons.inj he).2
      rw [← htail, ← hclose]
      exact List.mem_append_right _ List.mem_cons_self
    obtain ⟨r, hr, hwire⟩ := List.mem_map.mp hmem
    obtain ⟨f, hf, hr⟩ := List.mem_flatMap.mp hr
    obtain ⟨-, hop, -⟩ := hl.mem (arrived_subset frames _ hf)
    obtain ⟨hvalid, hnot, -⟩ := echo_spec hop hr
    exact hnot (opcode_of_wire_eq hvalid rfl hwire)

def echoSettings : Settings := ⟨1, 10, 2 ^ 20⟩

theorem chatRequest_upgrades : UpgradeRequest chatRequest :=
  ⟨rfl, ⟨ascii "/chat", by decide, ascii "/chat", [], by decide, by decide, .inl rfl⟩, rfl, rfl⟩

def chatAfter (data : Str) : World :=
  World.after sampleEnv echoSettings [⟨0, .request chatRequest⟩, ⟨0, .readDone 1 (some data)⟩]

theorem chatAfter_session {data : Str} (h : data.length ≤ headerMaxSize) :
    ChatSession sampleEnv echoSettings chatRequest (chatAfter data) data [] :=
  .read (.opened [] 0 rfl chatRequest_upgrades) (conns_step_upgrade chatRequest_upgrades rfl 0) 0 data h

def sampleFrame (final : Bool) (opcode : Opcode) (payload : Str) : ClientFrame :=
  ⟨⟨final, opcode, payload⟩, fun i => [0x37, 0xFA, 0x21, 0x3D].getD i 0⟩

def letterInTwo : List ClientFrame :=
  [sampleFrame false .textFrame [0xC3], sampleFrame true .continuationFrame [0xA9]]

theorem letterInTwo_legal : Legal .none letterInTwo :=
  ⟨by decide, .text (fun h => absurd h Bool.false_ne_true), by decide, .moreText (fun _ => ⟨['é'], by decide⟩), [],
    utf8_nil⟩

theorem echoes_letterInTwo :
    Echoes (chatAfter (wires letterInTwo)) 1 (upgradeText chatRequest) [] letterInTwo := by
  have hs : ChatSession sampleEnv echoSettings chatRequest (chatAfter (wires letterInTwo)) (wires letterInTwo) [] :=
    chatAfter_session (by decide)
  have hiff := echoes_iff_unbroken hs letterInTwo_legal (by decide) List.prefix_rfl
  have harrived : arrived letterInTwo (wires letterInTwo).length = letterInTwo := rfl
  rw [harrived] at hiff
  exact hiff.mpr ⟨fun h => absurd h Bool.false_ne_true, fun h => absurd h Bool.false_ne_true, trivial⟩

def pingInLetter : List ClientFrame :=
  [sampleFrame false .textFrame [0xC3], sampleFrame true .pingFrame [], sampleFrame true .continuationFrame [0xA9]]

theorem pingInLetter_legal : Legal .none pingInLetter :=
  ⟨by decide, .text (fun h => absurd h Bool.false_ne_true), by decide, .ping (by decide), by decide,
    .moreText (fun _ => ⟨['é'], by decide⟩), [], utf8_nil⟩

theorem pingInLetter_outgoing :
    ((chatAfter (wires (pingInLetter.take 2))).conns 1).map (fun c => (c.outgoing.drop 1).map List.flatten) =
      some [[0x01, 0x01, 0xC3], [0x88, 0x02, 0x03, 0xEF]] := by
  decide +kernel

theorem ping_in_letter_not_echoed :
    Legal .none pingInLetter ∧ (∀ f ∈ pingInLetter, f.message.payload.length ≤ echoSettings.payloadMaxSize) ∧
      ChatSession sampleEnv echoSettings chatRequest (chatAfter (wires (pingInLetter.take 2)))
        (wires (pingInLetter.take 2)) [] ∧
      wires (pingInLetter.take 2) <+: wires pingInLetter ∧
      ¬ Echoes (chatAfter (wires (pingInLetter.take 2))) 1 (upgradeText chatRequest) []
        (arrived pingInLetter (wires (pingInLetter.take 2)).length) := by
  refine ⟨pingInLetter_legal, by decide, chatAfter_session (by decide), by decide, ?_⟩
  have harrived : arrived pingInLetter (wires (pingInLetter.take 2)).length = pingInLetter.take 2 := rfl
  rw [harrived]
  rintro ⟨c, hc, -, -, he⟩
  have hout := pingInLetter_outgoing
  rw [hc, Option.map_some, Option.some.injEq] at hout
  rw [List.nil_append] at he
  rw [List.map_drop, he, List.drop_one, List.tail_cons] at hout
  exact absurd hout (by decide)

/-- What goes out first is the answer to the key, whatever comes in meanwhile. -/
theorem chat_opened_by_handshake {w : World} {received : Str} {written : List WriteGroup} {frames : List ClientFrame}
    {key : Str} (hs : ChatSession env settings req w received written) (hl : Legal .none frames)
    (hfit : ∀ f ∈ frames, f.message.payload.length ≤ settings.payloadMaxSize) (hr : received <+: wires frames)
    (hkey : req.secWebsocketKey = some key) (hlength : key.length % 64 ≠ 20) :
    ∃ c group groups, w.conns req.connectionId = some c ∧ written ++ c.outgoing = group :: groups ∧
      Reader.Reads Http.readMessage group.flatten (handshake key) := by
  obtain ⟨text, htext, hreads⟩ := upgradeResponse_reads hlength
  have hsent : upgradeText req = text := by
    rw [upgradeText, hkey, Option.getD_some, htext]
    rfl
  obtain ⟨c, hc, hp⟩ := hs.progress hl hfit hr
  have htotal : ∃ groups, written ++ c.outgoing = [upgradeText req] :: groups := by
    rcases hp.answered hr with ⟨-, -, -, htotal⟩ | ⟨-, groups, htotal⟩
    · exact ⟨_, htotal⟩
    · exact ⟨_, htotal⟩
  obtain ⟨groups, htotal⟩ := htotal
  refine ⟨c, _, groups, hc, htotal, ?_⟩
  rw [List.flatten_singleton, hsent]
  exact hreads

theorem chat_opened_by_handshake_chat :
    ∃ c group groups, (World.after sampleEnv echoSettings [⟨0, .request chatRequest⟩]).conns 1 = some c ∧
      [] ++ c.outgoing = group :: groups ∧
      Reader.Reads Http.readMessage group.flatten (handshake (ascii "dGhlIHNhbXBsZSBub25jZQ==")) :=
  chat_opened_by_handshake (.opened [] 0 rfl chatRequest_upgrades) (show Legal .none [] from ⟨[], utf8_nil⟩)
    (List.forall_mem_nil _) List.prefix_rfl rfl (by decide)

end NgkNet.Weather
