import NgkNet.Restinio.WebSocket.Fragments
import NgkNet.Restinio.WebSocket.Serving
import NgkNet.Restinio.WebSocket.Writing

set_option autoImplicit false

namespace NgkNet.Restinio.WebSocket

open Ascii Eff

def closeNotice (status : StatusCode) : Message := ⟨true, .connectionCloseFrame, statusCodeToBin status⟩

inductive Conn.Waits (o : Ongoing) (c : Conn) : List ClientFrame → Str → Prop
  | header {frames : List ClientFrame} {a : Str} (hr : c.reading = .header) (hv : c.validator.Between o)
      (hp : Parser.initial.parserExecute a = .ok (c.parser, [])) (hnot : c.parser.headerParsed = false)
      (hpay : c.payload = []) (hshort : ∀ f rest, frames = f :: rest → a.length < f.header.length) : Waits o c frames a
  | payload {f : ClientFrame} {frames : List ClientFrame} {n : ℕ} (hn : n < f.message.payload.length)
      (hr : c.reading = .payload (f.message.payload.length - n) true)
      (hv : c.validator.Inside o f.frameHeader (f.message.payload.take n))
      (hd : f.frameHeader.Matches c.parser.currentMsg) (hpay : c.payload = f.message.payload.take n) :
      Waits o c (f :: frames) (f.header ++ mask f.maskingKey 0 (f.message.payload.take n))

structure Conn.Owes (written out : List WriteGroup) (c : Conn) : Prop where
  tidy : c.Tidy
  total : written ++ c.outgoing = out

def MessageHandler.Answers {σ : Type} (H : MessageHandler σ) (reply : Message → List Message) : Prop :=
  ∀ id m app, m.opcode ≠ .connectionCloseFrame → (H.call id m app).2 = reply m

/-- What has been written and what is to be written when these bytes of the frames have come: the replies to
the frames that are whole, up to the first one that is taken for the broken end of a text. -/
inductive Progress (reply : Message → List Message) (written : List WriteGroup) (c : Conn) :
    Ongoing → List ClientFrame → Str → List WriteGroup → Prop
  | waits {o : Ongoing} {frames : List ClientFrame} {a : Str} {out : List WriteGroup} (hw : c.Waits o frames a)
      (hvital : c.vital = (true, true, true, true, .readAnyFrame, none, true)) (ho : c.Owes written out) :
      Progress reply written c o frames a out
  | frame {o : Ongoing} {f : ClientFrame} {frames : List ClientFrame} {a : Str} {out : List WriteGroup}
      (hu : f.message.opcode.isControlFrame = true → Utf8 o.sofar)
      (h : Progress reply written c (o.next f.message) frames a (out ++ (reply f.message).map Message.writeGroup)) :
      Progress reply written c o (f :: frames) (f.wire ++ a) out
  | broken {o : Ongoing} {f : ClientFrame} {frames : List ClientFrame} {a : Str} {out : List WriteGroup}
      (hc : f.message.opcode.isControlFrame = true) (hu : ¬ Utf8 o.sofar) (hr : c.reading = .nothing)
      (ho : c.Owes written (out ++ [(closeNotice .invalidMessageData).writeGroup])) :
      Progress reply written c o (f :: frames) (f.wire ++ a) out

theorem Conn.Waits.of_input {o : Ongoing} {c d : Conn} {frames : List ClientFrame} {a : Str} (h : c.Waits o frames a)
    (hd : d.input = c.input) : d.Waits o frames a := by
  simp only [Conn.input, Prod.mk.injEq] at hd
  obtain ⟨hparser, hpayload, hvalidator, hreading⟩ := hd
  cases h with
  | header hr hv hp hnot hpay hshort =>
    exact .header (hreading.trans hr) (hvalidator ▸ hv) (hparser ▸ hp) (hparser ▸ hnot) (hpayload.trans hpay) hshort
  | payload hn hr hv hd hpay =>
    exact .payload hn (hreading.trans hr) (hvalidator ▸ hv) (hparser ▸ hd) (hpayload.trans hpay)

theorem Progress.afterWrite {reply : Message → List Message} {written : List WriteGroup} {c : Conn} {o : Ongoing}
    {frames : List ClientFrame} {a : Str} {out : List WriteGroup} (h : Progress reply written c o frames a out)
    (k : Clock) {wg : WriteGroup} (hwg : c.currentWg = some wg) :
    Progress reply (written ++ [wg]) (c.afterWrite k) o frames a out := by
  have howes : ∀ {out}, c.Owes written out → (c.afterWrite k).Owes (written ++ [wg]) out := fun ho =>
    ⟨ho.tidy.afterWrite, by rw [List.append_assoc, List.singleton_append, ← ho.tidy.outgoing_afterWrite wg hwg, ho.total]⟩
  induction h with
  | waits hw hvital ho =>
    exact .waits (hw.of_input (c.afterWrite_input k)) ((congrArg Prod.fst (c.afterWrite_state k)).trans hvital) (howes ho)
  | frame hu h ih => exact .frame hu ih
  | broken hc hu hr ho => exact .broken hc hu ((congrArg Prod.snd (c.afterWrite_state k)).trans hr) (howes ho)

variable {σ : Type} (K : Context σ) (reply : Message → List Message) (written : List WriteGroup)

structure Ready (o : Ongoing) (out : List WriteGroup) (s : Loc σ) : Prop where
  working : Working K s
  between : s.conn.validator.Between o
  owes : s.conn.Owes written out

structure Holding (o : Ongoing) (f : ClientFrame) (n : ℕ) (out : List WriteGroup) (s : Loc σ) : Prop where
  working : Working K s
  within : s.conn.validator.Inside o f.frameHeader (f.message.payload.take n)
  parsed : f.frameHeader.Matches s.conn.parser.currentMsg
  payload : s.conn.payload = f.message.payload.take n
  owes : s.conn.Owes written out

inductive Reached (s : Loc σ) : Ongoing → List ClientFrame → Str → List WriteGroup → Next → Prop
  | wait {o : Ongoing} {frames : List ClientFrame} {a : Str} {out : List WriteGroup}
      (h : Progress reply written s.conn o frames a out) : Reached s o frames a out .wait
  | frame {o : Ongoing} {f : ClientFrame} {frames : List ClientFrame} {buf : Str} {out : List WriteGroup}
      (hu : f.message.opcode.isControlFrame = true → Utf8 o.sofar)
      (h : Ready K written (o.next f.message) (out ++ (reply f.message).map Message.writeGroup) s) :
      Reached s o (f :: frames) (f.wire ++ buf) out (.readHeader buf)

def Leads (x : Ws σ Next) (s : Loc σ) (o : Ongoing) (frames : List ClientFrame) (a : Str) (out : List WriteGroup) :
    Prop :=
  ∃ next t, x.run s = (.ok next, t) ∧ Reached K reply written t o frames a out next

variable {K reply written} {o : Ongoing} {f : ClientFrame} {frames : List ClientFrame} {out : List WriteGroup}
  {s : Loc σ}

theorem prefix_append_cases {s a b : Str} (h : s <+: a ++ b) : (∃ t, t ≠ [] ∧ a = s ++ t) ∨ ∃ t, s = a ++ t ∧ t <+: b := by
  obtain ⟨c, hc⟩ := h
  rcases List.append_eq_append_iff.mp hc with ⟨t, ha, -⟩ | ⟨t, hs, hb⟩
  · cases t with
    | nil => exact .inr ⟨[], by rw [ha, List.append_nil, List.append_nil], List.nil_prefix⟩
    | cons byte t => exact .inl ⟨byte :: t, List.cons_ne_nil byte t, ha⟩
  · exact .inr ⟨t, hs, c, hb.symm⟩

section Lawful

variable (hH : K.handler.Lawful)
include hH

theorem owes_called (hR : K.handler.Answers reply) (hs : Working K s) (ho : s.conn.Owes written out) {m : Message}
    (hm : m.opcode ≠ .connectionCloseFrame) :
    (callMessageHandler K m s).conn.Owes written (out ++ (reply m).map Message.writeGroup) := by
  refine ⟨tidy_preserved.called s m ho.tidy, ?_⟩
  have hkeep : K.handler.holds (K.handler.call K.id m s.app).1 K.id = true := (hH.data _ _ _ _ hm).trans hs.holds
  have hconn : (callMessageHandler K m s).conn = (reply m).foldl (fun c m => c.sendMessage K.clock m) s.conn := by
    rw [callMessageHandler, if_pos hs.holds, ← hR K.id m s.app hm]
    simp only [hkeep, if_true]
  have hsends : ∀ m' ∈ reply m, m'.opcode ≠ .connectionCloseFrame := by
    rw [← hR K.id m s.app hm]
    exact hH.sends _ _ _
  rw [hconn, ho.tidy.outgoing_sendMessages hsends hs.socketOpen hs.toPeer, ← List.append_assoc, ho.total]

omit hH in
theorem callMessageHandler_disabled (hw : s.conn.writeState = .writeDisabled) (hp : s.conn.closeFrameToPeer = false)
    (m : Message) : (callMessageHandler K m s).conn.outgoing = s.conn.outgoing := by
  rw [callMessageHandler]
  split
  · show (if K.handler.holds (K.handler.call K.id m s.app).1 K.id = true then _ else _ : Conn).outgoing = _
    rw [Conn.sendMessages_of_disabled hw]
    split
    · rfl
    · rw [Conn.shutdown, Conn.gracefulClose, if_neg (by simp [hp])]
      rfl
  · rfl

omit hH in
theorem callCloseHandlerIfNecessary_disabled (hw : s.conn.writeState = .writeDisabled)
    (hp : s.conn.closeFrameToPeer = false) (status : StatusCode) :
    (callCloseHandlerIfNecessary K status s).conn.outgoing = s.conn.outgoing := by
  rw [callCloseHandlerIfNecessary]
  split
  · exact callMessageHandler_disabled (s := s.update (fun c => { c with closeFrameToUser := false })) hw hp _
  · rfl

omit hH in
theorem owes_invalidMessageData (hs : Working K s) (ho : s.conn.Owes written out) :
    (handleInvalidPayload K .incorrectUtf8Data s).conn.Owes written
        (out ++ [(closeNotice .invalidMessageData).writeGroup]) ∧
      (handleInvalidPayload K .incorrectUtf8Data s).conn.reading = .nothing := by
  have ht : ({ s.conn with closeFrameToPeer := false } : Conn).Tidy :=
    ⟨fun h => absurd h Bool.false_ne_true, ho.tidy.closable, ho.tidy.drained, ho.tidy.full⟩
  have hstate := ({ s.conn with closeFrameToPeer := false } : Conn).sendCloseFrameToPeer_state K.clock
    (statusCodeToBin .invalidMessageData)
  have hconn : (closeFrameToPeerIfFirst (fun c => (c.sendCloseFrameToPeer K.clock
      (statusCodeToBin .invalidMessageData)).startWaitingCloseFrameOnly K.clock) s.conn) =
        ({ s.conn with closeFrameToPeer := false }.sendCloseFrameToPeer K.clock
          (statusCodeToBin .invalidMessageData)).startWaitingCloseFrameOnly K.clock := by
    rw [closeFrameToPeerIfFirst, if_pos hs.toPeer]
  refine ⟨⟨tidy_preserved.handleInvalidPayload _ s ho.tidy, ?_⟩, ?_⟩
  all_goals
    rw [handleInvalidPayload, if_neg (by decide),
      show (s.ended K .invalidPayload).conn.readState = .readAnyFrame from hs.readState]
    dsimp only
  · rw [callCloseHandlerIfNecessary_disabled]
    · show written ++ (closeFrameToPeerIfFirst _ s.conn).outgoing = _
      rw [hconn, ← ho.total, List.append_assoc]
      exact congrArg (written ++ ·) (ht.outgoing_append hs.socketOpen (by simp))
    · show (closeFrameToPeerIfFirst _ s.conn).writeState = _
      rw [hconn]
      rfl
    · show (closeFrameToPeerIfFirst _ s.conn).closeFrameToPeer = _
      rw [hconn]
      exact congrArg (fun v => v.1.2.1) hstate
  · rw [callCloseHandlerIfNecessary_reading]
    show (closeFrameToPeerIfFirst _ s.conn).reading = _
    rw [hconn]
    exact (congrArg Prod.snd hstate).trans hs.idle

theorem Holding.leads_callHandlerOnCurrentMessage (hR : K.handler.Answers reply)
    (h : Holding K written o f f.message.payload.length out s) (hl : Legal o (f :: frames)) (buf : Str) :
    Leads K reply written (callHandlerOnCurrentMessage K buf) s o (f :: frames) (f.wire ++ buf) out := by
  obtain ⟨-, ha, -⟩ := hl
  obtain ⟨hfits, hclose, -⟩ := ha.fits
  have hs : Working K (s.update (fun c => { c with validator := c.validator.finishFrame.2 })) := h.working.update rfl
  have ho : (s.update (fun c => { c with validator := c.validator.finishFrame.2 })).conn.Owes written out :=
    ⟨⟨h.owes.tidy.enabled, h.owes.tidy.closable, h.owes.tidy.drained, h.owes.tidy.full⟩, h.owes.total⟩
  have hwithin := h.within
  have hpayload := h.payload
  rw [List.take_length] at hwithin hpayload
  have hmessage : (⟨s.conn.parser.currentMsg.finalFlag, s.conn.parser.currentMsg.opcode, s.conn.payload⟩ : Message) =
      f.message := by
    rw [h.parsed.finalFlag, h.parsed.opcode, hpayload]
    rfl
  simp only [Leads, callHandlerOnCurrentMessage, getConn, update, run_bind, run_read, run_modify]
  by_cases hu : f.message.opcode.isControlFrame = true → Utf8 o.sofar
  · obtain ⟨hvalid, hbetween⟩ := hwithin.finishFrame ha.valid fun hf => ha.utf8 hf hu
    rw [if_pos hvalid, if_pos h.working.readState, hmessage, handleAnyFrame_run hH hs hclose]
    refine ⟨_, _, rfl, .frame hu ⟨hs.called hH hclose, ?_, owes_called hH hR hs ho hclose⟩⟩
    rw [callMessageHandler_validator]
    exact hbetween hclose
  · obtain ⟨hc, hu⟩ := Classical.not_imp.mp hu
    have hbroken := hwithin.finishFrame_broken (hfits.control hc) (by
      show ¬ Utf8 (o.checked f.message)
      rwa [Fits.checked_control hc hclose])
    rw [hbroken, if_neg (by decide)]
    obtain ⟨ho', hr'⟩ := owes_invalidMessageData hs ho
    exact ⟨_, _, rfl, .wait (.broken hc hu hr' ho')⟩

omit hH in
theorem Conn.Owes.of_input {c : Conn} (h : c.Owes written out) {parser : Parser} {payload : Str}
    {validator : Validator} {reading : Reading} :
    ({ c with parser := parser, payload := payload, validator := validator, reading := reading } : Conn).Owes written out :=
  ⟨⟨h.tidy.enabled, h.tidy.closable, h.tidy.drained, h.tidy.full⟩, h.total⟩

omit hH in
theorem validatePayloadPart_run {data part : Str} {v : Validator}
    (hv : s.conn.validator.processAndUnmaskNextPayloadPart data = .ok (.payloadPartIsValid, part, v)) (n : ℕ) (buf : Str) :
    (validatePayloadPart K data n buf).run s =
      (.ok none, s.update (fun c => { c with payload := c.payload ++ part, validator := v })) := by
  simp only [validatePayloadPart, getConn, update, run_bind, run_read, hv, lift, run_pure, run_modify, if_true]

theorem Holding.leads_handlePayload (hR : K.handler.Answers reply) {n : ℕ} (h : Holding K written o f n out s)
    (hn : n ≤ f.message.payload.length) (hl : Legal o (f :: frames)) (part tail buf : Str)
    (hp : f.message.payload.drop n = part ++ tail) (hbuf : tail ≠ [] → buf = []) :
    Leads K reply written (handlePayload K (mask f.maskingKey n part) tail.length buf) s o (f :: frames)
      (f.header ++ mask f.maskingKey 0 (f.message.payload.take (n + part.length)) ++ buf) out := by
  have htake : f.message.payload.take (n + part.length) = f.message.payload.take n ++ part := by
    rw [List.take_add, hp, List.take_left]
  have hsplit : f.message.payload = f.message.payload.take n ++ part ++ tail := by
    rw [List.append_assoc, ← hp, List.take_append_drop]
  obtain ⟨v, hv, hwithin⟩ : ∃ v, s.conn.validator.processAndUnmaskNextPayloadPart (mask f.maskingKey n part) =
      .ok (.payloadPartIsValid, part, v) ∧ v.Inside o f.frameHeader (f.message.payload.take (n + part.length)) := by
    obtain ⟨data, v, hv, hj, hdata⟩ := h.within.processPart
      (hl.acceptable (b := part ++ tail) (by rw [← List.append_assoc]; exact hsplit)) part
    rw [List.length_take_of_le hn] at hv
    rcases hj with ⟨hvalid, hinside, -⟩ | ⟨-, hbad⟩
    · rw [hdata hvalid, hvalid] at hv
      exact ⟨v, hv, htake ▸ hinside⟩
    · exact absurd (hl.acceptable hsplit) hbad
  have hpayload : s.conn.payload ++ part = f.message.payload.take (n + part.length) := by
    rw [h.payload, htake]
  have hlength : f.message.payload.length - n = part.length + tail.length := by
    rw [← List.length_drop, hp, List.length_append]
  have hholding : Holding K written o f (n + part.length) out
      (s.update (fun c => { c with payload := c.payload ++ part, validator := v })) :=
    ⟨h.working.update rfl, hwithin, h.parsed, hpayload, h.owes.of_input⟩
  rw [Leads, handlePayload, run_bind, validatePayloadPart_run hv]
  dsimp only
  by_cases htail : tail = []
  · subst htail
    have hall : n + part.length = f.message.payload.length := by
      rw [List.length_nil] at hlength
      omega
    rw [hall] at hholding ⊢
    rw [List.length_nil, if_pos rfl, List.take_length]
    exact hholding.leads_callHandlerOnCurrentMessage hH hR hl buf
  · have hpos := List.length_pos_iff.mpr htail
    rw [if_neg (by omega), hbuf htail, List.append_nil]
    refine ⟨.wait, _, rfl, .wait (.waits (.payload (by omega) ?_ hwithin h.parsed hpayload) h.working.vital
      h.owes.of_input)⟩
    show Reading.payload tail.length true = _
    congr 1
    omega

omit hH in
theorem take_of_isPrefix {payload b rest : Str} {key : Fin 4 → UInt8} {n : ℕ} (h : b <+: mask key n payload ++ rest) :
    b.take payload.length = mask key n (payload.take b.length) := by
  have hb : b.take (mask key n payload).length = (mask key n payload).take b.length := by
    obtain ⟨c, hc⟩ := h
    rcases Nat.le_total b.length (mask key n payload).length with hle | hle
    · rw [List.take_of_length_le hle]
      have := congrArg (List.take b.length) hc
      rwa [List.take_left, List.take_append_of_le_length hle] at this
    · rw [List.take_of_length_le hle]
      have := congrArg (List.take (mask key n payload).length) hc
      rwa [List.take_left, List.take_append_of_le_length hle] at this
  rw [← mask_take, ← hb, mask_length]

theorem Ready.leads_handleParsedHeader (hR : K.handler.Answers reply) (h : Ready K written o out s)
    (hl : Legal o (f :: frames)) (hfit : f.message.payload.length ≤ K.payloadMaxSize)
    (hd : f.frameHeader.Matches s.conn.parser.currentMsg) (hpay : s.conn.payload = []) {b : Str}
    (hb : b <+: mask f.maskingKey 0 f.message.payload ++ wires frames) :
    Leads K reply written (handleParsedHeader K s.conn.parser.currentMsg b) s o (f :: frames) (f.header ++ b) out := by
  obtain ⟨hnew, hwithin⟩ := h.between.processNewFrame hd hl.2.1.valid
  have hholding : Holding K written o f 0 out
      (s.update (fun c => { c with validator := s.conn.validator.acceptFrame s.conn.parser.currentMsg })) :=
    ⟨h.working.update rfl, hwithin, hd, hpay, h.owes.of_input⟩
  simp only [Leads, handleParsedHeader, getConn, update, run_bind, run_read, hnew, lift, run_pure, run_modify, if_true]
  have hlength : s.conn.parser.currentMsg.payloadLen = f.message.payload.length := hd.payloadLen
  rw [handleParsedAndValidHeader, hlength, if_neg (by omega)]
  by_cases hz : f.message.payload.length = 0
  · rw [if_pos hz]
    rw [← hz] at hholding
    have hwire : f.wire = f.header := by rw [ClientFrame.wire, List.length_eq_zero_iff.mp hz, mask, List.append_nil]
    rw [← hwire]
    exact hholding.leads_callHandlerOnCurrentMessage hH hR hl b
  · rw [if_neg hz, take_of_isPrefix hb]
    have hlead := hholding.leads_handlePayload hH hR (Nat.zero_le _) hl (f.message.payload.take b.length)
      (f.message.payload.drop b.length) (b.drop f.message.payload.length) (List.take_append_drop _ _).symm ?_
    · have hlen : f.message.payload.length - (mask f.maskingKey 0 (f.message.payload.take b.length)).length =
          (f.message.payload.drop b.length).length := by
        rw [mask_length, List.length_take, List.length_drop]
        omega
      have hbytes : f.header ++ b = f.header ++ mask f.maskingKey 0
          (f.message.payload.take (0 + (f.message.payload.take b.length).length)) ++ b.drop f.message.payload.length := by
        rw [List.append_assoc, Nat.zero_add, List.length_take, ← List.take_take, List.take_length,
          ← take_of_isPrefix hb, List.take_append_drop]
      rw [hlen, hbytes]
      exact hlead
    · intro htail
      have hlt := List.length_pos_iff.mpr htail
      rw [List.length_drop] at hlt
      exact List.drop_eq_nil_of_le (by omega)

omit hH in
theorem Ready.leads_header (h : Ready K written o out s) {a data : Str} {p : Parser}
    (hexec : s.conn.parser.parserExecute data = .ok (p, [])) (hp : Parser.initial.parserExecute a = .ok (p, []))
    (hnot : p.headerParsed = false) (hpay : s.conn.payload = [])
    (hshort : ∀ f rest, frames = f :: rest → a.length < f.header.length) :
    Leads K reply written (consumeHeaderFromBuffer K data) s o frames a out := by
  simp only [Leads, consumeHeaderFromBuffer, getConn, update, run_bind, run_read, hexec, lift, run_pure, run_modify, hnot,
    Bool.false_eq_true, if_false, consumeHeaderFromSocket]
  exact ⟨_, _, rfl, .wait (.waits (.header rfl h.between hp hnot hpay hshort) h.working.vital h.owes.of_input)⟩

theorem Ready.leads_consumeHeaderFromBuffer (hR : K.handler.Answers reply) (h : Ready K written o out s)
    (hl : Legal o frames) (hfit : ∀ f ∈ frames, f.message.payload.length ≤ K.payloadMaxSize) {a data : Str}
    (hp : Parser.initial.parserExecute a = .ok (s.conn.parser, [])) (hnot : s.conn.parser.headerParsed = false)
    (hpay : s.conn.payload = []) (hdata : a ++ data <+: wires frames) :
    Leads K reply written (consumeHeaderFromBuffer K data) s o frames (a ++ data) out := by
  have hexec : s.conn.parser.parserExecute data = Parser.initial.parserExecute (a ++ data) := by
    rw [Parser.parserExecute_append, hp]
    show _ = if s.conn.parser.headerParsed then _ else _
    rw [if_neg (by simp [hnot])]
  cases frames with
  | nil =>
    obtain ⟨rfl, rfl⟩ := List.append_eq_nil_iff.mp (List.prefix_nil.mp hdata)
    exact h.leads_header hexec rfl rfl hpay (fun f rest hf => absurd hf.symm (List.cons_ne_nil f rest))
  | cons f frames =>
    have hread := f.read_header hl.2.1.fits.1.opcode (Nat.lt_trans hl.1 (by decide)) []
    rw [List.append_nil] at hread
    obtain ⟨p, hparse, hparsed, hd⟩ := FrameHeader.parserExecute_of_read hread
    have hwires : wires (f :: frames) = f.header ++ (mask f.maskingKey 0 f.message.payload ++ wires frames) := by
      rw [wires, List.flatMap_cons, ClientFrame.wire, List.append_assoc, wires]
    rw [hwires] at hdata
    rcases prefix_append_cases hdata with ⟨b, hne, hb⟩ | ⟨b, hb, hrest⟩
    · rw [hb] at hparse
      obtain ⟨p', hp', hnot', -⟩ := Parser.parserExecute_part hne hparse
      refine h.leads_header (hexec.trans hp') hp' hnot' hpay fun g rest hg => ?_
      obtain ⟨rfl, -⟩ := List.cons.inj hg
      have hpos := List.length_pos_iff.mpr hne
      have hlength := congrArg List.length hb
      rw [List.length_append] at hlength
      omega
    · have hrun : s.conn.parser.parserExecute data = .ok (p, b) := by
        rw [hexec, hb, Parser.parserExecute_append, hparse]
        show (if p.headerParsed then _ else _) = _
        rw [if_pos hparsed]
        rfl
      have hready : Ready K written o out (s.update (fun c => { c with parser := p })) :=
        ⟨h.working.update rfl, h.between, h.owes.of_input⟩
      have hlead := hready.leads_handleParsedHeader hH hR hl (hfit f List.mem_cons_self) hd hpay hrest
      simp only [Leads, consumeHeaderFromBuffer, getConn, update, run_bind, run_read, hrun, lift, run_pure, run_modify,
        hparsed, if_true]
      rw [hb]
      exact hlead

theorem Ready.leads_startReadHeader (hR : K.handler.Answers reply) (h : Ready K written o out s) (hl : Legal o frames)
    (hfit : ∀ f ∈ frames, f.message.payload.length ≤ K.payloadMaxSize) {buf : Str} (hbuf : buf <+: wires frames) :
    Leads K reply written (startReadHeader K buf) s o frames buf out := by
  have hready : Ready K written o out (s.update Conn.resetParserAndPayload) :=
    ⟨h.working.update rfl, h.between, h.owes.of_input⟩
  simp only [Leads, startReadHeader, update, run_bind, run_modify]
  by_cases hz : buf.length = 0
  · obtain rfl := List.length_eq_zero_iff.mp hz
    rw [if_pos hz]
    refine ⟨.wait, _, rfl, .wait (.waits (.header rfl h.between rfl rfl rfl fun f rest _ => ?_) h.working.vital
      h.owes.of_input)⟩
    exact Nat.lt_of_lt_of_le (by decide) f.header_length.1
  · rw [if_neg hz]
    exact hready.leads_consumeHeaderFromBuffer hH hR hl hfit (a := []) rfl rfl rfl hbuf

theorem Ready.readOn (hR : K.handler.Answers reply) (h : Ready K written o out s) (hl : Legal o frames)
    (hfit : ∀ f ∈ frames, f.message.payload.length ≤ K.payloadMaxSize) {buf : Str} (hbuf : buf <+: wires frames)
    {fuel : ℕ} (hfuel : buf.length < fuel) :
    ∃ t, (readOn K fuel (.readHeader buf)).run s = (.ok (), t) ∧ Progress reply written t.conn o frames buf out := by
  induction fuel generalizing s o frames buf out with
  | zero => exact absurd hfuel (Nat.not_lt_zero _)
  | succ fuel ih =>
    obtain ⟨next, t, hrun, hreached⟩ := h.leads_startReadHeader hH hR hl hfit hbuf
    rw [WebSocket.readOn, run_bind, hrun]
    cases hreached with
    | wait hprogress =>
      refine ⟨t, ?_, hprogress⟩
      cases fuel <;> rfl
    | @frame f frames buf _ hu hready =>
      have hlt := f.header_length
      rw [List.length_append] at hfuel
      have hbuf' : buf <+: wires frames := by
        rw [wires, List.flatMap_cons] at hbuf
        exact (List.prefix_append_right_inj _).mp hbuf
      obtain ⟨t', hrun', hprogress⟩ := ih hready hl.2.2 (fun g hg => hfit g (List.mem_cons_of_mem _ hg)) hbuf' (by omega)
      exact ⟨t', hrun', .frame hu hprogress⟩

theorem Leads.readAll (hR : K.handler.Answers reply) {x : Ws σ Next} {a : Str}
    (h : Leads K reply written x s o frames a out) (hl : Legal o frames)
    (hfit : ∀ f ∈ frames, f.message.payload.length ≤ K.payloadMaxSize) (ha : a <+: wires frames) :
    ∃ t, (x >>= readAll K).run s = (.ok (), t) ∧ Progress reply written t.conn o frames a out := by
  obtain ⟨next, t, hrun, hreached⟩ := h
  rw [run_bind, hrun]
  cases hreached with
  | wait hprogress => exact ⟨t, rfl, hprogress⟩
  | @frame f frames buf _ hu hready =>
    have hbuf : buf <+: wires frames := by
      rw [wires, List.flatMap_cons] at ha
      exact (List.prefix_append_right_inj _).mp ha
    obtain ⟨t', hrun', hprogress⟩ := hready.readOn hH hR hl.2.2 (fun g hg => hfit g (List.mem_cons_of_mem _ hg)) hbuf
      (Nat.lt_succ_self _)
    exact ⟨t', hrun', .frame hu hprogress⟩

theorem Conn.Waits.readDone (hR : K.handler.Answers reply) {a data : Str} (h : s.conn.Waits o frames a)
    (hs : Serving K s) (ho : s.conn.Owes written out) (hl : Legal o frames)
    (hfit : ∀ f ∈ frames, f.message.payload.length ≤ K.payloadMaxSize) (hdata : a ++ data <+: wires frames)
    (hlen : data.length ≤ s.conn.reading.wanted) :
    Progress reply written (readDone K (some data) s).conn o frames (a ++ data) out := by
  have hworking : Working K (s.update (fun c => { c with reading := .nothing })) := ⟨hs.toAlive.update rfl, rfl⟩
  cases h with
  | header hr hv hp hnot hpay hshort =>
    have hready : Ready K written o out (s.update (fun c => { c with reading := .nothing })) :=
      ⟨hworking, hv, ho.of_input⟩
    rw [hr] at hlen
    have htake : data.take headerMaxSize = data := List.take_of_length_le hlen
    have hlead := hready.leads_consumeHeaderFromBuffer hH hR hl hfit hp hnot hpay hdata
    obtain ⟨t, hrun, hprogress⟩ := hlead.readAll hH hR hl hfit hdata
    have hafter : (afterReadHeader K (some data)).run (s.update (fun c => { c with reading := .nothing })) =
        (.ok (), t) := by
      rw [afterReadHeader, htake]
      exact hrun
    rw [WebSocket.readDone, hr]
    dsimp only
    rw [guarded, run_catchAll_ok hafter]
    exact hprogress
  | @payload f frames n hn hr hv hd hpay =>
    have hholding : Holding K written o f n out (s.update (fun c => { c with reading := .nothing })) :=
      ⟨hworking, hv, hd, hpay, ho.of_input⟩
    rw [hr] at hlen
    have htake : data.take (f.message.payload.length - n) = data := List.take_of_length_le hlen
    have hmask : ∀ rest, mask f.maskingKey 0 (f.message.payload.take n ++ rest) =
        mask f.maskingKey 0 (f.message.payload.take n) ++ mask f.maskingKey n rest := by
      intro rest
      rw [mask_append, List.length_take_of_le (Nat.le_of_lt hn), Nat.zero_add]
    have hrest : data <+: mask f.maskingKey n (f.message.payload.drop n) ++ wires frames := by
      have hwires : wires (f :: frames) = f.header ++ mask f.maskingKey 0 (f.message.payload.take n) ++
          (mask f.maskingKey n (f.message.payload.drop n) ++ wires frames) := by
        have hsplit := hmask (f.message.payload.drop n)
        rw [List.take_append_drop] at hsplit
        simp only [wires, List.flatMap_cons, ClientFrame.wire, hsplit, List.append_assoc]
      rw [hwires] at hdata
      exact (List.prefix_append_right_inj _).mp hdata
    have hpart : data = mask f.maskingKey n ((f.message.payload.drop n).take data.length) := by
      rw [← take_of_isPrefix hrest, List.length_drop, htake]
    have hlead := hholding.leads_handlePayload hH hR (Nat.le_of_lt hn) hl
      ((f.message.payload.drop n).take data.length) ((f.message.payload.drop n).drop data.length) []
      (List.take_append_drop _ _).symm (fun _ => rfl)
    rw [List.append_nil, List.take_add, List.length_take, ← List.take_take, List.take_length, hmask, ← hpart,
      ← List.append_assoc] at hlead
    obtain ⟨t, hrun, hprogress⟩ := hlead.readAll hH hR hl hfit hdata
    have hafter : (afterReadPayload K (f.message.payload.length - n) true (some data)).run
        (s.update (fun c => { c with reading := .nothing })) = (.ok (), t) := by
      rw [List.length_drop, List.length_drop] at hrun
      simp only [afterReadPayload, htake, takePayload, if_true]
      exact hrun
    rw [WebSocket.readDone, hr]
    dsimp only
    rw [guarded, run_catchAll_ok hafter]
    exact hprogress

theorem Progress.readDone (hR : K.handler.Answers reply) {a data : Str}
    (h : Progress reply written s.conn o frames a out) (hs : ServingOrOver K s) (hl : Legal o frames)
    (hfit : ∀ f ∈ frames, f.message.payload.length ≤ K.payloadMaxSize) (hdata : a ++ data <+: wires frames)
    (hlen : data.length ≤ s.conn.reading.wanted) :
    Progress reply written (readDone K (some data) s).conn o frames (a ++ data) out := by
  induction h with
  | waits hw hvital ho =>
    simp only [Conn.vital, Prod.mk.injEq] at hvital
    have hserved : s.conn.Served := by
      refine ⟨hvital.2.2.2.1, hvital.2.2.2.2.1, fun hn => ?_⟩
      cases hw with
      | header hr => rw [hn] at hr; cases hr
      | payload hn' hr => rw [hn] at hr; cases hr
    have hserving : Serving K s := hs.resolve_right fun h => h.unserved hserved
    exact hw.readDone hH hR hserving ho hl hfit hdata hlen
  | frame hu h ih =>
    rw [wires, List.flatMap_cons, List.append_assoc] at hdata
    rw [List.append_assoc]
    exact .frame hu (ih hl.2.2 (fun g hg => hfit g (List.mem_cons_of_mem _ hg))
      ((List.prefix_append_right_inj _).mp hdata))
  | broken hc hu hr ho =>
    rw [List.append_assoc, WebSocket.readDone, hr]
    exact .broken hc hu hr ho

end Lawful

theorem Conn.Waits.arrived_eq {c : Conn} {a : Str} (h : c.Waits o frames a) (ha : a <+: wires frames) :
    arrived frames a.length = [] ∧ 0 < c.reading.wanted := by
  cases h with
  | header hr hv hp hnot hpay hshort =>
    refine ⟨?_, by rw [hr]; decide⟩
    cases frames with
    | nil => rfl
    | cons f frames =>
      have hlt := hshort f frames rfl
      exact arrived_of_lt (by rw [f.header_length.2]; omega) frames
  | @payload f frames n hn hr hv hd hpay =>
    refine ⟨arrived_of_lt ?_ frames, by rw [hr, Reading.wanted]; omega⟩
    rw [f.header_length.2, List.length_append, mask_length, List.length_take]
    omega

theorem Progress.answered {c : Conn} {a : Str} (h : Progress reply written c o frames a out) (ha : a <+: wires frames) :
    Unbroken o (arrived frames a.length) ∧ 0 < c.reading.wanted ∧ (c.currentWg = none → c.outgoing = []) ∧
        written ++ c.outgoing =
          out ++ (arrived frames a.length).flatMap (fun f => (reply f.message).map Message.writeGroup) ∨
      ¬ Unbroken o (arrived frames a.length) ∧
        ∃ groups, written ++ c.outgoing = out ++ groups ++ [(closeNotice .invalidMessageData).writeGroup] := by
  induction h with
  | waits hw hvital ho =>
    obtain ⟨harrived, hwanted⟩ := hw.arrived_eq ha
    rw [harrived, List.flatMap_nil, List.append_nil]
    refine .inl ⟨trivial, hwanted, fun hn => ?_, ho.total⟩
    have hopen := congrArg (fun v => v.2.2.2.1) hvital
    rw [Conn.outgoing, hn, (ho.tidy.drained hopen hn).1]
    rfl
  | frame hu h ih =>
    rw [wires, List.flatMap_cons] at ha
    rw [arrived_wire, List.flatMap_cons, ← List.append_assoc]
    rcases ih ((List.prefix_append_right_inj _).mp ha) with ⟨hunbroken, hrest⟩ | ⟨hbroken, groups, htotal⟩
    · exact .inl ⟨⟨hu, hunbroken⟩, hrest⟩
    · rw [List.append_assoc _ _ groups] at htotal
      exact .inr ⟨fun hn => hbroken hn.2, _, htotal⟩
  | broken hc hu hr ho =>
    rw [arrived_wire]
    exact .inr ⟨fun hn => hu (hn.1 hc), [], by rw [List.append_nil]; exact ho.total⟩

theorem writeGroup_flatten {m : Message} (hop : m.opcode.isValid = true) : m.writeGroup.flatten = m.wire := by
  rw [Message.writeGroup, writeMessageDetails_make hop, Message.wire]
  simp

theorem opcode_of_wire_eq {m m' : Message} (hm : m.opcode.isValid = true) (hm' : m'.opcode.isValid = true)
    (h : m.wire = m'.wire) : m.opcode = m'.opcode := by
  have hfirst := (List.cons.inj h).1
  rw [← (first_byte_fields hm m.finalFlag).2.2, hfirst, (first_byte_fields hm' m'.finalFlag).2.2]

end NgkNet.Restinio.WebSocket
