import NgkNet.Restinio.WebSocket.Connection

set_option autoImplicit false

namespace NgkNet.Restinio.WebSocket

open Ascii Eff

variable {σ : Type} {K : Context σ}

def Conn.vital (c : Conn) : Bool × Bool × Bool × Bool × ReadState × Option ℕ × Bool :=
  (c.closeFrameToUser, c.closeFrameToPeer, c.closeImpl, c.socketOpen, c.readState,
    c.closeFrameFromPeerTimeoutAfter, c.timeoutChecking)

def Conn.state (c : Conn) : (Bool × Bool × Bool × Bool × ReadState × Option ℕ × Bool) × Reading := (c.vital, c.reading)

def Conn.input (c : Conn) : Parser × Str × Validator × Reading := (c.parser, c.payload, c.validator, c.reading)

section Writing

variable (k : Clock)

theorem Conn.initWrite_spec (c : Conn) (queue : List WriteGroup) :
    ∃ data wg n t, c.initWrite k queue =
        { c with outgoingData := data, currentWg := wg, nextWritableItemIndex := n, writeOperationTimeoutAfter := t } ∧
      data ⊆ queue ∧
      (c.nextWritableItemIndex = 0 → wg = none → data = [] ∧ n = 0) ∧
      (c.nextWritableItemIndex = 0 → (∀ wg ∈ queue, wg ≠ []) → wg.toList ++ data = queue) := by
  induction queue generalizing c with
  | nil => exact ⟨[], none, _, _, rfl, fun _ h => h, fun hn _ => ⟨rfl, hn⟩, fun _ _ => rfl⟩
  | cons wg queue ih =>
    rw [initWrite]
    split
    · exact ⟨queue, some wg, _, _, rfl, List.subset_cons_self _ _,
        fun _ h => absurd h (Option.some_ne_none wg), fun _ _ => rfl⟩
    next hlt =>
      obtain ⟨data, wg', n, t, he, hsub, hnone, -⟩ := ih { c with nextWritableItemIndex := 0 }
      refine ⟨data, wg', n, t, he, List.Subset.trans hsub (List.subset_cons_self _ _), fun _ => hnone rfl,
        fun hn hfull => ?_⟩
      have hpos := List.length_pos_iff.mpr (hfull wg List.mem_cons_self)
      omega

theorem Conn.initWriteIfNecessary_frame (c : Conn) : ∃ data wg n t, c.initWriteIfNecessary k =
    { c with outgoingData := data, currentWg := wg, nextWritableItemIndex := n, writeOperationTimeoutAfter := t } := by
  rw [initWriteIfNecessary]
  split
  · exact ⟨c.outgoingData, c.currentWg, c.nextWritableItemIndex, c.writeOperationTimeoutAfter, rfl⟩
  · obtain ⟨data, wg, n, t, he, -⟩ := c.initWrite_spec k c.outgoingData
    exact ⟨data, wg, n, t, he⟩

theorem Conn.initWriteIfNecessary_state (c : Conn) : (c.initWriteIfNecessary k).state = c.state := by
  obtain ⟨data, wg, n, t, he⟩ := c.initWriteIfNecessary_frame k
  rw [he]
  rfl

theorem Conn.initWriteIfNecessary_input (c : Conn) : (c.initWriteIfNecessary k).input = c.input := by
  obtain ⟨data, wg, n, t, he⟩ := c.initWriteIfNecessary_frame k
  rw [he]
  rfl

theorem Conn.sendCloseFrameToPeer_input (payload : Str) (c : Conn) :
    (c.sendCloseFrameToPeer k payload).input = c.input :=
  (c.append _).initWriteIfNecessary_input k

theorem Conn.afterWrite_input (c : Conn) : (c.afterWrite k).input = c.input :=
  ({ c with nextWritableItemIndex := 0, currentWg := none } : Conn).initWriteIfNecessary_input k

theorem Conn.shutdown_input (c : Conn) : (c.shutdown k).input = c.input := by
  rw [shutdown, gracefulClose]
  split
  · exact sendCloseFrameToPeer_input k _ _
  · rfl

theorem Conn.sendMessage_input (m : Message) (c : Conn) : (c.sendMessage k m).input = c.input := by
  rw [sendMessage, writeData]
  split
  · rw [writeDataImpl]
    split
    · refine (initWriteIfNecessary_input k _).trans ?_
      split <;> rfl
    · rfl
  · rfl

theorem Conn.sendMessages_input (out : List Message) (c : Conn) :
    (out.foldl (fun c m => c.sendMessage k m) c).input = c.input := by
  induction out generalizing c with
  | nil => rfl
  | cons m out ih => exact (ih _).trans (c.sendMessage_input k m)

theorem Conn.sendCloseFrameToPeer_state (payload : Str) (c : Conn) :
    (c.sendCloseFrameToPeer k payload).state = c.state :=
  (c.append _).initWriteIfNecessary_state k

theorem Conn.afterWrite_state (c : Conn) : (c.afterWrite k).state = c.state :=
  ({ c with nextWritableItemIndex := 0, currentWg := none } : Conn).initWriteIfNecessary_state k

theorem Conn.writeData_state (wg : WriteGroup) (c : Conn) : (c.writeData k wg false).state = c.state := by
  simp only [writeData, writeDataImpl, Bool.false_eq_true, if_false]
  split
  · split
    · exact (c.append wg).initWriteIfNecessary_state k
    · rfl
  · rfl

theorem Conn.sendMessage_state {m : Message} (hm : m.opcode ≠ .connectionCloseFrame) (c : Conn) :
    (c.sendMessage k m).state = c.state := by
  rw [sendMessage, decide_eq_false hm]
  exact c.writeData_state k _

theorem Conn.sendMessages_state {out : List Message} (h : ∀ m ∈ out, m.opcode ≠ .connectionCloseFrame)
    (c : Conn) : (out.foldl (fun c m => c.sendMessage k m) c).state = c.state := by
  induction out generalizing c with
  | nil => rfl
  | cons m out ih =>
    rw [List.foldl_cons, ih (fun m' hm' => h m' (List.mem_cons_of_mem _ hm'))]
    exact c.sendMessage_state k (h m List.mem_cons_self)

end Writing

def Conn.Decays (c d : Conn) : Prop :=
  (d.socketOpen = true → c.socketOpen = true) ∧ (d.readState = .readAnyFrame → c.readState = .readAnyFrame) ∧
    (c.closeImpl = true → d.closeImpl = true ∨ d.socketOpen = false)

namespace Conn.Decays

theorem refl (c : Conn) : Decays c c := ⟨id, id, .inl⟩

theorem trans {c d e : Conn} (h : Decays c d) (h' : Decays d e) : Decays c e := by
  refine ⟨fun ho => h.1 (h'.1 ho), fun hr => h.2.1 (h'.2.1 hr), fun hc => ?_⟩
  rcases h.2.2 hc with hd | hd
  · exact h'.2.2 hd
  · right
    rw [← Bool.not_eq_true] at hd ⊢
    exact fun ho => hd (h'.1 ho)

theorem of_state {c d : Conn} (h : d.state = c.state) : Decays c d := by
  simp only [state, vital, Prod.mk.injEq] at h
  obtain ⟨⟨-, -, hi, ho, hr, -⟩, -⟩ := h
  exact ⟨ho.symm.trans, hr.symm.trans, fun hc => .inl (hi.trans hc)⟩

theorem close (c : Conn) : Decays c c.close := by
  rw [Conn.close]
  split
  · exact ⟨fun h => (nomatch h), id, fun _ => .inr rfl⟩
  · exact refl c

variable (k : Clock)

theorem startWaitingCloseFrameOnly (c : Conn) : Decays c (c.startWaitingCloseFrameOnly k) :=
  ⟨id, fun h => (nomatch h), .inl⟩

theorem sendCloseFrameToPeer (payload : Str) (c : Conn) : Decays c (c.sendCloseFrameToPeer k payload) :=
  of_state (c.sendCloseFrameToPeer_state k payload)

theorem closeFrameToPeerIfFirst {f : Conn → Conn} (hf : ∀ c, Decays c (f c)) (c : Conn) :
    Decays c (WebSocket.closeFrameToPeerIfFirst f c) := by
  rw [WebSocket.closeFrameToPeerIfFirst]
  split
  · exact hf { c with closeFrameToPeer := false }
  · exact refl c

theorem gracefulClose (c : Conn) : Decays c (c.gracefulClose k) := by
  rw [Conn.gracefulClose]
  split
  · exact (sendCloseFrameToPeer k _ { c with closeFrameToPeer := false }).trans (startWaitingCloseFrameOnly k _)
  · exact refl c

theorem shutdown (c : Conn) : Decays c (c.shutdown k) := gracefulClose k { c with closeFrameToUser := false }

theorem sendMessage (m : Message) (c : Conn) : Decays c (c.sendMessage k m) := by
  rw [Conn.sendMessage, writeData]
  split
  · rw [writeDataImpl]
    split
    · refine trans ?_ (of_state (initWriteIfNecessary_state k _))
      split
      · exact startWaitingCloseFrameOnly k c
      · exact refl c
    · exact refl c
  · exact refl c

theorem sendMessages (out : List Message) (c : Conn) :
    Decays c (out.foldl (fun c m => c.sendMessage k m) c) := by
  induction out generalizing c with
  | nil => exact refl c
  | cons m out ih => exact (sendMessage k m c).trans (ih _)

end Conn.Decays

theorem callMessageHandler_decays (m : Message) (s : Loc σ) :
    Conn.Decays s.conn (callMessageHandler K m s).conn := by
  rw [callMessageHandler]
  split
  · refine .trans (.sendMessages K.clock (K.handler.call K.id m s.app).2 s.conn) ?_
    show Conn.Decays _ (if K.handler.holds (K.handler.call K.id m s.app).1 K.id = true then _ else _)
    split
    · exact .refl _
    · exact .shutdown K.clock _
  · exact .refl _

theorem Conn.sendCloseFrameToPeer_reading (k : Clock) (payload : Str) (c : Conn) :
    (c.sendCloseFrameToPeer k payload).reading = c.reading :=
  congrArg Prod.snd (c.sendCloseFrameToPeer_state k payload)

theorem callMessageHandler_input (m : Message) (s : Loc σ) :
    (callMessageHandler K m s).conn.input = s.conn.input := by
  rw [callMessageHandler]
  split
  · refine .trans ?_ (s.conn.sendMessages_input K.clock (K.handler.call K.id m s.app).2)
    show (if K.handler.holds (K.handler.call K.id m s.app).1 K.id = true then _ else _ : Conn).input = _
    split
    · rfl
    · exact Conn.shutdown_input K.clock _
  · rfl

theorem callMessageHandler_validator (m : Message) (s : Loc σ) :
    (callMessageHandler K m s).conn.validator = s.conn.validator :=
  congrArg (fun i => i.2.2.1) (callMessageHandler_input m s)

theorem callCloseHandlerIfNecessary_reading (status : StatusCode) (s : Loc σ) :
    (callCloseHandlerIfNecessary K status s).conn.reading = s.conn.reading := by
  rw [callCloseHandlerIfNecessary]
  split
  · have h := callMessageHandler_input (K := K) ⟨true, .connectionCloseFrame, statusCodeToBin status⟩
      (s.update (fun c => { c with closeFrameToUser := false }))
    exact congrArg (fun i => i.2.2.2) h
  · rfl

theorem callCloseHandlerIfNecessary_decays (status : StatusCode) (s : Loc σ) :
    Conn.Decays s.conn (callCloseHandlerIfNecessary K status s).conn := by
  rw [callCloseHandlerIfNecessary]
  split
  · exact callMessageHandler_decays _ (s.update (fun c => { c with closeFrameToUser := false }))
  · exact .refl _

structure Stable (K : Context σ) (P : Loc σ → Prop) : Prop where
  update : ∀ s f, (∀ c, Conn.Decays c (f c)) → P s → P (s.update f)
  ended : ∀ s ending, P s → P (s.ended K ending)
  called : ∀ s m, P s → P (callMessageHandler K m s)

structure PreservedByReads (K : Context σ) (P : Loc σ → Prop) : Prop where
  told : ∀ s, P s → P (s.update (fun c => { c with closeFrameToUser := false }))
  closed : ∀ s, P s → P (s.update Conn.close)
  closeFrame : ∀ s payload, P s →
    P (s.update (closeFrameToPeerIfFirst (fun c => c.sendCloseFrameToPeer K.clock payload)))
  closeFrameAwaited : ∀ s payload, P s → P (s.update (closeFrameToPeerIfFirst
    (fun c => (c.sendCloseFrameToPeer K.clock payload).startWaitingCloseFrameOnly K.clock)))
  peerClosed : ∀ s, P s → P (handleCloseFrame K s)
  read : ∀ s f, (∀ c : Conn, f c = { c with
    parser := (f c).parser, payload := (f c).payload, validator := (f c).validator, reading := (f c).reading }) →
    P s → P (s.update f)
  unchecked : ∀ s, P s → P (s.update (fun c => { c with timeoutChecking := false, closeFrameToPeer := false }))
  expired : ∀ s, P s → P (s.update (fun c => { c with timeoutChecking := false }.close))
  ended : ∀ s ending, P s → P (s.ended K ending)
  called : ∀ s m, P s → P (callMessageHandler K m s)

structure Preserved (K : Context σ) (P : Loc σ → Prop) : Prop extends PreservedByReads K P where
  written : ∀ s, P s → P (s.update (Conn.afterWrite K.clock))
  lost : ∀ s, P s → P (s.update (fun c => { c.close with currentWg := none }))

theorem Stable.preserved {P : Loc σ → Prop} (h : Stable K P) : Preserved K P where
  told s hs := h.update s _ (fun _ => ⟨id, id, .inl⟩) hs
  closed s hs := h.update s _ Conn.Decays.close hs
  closeFrame s payload hs :=
    h.update s _ (Conn.Decays.closeFrameToPeerIfFirst (Conn.Decays.sendCloseFrameToPeer K.clock payload)) hs
  closeFrameAwaited s payload hs := by
    refine h.update s _ (Conn.Decays.closeFrameToPeerIfFirst fun c => ?_) hs
    exact (Conn.Decays.sendCloseFrameToPeer K.clock payload c).trans (.startWaitingCloseFrameOnly K.clock _)
  peerClosed s hs := by
    rw [handleCloseFrame]
    refine h.update _ _ (fun c => ?_) (h.ended s .peerClose hs)
    have hsent := Conn.Decays.closeFrameToPeerIfFirst (fun c => .sendCloseFrameToPeer K.clock c.payload c)
      { c with closeFrameToUser := false }
    exact hsent.trans ⟨id, fun h => (nomatch h), .inl⟩
  read s f hf hs := by
    refine h.update s f (fun c => ?_) hs
    rw [hf c]
    exact ⟨id, id, .inl⟩
  written s hs := h.update s _ (fun c => .of_state (c.afterWrite_state K.clock)) hs
  lost s hs := h.update s _ (fun c => (Conn.Decays.close c).trans ⟨id, id, .inl⟩) hs
  unchecked s hs := h.update s _ (fun _ => ⟨id, id, .inl⟩) hs
  expired s hs := h.update s _ (fun c => .close { c with timeoutChecking := false }) hs
  ended := h.ended
  called := h.called

namespace PreservedByReads

variable {P : Loc σ → Prop} (h : PreservedByReads K P)
include h

theorem callCloseHandlerIfNecessary (status : StatusCode) (s : Loc σ) (hs : P s) :
    P (callCloseHandlerIfNecessary K status s) := by
  rw [WebSocket.callCloseHandlerIfNecessary]
  split
  · exact h.called _ _ (h.told s hs)
  · exact hs

theorem triggerErrorAndClose (status : StatusCode) (s : Loc σ) (hs : P s) :
    P (triggerErrorAndClose K status s) :=
  h.closed _ (h.callCloseHandlerIfNecessary status s hs)

theorem handleReadError (s : Loc σ) (hs : P s) : P (handleReadError K s) :=
  h.triggerErrorAndClose _ _ (h.ended _ _ hs)

theorem handleInvalidHeader (s : Loc σ) (hs : P s) : P (handleInvalidHeader K s) := by
  have he := h.ended s .protocolError hs
  rw [WebSocket.handleInvalidHeader]
  cases (s.ended K .protocolError).conn.readState with
  | readAnyFrame =>
    apply h.callCloseHandlerIfNecessary
    exact h.closeFrame _ _ he
  | readOnlyCloseFrame => exact h.closed _ he
  | readNothing => exact he

theorem handleInvalidPayload (result : ValidationState) (s : Loc σ) (hs : P s) :
    P (handleInvalidPayload K result s) := by
  have he := h.ended s .invalidPayload hs
  rw [WebSocket.handleInvalidPayload]
  by_cases hr : result = .invalidCloseCode
  · rw [if_pos hr]
    cases (s.ended K .invalidPayload).conn.readState with
    | readAnyFrame =>
      apply h.callCloseHandlerIfNecessary
      exact h.closeFrame _ _ he
    | readOnlyCloseFrame => exact h.closed _ he
    | readNothing => exact he
  · rw [if_neg hr]
    cases (s.ended K .invalidPayload).conn.readState with
    | readAnyFrame =>
      apply h.callCloseHandlerIfNecessary
      exact h.closeFrameAwaited _ _ he
    | readOnlyCloseFrame => exact he
    | readNothing => exact he

theorem keeps_update {f : Conn → Conn} (hf : ∀ c : Conn, f c = { c with
    parser := (f c).parser, payload := (f c).payload, validator := (f c).validator, reading := (f c).reading }) :
    Keeps P (WebSocket.update f) :=
  keeps_modify (fun s hs => h.read s f hf hs)

omit h in
theorem keeps_lift {α : Type} (x : Except WsException α) : Keeps P (lift x : Ws σ α) := by
  cases x with
  | ok a => exact keeps_pure
  | error e => exact keeps_throw

theorem keeps_consumeHeaderFromSocket : Keeps P (consumeHeaderFromSocket : Ws σ Next) :=
  keeps_bind (h.keeps_update fun _ => rfl) (fun _ => keeps_pure)

theorem keeps_startReadPayload (n : ℕ) (doValidate : Bool) : Keeps P (startReadPayload n doValidate : Ws σ Next) :=
  keeps_bind (h.keeps_update fun _ => rfl) (fun _ => keeps_pure)

theorem keeps_handleAnyFrame (m : Message) (buf : Str) : Keeps P (handleAnyFrame K m buf) := by
  refine keeps_bind (keeps_modify fun s hs => h.called _ m ?_) (fun _ => keeps_bind keeps_read (fun c => ?_))
  · split
    · exact h.peerClosed s hs
    · exact hs
  · split <;> exact keeps_pure

theorem keeps_handleExpectedFrame (opcode : Opcode) (buf : Str) :
    Keeps P (handleExpectedFrame opcode buf : Ws σ Next) := by
  rw [handleExpectedFrame]
  split
  · exact keeps_bind (keeps_modify h.expired) (fun _ => keeps_pure)
  · exact keeps_pure

theorem keeps_callHandlerOnCurrentMessage (buf : Str) : Keeps P (callHandlerOnCurrentMessage K buf) := by
  refine keeps_bind keeps_read (fun c => keeps_bind (h.keeps_update fun _ => rfl) (fun _ => ?_))
  by_cases hv : c.validator.finishFrame.1 = .frameIsValid
  · rw [if_pos hv]
    split
    · exact h.keeps_handleAnyFrame _ buf
    · exact h.keeps_handleExpectedFrame _ buf
  · rw [if_neg hv]
    exact keeps_bind (keeps_modify fun s => h.handleInvalidPayload _ s) (fun _ => keeps_pure)

theorem keeps_validatePayloadPart (part : Str) (n : ℕ) (buf : Str) : Keeps P (validatePayloadPart K part n buf) := by
  refine keeps_bind keeps_read (fun c => keeps_bind (keeps_lift _) (fun r => ?_))
  refine keeps_bind (h.keeps_update fun _ => rfl) (fun _ => ?_)
  split
  · exact keeps_pure
  · refine keeps_bind (keeps_modify fun s => h.handleInvalidPayload _ s) (fun _ => ?_)
    split
    · refine keeps_bind (h.keeps_update fun _ => rfl) (fun _ => ?_)
      split
      · exact keeps_pure
      · exact keeps_bind (h.keeps_startReadPayload _ _) (fun _ => keeps_pure)
    · exact keeps_pure

theorem keeps_handlePayload (part : Str) (n : ℕ) (buf : Str) : Keeps P (handlePayload K part n buf) := by
  refine keeps_bind (h.keeps_validatePayloadPart part n buf) (fun invalid => ?_)
  cases invalid with
  | some next => exact keeps_pure
  | none =>
    show Keeps P (if n = 0 then _ else _)
    split
    · exact h.keeps_callHandlerOnCurrentMessage buf
    · exact h.keeps_startReadPayload _ _

theorem keeps_handleParsedHeader (md : MessageDetails) (buf : Str) : Keeps P (handleParsedHeader K md buf) := by
  refine keeps_bind keeps_read (fun c => keeps_bind (keeps_lift _) (fun r => ?_))
  refine keeps_bind (h.keeps_update fun _ => rfl) (fun _ => ?_)
  split
  · rw [handleParsedAndValidHeader]
    split
    · exact keeps_throw
    · split
      · exact h.keeps_callHandlerOnCurrentMessage buf
      · exact h.keeps_handlePayload _ _ _
  · exact keeps_bind (keeps_modify h.handleInvalidHeader) (fun _ => keeps_pure)

theorem keeps_consumeHeaderFromBuffer (data : Str) : Keeps P (consumeHeaderFromBuffer K data) := by
  refine keeps_bind keeps_read (fun c => keeps_bind (keeps_lift _) (fun r => ?_))
  refine keeps_bind (h.keeps_update fun _ => rfl) (fun _ => ?_)
  split
  · exact h.keeps_handleParsedHeader _ _
  · exact h.keeps_consumeHeaderFromSocket

theorem keeps_startReadHeader (buf : Str) : Keeps P (startReadHeader K buf) := by
  refine keeps_bind (h.keeps_update fun _ => rfl) (fun _ => ?_)
  split
  · exact h.keeps_consumeHeaderFromSocket
  · exact h.keeps_consumeHeaderFromBuffer buf

theorem keeps_readOn (fuel : ℕ) (next : Next) : Keeps P (readOn K fuel next) := by
  induction fuel generalizing next with
  | zero => cases next <;> exact keeps_pure
  | succ fuel ih =>
    cases next with
    | wait => exact keeps_pure
    | readHeader buf => exact keeps_bind (h.keeps_startReadHeader buf) ih

theorem keeps_guarded {x : Ws σ Unit} (hx : Keeps P x) : Keeps P (guarded K x) :=
  keeps_catchAll hx (keeps_modify fun s hs => h.triggerErrorAndClose _ _ (h.ended s _ hs))

theorem keeps_afterReadHeader (result : Option Str) : Keeps P (afterReadHeader K result) := by
  cases result with
  | none => exact keeps_modify h.handleReadError
  | some data => exact keeps_bind (h.keeps_consumeHeaderFromBuffer _) (fun next => h.keeps_readOn _ next)

theorem keeps_afterReadPayload (n : ℕ) (doValidate : Bool) (result : Option Str) :
    Keeps P (afterReadPayload K n doValidate result) := by
  cases result with
  | none => exact keeps_modify h.handleReadError
  | some data =>
    refine keeps_bind ?_ (fun next => h.keeps_readOn _ next)
    rw [takePayload]
    split
    · exact h.keeps_handlePayload _ _ _
    · rw [skipPayload]
      split
      · exact keeps_pure
      · exact h.keeps_startReadPayload _ _

theorem readDone (result : Option Str) (s : Loc σ) (hs : P s) : P (readDone K result s) := by
  rw [WebSocket.readDone]
  cases s.conn.reading with
  | nothing => exact hs
  | header =>
    apply (h.keeps_guarded (h.keeps_afterReadHeader result)).run_snd
    exact h.read _ _ (fun _ => rfl) hs
  | payload n doValidate =>
    apply (h.keeps_guarded (h.keeps_afterReadPayload n doValidate result)).run_snd
    exact h.read _ _ (fun _ => rfl) hs

theorem checkTimeout (s : Loc σ) (hs : P s) : P (checkTimeout K s) := by
  rw [WebSocket.checkTimeout]
  split
  · split
    · apply h.closed
      apply h.callCloseHandlerIfNecessary
      exact h.unchecked _ (h.ended s _ hs)
    · split
      · exact h.expired s hs
      · exact hs
  · exact hs

end PreservedByReads

theorem Preserved.writeDone {P : Loc σ → Prop} (h : Preserved K P) (ok : Bool) (s : Loc σ) (hs : P s) :
    P (writeDone K ok s) := by
  rw [WebSocket.writeDone]
  split
  · exact hs
  · split
    · exact h.written s hs
    · exact h.lost _ (h.callCloseHandlerIfNecessary _ _ (h.ended s _ hs))

end NgkNet.Restinio.WebSocket
