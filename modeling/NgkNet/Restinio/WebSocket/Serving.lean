import NgkNet.Restinio.WebSocket.Lifetime
import NgkNet.Restinio.WebSocket.Stream

set_option autoImplicit false

namespace NgkNet.Restinio.WebSocket

open Ascii Eff

variable {σ : Type} {K : Context σ}

structure Serving (K : Context σ) (s : Loc σ) : Prop extends Alive K s where
  stands : ∃ o a, s.conn.Stands K.payloadMaxSize o a

theorem Serving.pending {s : Loc σ} (h : Serving K s) : s.conn.reading ≠ .nothing := by
  obtain ⟨o, a, hs⟩ := h.stands
  exact hs.reading_ne

theorem Serving.served {s : Loc σ} (h : Serving K s) : s.conn.Served := ⟨h.socketOpen, h.readState, h.pending⟩

def WorkingOrShut (K : Context σ) (s : Loc σ) : Prop := Working K s ∨ Shut K s

def ServingOrOver (K : Context σ) (s : Loc σ) : Prop := Serving K s ∨ Over K s

def Same (limit : ℕ) (o : Ongoing) (s : Str) (o' : Ongoing) (a : Str) : Prop :=
  ∀ x, Survives limit o (s ++ x) ↔ Survives limit o' (a ++ x)

theorem Same.survives_iff {limit : ℕ} {o o' : Ongoing} {s a : Str} (h : Same limit o s o' a) :
    Survives limit o s ↔ Survives limit o' a := by
  have := h []
  rwa [List.append_nil, List.append_nil] at this

/-- What has become of the bytes: they are taken in, or with them the connection has ended. -/
inductive Came (K : Context σ) (o : Ongoing) (s : Str) : Next → Loc σ → Prop
  | wait {p : Ongoing} {a : Str} {t : Loc σ} (ht : Alive K t) (hs : t.conn.Stands K.payloadMaxSize p a)
      (he : Same K.payloadMaxSize o s p a) : Came K o s .wait t
  | frame {p : Ongoing} {buf : Str} {t : Loc σ} (ht : Working K t) (hv : t.conn.validator.Between p)
      (he : Same K.payloadMaxSize o s p buf) (hlt : buf.length < s.length) : Came K o s (.readHeader buf) t
  | ended {t : Loc σ} (ht : Over K t) (hs : ¬ Survives K.payloadMaxSize o s) : Came K o s .wait t
  | shut {buf : Str} {t : Loc σ} (ht : Shut K t) (hs : ¬ Survives K.payloadMaxSize o s) (hlt : buf.length < s.length) :
      Came K o s (.readHeader buf) t

structure Failed (K : Context σ) (o : Ongoing) (s : Str) (t : Loc σ) : Prop where
  state : WorkingOrShut K t
  survives : ¬ Survives K.payloadMaxSize o s

theorem Came.trans {o o' : Ongoing} {s a : Str} {t : Loc σ} (h : Came K o' a .wait t)
    (he : Same K.payloadMaxSize o s o' a) : Came K o s .wait t := by
  cases h with
  | wait ht hs he' => exact .wait ht hs fun x => (he x).trans (he' x)
  | ended ht hs => exact .ended ht (mt he.survives_iff.mp hs)

theorem Came.rounds_le {o : Ongoing} {s : Str} {next : Next} {t : Loc σ} (h : Came K o s next t) :
    next.rounds ≤ s.length := by
  cases h with
  | wait => exact Nat.zero_le _
  | frame ht hv he hlt => exact hlt
  | ended => exact Nat.zero_le _
  | shut ht hs hlt => exact hlt

theorem Failed.trans {o o' : Ongoing} {s a : Str} {t : Loc σ} (h : Failed K o' a t)
    (he : Same K.payloadMaxSize o s o' a) : Failed K o s t :=
  ⟨h.state, mt he.survives_iff.mp h.survives⟩

def Brings (K : Context σ) (x : Ws σ Next) (t : Loc σ) (o : Ongoing) (s : Str) : Prop :=
  Triple (fun t' => t = t') x (Came K o s) (Failed K o s)

structure Held (K : Context σ) (o : Ongoing) (hd : FrameHeader) (part : Str) (s : Loc σ) : Prop where
  working : Working K s
  inside : s.conn.validator.Inside o hd part
  parsed : hd.Matches s.conn.parser.currentMsg
  payload : s.conn.payload = part
  valid : hd.Valid o
  fits : hd.length ≤ K.payloadMaxSize
  acceptable : Acceptable o (hd.message part)

section Lawful

variable (hH : K.handler.Lawful)
include hH

theorem handleAnyFrame_run {s : Loc σ} (hs : Working K s) {m : Message} (hm : m.opcode ≠ .connectionCloseFrame)
    (buf : Str) : (handleAnyFrame K m buf).run s = (.ok (.readHeader buf), callMessageHandler K m s) := by
  have hread : (callMessageHandler K m s).conn.readState ≠ .readNothing := by
    rw [(hs.called hH hm).readState]
    decide
  simp only [handleAnyFrame, getConn, run_bind, run_modify, run_read, if_neg hm, if_pos hread, run_pure]

omit hH in
theorem handleAnyFrame_close (s : Loc σ) {m : Message} (hm : m.opcode = .connectionCloseFrame) (buf : Str) :
    ∃ next, (handleAnyFrame K m buf).run s = (.ok next, callMessageHandler K m (handleCloseFrame K s)) ∧
      (next = .readHeader buf ∨ next = .wait) := by
  simp only [handleAnyFrame, getConn, run_bind, run_modify, run_read, if_pos hm]
  split
  · exact ⟨_, rfl, .inl rfl⟩
  · exact ⟨_, rfl, .inr rfl⟩

variable {o : Ongoing} {hd : FrameHeader} {part bytes : Str} {s : Loc σ}

theorem Held.brings_callHandlerOnCurrentMessage (h : Held K o hd part s) (hlen : part.length = hd.length) {buf : Str}
    (hread : FrameHeader.read bytes = some (hd, mask hd.maskingKey 0 part ++ buf)) :
    Brings K (callHandlerOnCurrentMessage K buf) s o bytes := by
  have hs : Working K (s.update (fun c => { c with validator := c.validator.finishFrame.2 })) := h.working.update rfl
  have hmessage : (⟨s.conn.parser.currentMsg.finalFlag, s.conn.parser.currentMsg.opcode, s.conn.payload⟩ : Message) =
      hd.message part := by
    rw [h.parsed.finalFlag, h.parsed.opcode, h.payload]
    rfl
  have hreadx : ∀ x, FrameHeader.read (bytes ++ x) = some (hd, mask hd.maskingKey 0 part ++ (buf ++ x)) := fun x => by
    rw [FrameHeader.read_append hread, List.append_assoc]
  have hiff := fun x => survives_frame_iff (hreadx x) hlen h.valid h.fits h.acceptable
  have hends : ¬ (hd.opcode ≠ .connectionCloseFrame ∧ (hd.final = true → Utf8 (o.checked (hd.message part)))) →
      ¬ Survives K.payloadMaxSize o bytes := by
    intro hn hsurvives
    have := hiff []
    rw [List.append_nil, List.append_nil] at this
    obtain ⟨hclose, hu, -⟩ := this.mp hsurvives
    exact hn ⟨hclose, hu⟩
  have hlt : buf.length < bytes.length := by
    have := FrameHeader.read_length hread
    rw [List.length_append] at this
    omega
  rintro _ rfl
  simp only [callHandlerOnCurrentMessage, getConn, update, run_bind, run_read, run_modify]
  by_cases hu : hd.final = true → Utf8 (o.checked (hd.message part))
  · obtain ⟨hvalid, hbetween⟩ := h.inside.finishFrame h.valid hu
    rw [if_pos hvalid, if_pos h.working.readState, hmessage]
    by_cases hclose : hd.opcode = .connectionCloseFrame
    · have hshut := hs.handleCloseFrame hH (m := hd.message part) hclose
      have hnot := hends fun hn => hn.1 hclose
      obtain ⟨next, hrun, rfl | rfl⟩ := handleAnyFrame_close (K := K)
        (s.update (fun c => { c with validator := c.validator.finishFrame.2 })) (m := hd.message part) hclose buf
      · rw [hrun]
        exact .shut hshut hnot hlt
      · rw [hrun]
        exact .ended hshut.over hnot
    · rw [handleAnyFrame_run hH hs hclose]
      refine .frame (p := o.next (hd.message part)) (hs.called hH hclose) ?_ (fun x => ?_) hlt
      · rw [callMessageHandler_validator]
        exact hbetween hclose
      · rw [hiff x]
        exact ⟨fun hn => hn.2.2, fun hn => ⟨hclose, hu, hn⟩⟩
  · obtain ⟨hfinal, hbad⟩ := Classical.not_imp.mp hu
    rw [h.inside.finishFrame_broken hfinal hbad, if_neg (by decide)]
    exact .ended (hs.handleInvalidPayload hH _) (hends fun hn => hu hn.2)

theorem Held.brings_handlePayload (h : Held K o hd part s) {data buf : Str}
    (hread : FrameHeader.read bytes = some (hd, mask hd.maskingKey 0 (part ++ data) ++ buf))
    (hle : (part ++ data).length ≤ hd.length) (hbuf : (part ++ data).length < hd.length → buf = []) :
    Brings K (handlePayload K (mask hd.maskingKey part.length data) (hd.length - (part ++ data).length) buf) s o bytes := by
  have hlt : buf.length < bytes.length := by
    have := FrameHeader.read_length hread
    rw [List.length_append] at this
    omega
  obtain ⟨out, v, hrun, hj, hout⟩ := h.inside.processPart h.acceptable data
  rintro _ rfl
  simp only [handlePayload, validatePayloadPart, getConn, update, run_bind, run_read, hrun, lift, run_pure, run_modify]
  rcases hj with ⟨hvalid, hinside, ha⟩ | ⟨hinvalid, hbad⟩
  · obtain rfl := hout hvalid
    have hworking : Working K (s.update (fun c => { c with payload := c.payload ++ out, validator := v })) :=
      h.working.update rfl
    have hpayload : s.conn.payload ++ out = part ++ out := congrArg (· ++ out) h.payload
    rw [if_pos hvalid]
    simp only [run_pure]
    by_cases hz : hd.length - (part ++ out).length = 0
    · rw [if_pos hz]
      have hheld : Held K o hd (part ++ out) _ := ⟨hworking, hinside, h.parsed, hpayload, h.valid, h.fits, ha⟩
      exact hheld.brings_callHandlerOnCurrentMessage hH (by omega) hread _ rfl
    · rw [if_neg hz]
      rw [hbuf (by omega), List.append_nil] at hread
      refine .wait (p := o) (a := bytes) (hworking.toAlive.update rfl) ?_ (fun x => Iff.rfl)
      exact .payload rfl hread (by omega) h.valid h.fits ha hinside h.parsed hpayload
  · have hnot : ¬ Survives K.payloadMaxSize o bytes := fun hsurvives => hbad (hsurvives.acceptable hread hle)
    have hworking : Working K (s.update (fun c => { c with payload := c.payload ++ out, validator := v })) :=
      h.working.update rfl
    rcases hinvalid with hr | hr
    · -- the rest of the frame is skipped, and only a close frame is waited for
      have hshut := hworking.handleInvalidData hH (show ValidationState.incorrectUtf8Data ≠ .invalidCloseCode by decide)
      have hreset := shut_stable.update _ (fun c => { c with validator := c.validator.reset }) (fun _ => ⟨id, id, .inl⟩) hshut
      rw [hr, if_neg (by decide)]
      simp only [run_bind, run_modify, if_true]
      by_cases hz : hd.length - (part ++ data).length = 0
      · rw [if_pos hz]
        exact .shut hreset hnot hlt
      · rw [if_neg hz]
        refine .ended (Shut.over ?_) hnot
        exact shut_stable.update _ _ (fun _ => ⟨id, id, .inl⟩) hreset
    · rw [hr, if_neg (by decide)]
      simp only [run_bind, run_modify]
      rw [if_neg (by decide)]
      exact .ended (hworking.handleInvalidPayload hH _) hnot

structure Expecting (K : Context σ) (o : Ongoing) (s : Loc σ) : Prop where
  working : Working K s
  between : s.conn.validator.Between o
  payload : s.conn.payload = []

theorem Expecting.brings_handleParsedHeader (h : Expecting K o s) (hm : hd.Matches s.conn.parser.currentMsg) {buf : Str}
    (hread : FrameHeader.read bytes = some (hd, buf)) :
    Brings K (handleParsedHeader K s.conn.parser.currentMsg buf) s o bytes := by
  rintro _ rfl
  by_cases hv : hd.Valid o
  · obtain ⟨hnew, hinside⟩ := h.between.processNewFrame hm hv
    have hworking : Working K
        (s.update (fun c => { c with validator := s.conn.validator.acceptFrame s.conn.parser.currentMsg })) :=
      h.working.update rfl
    simp only [handleParsedHeader, getConn, update, run_bind, run_read, hnew, lift, run_pure, run_modify, if_true]
    rw [handleParsedAndValidHeader, hm.payloadLen]
    by_cases hfit : K.payloadMaxSize < hd.length
    · rw [if_pos hfit]
      exact ⟨.inl hworking, fun hs => absurd (hs.valid hread).2 (by omega)⟩
    · rw [if_neg hfit]
      have hheld : Held K o hd [] (s.update (fun c =>
          { c with validator := s.conn.validator.acceptFrame s.conn.parser.currentMsg })) :=
        ⟨hworking, hinside, hm, h.payload, hv, by omega, h.between.acceptable hd⟩
      by_cases hz : hd.length = 0
      · rw [if_pos hz]
        exact hheld.brings_callHandlerOnCurrentMessage hH hz.symm hread _ rfl
      · rw [if_neg hz]
        have hmask := mask_mask hd.maskingKey 0 (buf.take hd.length)
        have hlength : ([] ++ mask hd.maskingKey 0 (buf.take hd.length)).length = (buf.take hd.length).length :=
          mask_length _ _ _
        have hread' : FrameHeader.read bytes = some (hd, mask hd.maskingKey 0 ([] ++
            mask hd.maskingKey 0 (buf.take hd.length)) ++ buf.drop hd.length) := by
          rw [List.nil_append, hmask, List.take_append_drop]
          exact hread
        have hbrings := hheld.brings_handlePayload hH hread' ?_ ?_ _ rfl
        · rw [List.length_nil, hmask, hlength] at hbrings
          exact hbrings
        · rw [hlength]
          exact List.length_take_le _ _
        · rw [hlength, List.length_take]
          exact fun hlt => List.drop_eq_nil_of_le (by omega)
  · obtain ⟨r, hr, hnew⟩ := h.between.processNewFrame_invalid hm hv
    simp only [handleParsedHeader, getConn, update, run_bind, run_read, hnew, lift, run_pure, run_modify, if_neg hr]
    have hworking : Working K (s.update (fun c => { c with validator := { s.conn.validator with validationState := r } })) :=
      h.working.update rfl
    exact .ended (hworking.handleInvalidHeader hH) fun hs => hv (hs.valid hread).1

theorem Expecting.brings_consumeHeaderFromBuffer (h : Expecting K o s) {a data : Str}
    (hp : Parser.initial.parserExecute a = .ok (s.conn.parser, [])) (hnot : FrameHeader.read a = none) :
    Brings K (consumeHeaderFromBuffer K data) s o (a ++ data) := by
  have hexec : s.conn.parser.parserExecute data = Parser.initial.parserExecute (a ++ data) := by
    obtain ⟨p, hp', hparsed⟩ := FrameHeader.parserExecute_of_read_none hnot
    obtain ⟨rfl, -⟩ := Prod.mk.inj (Except.ok.inj (hp.symm.trans hp'))
    rw [Parser.parserExecute_append, hp]
    show _ = if s.conn.parser.headerParsed then _ else _
    rw [if_neg (by simp [hparsed])]
  rintro _ rfl
  cases hread : FrameHeader.read (a ++ data) with
  | none =>
    obtain ⟨p, hrun, hparsed⟩ := FrameHeader.parserExecute_of_read_none hread
    simp only [consumeHeaderFromBuffer, getConn, update, run_bind, run_read, hexec, hrun, lift, run_pure, run_modify,
      hparsed, Bool.false_eq_true, if_false, consumeHeaderFromSocket]
    refine .wait (p := o) (a := a ++ data) ?_ (.header rfl h.between hrun hread h.payload) fun x => Iff.rfl
    exact ⟨h.working.holds, h.working.unclosed, h.working.going, h.working.vital⟩
  | some r =>
    obtain ⟨hd, rest⟩ := r
    obtain ⟨p, hrun, hparsed, hm⟩ := FrameHeader.parserExecute_of_read hread
    have hexpecting : Expecting K o (s.update (fun c => { c with parser := p })) :=
      ⟨h.working.update rfl, h.between, h.payload⟩
    simp only [consumeHeaderFromBuffer, getConn, update, run_bind, run_read, hexec, hrun, lift, run_pure, run_modify,
      hparsed, if_true]
    exact hexpecting.brings_handleParsedHeader hH hm hread _ rfl

theorem brings_startReadHeader (hw : Working K s) (hv : s.conn.validator.Between o) (buf : Str) :
    Brings K (startReadHeader K buf) s o buf := by
  have hexpecting : Expecting K o (s.update Conn.resetParserAndPayload) := ⟨hw.update rfl, hv, rfl⟩
  rintro _ rfl
  simp only [startReadHeader, update, run_bind, run_modify]
  by_cases hz : buf.length = 0
  · obtain rfl := List.length_eq_zero_iff.mp hz
    rw [if_pos hz]
    refine .wait (p := o) (a := []) ?_ (.header rfl hv rfl rfl rfl) fun x => Iff.rfl
    exact ⟨hw.holds, hw.unclosed, hw.going, hw.vital⟩
  · rw [if_neg hz]
    exact hexpecting.brings_consumeHeaderFromBuffer hH (a := []) rfl rfl _ rfl

theorem Came.readOn {next : Next} {fuel : ℕ} (h : Came K o bytes next s) (hfuel : next.rounds ≤ fuel) :
    Triple (fun t => s = t) (readOn K fuel next) (fun _ => Came K o bytes .wait) (Failed K o bytes) := by
  induction fuel generalizing s o bytes next with
  | zero =>
    rintro _ rfl
    cases next with
    | wait => exact h
    | readHeader buf => exact absurd hfuel (by simp [Next.rounds])
  | succ fuel ih =>
    cases h with
    | wait ht hs he =>
      rintro _ rfl
      exact .wait ht hs he
    | ended ht hs =>
      rintro _ rfl
      exact .ended ht hs
    | @frame o' buf _ ht hv he hlt =>
      have hbuf : buf.length ≤ fuel := Nat.succ_le_succ_iff.mp hfuel
      refine triple_bind (Q := fun next t => Came K o' buf next t) ?_ fun next t hcame => ?_
      · exact triple_conseq (brings_startReadHeader hH ht hv buf) (fun _ h => h) (fun _ _ h => h) (fun _ h => h.trans he)
      · have hon := ih hcame (Nat.le_trans hcame.rounds_le hbuf)
        exact triple_conseq hon (fun _ h => h) (fun _ _ h => h.trans he) (fun _ h => h.trans he) t rfl
    | shut ht hs hlt =>
      refine triple_conseq (shut_stable.preserved.keeps_readOn _ _) ?_ (fun _ _ h => .ended h.over hs)
        (fun _ h => ⟨.inr h, hs⟩)
      rintro _ rfl
      exact ht

theorem Brings.readAll {x : Ws σ Next} (h : Brings K x s o bytes) :
    Triple (fun t => s = t) (x >>= readAll K) (fun _ => Came K o bytes .wait) (Failed K o bytes) :=
  triple_bind h fun _ t hcame => hcame.readOn hH (Nat.le_refl _) t rfl

theorem guarded_came {x : Ws σ Unit}
    (hx : Triple (fun t => s = t) x (fun _ => Came K o bytes .wait) (Failed K o bytes)) :
    Came K o bytes .wait ((guarded K x).run s).2 := by
  have hcatch : Triple (Failed K o bytes) (Eff.modify (fun s => triggerErrorAndClose K .unexpectedCondition
      (s.ended K .unexpectedCondition)) : Ws σ Unit) (fun _ => Came K o bytes .wait) (Came K o bytes .wait) := by
    refine triple_modify fun s hs => .ended ?_ hs.survives
    rcases hs.state with hw | hs
    · exact (hw.toAlive.triggerErrorAndClose hH _ _).over
    · exact (shut_stable.preserved.triggerErrorAndClose _ _ (shut_stable.ended _ _ hs)).over
  have h := triple_catchAll hx hcatch s rfl
  rw [guarded]
  cases hr : (catchAll x _).run s with
  | mk r t =>
    rw [hr] at h
    cases r <;> exact h

end Lawful

def Reading.wanted : Reading → ℕ
  | .nothing => 0
  | .header => headerMaxSize
  | .payload lengthRemaining _ => lengthRemaining

section Lawful

variable (hH : K.handler.Lawful)
include hH

theorem Alive.came_readDone {o : Ongoing} {a : Str} {s : Loc σ} (h : Alive K s) (hs : s.conn.Stands K.payloadMaxSize o a)
    (data : Str) : Came K o (a ++ data.take s.conn.reading.wanted) .wait (readDone K (some data) s) := by
  have hworking : Working K (s.update (fun c => { c with reading := .nothing })) := ⟨h.update rfl, rfl⟩
  cases hs with
  | header hr hv hp hnot hpay =>
    have hexpecting : Expecting K o (s.update (fun c => { c with reading := .nothing })) := ⟨hworking, hv, hpay⟩
    rw [WebSocket.readDone, hr]
    exact guarded_came hH ((hexpecting.brings_consumeHeaderFromBuffer hH hp hnot).readAll hH)
  | @payload part hd hr hread hpart hvalid hfit ha hv hm hpay =>
    have hheld : Held K o hd part (s.update (fun c => { c with reading := .nothing })) :=
      ⟨hworking, hv, hm, hpay, hvalid, hfit, ha⟩
    rw [WebSocket.readDone, hr]
    refine guarded_came hH (Brings.readAll hH ?_)
    have hmask := mask_mask hd.maskingKey part.length (data.take (hd.length - part.length))
    have hlength : (part ++ mask hd.maskingKey part.length (data.take (hd.length - part.length))).length =
        part.length + (data.take (hd.length - part.length)).length := by
      rw [List.length_append, mask_length]
    have hread' : FrameHeader.read (a ++ data.take (hd.length - part.length)) = some (hd, mask hd.maskingKey 0
        (part ++ mask hd.maskingKey part.length (data.take (hd.length - part.length))) ++ []) := by
      rw [FrameHeader.read_append hread, mask_append, Nat.zero_add, hmask, List.append_nil]
    have hbrings := hheld.brings_handlePayload hH hread' ?_ (fun _ => rfl)
    · rw [hmask, hlength, ← Nat.sub_sub] at hbrings
      exact hbrings
    · rw [hlength, List.length_take]
      omega

theorem Alive.over_readDone {s : Loc σ} (h : Alive K s) (hr : s.conn.reading ≠ .nothing) :
    Over K (readDone K none s) := by
  have hworking : Working K (s.update (fun c => { c with reading := .nothing })) := ⟨h.update rfl, rfl⟩
  have hover := (hworking.toAlive.triggerErrorAndClose hH .connectionLost .connectionLost).over
  rw [WebSocket.readDone]
  cases hread : s.conn.reading with
  | nothing => exact absurd hread hr
  | header => exact hover
  | payload n doValidate => exact hover

theorem Serving.readDone {s : Loc σ} (h : Serving K s) (result : Option Str) :
    ServingOrOver K (readDone K result s) := by
  cases result with
  | none => exact .inr (h.toAlive.over_readDone hH h.pending)
  | some data =>
    obtain ⟨o, a, hs⟩ := h.stands
    cases h.toAlive.came_readDone hH hs data with
    | wait ht hs he => exact .inl ⟨ht, _, _, hs⟩
    | ended ht hs => exact .inr ht

theorem Alive.over_writeDone {s : Loc σ} (h : Alive K s) (hw : s.conn.currentWg.isSome = true) :
    Over K (writeDone K false s) := by
  obtain ⟨wg, hwg⟩ := Option.isSome_iff_exists.mp hw
  rw [WebSocket.writeDone, hwg]
  dsimp only
  rw [if_neg Bool.false_ne_true]
  refine Shut.over ?_
  exact shut_stable.update _ _ (fun _ => ⟨id, id, .inl⟩) (h.triggerErrorAndClose hH _ _)

theorem Serving.writeDone {s : Loc σ} (h : Serving K s) (ok : Bool) : ServingOrOver K (writeDone K ok s) := by
  cases hwg : s.conn.currentWg with
  | none =>
    rw [WebSocket.writeDone, hwg]
    exact .inl h
  | some wg =>
    cases ok with
    | true =>
      obtain ⟨o, a, hs⟩ := h.stands
      rw [WebSocket.writeDone, hwg]
      exact .inl ⟨h.toAlive.update (congrArg Prod.fst (s.conn.afterWrite_state K.clock)), o, a,
        hs.of_input (s.conn.afterWrite_input K.clock)⟩
    | false => exact .inr (h.toAlive.over_writeDone hH (by rw [hwg]; rfl))

theorem Alive.over_checkTimeout {s : Loc σ} (h : Alive K s) (hw : s.conn.currentWg.isSome = true)
    (ht : s.conn.writeOperationTimeoutAfter < K.clock.now) : Over K (checkTimeout K s) := by
  rw [WebSocket.checkTimeout, if_pos h.checking, if_pos (by simp [hw, ht])]
  have hleave := (h.ended .writeTimeout).update (fun c => { c with timeoutChecking := false, closeFrameToPeer := false })
  exact (hleave.callCloseHandler_close hH h.toUser h.closeImpl _).over

omit hH in
theorem Alive.checkTimeout_eq {s : Loc σ} (h : Alive K s)
    (ht : s.conn.currentWg.isSome = true → K.clock.now ≤ s.conn.writeOperationTimeoutAfter) : checkTimeout K s = s := by
  rw [WebSocket.checkTimeout, if_pos h.checking, if_neg, h.patient, if_neg (by simp)]
  rw [Bool.and_eq_true, decide_eq_true_eq]
  rintro ⟨hw, hlt⟩
  exact absurd hlt (Nat.not_lt.mpr (ht hw))

theorem Serving.checkTimeout {s : Loc σ} (h : Serving K s) : ServingOrOver K (checkTimeout K s) := by
  by_cases hlate : s.conn.currentWg.isSome = true ∧ s.conn.writeOperationTimeoutAfter < K.clock.now
  · exact .inr (h.toAlive.over_checkTimeout hH hlate.1 hlate.2)
  · rw [h.toAlive.checkTimeout_eq fun hw => Nat.not_lt.mp fun hlt => hlate ⟨hw, hlt⟩]
    exact .inl h

end Lawful

theorem Over.update {s : Loc σ} (h : Over K s) {f : Conn → Conn} (hd : Conn.Decays s.conn (f s.conn))
    (hr : (f s.conn).reading = s.conn.reading) : Over K (s.update f) := by
  refine ⟨h.toGone.update f, fun hs => h.unserved ⟨hd.1 hs.1, hd.2.1 hs.2.1, ?_⟩⟩
  exact fun hn => hs.2.2 (hr.trans hn)

theorem Over.endedAgain {s : Loc σ} (h : Over K s) (ending : Ending) : Over K (s.ended K ending) :=
  ⟨gone_stable.ended s ending h.toGone, h.unserved⟩

theorem Over.callCloseHandler {s : Loc σ} (h : Over K s) (status : StatusCode) :
    Over K (callCloseHandlerIfNecessary K status s) := by
  refine ⟨gone_stable.preserved.callCloseHandlerIfNecessary status s h.toGone, fun hs => h.unserved ?_⟩
  have hd := callCloseHandlerIfNecessary_decays (K := K) status s
  refine ⟨hd.1 hs.1, hd.2.1 hs.2.1, ?_⟩
  rw [← callCloseHandlerIfNecessary_reading (K := K) status s]
  exact hs.2.2

theorem Conn.close_reading (c : Conn) : c.close.reading = c.reading := by
  rw [close]
  split <;> rfl

theorem Over.readDone {s : Loc σ} (h : Over K s) (result : Option Str) : Over K (readDone K result s) := by
  by_cases hr : s.conn.reading = .nothing
  · rw [WebSocket.readDone, hr]
    exact h
  · exact (shut_stable.preserved.readDone result s ⟨h.toGone, fun ho hs => h.unserved ⟨ho, hs, hr⟩⟩).over

theorem Over.writeDone {s : Loc σ} (h : Over K s) (ok : Bool) : Over K (writeDone K ok s) := by
  rw [WebSocket.writeDone]
  split
  · exact h
  · split
    · have hstate := s.conn.afterWrite_state K.clock
      exact h.update (.of_state hstate) (congrArg Prod.snd hstate)
    · exact Over.update (((h.endedAgain _).callCloseHandler _).update (.close _) (Conn.close_reading _))
        ⟨id, id, .inl⟩ rfl

theorem Over.checkTimeout {s : Loc σ} (h : Over K s) : Over K (checkTimeout K s) := by
  rw [WebSocket.checkTimeout]
  split
  · split
    · have hover := ((h.endedAgain .writeTimeout).update
        (f := fun c => { c with timeoutChecking := false, closeFrameToPeer := false }) ⟨id, id, .inl⟩ rfl)
      exact (hover.callCloseHandler _).update (.close _) (Conn.close_reading _)
    · split
      · exact h.update (.close { s.conn with timeoutChecking := false })
          (Conn.close_reading { s.conn with timeoutChecking := false })
      · exact h
  · exact h

theorem ServingOrOver.readDone (hH : K.handler.Lawful) {s : Loc σ} (h : ServingOrOver K s) (result : Option Str) :
    ServingOrOver K (readDone K result s) := by
  rcases h with h | h
  · exact h.readDone hH result
  · exact .inr (h.readDone result)

theorem ServingOrOver.writeDone (hH : K.handler.Lawful) {s : Loc σ} (h : ServingOrOver K s) (ok : Bool) :
    ServingOrOver K (writeDone K ok s) := by
  rcases h with h | h
  · exact h.writeDone hH ok
  · exact .inr (h.writeDone ok)

theorem ServingOrOver.checkTimeout (hH : K.handler.Lawful) {s : Loc σ} (h : ServingOrOver K s) :
    ServingOrOver K (checkTimeout K s) := by
  rcases h with h | h
  · exact h.checkTimeout hH
  · exact .inr h.checkTimeout

theorem ServingOrOver.update {s : Loc σ} (h : ServingOrOver K s) {f : Conn → Conn}
    (hf : (f s.conn).state = s.conn.state) (hi : (f s.conn).input = s.conn.input) : ServingOrOver K (s.update f) := by
  rcases h with h | h
  · obtain ⟨o, a, hs⟩ := h.stands
    exact .inl ⟨h.toAlive.update (congrArg Prod.fst hf), o, a, hs.of_input hi⟩
  · exact .inr (h.update (.of_state hf) (congrArg Prod.snd hf))

theorem ServingOrOver.congr {K' : Context σ} {s t : Loc σ} (h : ServingOrOver K s) (hid : K'.id = K.id)
    (hlimit : K'.payloadMaxSize = K.payloadMaxSize) (hconn : t.conn = s.conn)
    (hh : K'.handler.holds t.app K.id = K.handler.holds s.app K.id)
    (hc : closeCalls t.log K.id = closeCalls s.log K.id) (he : Ended t.log K.id ↔ Ended s.log K.id) :
    ServingOrOver K' t := by
  rcases h with h | h
  · refine .inl ⟨⟨?_, ?_, ?_, hconn ▸ h.vital⟩, by rw [hlimit, hconn]; exact h.stands⟩
    · rw [hid, hh, h.holds]
    · rw [hid, hc, h.unclosed]
    · rw [hid, he]
      exact h.going
  · refine .inr ⟨⟨?_, ?_, ?_⟩, hconn ▸ h.unserved⟩
    · rw [hid, hh, h.dropped]
    · rw [hid, hc, h.closed]
    · rw [hid, he]
      exact h.ended

end NgkNet.Restinio.WebSocket
