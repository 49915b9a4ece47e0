import NgkNet.Restinio.WebSocket.Stability

set_option autoImplicit false

namespace NgkNet.Restinio.WebSocket

open Ascii Eff

variable {σ : Type} {K : Context σ}

def Message.writeGroup (m : Message) : WriteGroup :=
  [writeMessageDetails (.make m.finalFlag m.opcode m.payload.length), m.payload]

def Conn.outgoing (c : Conn) : List WriteGroup := c.currentWg.toList ++ c.outgoingData

structure Conn.Tidy (c : Conn) : Prop where
  enabled : c.closeFrameToPeer = true → c.writeState = .writeEnabled
  closable : c.socketOpen = true → c.closeImpl = true
  drained : c.socketOpen = true → c.currentWg = none → c.outgoingData = [] ∧ c.nextWritableItemIndex = 0
  full : ∀ wg ∈ c.outgoingData, wg ≠ []

section Writing

variable {k : Clock} {c : Conn}

theorem Conn.Tidy.initWriteIfNecessary (h : c.Tidy) {wg : WriteGroup} (hwg : wg ≠ []) :
    ((c.append wg).initWriteIfNecessary k).Tidy := by
  have hfull : ∀ g ∈ c.outgoingData ++ [wg], g ≠ [] := by
    intro g hg
    rcases List.mem_append.mp hg with hg | hg
    · exact h.full g hg
    · rwa [List.mem_singleton.mp hg]
  rw [Conn.initWriteIfNecessary]
  split
  next hs =>
    refine ⟨h.enabled, h.closable, fun _ hn => ?_, hfull⟩
    rw [hn] at hs
    cases hs
  next hs =>
    obtain ⟨data, wg', n, t, he, hsub, hnone, -⟩ := (c.append wg).initWrite_spec k (c.append wg).outgoingData
    rw [he]
    refine ⟨h.enabled, h.closable, fun ho hn => ?_, fun g hg => hfull g (hsub hg)⟩
    have hcurrent : c.currentWg = none := by simpa [Conn.append] using hs
    exact hnone (h.drained ho hcurrent).2 hn

theorem Conn.Tidy.close (h : c.Tidy) : c.close.Tidy ∧ c.close.socketOpen = false := by
  rw [Conn.close]
  split
  · exact ⟨⟨h.enabled, fun ho => absurd ho Bool.false_ne_true, fun ho => absurd ho Bool.false_ne_true, h.full⟩, rfl⟩
  next hi => exact ⟨h, Bool.eq_false_iff.mpr fun ho => hi (h.closable ho)⟩

theorem Conn.Tidy.sendCloseFrameToPeer (h : c.Tidy) (payload : Str) (hp : c.closeFrameToPeer = false) :
    (c.sendCloseFrameToPeer k payload).Tidy := by
  have ht : ((c.append [writeMessageDetails (.make true .connectionCloseFrame payload.length),
      payload]).initWriteIfNecessary k).Tidy := h.initWriteIfNecessary (by simp)
  refine ⟨fun hp' => ?_, ht.closable, ht.drained, ht.full⟩
  have hstate := congrArg (fun v => v.1.2.1) (c.sendCloseFrameToPeer_state k payload)
  exact absurd (hp'.symm.trans hstate) (by simp [Conn.state, Conn.vital, hp])

theorem Conn.Tidy.closeFrameToPeerIfFirst (h : c.Tidy) {f : Conn → Conn}
    (hf : ∀ c : Conn, c.Tidy → c.closeFrameToPeer = false → (f c).Tidy) :
    (WebSocket.closeFrameToPeerIfFirst f c).Tidy := by
  rw [WebSocket.closeFrameToPeerIfFirst]
  split
  · exact hf _ ⟨fun hp => absurd hp Bool.false_ne_true, h.closable, h.drained, h.full⟩ rfl
  · exact h

theorem Conn.Tidy.startWaitingCloseFrameOnly (h : c.Tidy) : (c.startWaitingCloseFrameOnly k).Tidy :=
  ⟨h.enabled, h.closable, h.drained, h.full⟩

theorem Conn.Tidy.shutdown (h : c.Tidy) : (c.shutdown k).Tidy := by
  have ht : ({ c with closeFrameToUser := false } : Conn).Tidy := ⟨h.enabled, h.closable, h.drained, h.full⟩
  exact ht.closeFrameToPeerIfFirst fun c hc hp => (hc.sendCloseFrameToPeer _ hp).startWaitingCloseFrameOnly

theorem Conn.Tidy.writeData (h : c.Tidy) {wg : WriteGroup} (hwg : wg ≠ []) (isCloseFrame : Bool) :
    (c.writeData k wg isCloseFrame).Tidy := by
  rw [Conn.writeData]
  split
  · rw [writeDataImpl]
    split
    · apply Conn.Tidy.initWriteIfNecessary _ hwg
      split
      · exact ⟨fun hp => absurd hp Bool.false_ne_true, h.closable, h.drained, h.full⟩
      · exact h
    · exact h
  · exact h

theorem Conn.Tidy.sendMessage (h : c.Tidy) (m : Message) : (c.sendMessage k m).Tidy := h.writeData (by simp) _

theorem Conn.Tidy.sendMessages (h : c.Tidy) (out : List Message) :
    (out.foldl (fun c m => c.sendMessage k m) c).Tidy := by
  induction out generalizing c with
  | nil => exact h
  | cons m out ih => exact ih (h.sendMessage m)

theorem Conn.Tidy.afterWrite (h : c.Tidy) : (c.afterWrite k).Tidy := by
  obtain ⟨data, wg, n, t, he, hsub, hnone, -⟩ :=
    ({ c with nextWritableItemIndex := 0, currentWg := none } : Conn).initWrite_spec k c.outgoingData
  rw [Conn.afterWrite, Conn.initWriteIfNecessary, if_neg (by simp), he]
  exact ⟨h.enabled, h.closable, fun _ => hnone rfl, fun g hg => h.full g (hsub hg)⟩

theorem Conn.Tidy.outgoing_afterWrite (h : c.Tidy) (wg : WriteGroup) (hc : c.currentWg = some wg) :
    c.outgoing = wg :: (c.afterWrite k).outgoing := by
  obtain ⟨data, wg', n, t, he, -, -, hout⟩ :=
    ({ c with nextWritableItemIndex := 0, currentWg := none } : Conn).initWrite_spec k c.outgoingData
  rw [Conn.afterWrite, Conn.initWriteIfNecessary, if_neg (by simp), he]
  rw [Conn.outgoing, hc, Conn.outgoing, hout rfl h.full]
  rfl

theorem Conn.Tidy.outgoing_append (h : c.Tidy) (ho : c.socketOpen = true) {wg : WriteGroup} (hwg : wg ≠ []) :
    ((c.append wg).initWriteIfNecessary k).outgoing = c.outgoing ++ [wg] := by
  rw [Conn.initWriteIfNecessary]
  cases hc : c.currentWg with
  | some g => simp [Conn.outgoing, Conn.append, hc]
  | none =>
    obtain ⟨hd, hn⟩ := h.drained ho hc
    simp [Conn.outgoing, Conn.append, hc, hd, hn, Conn.initWrite, List.length_pos_iff.mpr hwg]

theorem Conn.Tidy.outgoing_sendMessage (h : c.Tidy) {m : Message} (hm : m.opcode ≠ .connectionCloseFrame)
    (ho : c.socketOpen = true) (hp : c.closeFrameToPeer = true) :
    (c.sendMessage k m).outgoing = c.outgoing ++ [m.writeGroup] := by
  rw [Conn.sendMessage, Conn.writeData, if_pos (h.enabled hp), writeDataImpl, if_pos ho, decide_eq_false hm]
  exact h.outgoing_append ho (by simp)

theorem Conn.Tidy.outgoing_sendMessages (h : c.Tidy) {out : List Message}
    (hout : ∀ m ∈ out, m.opcode ≠ .connectionCloseFrame) (ho : c.socketOpen = true) (hp : c.closeFrameToPeer = true) :
    (out.foldl (fun c m => c.sendMessage k m) c).outgoing = c.outgoing ++ out.map Message.writeGroup := by
  induction out generalizing c with
  | nil => simp
  | cons m out ih =>
    have hm := hout m List.mem_cons_self
    have hstate := congrArg Prod.fst (c.sendMessage_state k hm)
    have ho' : (c.sendMessage k m).socketOpen = true := (congrArg (fun v => v.2.2.2.1) hstate).trans ho
    have hp' : (c.sendMessage k m).closeFrameToPeer = true := (congrArg (fun v => v.2.1) hstate).trans hp
    rw [List.foldl_cons, ih (h.sendMessage m) (fun m' hm' => hout m' (List.mem_cons_of_mem _ hm')) ho' hp',
      h.outgoing_sendMessage hm ho hp, List.append_assoc]
    rfl

theorem Conn.sendMessages_of_disabled (hw : c.writeState = .writeDisabled) (out : List Message) :
    out.foldl (fun c m => c.sendMessage k m) c = c := by
  induction out with
  | nil => rfl
  | cons m out ih =>
    have hm : c.sendMessage k m = c := by rw [Conn.sendMessage, Conn.writeData, if_neg (by simp [hw])]
    rw [List.foldl_cons, hm, ih]

end Writing

theorem tidy_preserved : Preserved K (fun s => s.conn.Tidy) where
  told s hs := ⟨hs.enabled, hs.closable, hs.drained, hs.full⟩
  closed s hs := hs.close.1
  closeFrame s payload hs := hs.closeFrameToPeerIfFirst fun c hc hp => hc.sendCloseFrameToPeer payload hp
  closeFrameAwaited s payload hs := hs.closeFrameToPeerIfFirst fun c hc hp =>
    (hc.sendCloseFrameToPeer payload hp).startWaitingCloseFrameOnly
  peerClosed s hs := by
    have ht : ({ s.conn with closeFrameToUser := false } : Conn).Tidy := ⟨hs.enabled, hs.closable, hs.drained, hs.full⟩
    have hsent := ht.closeFrameToPeerIfFirst (f := fun c => c.sendCloseFrameToPeer K.clock c.payload)
      fun c hc hp => hc.sendCloseFrameToPeer c.payload hp
    exact ⟨hsent.enabled, hsent.closable, hsent.drained, hsent.full⟩
  read s f hf hs := by
    show (f s.conn).Tidy
    rw [hf s.conn]
    exact ⟨hs.enabled, hs.closable, hs.drained, hs.full⟩
  written s hs := hs.afterWrite
  lost s hs := by
    obtain ⟨ht, ho⟩ := hs.close
    exact ⟨ht.enabled, ht.closable, fun ho' => absurd (ho.symm.trans ho') (by decide), ht.full⟩
  unchecked s hs := ⟨fun hp => absurd hp Bool.false_ne_true, hs.closable, hs.drained, hs.full⟩
  expired s hs := by
    have ht : ({ s.conn with timeoutChecking := false } : Conn).Tidy := ⟨hs.enabled, hs.closable, hs.drained, hs.full⟩
    exact ht.close.1
  ended s ending hs := hs
  called s m hs := by
    rw [callMessageHandler]
    split
    · show (if K.handler.holds (K.handler.call K.id m s.app).1 K.id = true then _ else _ : Conn).Tidy
      split
      · exact hs.sendMessages _
      · exact (hs.sendMessages _).shutdown
    · exact hs

def Conn.Timed (k : Clock) (c d : Conn) : Prop :=
  (c.currentWg.isSome = true →
      d.currentWg = c.currentWg ∧ d.writeOperationTimeoutAfter = c.writeOperationTimeoutAfter) ∧
    (c.currentWg = none → d.currentWg.isSome = true →
      d.writeOperationTimeoutAfter = k.now + k.writeHttpResponseTimelimit)

namespace Conn.Timed

variable {k : Clock} {c d e : Conn}

theorem refl (c : Conn) : Timed k c c := ⟨fun _ => ⟨rfl, rfl⟩, fun hn hs => by rw [hn] at hs; cases hs⟩

theorem trans (h : Timed k c d) (h' : Timed k d e) : Timed k c e := by
  refine ⟨fun hc => ?_, fun hn he => ?_⟩
  · obtain ⟨hw, ht⟩ := h.1 hc
    obtain ⟨hw', ht'⟩ := h'.1 (by rw [hw]; exact hc)
    exact ⟨hw'.trans hw, ht'.trans ht⟩
  · cases hd : d.currentWg with
    | none => exact h'.2 hd he
    | some wg =>
      have hsome : d.currentWg.isSome = true := by rw [hd]; rfl
      exact (h'.1 hsome).2.trans (h.2 hn hsome)

theorem initWrite (hn : c.currentWg = none) (queue : List WriteGroup) : Timed k c (c.initWrite k queue) := by
  have hnot : ¬ c.currentWg.isSome = true := by simp [hn]
  induction queue generalizing c with
  | nil => exact ⟨fun hs => absurd hs hnot, fun _ hs => (nomatch hs)⟩
  | cons wg queue ih =>
    rw [Conn.initWrite]
    split
    · exact ⟨fun hs => absurd hs hnot, fun _ _ => rfl⟩
    · exact ih (c := { c with nextWritableItemIndex := 0 }) hn hnot

theorem initWriteIfNecessary (c : Conn) : Timed k c (c.initWriteIfNecessary k) := by
  rw [Conn.initWriteIfNecessary]
  split
  · exact refl c
  next hs => exact initWrite (by simpa using hs) _

theorem sendCloseFrameToPeer (payload : Str) (c : Conn) : Timed k c (c.sendCloseFrameToPeer k payload) :=
  initWriteIfNecessary (c.append _)

theorem closeFrameToPeerIfFirst {f : Conn → Conn} (hf : ∀ c, Timed k c (f c)) (c : Conn) :
    Timed k c (WebSocket.closeFrameToPeerIfFirst f c) := by
  rw [WebSocket.closeFrameToPeerIfFirst]
  split
  · exact hf { c with closeFrameToPeer := false }
  · exact refl c

theorem close (c : Conn) : Timed k c c.close := by
  rw [Conn.close]
  split <;> exact refl c

theorem shutdown (c : Conn) : Timed k c (c.shutdown k) := by
  rw [Conn.shutdown, Conn.gracefulClose]
  split
  · exact sendCloseFrameToPeer _ { c with closeFrameToUser := false, closeFrameToPeer := false }
  · exact refl c

theorem sendMessages (out : List Message) (c : Conn) : Timed k c (out.foldl (fun c m => c.sendMessage k m) c) := by
  induction out generalizing c with
  | nil => exact refl c
  | cons m out ih =>
    refine trans ?_ (ih _)
    show Timed k c (if c.writeState = .writeEnabled then _ else _)
    split
    · rw [writeDataImpl]
      split
      · refine trans ?_ (initWriteIfNecessary _)
        split <;> exact refl c
      · exact refl c
    · exact refl c

theorem preserved (c : Conn) : PreservedByReads K (fun s => Timed K.clock c s.conn) where
  told s hs := hs
  closed s hs := hs.trans (close _)
  closeFrame s payload hs := hs.trans (closeFrameToPeerIfFirst (sendCloseFrameToPeer payload) _)
  closeFrameAwaited s payload hs := hs.trans (closeFrameToPeerIfFirst
    (f := fun c => (c.sendCloseFrameToPeer K.clock payload).startWaitingCloseFrameOnly K.clock)
    (fun c => sendCloseFrameToPeer payload c) _)
  peerClosed s hs := by
    have hsent := closeFrameToPeerIfFirst (k := K.clock) (f := fun c => c.sendCloseFrameToPeer K.clock c.payload)
      (fun c => sendCloseFrameToPeer c.payload c) { s.conn with closeFrameToUser := false }
    exact hs.trans hsent
  read s f hf hs := by
    refine hs.trans ?_
    rw [Loc.update, hf s.conn]
    exact refl s.conn
  unchecked s hs := hs
  expired s hs := hs.trans (close { s.conn with timeoutChecking := false })
  ended s ending hs := hs
  called s m hs := by
    rw [callMessageHandler]
    split
    · refine (hs.trans (sendMessages (K.handler.call K.id m s.app).2 _)).trans ?_
      show Timed K.clock _ (if K.handler.holds (K.handler.call K.id m s.app).1 K.id = true then _ else _)
      split
      · exact refl _
      · exact shutdown _
    · exact hs

end Conn.Timed

theorem Conn.activated_tidy (k : Clock) (response : Str) : (Conn.activated k response).Tidy := by
  have ht : Conn.initial.Tidy := ⟨fun _ => rfl, fun _ => rfl, fun _ _ => ⟨rfl, rfl⟩, by simp [Conn.initial]⟩
  have hw : (Conn.initial.writeData k [response] false).Tidy := ht.writeData (by simp) false
  exact ⟨hw.enabled, hw.closable, hw.drained, hw.full⟩

end NgkNet.Restinio.WebSocket
