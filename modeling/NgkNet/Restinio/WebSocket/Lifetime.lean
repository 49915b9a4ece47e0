import NgkNet.Restinio.WebSocket.Stability

set_option autoImplicit false

namespace NgkNet.Restinio.WebSocket

open Ascii Eff

variable {σ : Type}

/-- The handler lets go of a connection exactly in the call with the close frame, and sends none. -/
structure MessageHandler.Lawful (H : MessageHandler σ) : Prop where
  data : ∀ id m app j, m.opcode ≠ .connectionCloseFrame → H.holds (H.call id m app).1 j = H.holds app j
  close : ∀ id m app j, m.opcode = .connectionCloseFrame →
    H.holds (H.call id m app).1 j = (H.holds app j && j ≠ id)
  sends : ∀ id m app, ∀ out ∈ (H.call id m app).2, out.opcode ≠ .connectionCloseFrame

section Log

variable (H : MessageHandler σ) (log : List (Entry σ))

def happened : List Happening := log.map Entry.what

def Upgraded (id : ℕ) : Prop := .upgraded id ∈ happened log

def closeCalls (id : ℕ) : ℕ := (happened log).count (.called id .connectionCloseFrame)

def Ended (id : ℕ) : Prop := ∃ ending, .ended id ending ∈ happened log

def Exact (app : σ) : Prop := ∀ id, H.holds app id = true ↔ Upgraded log id ∧ closeCalls log id = 0

structure Consistent (app : σ) : Prop where
  now : Exact H log app
  past : ∀ before e, before ++ [e] <+: log → Exact H (before ++ [e]) e.app
  once : ∀ id, closeCalls log id ≤ 1

variable {H log}

theorem upgraded_append {e : Entry σ} {id : ℕ} :
    Upgraded (log ++ [e]) id ↔ Upgraded log id ∨ e.what = .upgraded id := by
  simp [Upgraded, happened, eq_comm]

theorem closeCalls_append {e : Entry σ} {id : ℕ} :
    closeCalls (log ++ [e]) id = closeCalls log id + if e.what = .called id .connectionCloseFrame then 1 else 0 := by
  simp [closeCalls, happened, List.count_singleton]

theorem ended_append {e : Entry σ} {id : ℕ} :
    Ended (log ++ [e]) id ↔ Ended log id ∨ ∃ ending, e.what = .ended id ending := by
  simp only [Ended, happened, List.map_append, List.map_cons, List.map_nil, List.mem_append, List.mem_singleton,
    exists_or, eq_comm]

theorem Consistent.append {app : σ} {e : Entry σ} (h : Consistent H log app) (hnow : Exact H (log ++ [e]) e.app)
    (honce : ∀ id, closeCalls (log ++ [e]) id ≤ 1) : Consistent H (log ++ [e]) e.app := by
  refine ⟨hnow, ?_, honce⟩
  intro before e' hp
  rcases List.prefix_concat_iff.mp hp with he | hp
  · obtain ⟨rfl, he⟩ := List.append_inj' he rfl
    obtain rfl : e' = e := by simpa using he
    exact hnow
  · exact h.past before e' hp

end Log

variable {K : Context σ}

theorem callMessageHandler_of_not_holds {s : Loc σ} (h : K.handler.holds s.app K.id = false) (m : Message) :
    callMessageHandler K m s = s := by
  rw [callMessageHandler, h]
  rfl

theorem callMessageHandler_app {s : Loc σ} (h : K.handler.holds s.app K.id = true) (m : Message) :
    (callMessageHandler K m s).app = (K.handler.call K.id m s.app).1 := by
  rw [callMessageHandler, if_pos h]

theorem callMessageHandler_log {s : Loc σ} (h : K.handler.holds s.app K.id = true) (m : Message) :
    (callMessageHandler K m s).log =
      s.log ++ [⟨.called K.id m.opcode, (K.handler.call K.id m s.app).1⟩] := by
  rw [callMessageHandler, if_pos h]

theorem consistent_stable (hH : K.handler.Lawful) : Stable K (fun s => Consistent K.handler s.log s.app) := by
  refine ⟨fun s f _ hs => hs, ?_, ?_⟩
  · intro s ending hs
    apply hs.append (e := ⟨.ended K.id ending, s.app⟩)
    · intro id
      simpa [upgraded_append, closeCalls_append] using hs.now id
    · intro id
      simpa [closeCalls_append] using hs.once id
  · intro s m hs
    cases h : K.handler.holds s.app K.id with
    | false =>
      rw [callMessageHandler_of_not_holds h]
      exact hs
    | true =>
      have hclosed := ((hs.now K.id).mp h).2
      simp only [callMessageHandler_app h, callMessageHandler_log h]
      apply hs.append (e := ⟨.called K.id m.opcode, (K.handler.call K.id m s.app).1⟩)
      · intro id
        have hnow := hs.now id
        by_cases hm : m.opcode = .connectionCloseFrame
        · by_cases hid : K.id = id
          · subst hid
            simp [hH.close _ _ _ _ hm, closeCalls_append, hm]
          · simp [hH.close _ _ _ _ hm, closeCalls_append, upgraded_append, hm, hid, Ne.symm hid, hnow]
        · simp [hH.data _ _ _ _ hm, closeCalls_append, upgraded_append, hm, hnow]
      · intro id
        have honce := hs.once id
        simp only [closeCalls_append]
        by_cases hid : K.id = id
        · subst hid
          rw [hclosed]
          split <;> omega
        · simpa [hid] using honce

structure Gone (K : Context σ) (s : Loc σ) : Prop where
  dropped : K.handler.holds s.app K.id = false
  closed : closeCalls s.log K.id = 1
  ended : Ended s.log K.id

theorem Gone.update {s : Loc σ} (h : Gone K s) (f : Conn → Conn) : Gone K (s.update f) :=
  ⟨h.dropped, h.closed, h.ended⟩

theorem gone_stable : Stable K (Gone K) := by
  refine ⟨fun s f _ hs => hs.update f, ?_, ?_⟩
  · intro s ending hs
    refine ⟨hs.dropped, ?_, ended_append.mpr (.inl hs.ended)⟩
    simpa [Loc.ended, closeCalls_append] using hs.closed
  · intro s m hs
    rw [callMessageHandler_of_not_holds hs.dropped]
    exact hs

def Conn.Served (c : Conn) : Prop :=
  c.socketOpen = true ∧ c.readState = .readAnyFrame ∧ c.reading ≠ .nothing

structure Shut (K : Context σ) (s : Loc σ) : Prop extends Gone K s where
  barred : s.conn.socketOpen = true → s.conn.readState ≠ .readAnyFrame

structure Over (K : Context σ) (s : Loc σ) : Prop extends Gone K s where
  unserved : ¬ s.conn.Served

theorem Shut.over {s : Loc σ} (h : Shut K s) : Over K s := ⟨h.toGone, fun hs => h.barred hs.1 hs.2.1⟩

theorem Gone.shut {s t : Loc σ} (h : Gone K t) (hs : s.conn.socketOpen = true → s.conn.readState ≠ .readAnyFrame)
    (hd : Conn.Decays s.conn t.conn) : Shut K t :=
  ⟨h, fun ho hr => hs (hd.1 ho) (hd.2.1 hr)⟩

theorem shut_stable : Stable K (Shut K) := by
  refine ⟨fun s f hf hs => (hs.toGone.update f).shut hs.barred (hf _), ?_, ?_⟩
  · intro s ending hs
    exact ⟨gone_stable.ended s ending hs.toGone, hs.barred⟩
  · intro s m hs
    rw [callMessageHandler_of_not_holds hs.dropped]
    exact hs

theorem upgraded_stable (id : ℕ) : Stable K (fun s => Upgraded s.log id) := by
  refine ⟨fun s f _ hs => hs, fun s ending hs => upgraded_append.mpr (.inl hs), fun s m hs => ?_⟩
  cases h : K.handler.holds s.app K.id with
  | false =>
    rw [callMessageHandler_of_not_holds h]
    exact hs
  | true =>
    rw [callMessageHandler_log h]
    exact upgraded_append.mpr (.inl hs)

structure Frame (K : Context σ) (id : ℕ) (s t : Loc σ) : Prop where
  holds : K.handler.holds t.app id = K.handler.holds s.app id
  closeCalls : closeCalls t.log id = closeCalls s.log id
  ended : Ended t.log id ↔ Ended s.log id
  upgraded : Upgraded t.log id ↔ Upgraded s.log id

theorem frame_stable (hH : K.handler.Lawful) {id : ℕ} (hid : K.id ≠ id) (s : Loc σ) : Stable K (Frame K id s) := by
  refine ⟨fun t f _ ht => ⟨ht.1, ht.2, ht.3, ht.4⟩, ?_, ?_⟩
  · intro t ending ht
    refine ⟨ht.holds, ?_, ?_, ?_⟩
    · simpa [Loc.ended, closeCalls_append] using ht.closeCalls
    · simpa [Loc.ended, ended_append, hid] using ht.ended
    · simpa [Loc.ended, upgraded_append] using ht.upgraded
  · intro t m ht
    cases h : K.handler.holds t.app K.id with
    | false =>
      rw [callMessageHandler_of_not_holds h]
      exact ht
    | true =>
      refine ⟨?_, ?_, ?_, ?_⟩
      · rw [callMessageHandler_app h, ← ht.holds]
        by_cases hm : m.opcode = .connectionCloseFrame
        · simp [hH.close _ _ _ _ hm, Ne.symm hid]
        · exact hH.data _ _ _ _ hm
      · simpa [callMessageHandler_log h, closeCalls_append, hid] using ht.closeCalls
      · simpa [callMessageHandler_log h, ended_append] using ht.ended
      · simpa [callMessageHandler_log h, upgraded_append] using ht.upgraded

structure Alive (K : Context σ) (s : Loc σ) : Prop where
  holds : K.handler.holds s.app K.id = true
  unclosed : closeCalls s.log K.id = 0
  going : ¬ Ended s.log K.id
  vital : s.conn.vital = (true, true, true, true, .readAnyFrame, none, true)

namespace Alive

variable {s : Loc σ} (h : Alive K s)
include h

theorem toUser : s.conn.closeFrameToUser = true := congrArg Prod.fst h.vital

theorem toPeer : s.conn.closeFrameToPeer = true := congrArg (fun v => v.2.1) h.vital

theorem closeImpl : s.conn.closeImpl = true := congrArg (fun v => v.2.2.1) h.vital

theorem socketOpen : s.conn.socketOpen = true := congrArg (fun v => v.2.2.2.1) h.vital

theorem readState : s.conn.readState = .readAnyFrame := congrArg (fun v => v.2.2.2.2.1) h.vital

theorem patient : s.conn.closeFrameFromPeerTimeoutAfter = none := congrArg (fun v => v.2.2.2.2.2.1) h.vital

theorem checking : s.conn.timeoutChecking = true := congrArg (fun v => v.2.2.2.2.2.2) h.vital

end Alive

structure Working (K : Context σ) (s : Loc σ) : Prop extends Alive K s where
  idle : s.conn.reading = .nothing

structure Leaving (K : Context σ) (s : Loc σ) : Prop where
  holds : K.handler.holds s.app K.id = true
  unclosed : closeCalls s.log K.id = 0
  ended : Ended s.log K.id

theorem Alive.update {s : Loc σ} (h : Alive K s) {f : Conn → Conn} (hf : (f s.conn).vital = s.conn.vital) :
    Alive K (s.update f) :=
  ⟨h.holds, h.unclosed, h.going, hf.trans h.vital⟩

theorem Working.update {s : Loc σ} (h : Working K s) {f : Conn → Conn} (hf : (f s.conn).state = s.conn.state) :
    Working K (s.update f) :=
  ⟨h.toAlive.update (congrArg Prod.fst hf), (congrArg Prod.snd hf).trans h.idle⟩

theorem Alive.ended {s : Loc σ} (h : Alive K s) (ending : Ending) : Leaving K (s.ended K ending) := by
  refine ⟨h.holds, ?_, ended_append.mpr (.inr ⟨ending, rfl⟩)⟩
  simpa [Loc.ended, closeCalls_append] using h.unclosed

theorem Leaving.update {s : Loc σ} (h : Leaving K s) (f : Conn → Conn) : Leaving K (s.update f) :=
  ⟨h.holds, h.unclosed, h.ended⟩

section Lawful

variable (hH : K.handler.Lawful)
include hH

theorem Leaving.called {s : Loc σ} (h : Leaving K s) {m : Message} (hm : m.opcode = .connectionCloseFrame) :
    Gone K (callMessageHandler K m s) := by
  refine ⟨?_, ?_, ?_⟩
  · rw [callMessageHandler_app h.holds, hH.close _ _ _ _ hm]
    simp
  · rw [callMessageHandler_log h.holds, closeCalls_append, h.unclosed, hm]
    simp
  · rw [callMessageHandler_log h.holds]
    exact ended_append.mpr (.inl h.ended)

theorem Leaving.callCloseHandler {s : Loc σ} (h : Leaving K s) (hu : s.conn.closeFrameToUser = true)
    (status : StatusCode) : Gone K (callCloseHandlerIfNecessary K status s) := by
  rw [callCloseHandlerIfNecessary, if_pos hu]
  exact (h.update _).called hH rfl

theorem Leaving.callCloseHandler_close {s : Loc σ} (h : Leaving K s) (hu : s.conn.closeFrameToUser = true)
    (hi : s.conn.closeImpl = true) (status : StatusCode) :
    Shut K ((callCloseHandlerIfNecessary K status s).update Conn.close) := by
  refine ⟨(h.callCloseHandler hH hu status).update _, fun ho => ?_⟩
  have hd := (callCloseHandlerIfNecessary_decays (K := K) status s).2.2 hi
  simp only [Loc.update, Conn.close] at ho
  rcases hd with hd | hd <;> split at ho <;> simp_all

theorem Alive.triggerErrorAndClose {s : Loc σ} (h : Alive K s) (ending : Ending) (status : StatusCode) :
    Shut K (triggerErrorAndClose K status (s.ended K ending)) :=
  (h.ended ending).callCloseHandler_close hH h.toUser h.closeImpl status

theorem Working.closed {s : Loc σ} (h : Working K s) (ending : Ending) (status : StatusCode) {f : Conn → Conn}
    (hu : ∀ c, (f c).closeFrameToUser = c.closeFrameToUser) (hr : ∀ c, (f c).reading = c.reading) :
    Over K (callCloseHandlerIfNecessary K status ((s.ended K ending).update (closeFrameToPeerIfFirst f))) := by
  have hconn : ((s.ended K ending).update (closeFrameToPeerIfFirst f)).conn =
      f { s.conn with closeFrameToPeer := false } := if_pos h.toPeer
  refine ⟨((h.ended ending).update _).callCloseHandler hH ?_ status, fun hs => hs.2.2 ?_⟩
  · rw [hconn, hu]
    exact h.toUser
  · rw [callCloseHandlerIfNecessary_reading, hconn, hr]
    exact h.idle

theorem Working.handleInvalidHeader {s : Loc σ} (h : Working K s) : Over K (handleInvalidHeader K s) := by
  rw [WebSocket.handleInvalidHeader, show (s.ended K .protocolError).conn.readState = .readAnyFrame from h.readState]
  apply h.closed hH
  · exact fun c => congrArg (fun v => v.1.1) (c.sendCloseFrameToPeer_state K.clock _)
  · exact fun c => c.sendCloseFrameToPeer_reading K.clock _

theorem Working.handleInvalidCloseCode {s : Loc σ} (h : Working K s) :
    Over K (handleInvalidPayload K .invalidCloseCode s) := by
  rw [handleInvalidPayload, if_pos rfl,
    show (s.ended K .invalidPayload).conn.readState = .readAnyFrame from h.readState]
  apply h.closed hH
  · exact fun c => congrArg (fun v => v.1.1) (c.sendCloseFrameToPeer_state K.clock _)
  · exact fun c => c.sendCloseFrameToPeer_reading K.clock _

theorem Working.handleInvalidData {s : Loc σ} (h : Working K s) {result : ValidationState}
    (hr : result ≠ .invalidCloseCode) : Shut K (handleInvalidPayload K result s) := by
  rw [handleInvalidPayload, if_neg hr,
    show (s.ended K .invalidPayload).conn.readState = .readAnyFrame from h.readState]
  refine Gone.shut (h.closed hH .invalidPayload _ ?_ ?_).toGone (fun _ => ?_)
    (callCloseHandlerIfNecessary_decays _ _)
  · exact fun c => congrArg (fun v => v.1.1) (c.sendCloseFrameToPeer_state K.clock _)
  · exact fun c => c.sendCloseFrameToPeer_reading K.clock _
  · simp [Loc.update, Loc.ended, closeFrameToPeerIfFirst, h.toPeer, Conn.startWaitingCloseFrameOnly]

theorem Working.handleInvalidPayload {s : Loc σ} (h : Working K s) (result : ValidationState) :
    Over K (handleInvalidPayload K result s) := by
  by_cases hr : result = .invalidCloseCode
  · rw [hr]
    exact h.handleInvalidCloseCode hH
  · exact (h.handleInvalidData hH hr).over

theorem Working.handleCloseFrame {s : Loc σ} (h : Working K s) {m : Message}
    (hm : m.opcode = .connectionCloseFrame) : Shut K (callMessageHandler K m (handleCloseFrame K s)) := by
  rw [WebSocket.handleCloseFrame]
  refine Gone.shut (((h.ended .peerClose).update _).called hH hm) (fun _ => ?_) (callMessageHandler_decays m _)
  simp [Loc.update]

theorem Working.called {s : Loc σ} (h : Working K s) {m : Message} (hm : m.opcode ≠ .connectionCloseFrame) :
    Working K (callMessageHandler K m s) := by
  have hkeep : K.handler.holds (K.handler.call K.id m s.app).1 K.id = true :=
    (hH.data _ _ _ _ hm).trans h.holds
  have hconn : (callMessageHandler K m s).conn.state = s.conn.state := by
    rw [callMessageHandler, if_pos h.holds]
    simp only [hkeep, if_true]
    exact Conn.sendMessages_state K.clock (hH.sends _ _ _) s.conn
  refine ⟨⟨?_, ?_, ?_, (congrArg Prod.fst hconn).trans h.vital⟩, (congrArg Prod.snd hconn).trans h.idle⟩
  · rw [callMessageHandler_app h.holds]
    exact hkeep
  · rw [callMessageHandler_log h.holds, closeCalls_append, h.unclosed]
    simp [hm]
  · rw [callMessageHandler_log h.holds, ended_append]
    simpa using h.going

end Lawful

end NgkNet.Restinio.WebSocket
