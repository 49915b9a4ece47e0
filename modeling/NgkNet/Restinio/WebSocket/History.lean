import NgkNet.Restinio.WebSocket.Site

set_option autoImplicit false

namespace NgkNet.Restinio.WebSocket

open Ascii

variable {σ : Type}

namespace Site

variable (w : Site σ) (id : ℕ)

def writing : Bool := (w.conns id).any fun c => c.currentWg.isSome

def taken : Event → Str
  | .readDone j (some data) => if j = id then data.take ((w.conns id).elim 0 fun c => c.reading.wanted) else []
  | _ => []

end Site

def Event.connection : Event → Option ℕ
  | .request _ => none
  | .readDone id _ => some id
  | .writeDone id _ => some id
  | .checkTimeout id => some id

def Event.completesWrite (id : ℕ) : Event → Bool
  | .writeDone j ok => ok && j = id
  | _ => false

/-- The server, with what its events say about a connection: the bytes that came on it, and since when the write
has been under way that is. -/
structure History (σ : Type) where
  site : Site σ
  received : ℕ → Str
  since : ℕ → Option ℕ

def History.step (H : MessageHandler σ) (settings : Settings) (onRequest : ℕ → Request → Site σ → Site σ)
    (h : History σ) (o : Occurrence) : History σ where
  site := h.site.step H settings onRequest o
  received id := h.received id ++ h.site.taken id o.event
  since id :=
    if (h.site.step H settings onRequest o).writing id then
      if h.site.writing id && !o.event.completesWrite id then h.since id else some o.now
    else none

/-- The events that end a connection: a lost connection in either direction, bytes that it may not send, a close
frame among them, and a write that takes too long. -/
inductive EndsBy (settings : Settings) (h : History σ) (id : ℕ) : Occurrence → Prop
  | readError {now : ℕ} : EndsBy settings h id ⟨now, .readDone id none⟩
  | bytes {now : ℕ} {data : Str} (hs : ¬ Survives settings.payloadMaxSize .none
      (h.received id ++ h.site.taken id (.readDone id (some data)))) :
      EndsBy settings h id ⟨now, .readDone id (some data)⟩
  | writeError {now : ℕ} (hw : h.site.writing id = true) : EndsBy settings h id ⟨now, .writeDone id false⟩
  | writeTimeout {now start : ℕ} (hs : h.since id = some start)
      (hlate : start + settings.writeHttpResponseTimelimit < now) : EndsBy settings h id ⟨now, .checkTimeout id⟩

def Upgrading (H : MessageHandler σ) (settings : Settings) (onRequest : ℕ → Request → Site σ → Site σ) : Prop :=
  ∀ now req w id,
    (onRequest now req w).conns id = w.conns id ∧ H.holds (onRequest now req w).app id = H.holds w.app id ∨
      w.conns id = none ∧ ∃ text, (onRequest now req w).conns id = some (.activated (clockAt settings now) text)

structure Faithful (H : MessageHandler σ) (settings : Settings) (h : History σ) : Prop where
  sound : h.site.Sound H settings
  fresh : ∀ id, h.site.conns id = none → h.received id = []
  follows : ∀ id c, h.site.conns id = some c → H.holds h.site.app id = true →
    ∃ o a, c.Stands settings.payloadMaxSize o a ∧ Same settings.payloadMaxSize .none (h.received id) o a
  idle : ∀ id c, h.site.conns id = some c → c.currentWg = none → h.since id = none
  timed : ∀ id c, h.site.conns id = some c → c.currentWg.isSome = true →
    ∃ start, h.since id = some start ∧ c.writeOperationTimeoutAfter = start + settings.writeHttpResponseTimelimit

section Events

variable {H : MessageHandler σ} {settings : Settings} {w : Site σ} {K : Context σ} {f : Loc σ → Loc σ} {c : Conn}

theorem Site.onConn_self (hc : w.conns K.id = some c) :
    w.onConn K f = ⟨(f (w.view c)).app, Function.update w.conns K.id (some (f (w.view c)).conn), (f (w.view c)).log⟩ := by
  rw [Site.onConn, hc]

theorem Site.onConn_conns_self (hc : w.conns K.id = some c) :
    (w.onConn K f).conns K.id = some (f (w.view c)).conn := by
  rw [Site.onConn_self hc]
  exact Function.update_self _ _ _

theorem Site.onConn_conns_ne {id : ℕ} (hne : K.id ≠ id) : (w.onConn K f).conns id = w.conns id := by
  rw [Site.onConn]
  cases w.conns K.id with
  | none => rfl
  | some c => exact Function.update_of_ne (Ne.symm hne) _ _

theorem Site.onConn_holds_ne (hH : K.handler.Lawful) (hkeep : ∀ P s, Preserved K P → P s → P (f s)) {id : ℕ}
    (hne : K.id ≠ id) : K.handler.holds (w.onConn K f).app id = K.handler.holds w.app id := by
  rw [Site.onConn]
  cases hc : w.conns K.id with
  | none => rfl
  | some c => exact (hkeep _ (w.view c) (frame_stable hH hne _).preserved ⟨rfl, rfl, Iff.rfl, Iff.rfl⟩).holds

theorem Site.onConn_over (hc : w.conns K.id = some c) (ho : Over K (f (w.view c))) :
    K.handler.holds (w.onConn K f).app K.id = false ∧ closeCalls (w.onConn K f).log K.id = 1 := by
  rw [Site.onConn_self hc]
  exact ⟨ho.dropped, ho.closed⟩

end Events

section Step

variable {H : MessageHandler σ} {settings : Settings} {onRequest : ℕ → Request → Site σ → Site σ} {h : History σ}
  {id : ℕ} {o : Occurrence}

theorem EndsBy.connection (he : EndsBy settings h id o) : o.event.connection = some id := by
  cases he <;> rfl

theorem taken_other {w : Site σ} (he : o.event.connection ≠ some id) : w.taken id o.event = [] := by
  cases hev : o.event with
  | readDone j result =>
    rw [hev] at he
    cases result with
    | none => rfl
    | some data => exact if_neg fun hj => he (congrArg some hj)
  | _ => rfl

theorem Site.step_onConn (H : MessageHandler σ) (settings : Settings) (onRequest : ℕ → Request → Site σ → Site σ)
    (he : o.event.connection = some id) :
    ∃ f, (∀ P s, Preserved (contextAt H settings o.now id) P → P s → P (f s)) ∧
      ∀ w : Site σ, w.step H settings onRequest o = w.onConn (contextAt H settings o.now id) f := by
  obtain ⟨now, event⟩ := o
  cases event with
  | request req => cases he
  | readDone j result =>
    obtain rfl := Option.some.inj he
    exact ⟨_, fun P s hP hs => hP.readDone result s hs, fun _ => rfl⟩
  | writeDone j ok =>
    obtain rfl := Option.some.inj he
    exact ⟨_, fun P s hP hs => hP.writeDone ok s hs, fun _ => rfl⟩
  | checkTimeout j =>
    obtain rfl := Option.some.inj he
    exact ⟨_, fun P s hP hs => hP.checkTimeout s hs, fun _ => rfl⟩

theorem Site.step_other (hH : H.Lawful) (hup : Upgrading H settings onRequest) (w : Site σ)
    (he : o.event.connection ≠ some id) :
    (w.step H settings onRequest o).conns id = w.conns id ∧
        H.holds (w.step H settings onRequest o).app id = H.holds w.app id ∨
      w.conns id = none ∧
        ∃ text, (w.step H settings onRequest o).conns id = some (.activated (clockAt settings o.now) text) := by
  cases hev : o.event.connection with
  | none =>
    obtain ⟨now, event⟩ := o
    cases event with
    | request req => exact hup now req w id
    | _ => cases hev
  | some j =>
    have hne : j ≠ id := fun hj => he (hev.trans (congrArg some hj))
    obtain ⟨f, hkeep, hstep⟩ := Site.step_onConn H settings onRequest hev
    rw [hstep w]
    exact .inl ⟨Site.onConn_conns_ne (K := contextAt H settings o.now j) hne,
      Site.onConn_holds_ne (K := contextAt H settings o.now j) hH hkeep hne⟩

theorem Site.step_conns_none {j : ℕ} (he : o.event.connection = some j) (w : Site σ) (id : ℕ) :
    (w.step H settings onRequest o).conns id = none ↔ w.conns id = none := by
  obtain ⟨f, -, hstep⟩ := Site.step_onConn H settings onRequest he
  rw [hstep w]
  by_cases hj : j = id
  · subst hj
    cases hc : w.conns j with
    | none => simp [Site.onConn, contextAt, hc]
    | some c =>
      have hsome : (w.onConn (contextAt H settings o.now j) f).conns j = some (f (w.view c)).conn :=
        Site.onConn_conns_self hc
      simp [hsome]
  · rw [Site.onConn_conns_ne (K := contextAt H settings o.now j) hj]

def Stays (H : MessageHandler σ) (settings : Settings) (id : ℕ) (h : History σ) : Prop :=
  H.holds h.site.app id = true ∧ ∃ c o a, h.site.conns id = some c ∧ c.Stands settings.payloadMaxSize o a ∧
    Same settings.payloadMaxSize .none (h.received id) o a

def Leaves (H : MessageHandler σ) (id : ℕ) (h : History σ) : Prop :=
  H.holds h.site.app id = false ∧ closeCalls h.site.log id = 1

def Decides (H : MessageHandler σ) (settings : Settings) (onRequest : ℕ → Request → Site σ → Site σ) (h : History σ)
    (id : ℕ) (o : Occurrence) : Prop :=
  ¬ EndsBy settings h id o ∧ Stays H settings id (h.step H settings onRequest o) ∨
    EndsBy settings h id o ∧ Leaves H id (h.step H settings onRequest o)

theorem Faithful.alive (hf : Faithful H settings h) (hid : H.holds h.site.app id = true) (now : ℕ) :
    ∃ c o a, h.site.conns id = some c ∧ Alive (contextAt H settings now id) (h.site.view c) ∧
      c.Stands settings.payloadMaxSize o a ∧ Same settings.payloadMaxSize .none (h.received id) o a := by
  obtain ⟨c, hc, hs⟩ := hf.sound.serving hid
  obtain ⟨o, a, hstands, hsame⟩ := hf.follows id c hc hid
  exact ⟨c, o, a, hc, ⟨hs.holds, hs.unclosed, hs.going, hs.vital⟩, hstands, hsame⟩

theorem Stays.of_onConn {K : Context σ} {w : Site σ} {f : Loc σ → Loc σ} {c : Conn} {p : Ongoing} {a : Str}
    (hc : w.conns K.id = some c) (hsite : h.site = w.onConn K f) (ht : Alive K (f (w.view c)))
    (hs : (f (w.view c)).conn.Stands settings.payloadMaxSize p a)
    (hsame : Same settings.payloadMaxSize .none (h.received K.id) p a) : Stays K.handler settings K.id h := by
  refine ⟨?_, (f (w.view c)).conn, p, a, ?_, hs, hsame⟩
  · rw [hsite, Site.onConn_self hc]
    exact ht.holds
  · rw [hsite, Site.onConn_conns_self hc]

def Site.Left (H : MessageHandler σ) (id : ℕ) (w : Site σ) : Prop := w.conns id ≠ none ∧ H.holds w.app id = false

theorem Site.Left.over {w : Site σ} (hl : w.Left H id) (hs : w.Sound H settings) (now : ℕ) :
    ∃ c, w.conns id = some c ∧ Over (contextAt H settings now id) (w.view c) := by
  obtain ⟨c, hc⟩ := Option.ne_none_iff_exists'.mp hl.1
  refine ⟨c, hc, ?_⟩
  rcases (hs.known id c hc).2 with hserving | hover
  · exact absurd (hserving.holds.symm.trans hl.2) (by decide)
  · exact ⟨⟨hover.dropped, hover.closed, hover.ended⟩, hover.unserved⟩

section Lawful

variable (hH : H.Lawful)
include hH

theorem Faithful.decides_readDone (hf : Faithful H settings h) (hid : H.holds h.site.app id = true) (now : ℕ)
    (result : Option Str) :
    Decides H settings onRequest h id ⟨now, .readDone id result⟩ := by
  obtain ⟨c, p, a, hc, halive, hstands, hsame⟩ := hf.alive hid now
  cases result with
  | none =>
    have hover := halive.over_readDone hH hstands.reading_ne
    exact .inr ⟨.readError, Site.onConn_over (K := contextAt H settings now id) hc hover⟩
  | some data =>
    have htaken : h.site.taken id (.readDone id (some data)) = data.take c.reading.wanted := by
      rw [Site.taken, if_pos rfl, hc]
      rfl
    have hwhole : Same settings.payloadMaxSize .none (h.received id ++ h.site.taken id (.readDone id (some data))) p
        (a ++ data.take c.reading.wanted) := by
      intro x
      rw [htaken, List.append_assoc, List.append_assoc]
      exact hsame _
    have hcame := halive.came_readDone hH hstands data
    generalize hr : readDone (contextAt H settings now id) (some data) (h.site.view c) = t at hcame
    cases hcame with
    | @wait p' a' _ ht hs' hsame' =>
      have hsame'' : Same settings.payloadMaxSize .none
          (h.received id ++ h.site.taken id (.readDone id (some data))) p' a' := fun x => (hwhole x).trans (hsame' x)
      refine .inl ⟨fun hends => ?_, ?_⟩
      · cases hends with
        | bytes hbad => exact hbad (hsame''.survives_iff.mpr hs'.survives)
      · subst hr
        exact .of_onConn (K := contextAt H settings now id) hc rfl ht hs' hsame''
    | ended ht hs' =>
      subst hr
      exact .inr ⟨.bytes (mt hwhole.survives_iff.mp hs'), Site.onConn_over (K := contextAt H settings now id) hc ht⟩

theorem Faithful.decides_writeDone (hf : Faithful H settings h) (hid : H.holds h.site.app id = true) (now : ℕ) (ok : Bool) :
    Decides H settings onRequest h id ⟨now, .writeDone id ok⟩ := by
  obtain ⟨c, p, a, hc, halive, hstands, hsame⟩ := hf.alive hid now
  have hwriting : h.site.writing id = c.currentWg.isSome := by
    rw [Site.writing, hc]
    rfl
  have hreceived : Same settings.payloadMaxSize .none (h.received id ++ []) p a := by rwa [List.append_nil]
  cases hwg : c.currentWg with
  | none =>
    have hsame' : writeDone (contextAt H settings now id) ok (h.site.view c) = h.site.view c := by
      rw [WebSocket.writeDone, show (h.site.view c).conn.currentWg = none from hwg]
    refine .inl ⟨fun hends => ?_, .of_onConn (K := contextAt H settings now id) hc rfl ?_ ?_ hreceived⟩
    · cases hends with
      | writeError hw => rw [hwriting, hwg] at hw; cases hw
    · rw [hsame']
      exact halive
    · rw [hsame']
      exact hstands
  | some wg =>
    cases ok with
    | true =>
      have hwrote : WebSocket.writeDone (contextAt H settings now id) true (h.site.view c) =
          (h.site.view c).update (Conn.afterWrite (clockAt settings now)) := by
        rw [WebSocket.writeDone, show (h.site.view c).conn.currentWg = some wg from hwg]
        rfl
      refine .inl ⟨fun hends => ?_, .of_onConn (K := contextAt H settings now id) hc rfl ?_ ?_ hreceived⟩
      · cases hends
      · rw [hwrote]
        exact halive.update (congrArg Prod.fst (c.afterWrite_state _))
      · rw [hwrote]
        exact hstands.of_input (c.afterWrite_input _)
    | false =>
      have hsome : c.currentWg.isSome = true := by rw [hwg]; rfl
      exact .inr ⟨.writeError (hwriting.trans hsome), Site.onConn_over (K := contextAt H settings now id) hc
        (halive.over_writeDone hH hsome)⟩

theorem Faithful.decides_checkTimeout (hf : Faithful H settings h) (hid : H.holds h.site.app id = true) (now : ℕ) :
    Decides H settings onRequest h id ⟨now, .checkTimeout id⟩ := by
  obtain ⟨c, p, a, hc, halive, hstands, hsame⟩ := hf.alive hid now
  by_cases hlate : c.currentWg.isSome = true ∧ c.writeOperationTimeoutAfter < now
  · obtain ⟨start, hsince, hdeadline⟩ := hf.timed id c hc hlate.1
    exact .inr ⟨.writeTimeout hsince (hdeadline ▸ hlate.2), Site.onConn_over (K := contextAt H settings now id) hc
      (halive.over_checkTimeout hH hlate.1 hlate.2)⟩
  · have hsame' := halive.checkTimeout_eq fun hw => Nat.not_lt.mp fun hlt => hlate ⟨hw, hlt⟩
    have hreceived : Same settings.payloadMaxSize .none (h.received id ++ []) p a := by rwa [List.append_nil]
    refine .inl ⟨fun hends => ?_, .of_onConn (K := contextAt H settings now id) hc rfl ?_ ?_ hreceived⟩
    · cases hends with
      | @writeTimeout _ start hs hlt =>
        cases hwg : c.currentWg with
        | none => cases hs.symm.trans (hf.idle id c hc hwg)
        | some wg =>
          have hsome : c.currentWg.isSome = true := by rw [hwg]; rfl
          obtain ⟨start', hsince, hdeadline⟩ := hf.timed id c hc hsome
          obtain rfl := Option.some.inj (hs.symm.trans hsince)
          exact hlate ⟨hsome, hdeadline ▸ hlt⟩
    · rw [hsame']
      exact halive
    · rw [hsame']
      exact hstands

theorem Faithful.decides (hup : Upgrading H settings onRequest) (hf : Faithful H settings h)
    (hid : H.holds h.site.app id = true) (o : Occurrence) : Decides H settings onRequest h id o := by
  by_cases he : o.event.connection = some id
  · obtain ⟨now, event⟩ := o
    cases event with
    | request req => cases he
    | readDone j result =>
      obtain rfl := Option.some.inj he
      exact hf.decides_readDone hH hid now result
    | writeDone j ok =>
      obtain rfl := Option.some.inj he
      exact hf.decides_writeDone hH hid now ok
    | checkTimeout j =>
      obtain rfl := Option.some.inj he
      exact hf.decides_checkTimeout hH hid now
  · obtain ⟨c, p, a, hc, -, hstands, hsame⟩ := hf.alive hid o.now
    refine .inl ⟨fun hends => he hends.connection, ?_⟩
    rcases Site.step_other hH hup h.site he with ⟨hconns, hholds⟩ | ⟨hnone, -⟩
    · refine ⟨hholds.trans hid, c, p, a, hconns.trans hc, hstands, ?_⟩
      show Same settings.payloadMaxSize .none (h.received id ++ h.site.taken id o.event) p a
      rwa [taken_other he, List.append_nil]
    · cases hc.symm.trans hnone

theorem Site.conns_of_step (hup : Upgrading H settings onRequest) {w : Site σ}
    (hc : (w.step H settings onRequest o).conns id = none) : w.conns id = none := by
  by_cases he : o.event.connection = some id
  · exact (Site.step_conns_none he w id).mp hc
  · rcases Site.step_other hH hup w he with ⟨hconns, -⟩ | ⟨hnone, -⟩
    · exact hconns.symm.trans hc
    · exact hnone

theorem Site.Left.step {w : Site σ} (hs : w.Sound H settings) (hup : Upgrading H settings onRequest)
    (hl : w.Left H id) (o : Occurrence) : (w.step H settings onRequest o).Left H id := by
  refine ⟨mt (Site.conns_of_step hH hup) hl.1, ?_⟩
  by_cases he : o.event.connection = some id
  · obtain ⟨c, hc, hover⟩ := hl.over hs o.now
    obtain ⟨now, event⟩ := o
    cases event with
    | request req => cases he
    | readDone j result =>
      obtain rfl := Option.some.inj he
      exact (Site.onConn_over (K := contextAt H settings now j) hc (hover.readDone result)).1
    | writeDone j ok =>
      obtain rfl := Option.some.inj he
      exact (Site.onConn_over (K := contextAt H settings now j) hc (hover.writeDone ok)).1
    | checkTimeout j =>
      obtain rfl := Option.some.inj he
      exact (Site.onConn_over (K := contextAt H settings now j) hc hover.checkTimeout).1
  · rcases Site.step_other hH hup w he with ⟨-, hholds⟩ | ⟨hnone, -⟩
    · exact hholds.trans hl.2
    · exact absurd hnone hl.1

theorem Faithful.step_fresh (hup : Upgrading H settings onRequest) (hf : Faithful H settings h)
    (hc : (h.step H settings onRequest o).site.conns id = none) : (h.step H settings onRequest o).received id = [] := by
  have hnone : h.site.conns id = none := Site.conns_of_step hH hup hc
  have htaken : h.site.taken id o.event = [] := by
    cases o.event with
    | readDone j result =>
      cases result with
      | none => rfl
      | some data =>
        rw [Site.taken, hnone]
        split <;> rfl
    | _ => rfl
  show h.received id ++ h.site.taken id o.event = []
  rw [htaken, hf.fresh id hnone, List.append_nil]

theorem Faithful.step_follows (hup : Upgrading H settings onRequest) (hf : Faithful H settings h) {c : Conn}
    (hc : (h.step H settings onRequest o).site.conns id = some c)
    (hid : H.holds (h.step H settings onRequest o).site.app id = true) :
    ∃ p a, c.Stands settings.payloadMaxSize p a ∧
      Same settings.payloadMaxSize .none ((h.step H settings onRequest o).received id) p a := by
  cases hold : H.holds h.site.app id with
  | true =>
    rcases hf.decides hH hup hold o with ⟨-, -, d, p, a, hd, hs⟩ | ⟨-, hleaves, -⟩
    · obtain rfl := Option.some.inj (hc.symm.trans hd)
      exact ⟨p, a, hs⟩
    · cases hid.symm.trans hleaves
  | false =>
    cases hc₀ : h.site.conns id with
    | some d =>
      have hleft : h.site.Left H id := ⟨by simp [hc₀], hold⟩
      cases hid.symm.trans (hleft.step hH hf.sound hup o).2
    | none =>
      by_cases he : o.event.connection = some id
      · cases hc.symm.trans ((Site.step_conns_none he h.site id).mpr hc₀)
      · rcases Site.step_other hH hup h.site he with ⟨hconns, -⟩ | ⟨-, text, hnew⟩
        · cases hc.symm.trans (hconns.trans hc₀)
        · obtain rfl := Option.some.inj (hc.symm.trans hnew)
          refine ⟨.none, [], Conn.activated_stands _ _, fun x => ?_⟩
          show Survives _ _ (h.received id ++ h.site.taken id o.event ++ x) ↔ _
          rw [hf.fresh id hc₀, taken_other he]
          exact Iff.rfl

def Site.Keeps (settings : Settings) (w : Site σ) (id : ℕ) (o : Occurrence) (d : Conn) : Prop :=
  (∃ c, w.conns id = some c ∧ c.currentWg.isSome = true ∧ o.event.completesWrite id = false ∧
      d.writeOperationTimeoutAfter = c.writeOperationTimeoutAfter) ∨
    (w.writing id && !o.event.completesWrite id) = false ∧
      d.writeOperationTimeoutAfter = o.now + settings.writeHttpResponseTimelimit

omit hH in
theorem Site.writing_eq {w : Site σ} {c : Conn} (hc : w.conns id = some c) : w.writing id = c.currentWg.isSome := by
  rw [Site.writing, hc]
  rfl

omit hH in
theorem Site.Keeps.of_timed {w : Site σ} {c d : Conn} (hc : w.conns id = some c)
    (hnot : o.event.completesWrite id = false) (ht : Conn.Timed (clockAt settings o.now) c d)
    (hd : d.currentWg.isSome = true) : w.Keeps settings id o d := by
  cases hcw : c.currentWg with
  | none =>
    refine .inr ⟨?_, ht.2 hcw hd⟩
    rw [Site.writing_eq hc, hcw]
    rfl
  | some wg =>
    have hsome : c.currentWg.isSome = true := by rw [hcw]; rfl
    exact .inl ⟨c, hc, hsome, hnot, (ht.1 hsome).2⟩

omit hH in
theorem Site.keeps_writeDone {w : Site σ} {c : Conn} {now : ℕ} {ok : Bool}
    (hd : (writeDone (contextAt H settings now id) ok (w.view c)).conn.currentWg.isSome = true) :
    w.Keeps settings id ⟨now, .writeDone id ok⟩ (writeDone (contextAt H settings now id) ok (w.view c)).conn := by
  rw [WebSocket.writeDone] at hd ⊢
  cases hcw : (w.view c).conn.currentWg with
  | none =>
    rw [hcw] at hd
    rw [show (w.view c).conn.currentWg = none from hcw] at hd
    cases hd
  | some wg =>
    rw [hcw] at hd
    cases ok with
    | false => cases hd
    | true =>
      have ht := Conn.Timed.initWriteIfNecessary (k := clockAt settings now)
        { c with nextWritableItemIndex := 0, currentWg := none }
      refine .inr ⟨?_, ht.2 rfl hd⟩
      simp [Event.completesWrite]

theorem Site.keeps_step (hup : Upgrading H settings onRequest) {w : Site σ} {d : Conn}
    (hd : (w.step H settings onRequest o).conns id = some d) (hwriting : d.currentWg.isSome = true) :
    w.Keeps settings id o d := by
  by_cases he : o.event.connection = some id
  · cases hc : w.conns id with
    | none => cases hd.symm.trans ((Site.step_conns_none he w id).mpr hc)
    | some c =>
      have hself : ∀ f, (w.onConn (contextAt H settings o.now id) f).conns id = some (f (w.view c)).conn :=
        fun f => Site.onConn_conns_self hc
      obtain ⟨now, event⟩ := o
      cases event with
      | request req => cases he
      | readDone j result =>
        obtain rfl := Option.some.inj he
        obtain rfl := Option.some.inj ((hself _).symm.trans hd)
        exact .of_timed hc rfl ((Conn.Timed.preserved c).readDone result (w.view c) (.refl c)) hwriting
      | writeDone j ok =>
        obtain rfl := Option.some.inj he
        obtain rfl := Option.some.inj ((hself _).symm.trans hd)
        exact Site.keeps_writeDone hwriting
      | checkTimeout j =>
        obtain rfl := Option.some.inj he
        obtain rfl := Option.some.inj ((hself _).symm.trans hd)
        exact .of_timed hc rfl ((Conn.Timed.preserved c).checkTimeout (w.view c) (.refl c)) hwriting
  · have hnot : o.event.completesWrite id = false := by
      obtain ⟨now, event⟩ := o
      cases event with
      | writeDone j ok => exact Bool.and_eq_false_iff.mpr (.inr (decide_eq_false fun hj => he (congrArg some hj)))
      | _ => rfl
    rcases Site.step_other hH hup w he with ⟨hconns, -⟩ | ⟨hnone, text, hnew⟩
    · exact .inl ⟨d, hconns.symm.trans hd, hwriting, hnot, rfl⟩
    · obtain rfl := Option.some.inj (hd.symm.trans hnew)
      refine .inr ⟨?_, rfl⟩
      rw [Site.writing, hnone]
      rfl

theorem Faithful.step (hup : Upgrading H settings onRequest) (hf : Faithful H settings h)
    (hrequest : ∀ now req, (onRequest now req h.site).Sound H settings) (o : Occurrence) :
    Faithful H settings (h.step H settings onRequest o) where
  sound := hf.sound.step hH hrequest o
  fresh id hc := hf.step_fresh hH hup hc
  follows id c hc hid := hf.step_follows hH hup hc hid
  idle id d hd hn := by
    have hidle : (h.site.step H settings onRequest o).writing id = false := by
      rw [Site.writing_eq (show (h.site.step H settings onRequest o).conns id = some d from hd), hn]
      rfl
    show (if _ then _ else _) = _
    rw [hidle]
    rfl
  timed id d hd hs := by
    show ∃ start, (if (h.site.step H settings onRequest o).writing id then
      if h.site.writing id && !o.event.completesWrite id then h.since id else some o.now else none) = some start ∧ _
    rw [Site.writing_eq (show (h.site.step H settings onRequest o).conns id = some d from hd), if_pos hs]
    rcases Site.keeps_step hH hup hd hs with ⟨c, hc, hsome, hnot, hdeadline⟩ | ⟨hnew, hdeadline⟩
    · obtain ⟨start, hsince, hstart⟩ := hf.timed id c hc hsome
      rw [Site.writing_eq hc, hsome, hnot]
      exact ⟨start, hsince, hdeadline.trans hstart⟩
    · rw [hnew]
      exact ⟨o.now, rfl, hdeadline⟩

omit hH in
theorem faithful_initial {app : σ} (happ : ∀ id, H.holds app id = false) :
    Faithful H settings ⟨⟨app, fun _ => none, []⟩, fun _ => [], fun _ => none⟩ where
  sound := Site.sound_initial happ
  fresh _ _ := rfl
  follows _ _ hc := nomatch hc
  idle _ _ hc := nomatch hc
  timed _ _ hc := nomatch hc

variable (hrequest : ∀ w now req, w.Sound H settings → (onRequest now req w).Sound H settings)
include hrequest

theorem Faithful.run (hup : Upgrading H settings onRequest) (hf : Faithful H settings h) (events : List Occurrence) :
    Faithful H settings (events.foldl (History.step H settings onRequest) h) := by
  induction events generalizing h with
  | nil => exact hf
  | cons o events ih => exact ih (hf.step hH hup (fun now req => hrequest h.site now req hf.sound) o)

theorem Site.Left.run (hup : Upgrading H settings onRequest) {w : Site σ} (hs : w.Sound H settings)
    (hl : w.Left H id) (events : List Occurrence) : (events.foldl (Site.step H settings onRequest) w).Left H id ∧
      closeCalls (events.foldl (Site.step H settings onRequest) w).log id = 1 := by
  induction events generalizing w with
  | nil =>
    obtain ⟨c, -, hover⟩ := hl.over hs 0
    exact ⟨hl, hover.closed⟩
  | cons o events ih =>
    exact ih (hs.step hH (fun now req => hrequest w now req hs) o) (hl.step hH hs hup o)

end Lawful

end Step

end NgkNet.Restinio.WebSocket
