import NgkNet.Restinio.Http.Connection

set_option autoImplicit false

namespace NgkNet.Restinio.Http

open Ascii Prog

/-- What reading leaves alone: the part of a connection that has to do with responses. -/
structure View where
  socketOpen : Bool
  output : OutputCtx
  writing : Option Str
  coordinator : Coordinator
  ended : Bool
  wire : Str
  events : List Event
  offered : List Notificator
  notified : List Notification

namespace View

variable (v : View)

def record (e : Event) : View := if v.ended then v else { v with events := v.events ++ [e] }

def notify (n : Notificator) (ec : ErrorCode) : View := { v with notified := v.notified ++ [⟨n, ec, v.socketOpen⟩] }

end View

variable {π ρ τ α β : Type} {K : Environment π ρ τ}

namespace Connection

variable (c : Connection π ρ τ)

def view : View :=
  ⟨c.socketOpen, c.output, c.writing, c.coordinator, c.ended, c.wire, c.events, c.offered, c.notified⟩

theorem record_view (e : Event) : (c.record e).view = c.view.record e := by
  rw [record, View.record]
  change _ = if c.ended then _ else _
  split <;> rfl

@[simp] theorem record_socketOpen (e : Event) : (c.record e).socketOpen = c.socketOpen := by
  rw [record]
  split <;> rfl

@[simp] theorem record_ended (e : Event) : (c.record e).ended = c.ended := by
  rw [record]
  split <;> rfl

@[simp] theorem record_output (e : Event) : (c.record e).output = c.output := by
  rw [record]
  split <;> rfl

@[simp] theorem record_writing (e : Event) : (c.record e).writing = c.writing := by
  rw [record]
  split <;> rfl

@[simp] theorem record_coordinator (e : Event) : (c.record e).coordinator = c.coordinator := by
  rw [record]
  split <;> rfl

theorem notify_view (n : Notificator) (ec : ErrorCode) : (c.notify n ec).view = c.view.notify n ec := rfl

theorem guardReadOperation_view : (c.guardReadOperation K).view = c.view := by
  rw [guardReadOperation]
  split <;> rfl

theorem guardRequestHandlingOperation_view : (c.guardRequestHandlingOperation K).view = c.view := by
  rw [guardRequestHandlingOperation]
  split <;> rfl

end Connection

theorem consumeData_piece {c : Connection π ρ τ} {nparsed : ℕ} {parser : π}
    (hexecute : K.parser.execute c.parser c.buf = (nparsed, true, parser)) (hpart : K.parser.messageComplete parser = false) :
    Evals (body K) (consumeData K) c (.ok ())
      { c with parser := parser, buf := c.buf.drop nparsed, readOperationIsRunning := true } := by
  refine evals_bind evals_current ?_
  simp only [hexecute]
  refine evals_bind (evals_change _) ?_
  rw [if_pos trivial, if_neg (by simp [hpart])]
  exact evals_change _

theorem consumeData_complete {c : Connection π ρ τ} {nparsed : ℕ} {parser : π}
    (hexecute : K.parser.execute c.parser c.buf = (nparsed, true, parser)) (hcomplete : K.parser.messageComplete parser = true)
    {Q : Unit → Connection π ρ τ → Prop}
    (h : Ends (body K) (onRequestMessageComplete K) { c with parser := parser, buf := c.buf.drop nparsed } Q) :
    Ends (body K) (consumeData K) c Q := by
  refine ends_current ?_
  simp only [hexecute]
  refine ends_change ?_
  rw [if_pos trivial, if_pos hcomplete]
  exact ends_guarded h

theorem consumeData_fails {c : Connection π ρ τ} {nparsed : ℕ} {parser : π}
    (hexecute : K.parser.execute c.parser c.buf = (nparsed, true, parser)) (hcomplete : K.parser.messageComplete parser = true)
    {Q : Unit → Connection π ρ τ → Prop}
    (h : Fails (body K) (onRequestMessageComplete K) { c with parser := parser, buf := c.buf.drop nparsed }
      (fun d => Ends (body K) close d Q)) : Ends (body K) (consumeData K) c Q := by
  refine ends_current ?_
  simp only [hexecute]
  refine ends_change ?_
  rw [if_pos trivial, if_pos hcomplete]
  obtain ⟨e, d, hthrow, hclose⟩ := h
  exact ends_guarded_of_fails ⟨e, d, hthrow, fun _ => hclose⟩

def Fn.reads : Fn → Bool
  | .waitForHttpMessage | .consumeData | .onRequestMessageComplete => true
  | .writeResponseParts .. | .writeResponsePartsImpl .. => true
  | .handleCurrentWriteCtx | .resetCoordinator | .notificator .. => false

structure ReadingRules (S : Contract (Connection π ρ τ) ConnectionException Fn) (G : Guarantee (Connection π ρ τ)) :
    Prop where
  view : ∀ s t, t.view = s.view → G.Kept s t
  moved : ∀ s : Connection π ρ τ, G.Kept s { s with socketOpen := false }
  called : ∀ f : Fn, f.reads = true → ∀ s r t, S f s r t → G.Kept s t
  close : Respects S G close
  register : Respects S G registerNewRequest

namespace ReadingRules

variable {S : Contract (Connection π ρ τ) ConnectionException Fn} {G : Guarantee (Connection π ρ τ)}
  (h : ReadingRules S G)

include h

theorem silent {g : Connection π ρ τ → Connection π ρ τ} (hg : ∀ c, (g c).view = c.view) : Respects S G (change g) :=
  respects_change fun s => h.view s (g s) (hg s)

theorem call (f : Fn) (hf : f.reads = true) : Respects S G (call f) := respects_call (h.called f hf)

theorem guarded (f : Fn) (hf : f.reads = true) : Respects S G (guarded f (fun _ => Http.close)) :=
  respects_guarded (h.called f hf) fun _ => h.close

theorem userCode (u : UserCode τ α) : Respects S G (u.run : Code π ρ τ α) := by
  induction u with
  | pure a => exact respects_pure a
  | throw => exact respects_throw _
  | update g k ih =>
    exact respects_update (g := fun c => { c with app := g c.app }) (fun s => h.view s _ rfl) fun s => ih s.app
  | writeResponseParts id flags wg k ih => exact respects_attempt (h.called _ rfl) fun _ => ih
  | moveUpgradeInternals k ih => exact respects_update h.moved fun _ => ih

theorem callHandler (id : RequestId) : Respects S G (callHandler K id) :=
  respects_bind respects_current fun _ => respects_bind (h.silent fun _ => rfl) fun _ => h.userCode _

theorem handleUpgradeRequest : Respects S G (handleUpgradeRequest K) := by
  refine respects_bind h.register fun id => respects_bind (h.silent fun _ => rfl) fun _ =>
    respects_bind (h.silent fun _ => rfl) fun _ => respects_bind (h.callHandler id) fun result => ?_
  have hreject : Respects S G (do
      let c ← current
      when c.socketOpen (sayNotImplemented id) : Code π ρ τ Unit) :=
    respects_bind respects_current fun _ => respects_when (h.call _ rfl)
  cases result with
  | accepted => exact respects_pure ()
  | rejected => exact hreject
  | notHandled => exact hreject

theorem onRequestMessageComplete : Respects S G (onRequestMessageComplete K) := by
  refine respects_bind (h.silent fun c => ?_) fun _ => respects_bind respects_current fun c => ?_
  · split <;> rfl
  · split
    · refine respects_bind h.register fun id => respects_bind (h.silent Connection.guardRequestHandlingOperation_view)
        fun _ => respects_bind (h.callHandler id) fun result => ?_
      cases result with
      | accepted => exact respects_bind respects_current fun _ => respects_when (h.call _ rfl)
      | rejected => exact h.call _ rfl
      | notHandled => exact h.call _ rfl
    · exact respects_when h.handleUpgradeRequest

theorem consumeData : Respects S G (consumeData K) := by
  refine respects_bind respects_current fun c => respects_bind (h.silent fun _ => rfl) fun _ => ?_
  split
  · split
    · exact h.guarded _ rfl
    · exact h.silent fun _ => rfl
  · exact h.close

theorem waitForHttpMessage : Respects S G (waitForHttpMessage K) := by
  refine respects_bind (h.silent fun _ => rfl) fun _ => respects_bind (h.silent Connection.guardReadOperation_view)
    fun _ => respects_bind respects_current fun c => ?_
  split
  · exact h.call _ rfl
  · exact h.silent fun _ => rfl

theorem handleNothingToWrite : Respects S G (handleNothingToWrite K) := by
  refine respects_bind respects_current fun c => ?_
  split
  · exact h.close
  · split
    · exact h.silent Connection.guardReadOperation_view
    · exact h.silent Connection.guardRequestHandlingOperation_view

theorem writeResponseParts (id : RequestId) (flags : ResponseOutputFlags) (wg : WriteGroup) :
    Respects S G (writeResponseParts id flags wg : Code π ρ τ Unit) :=
  h.guarded _ rfl

theorem goOn (hwrite : Respects S G (initWriteIfNecessary K)) (c : Connection π ρ τ) :
    Respects S G (if c.coordinator.closed then Http.close
      else if c.upgradeStage = .none then do
        when c.initReadAfterThisWrite (Prog.call .waitForHttpMessage)
        initWriteIfNecessary K
      else if c.coordinator.empty then Http.handleUpgradeRequest K
      else initWriteIfNecessary K) := by
  split
  · exact h.close
  · split
    · exact respects_bind (respects_when (h.call _ rfl)) fun _ => hwrite
    · split
      · exact h.handleUpgradeRequest
      · exact hwrite

theorem afterRead (result : Except ErrorCode Str) : Respects S G (afterRead K result) := by
  cases result with
  | ok data => exact respects_bind (h.silent fun _ => rfl) fun _ => h.guarded _ rfl
  | error ec => cases ec <;> first | exact respects_pure () | exact h.close

theorem start : Respects S G (start K) := respects_bind (h.silent fun _ => rfl) fun _ => h.waitForHttpMessage

theorem onHappening {x : Happening τ} (hx : ∀ ec written, x ≠ .writeDone ec written) :
    Respects S G (onHappening K x) := by
  cases x with
  | readDone result =>
    refine respects_bind respects_current fun c => ?_
    split
    · exact respects_bind (h.silent fun _ => rfl) fun _ => h.afterRead result
    · exact respects_pure ()
  | writeDone ec written => exact absurd rfl (hx ec written)
  | responseParts id flags wg => exact h.writeResponseParts id flags wg
  | timer =>
    refine respects_bind (h.silent fun _ => rfl) fun _ => respects_bind respects_current fun c => ?_
    split
    · cases c.currentTimeoutCb with
      | none => exact respects_pure ()
      | some cb => exact h.close
    · exact h.silent fun _ => rfl
  | timePasses now => exact h.silent fun _ => rfl
  | appChanges app => exact h.silent fun _ => rfl

end ReadingRules

end NgkNet.Restinio.Http
