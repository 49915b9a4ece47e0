import NgkNet.Restinio.Http.Conversation

set_option autoImplicit false

namespace NgkNet.Restinio.Http

open Ascii Prog

variable {π ρ τ α : Type} {K : Environment π ρ τ}

section Arming

/-- As long as no upgrade was asked for, an open connection has a deadline and a timer that looks at it. -/
def Armed (c : Connection π ρ τ) : Prop :=
  c.socketOpen = true → c.upgradeStage = .none → c.currentTimeoutCb.isSome = true ∧ c.timerScheduled = true

def timeGuarantee : Guarantee (Connection π ρ τ) where
  inv := Armed
  rel s t := (s.upgradeStage ≠ .none → t.upgradeStage ≠ .none) ∧ (s.ended = true → t.ended = true)
  refl _ := ⟨id, id⟩
  trans _ _ _ h h' := ⟨fun hs => h'.1 (h.1 hs), fun hs => h'.2 (h.2 hs)⟩

def timeContract : Contract (Connection π ρ τ) ConnectionException Fn := fun _ s _ t => timeGuarantee.Kept s t

abbrev Timed (p : Code π ρ τ α) : Prop := Respects timeContract timeGuarantee p

theorem timed_call (f : Fn) : Timed (call f : Code π ρ τ Unit) := respects_call fun _ _ _ h => h

def Connection.clock (c : Connection π ρ τ) : Bool × UpgradeStage × Option TimeoutCb × Bool × Bool :=
  (c.socketOpen, c.upgradeStage, c.currentTimeoutCb, c.timerScheduled, c.ended)

theorem kept_of_clock {s t : Connection π ρ τ} (h : t.clock = s.clock) : timeGuarantee.Kept s t := by
  obtain ⟨hsocket, hstage, hcb, htimer, hover⟩ : t.socketOpen = s.socketOpen ∧ t.upgradeStage = s.upgradeStage ∧
      t.currentTimeoutCb = s.currentTimeoutCb ∧ t.timerScheduled = s.timerScheduled ∧ t.ended = s.ended := by
    simpa [Connection.clock] using h
  intro hs
  refine ⟨fun hopen hnone => ?_, fun hne => hstage ▸ hne, fun ho => hover ▸ ho⟩
  rw [hcb, htimer]
  exact hs (hsocket ▸ hopen) (hstage ▸ hnone)

theorem timed_silent {g : Connection π ρ τ → Connection π ρ τ} (hg : ∀ c, (g c).clock = c.clock) : Timed (change g) :=
  respects_change fun s => kept_of_clock (hg s)

theorem kept_of_shut {s t : Connection π ρ τ} (hopen : t.socketOpen = false) (hstage : t.upgradeStage = s.upgradeStage)
    (hover : s.ended = true → t.ended = true) : timeGuarantee.Kept s t :=
  fun _ => ⟨fun h => absurd h (by simp [hopen]), fun hne => hstage ▸ hne, hover⟩

theorem kept_scheduleOperationTimeoutCallback (s : Connection π ρ τ) (timeout : ℕ) (cb : TimeoutCb) :
    timeGuarantee.Kept s (s.scheduleOperationTimeoutCallback timeout cb) :=
  fun hs => ⟨fun hopen hnone => ⟨rfl, (hs hopen hnone).2⟩, id, id⟩

theorem timed_guardReadOperation : Timed (change (Connection.guardReadOperation K)) := by
  refine respects_change fun s => ?_
  rw [Connection.guardReadOperation]
  split
  · exact kept_scheduleOperationTimeoutCallback s _ _
  · exact kept_of_clock rfl

theorem timed_guardRequestHandlingOperation : Timed (change (Connection.guardRequestHandlingOperation K)) := by
  refine respects_change fun s => ?_
  rw [Connection.guardRequestHandlingOperation]
  split
  · exact kept_of_clock rfl
  · exact kept_scheduleOperationTimeoutCallback s _ _

theorem timed_userCode (u : UserCode τ α) : Timed (u.run : Code π ρ τ α) := by
  induction u with
  | pure a => exact respects_pure a
  | throw => exact respects_throw _
  | update g k ih =>
    exact respects_update (g := fun c => { c with app := g c.app }) (fun _ => kept_of_clock rfl) fun s => ih s.app
  | writeResponseParts id flags wg k ih => exact respects_attempt (fun _ _ _ h => h) fun _ => ih
  | moveUpgradeInternals k ih =>
    exact respects_update (g := fun c => { c with socketOpen := false }) (fun _ => kept_of_shut rfl rfl id) fun _ => ih

theorem timed_invokeQuietly (wg : WriteGroup) (ec : ErrorCode) : Timed (invokeQuietly wg ec : Code π ρ τ Unit) := by
  rw [invokeQuietly]
  cases wg.afterWriteNotificator with
  | none => exact respects_pure ()
  | some n => exact respects_guarded (fun _ _ _ h => h) fun _ => respects_pure ()

theorem timed_resetCoordinator : Timed (resetCoordinator : Code π ρ τ Unit) := by
  refine respects_bind respects_current fun c => ?_
  rcases c.coordinator.resetStep with _ | ⟨_ | wg, k⟩
  · exact respects_pure ()
  · exact respects_bind (timed_silent fun _ => rfl) fun _ => timed_call _
  · exact respects_bind (timed_silent fun _ => rfl) fun _ => respects_bind (timed_invokeQuietly wg _) fun _ => timed_call _

theorem meets_close_ended (s : Connection π ρ τ) :
    Meets timeContract close s (fun _ t => Armed t ∧ timeGuarantee.rel s t ∧ t.ended = true) := by
  rw [close, meets_change, meets_change]
  refine meets_call fun r t ht => ?_
  obtain ⟨ht, hstage, hover⟩ := ht fun hopen => absurd hopen (by simp [Connection.cancelTimeoutChecking])
  exact ⟨ht, ⟨hstage, fun _ => hover rfl⟩, hover rfl⟩

theorem timed_close : Timed (close : Code π ρ τ Unit) :=
  fun s _ => meets_mono (meets_close_ended s) fun _ _ ht => ⟨ht.1, ht.2.1⟩

theorem Connection.record_clock (e : Event) (c : Connection π ρ τ) : (c.record e).clock = c.clock := by
  rw [Connection.record]
  split <;> rfl

theorem timed_registerNewRequest : Timed (registerNewRequest : Code π ρ τ RequestId) := by
  refine respects_bind respects_current fun c => ?_
  cases c.coordinator.registerNewRequest with
  | error e => exact respects_throw _
  | ok r => exact respects_bind (timed_silent fun _ => Connection.record_clock _ _) fun _ => respects_pure _

theorem timed_callHandler (id : RequestId) : Timed (callHandler K id) :=
  respects_bind respects_current fun _ => respects_bind (timed_silent fun _ => rfl) fun _ => timed_userCode _

theorem timed_handleUpgradeRequest : Timed (handleUpgradeRequest K) := by
  intro s hs
  refine meets_bind (meets_mono (timed_registerNewRequest s hs) ?_)
  rintro (e | id) t ⟨ht, hst⟩
  · exact ⟨ht, hst⟩
  · dsimp only
    rw [meets_change, meets_change]
    have hupgraded : Armed { t.cancelTimeoutChecking with upgradeStage := .waitForUpgradeHandlingResultOrNothing } :=
      fun _ hnone => by simp at hnone
    refine meets_mono (respects_bind (timed_callHandler id) (fun result => ?_) _ hupgraded)
      fun _ u hu => ⟨hu.1, fun _ => hu.2.1 (by simp), fun ho => hu.2.2 (hst.2 ho)⟩
    cases result with
    | accepted => exact respects_pure ()
    | rejected => exact respects_bind respects_current fun _ => respects_when (timed_call _)
    | notHandled => exact respects_bind respects_current fun _ => respects_when (timed_call _)

theorem timed_onRequestMessageComplete : Timed (onRequestMessageComplete K) := by
  refine respects_bind (respects_change fun s hs => ?_) fun _ => respects_bind respects_current fun c => ?_
  · split
    · exact ⟨fun _ hnone => by simp at hnone, fun _ => by simp, id⟩
    · exact ⟨hs, timeGuarantee.refl s⟩
  · split
    · refine respects_bind timed_registerNewRequest fun id => respects_bind timed_guardRequestHandlingOperation
        fun _ => respects_bind (timed_callHandler id) fun result => ?_
      cases result with
      | accepted => exact respects_bind respects_current fun _ => respects_when (timed_call _)
      | rejected => exact timed_call _
      | notHandled => exact timed_call _
    · exact respects_when timed_handleUpgradeRequest

theorem timed_consumeData : Timed (consumeData K) := by
  refine respects_bind respects_current fun c => respects_bind (timed_silent fun _ => rfl) fun _ => ?_
  split
  · split
    · exact respects_guarded (fun _ _ _ h => h) fun _ => timed_close
    · exact timed_silent fun _ => rfl
  · exact timed_close

theorem timed_waitForHttpMessage : Timed (waitForHttpMessage K) := by
  refine respects_bind (timed_silent fun _ => rfl) fun _ => respects_bind timed_guardReadOperation fun _ =>
    respects_bind respects_current fun c => ?_
  split
  · exact timed_call _
  · exact timed_silent fun _ => rfl

theorem timed_initWriteIfNecessary : Timed (initWriteIfNecessary K) := by
  refine respects_bind respects_current fun c => ?_
  split
  · exact respects_pure ()
  · refine respects_bind respects_current fun c => ?_
    rcases c.coordinator.popReadyBuffers with e | ⟨_ | ⟨wg, id⟩, k⟩
    · exact respects_throw _
    · refine respects_bind (timed_silent fun _ => rfl) fun _ => respects_bind respects_current fun c => ?_
      split
      · exact timed_close
      · split
        · exact timed_guardReadOperation
        · exact timed_guardRequestHandlingOperation
    · exact respects_bind (timed_silent fun _ => Connection.record_clock _ _) fun _ =>
        respects_guarded (fun _ _ _ h => h) fun _ => timed_close

theorem timed_finishWriteGroup : Timed (finishWriteGroup : Code π ρ τ Unit) := by
  refine respects_bind respects_current fun c => respects_bind (timed_silent fun _ => rfl) fun _ => ?_
  have hreset : Timed (change (fun c : Connection π ρ τ => { c with output := c.output.resetWriteGroup })) :=
    timed_silent fun _ => rfl
  cases c.output.currentWg.bind WriteGroup.afterWriteNotificator with
  | none => exact hreset
  | some n =>
    refine respects_bind (respects_guarded (fun _ _ _ h => h) fun _ => ?_) fun _ => hreset
    exact respects_bind hreset fun _ => respects_throw _

theorem timed_finishHandlingCurrentWriteCtx : Timed (finishHandlingCurrentWriteCtx K) := by
  refine respects_bind timed_finishWriteGroup fun _ => respects_bind respects_current fun c => ?_
  split
  · exact timed_close
  · split
    · exact respects_bind (respects_when (timed_call _)) fun _ => timed_initWriteIfNecessary
    · split
      · exact timed_handleUpgradeRequest
      · exact timed_initWriteIfNecessary

theorem timed_handleCurrentWriteCtx : Timed (handleCurrentWriteCtx K) := by
  refine respects_bind respects_current fun c => ?_
  cases c.output.extractNextWriteOperation.1 with
  | none => exact timed_finishHandlingCurrentWriteCtx
  | trivial bufs => exact respects_change fun _ hs => ⟨fun hopen hnone => ⟨rfl, (hs hopen hnone).2⟩, id, id⟩
  | file content timelimit => exact respects_change fun _ hs => ⟨fun hopen hnone => ⟨rfl, (hs hopen hnone).2⟩, id, id⟩

theorem timed_writeResponsePartsImpl (id : RequestId) (flags : ResponseOutputFlags) (wg : WriteGroup) :
    Timed (writeResponsePartsImpl K id flags wg) := by
  refine respects_bind (timed_silent fun _ => rfl) fun _ => respects_bind respects_current fun c => ?_
  split
  · refine respects_bind (respects_when (timed_call _)) fun _ => respects_bind respects_current fun c => ?_
    split
    · exact timed_invokeQuietly wg _
    · refine respects_bind (respects_bind respects_current fun c => ?_) fun _ => timed_initWriteIfNecessary
      cases c.coordinator.appendResponse id flags wg with
      | ok k => exact timed_silent fun _ => Connection.record_clock _ _
      | error e => exact respects_bind (timed_invokeQuietly wg _) fun _ => respects_throw _
  · exact timed_invokeQuietly wg _

theorem timed_writeResponseParts (id : RequestId) (flags : ResponseOutputFlags) (wg : WriteGroup) :
    Timed (writeResponseParts id flags wg : Code π ρ τ Unit) :=
  respects_guarded (fun _ _ _ h => h) fun _ => timed_close

theorem timeContract_body (f : Fn) (s : Connection π ρ τ) : Meets timeContract (body K f) s (timeContract f s) := by
  have htimed : Timed (body K f) := by
    cases f with
    | waitForHttpMessage => exact timed_waitForHttpMessage
    | consumeData => exact timed_consumeData
    | onRequestMessageComplete => exact timed_onRequestMessageComplete
    | writeResponseParts id flags wg => exact timed_writeResponseParts id flags wg
    | writeResponsePartsImpl id flags wg => exact timed_writeResponsePartsImpl id flags wg
    | handleCurrentWriteCtx => exact timed_handleCurrentWriteCtx
    | resetCoordinator => exact timed_resetCoordinator
    | notificator n ec => exact respects_bind (timed_silent fun _ => rfl) fun _ => timed_userCode _
  exact htimed.kept s

theorem timed_afterRead (result : Except ErrorCode Str) : Timed (afterRead K result) := by
  cases result with
  | ok data =>
    exact respects_bind (timed_silent fun _ => rfl) fun _ => respects_guarded (fun _ _ _ h => h) fun _ => timed_close
  | error ec => cases ec <;> first | exact respects_pure () | exact timed_close

theorem timed_failWriteGroup (ec : ErrorCode) : Timed (failWriteGroup ec : Code π ρ τ Unit) := by
  refine respects_bind respects_current fun c => respects_bind (timed_silent fun _ => rfl) fun _ => ?_
  cases c.output.currentWg.bind WriteGroup.afterWriteNotificator with
  | none => exact timed_silent fun _ => rfl
  | some n =>
    refine respects_attempt (fun _ _ _ h => h) fun r => ?_
    cases r with
    | ok a => exact timed_silent fun _ => rfl
    | error e => exact timed_silent fun _ => rfl

theorem timed_afterWrite (ec : ErrorCode) : Timed (afterWrite ec : Code π ρ τ Unit) := by
  have hfail : Timed (do
      when (ec ≠ .operationAborted) close
      failWriteGroup ec : Code π ρ τ Unit) :=
    respects_bind (respects_when timed_close) fun _ => timed_failWriteGroup ec
  cases ec with
  | success => exact respects_guarded (fun _ _ _ h => h) fun _ => timed_close
  | _ => exact hfail

theorem timed_timer : Timed (onHappening K .timer) := by
  intro s hs
  rw [onHappening, meets_change, checkTimeoutImpl, meets_current]
  split
  · dsimp only
    cases hcb : s.currentTimeoutCb with
    | none => exact ⟨fun hopen hnone => absurd (hs hopen hnone).1 (by simp [hcb]), id, id⟩
    | some cb => exact meets_mono (meets_close_ended _) fun _ _ ht => ⟨ht.1, ht.2.1⟩
  · exact ⟨fun hopen hnone => ⟨(hs hopen hnone).1, rfl⟩, id, id⟩

theorem timed_onHappening (x : Happening τ) : Timed (onHappening K x) := by
  cases x with
  | readDone result =>
    refine respects_bind respects_current fun c => ?_
    split
    · exact respects_bind (timed_silent fun _ => rfl) fun _ => timed_afterRead result
    · exact respects_pure ()
  | writeDone ec written =>
    refine respects_bind respects_current fun c => ?_
    cases c.writing with
    | none => exact respects_pure ()
    | some data =>
      dsimp only
      split
      · exact respects_pure ()
      · exact respects_bind (timed_silent fun _ => rfl) fun _ => timed_afterWrite ec
  | responseParts id flags wg => exact timed_writeResponseParts id flags wg
  | timer => exact timed_timer
  | timePasses now => exact timed_silent fun _ => rfl
  | appChanges app => exact timed_silent fun _ => rfl

theorem Reaches.armed {app : τ} {past : List (Happening τ)} {c : Connection π ρ τ} (h : Reaches K app past c) : Armed c := by
  induction h with
  | start h =>
    refine h.meets (Q := fun _ t => Armed t) timeContract_body ?_
    -- the first request is awaited with an empty table, so that the deadline is set
    have hguarded : Armed (({ Connection.initial K app with timerScheduled := true }.resetParser K).guardReadOperation K) :=
      fun _ _ => ⟨rfl, rfl⟩
    rw [Http.start, meets_change, waitForHttpMessage, meets_change, meets_change, meets_current]
    split
    · exact meets_mono (timed_call _ _ hguarded) fun _ _ ht => ht.1
    · exact fun _ _ => ⟨rfl, rfl⟩
  | next hc h ih => exact (h.meets timeContract_body (timed_onHappening _ _ ih)).1

end Arming

section Closing

/-- Every notificator that is called after the socket was closed comes to an end. -/
def NotificatorsEnd (K : Environment π ρ τ) : Prop :=
  ∀ n ec (c : Connection π ρ τ), c.socketOpen = false → ∃ r d, Evals (body K) (notificator K n ec) c r d

def shutGuarantee : Guarantee (Connection π ρ τ) where
  inv c := c.socketOpen = false
  rel c d := d.coordinator = c.coordinator
  refl _ := rfl
  trans _ _ _ h h' := h'.trans h

-- What the application offers on a closed socket is refused before the table is looked at.
def shutContract : Contract (Connection π ρ τ) ConnectionException Fn
  | .notificator _ _, c, _, d => shutGuarantee.Kept c d
  | .writeResponseParts _ _ _, c, _, d => shutGuarantee.Kept c d
  | .writeResponsePartsImpl _ _ _, c, r, d => shutGuarantee.Kept c d ∧ (c.socketOpen = false → r = .ok ())
  | _, _, _, _ => True

theorem shut_userCode (u : UserCode τ α) : Respects shutContract shutGuarantee (u.run : Code π ρ τ α) := by
  induction u with
  | pure a => exact respects_pure a
  | throw => exact respects_throw _
  | update g k ih => exact respects_update (g := fun c => { c with app := g c.app }) (fun _ h => ⟨h, rfl⟩) fun s => ih s.app
  | writeResponseParts id flags wg k ih => exact respects_attempt (fun _ _ _ h => h) fun _ => ih
  | moveUpgradeInternals k ih =>
    exact respects_update (g := fun c => { c with socketOpen := false }) (fun _ _ => ⟨rfl, rfl⟩) fun _ => ih

theorem meets_writeResponsePartsImpl_shut {c : Connection π ρ τ} (hsocket : c.socketOpen = false) (id : RequestId)
    (flags : ResponseOutputFlags) (wg : WriteGroup) :
    Meets shutContract (writeResponsePartsImpl K id flags wg) c
      (fun r d => (d.socketOpen = false ∧ d.coordinator = c.coordinator) ∧ r = .ok ()) := by
  rw [writeResponsePartsImpl, meets_change, meets_current, if_neg (by simp [hsocket]), invokeQuietly]
  cases wg.afterWriteNotificator with
  | none => exact ⟨⟨hsocket, rfl⟩, rfl⟩
  | some n => exact meets_guarded (fun _ h => ⟨h hsocket, rfl⟩) fun _ _ h => ⟨h hsocket, rfl⟩

theorem shutContract_body (f : Fn) (c : Connection π ρ τ) : Meets shutContract (body K f) c (shutContract f c) := by
  have hany : ∀ p : Code π ρ τ Unit, Meets shutContract p c (fun _ _ => True) := fun p =>
    meets_mono (meets_imp (P := False) (Q := fun _ _ => True) False.elim) fun _ _ _ => trivial
  cases f with
  | notificator n ec =>
    have hrespects : Respects shutContract shutGuarantee (notificator K n ec) :=
      respects_bind (respects_change fun _ h => ⟨h, rfl⟩) fun _ => shut_userCode _
    exact hrespects.kept c
  | writeResponseParts id flags wg =>
    refine meets_imp fun hsocket => meets_guarded (fun d h => h.1 hsocket) fun e d h => ?_
    cases h.2 hsocket
  | writeResponsePartsImpl id flags wg =>
    refine meets_mono (meets_imp fun hsocket => meets_writeResponsePartsImpl_shut hsocket id flags wg) fun r d h => ?_
    exact ⟨fun hsocket => (h hsocket).1, fun hsocket => (h hsocket).2⟩
  | _ => exact hany _

theorem ends_invokeQuietly (hK : NotificatorsEnd K) {c : Connection π ρ τ} (hsocket : c.socketOpen = false) (wg : WriteGroup)
    (ec : ErrorCode) :
    Ends (body K) (invokeQuietly wg ec) c (fun _ d => d.socketOpen = false ∧ d.coordinator = c.coordinator) := by
  rw [invokeQuietly]
  cases wg.afterWriteNotificator with
  | none => exact ends_pure ⟨hsocket, rfl⟩
  | some n =>
    obtain ⟨r, d, hd⟩ := hK n ec c hsocket
    have hkept := hd.meets shutContract_body (shutContract_body (.notificator n ec) c)
    refine ⟨(), d, ?_, hkept hsocket⟩
    cases r with
    | ok a => exact evals_guarded_ok hd
    | error e => exact evals_guarded_error hd (evals_pure ())

def Coordinator.rounds (k : Coordinator) : ℕ := (k.contextTable.live.map (fun ctx => ctx.writeGroups.length + 1)).sum

theorem Coordinator.rounds_resetStep {k k' : Coordinator} {dropped : Option WriteGroup}
    (h : k.resetStep = some (dropped, k')) : k'.rounds < k.rounds := by
  obtain ⟨ctx, ctxs, hlive, ⟨-, -, rfl⟩ | ⟨wg, rest, hgroups, -, rfl⟩⟩ := resetStep_inv h
  · have hlive' := (Ring.pop_of_live hlive).1
    simp only [rounds, hlive, hlive', List.map_cons, List.sum_cons]
    omega
  · have hcount : 0 < k.contextTable.count := by rw [← Ring.live_length, hlive]; simp
    have hlive' := Ring.modify_live (f := ResponseContext.dequeueGroup) hcount
    simp only [rounds, hlive', hlive, List.modify_zero_cons, List.map_cons, List.sum_cons, ResponseContext.dequeueGroup,
      hgroups, List.tail_cons, List.length_cons]
    omega

theorem ends_resetCoordinator (hK : NotificatorsEnd K) (c : Connection π ρ τ) (hsocket : c.socketOpen = false) :
    Ends (body K) resetCoordinator c (fun _ _ => True) := by
  induction hrounds : c.coordinator.rounds using Nat.strong_induction_on generalizing c with
  | _ n ih =>
    have hrec : ∀ {dropped k} {d : Connection π ρ τ}, c.coordinator.resetStep = some (dropped, k) →
        d.socketOpen = false → d.coordinator = k → Ends (body K) resetCoordinator d (fun _ _ => True) := by
      rintro dropped k d hstep hd rfl
      exact ih d.coordinator.rounds (hrounds ▸ Coordinator.rounds_resetStep hstep) d hd rfl
    refine ends_current ?_
    rcases hstep : c.coordinator.resetStep with _ | ⟨_ | wg, k⟩
    · exact ends_pure trivial
    · exact ends_change (ends_call (hrec hstep hsocket rfl))
    · refine ends_change (ends_bind (ends_mono (ends_invokeQuietly hK (by exact hsocket) wg _) ?_))
      exact fun _ d hd => ends_call (hrec hstep hd.1 hd.2)

theorem ends_close (hK : NotificatorsEnd K) (c : Connection π ρ τ) : Ends (body K) close c (fun _ _ => True) :=
  ends_change (ends_change (ends_call (ends_resetCoordinator hK _ rfl)))

end Closing

section Pieces

variable (K)

def Piece (c : Connection π ρ τ) : Happening τ → Prop
  | .readDone (.ok data) =>
    let (_, ok, parser) := K.parser.execute c.parser (data.take K.settings.bufferSize)
    ok = true ∧ K.parser.messageComplete parser = false
  | .timePasses _ | .timer => True
  | _ => False

inductive Waits : Connection π ρ τ → Connection π ρ τ → Prop where
  | refl (c : Connection π ρ τ) : Waits c c
  | tail {c d e : Connection π ρ τ} {x : Happening τ} {r : Except ConnectionException Unit} (h : Waits c d)
      (hx : Piece K d x) (he : Evals (body K) (onHappening K x) d r e) : Waits c e

variable {K}

def Connection.pending (c : Connection π ρ τ) : ℕ × Option TimeoutCb × List ρ × Bool × UpgradeStage :=
  (c.currentTimeoutAfter, c.currentTimeoutCb, c.handled, c.socketOpen, c.upgradeStage)

theorem pending_of_readDone {c d : Connection π ρ τ} {data : Str} {r : Except ConnectionException Unit}
    (hx : Piece K c (.readDone (.ok data))) (h : Evals (body K) (onHappening K (.readDone (.ok data))) c r d) :
    d.pending = c.pending := by
  rcases Bool.eq_false_or_eq_true c.readOperationIsRunning with hreading | hreading
  · obtain ⟨nparsed, parser, hexecute, hpart⟩ : ∃ nparsed parser,
        K.parser.execute c.parser (data.take K.settings.bufferSize) = (nparsed, true, parser) ∧
          K.parser.messageComplete parser = false :=
      ⟨_, _, Prod.ext rfl (Prod.ext hx.1 rfl), hx.2⟩
    have hread : Evals (body K) (onHappening K (.readDone (.ok data))) c (.ok ())
        { c with
          parser := parser
          buf := (data.take K.settings.bufferSize).drop nparsed
          readOperationIsRunning := true } := by
      refine evals_bind evals_current ?_
      rw [if_pos hreading]
      refine evals_bind (evals_change _) (evals_bind (evals_change _) (evals_guarded_ok ?_))
      exact consumeData_piece hexecute hpart
    rw [(h.unique hread).2]
    rfl
  · have hnothing : Evals (body K) (onHappening K (.readDone (.ok data))) c (.ok ()) c := by
      refine evals_bind evals_current ?_
      rw [if_neg (by simp [hreading])]
      exact evals_pure ()
    rw [(h.unique hnothing).2]

theorem meets_timer_expired {c : Connection π ρ τ} (hexpired : c.currentTimeoutAfter < c.now)
    (hcb : c.currentTimeoutCb.isSome = true) : Meets timeContract (onHappening K .timer) c (fun _ d => d.ended = true) := by
  obtain ⟨cb, hcb⟩ := Option.isSome_iff_exists.mp hcb
  rw [onHappening, meets_change, checkTimeoutImpl, meets_current, if_pos (by exact hexpired)]
  dsimp only
  rw [hcb]
  exact meets_mono (meets_close_ended _) fun _ _ ht => ht.2.2

theorem pending_of_piece {c d : Connection π ρ τ} {x : Happening τ} {r : Except ConnectionException Unit}
    (hcb : c.currentTimeoutCb.isSome = true) (hx : Piece K c x) (h : Evals (body K) (onHappening K x) c r d) :
    d.ended = true ∨ d.pending = c.pending := by
  cases x with
  | readDone result =>
    cases result with
    | error ec => exact hx.elim
    | ok data => exact .inr (pending_of_readDone hx h)
  | timePasses now =>
    refine .inr (h.meets (Q := fun _ d => d.pending = c.pending) timeContract_body ?_)
    change Connection.pending _ = _
    rfl
  | timer =>
    by_cases hexpired : c.currentTimeoutAfter < c.now
    · exact .inl (h.meets (Q := fun _ d => d.ended = true) timeContract_body (meets_timer_expired hexpired hcb))
    · refine .inr (h.meets (Q := fun _ d => d.pending = c.pending) timeContract_body ?_)
      rw [onHappening, meets_change, checkTimeoutImpl, meets_current, if_neg (by exact hexpired)]
      rfl
  | _ => exact hx.elim

theorem Waits.pending {c d : Connection π ρ τ} (h : Waits K c d) (hc : Armed c) (hcb : c.currentTimeoutCb.isSome = true) :
    Armed d ∧ (d.ended = true ∨ d.pending = c.pending) := by
  induction h with
  | refl => exact ⟨hc, .inr rfl⟩
  | tail h hx he ih =>
    obtain ⟨hd, hpending⟩ := ih
    obtain ⟨ht, -, hover⟩ := he.meets timeContract_body (timed_onHappening _ _ hd)
    refine ⟨ht, ?_⟩
    rcases hpending with hd | hd
    · exact .inl (hover hd)
    · have hcb' : Connection.currentTimeoutCb _ = c.currentTimeoutCb := congrArg (fun p => p.2.1) hd
      rw [← hd]
      exact pending_of_piece (hcb' ▸ hcb) hx he

theorem ends_timer_expired (hK : NotificatorsEnd K) {c : Connection π ρ τ} (hexpired : c.currentTimeoutAfter < c.now)
    (hcb : c.currentTimeoutCb.isSome = true) : Ends (body K) (onHappening K .timer) c (fun _ d => d.ended = true) := by
  have hends : Ends (body K) (onHappening K .timer) c (fun _ _ => True) := by
    obtain ⟨cb, hcb⟩ := Option.isSome_iff_exists.mp hcb
    refine ends_change (ends_current ?_)
    rw [if_pos (by exact hexpired)]
    dsimp only
    rw [hcb]
    exact ends_close hK _
  obtain ⟨a, d, hd, -⟩ := hends
  exact ⟨a, d, hd, hd.meets (Q := fun _ d => d.ended = true) timeContract_body (meets_timer_expired hexpired hcb)⟩

/-- A client that sends its request in pieces gains no time by it: the deadline stays, no handler is called,
and the first timer after the deadline closes the connection. -/
theorem pieces_gain_no_time {app : τ} {past : List (Happening τ)} {c d : Connection π ρ τ} (h : Reaches K app past c)
    (hopen : c.socketOpen = true) (hstage : c.upgradeStage = .none) (hwaits : Waits K c d) :
    c.timerScheduled = true ∧ (d.ended = true ∨ d.handled = c.handled ∧ d.timerScheduled = true ∧
      (c.currentTimeoutAfter < d.now →
        (∀ r e, Evals (body K) (onHappening K .timer) d r e → e.ended = true) ∧
        (NotificatorsEnd K → Ends (body K) (onHappening K .timer) d (fun _ e => e.ended = true)))) := by
  obtain ⟨hcb, htimer⟩ := h.armed hopen hstage
  obtain ⟨harmed, hpending⟩ := hwaits.pending h.armed hcb
  refine ⟨htimer, hpending.imp id fun hpending => ?_⟩
  obtain ⟨hafter, hcb', hhandled, hopen', hstage'⟩ : d.currentTimeoutAfter = c.currentTimeoutAfter ∧
      d.currentTimeoutCb = c.currentTimeoutCb ∧ d.handled = c.handled ∧ d.socketOpen = c.socketOpen ∧
      d.upgradeStage = c.upgradeStage := by
    simpa [Connection.pending] using hpending
  have htimer' : d.timerScheduled = true := (harmed (hopen'.trans hopen) (hstage'.trans hstage)).2
  refine ⟨hhandled, htimer', fun hlate => ?_⟩
  rw [← hafter] at hlate
  rw [← hcb'] at hcb
  exact ⟨fun r e he => he.meets (Q := fun _ e => e.ended = true) timeContract_body (meets_timer_expired hlate hcb),
    fun hK => ends_timer_expired hK hlate hcb⟩

theorem pieces_gain_no_time_lines :
    ∃ c d : Connection (Str × Bool) Str ℕ, Waits lineEnvironment c d ∧ d.parser = (ascii "ab", false) ∧
      c.currentTimeoutAfter < d.now ∧
      Ends (body lineEnvironment) (onHappening lineEnvironment .timer) d (fun _ e => e.ended = true) := by
  let c := { Connection.initial lineEnvironment 1 with
    timerScheduled := true
    readOperationIsRunning := true
    currentTimeoutAfter := 60
    currentTimeoutCb := some .handleReadTimeout }
  have hc : Reaches lineEnvironment 1 [] c := .start (r := .ok ()) ⟨2, rfl⟩
  have hfirst : Waits lineEnvironment c _ :=
    .tail (r := .ok ()) (x := .readDone (.ok (ascii "a"))) (.refl c) ⟨rfl, rfl⟩ ⟨8, rfl⟩
  have hsoon : Waits lineEnvironment c _ := .tail (r := .ok ()) (x := .timePasses 59) hfirst trivial ⟨8, rfl⟩
  have htimer : Waits lineEnvironment c _ := .tail (r := .ok ()) (x := .timer) hsoon trivial ⟨8, rfl⟩
  have hsecond : Waits lineEnvironment c _ :=
    .tail (r := .ok ()) (x := .readDone (.ok (ascii "b"))) htimer ⟨rfl, rfl⟩ ⟨8, rfl⟩
  have hwaits : Waits lineEnvironment c _ := .tail (r := .ok ()) (x := .timePasses 61) hsecond trivial ⟨8, rfl⟩
  have hend : NotificatorsEnd lineEnvironment := fun n ec c _ => ⟨.ok (), _, evals_bind (evals_change _) (evals_pure ())⟩
  obtain ⟨-, hover | ⟨-, -, hlate⟩⟩ := pieces_gain_no_time hc rfl rfl hwaits
  · exact absurd hover (by decide)
  · exact ⟨c, _, hwaits, by decide, by decide, (hlate (by decide)).2 hend⟩

end Pieces

end NgkNet.Restinio.Http
