import NgkNet.Restinio.Http.Wire

set_option autoImplicit false

namespace NgkNet.Restinio.Http

open Ascii Prog

variable {π ρ τ α β : Type} (K : Environment π ρ τ)

section Returning

def Fn.catchesAll : Fn → Bool
  | .waitForHttpMessage | .consumeData | .writeResponseParts .. | .resetCoordinator => true
  | .onRequestMessageComplete | .writeResponsePartsImpl .. | .handleCurrentWriteCtx | .notificator .. => false

def catchContract : Contract (Connection π ρ τ) ConnectionException Fn :=
  fun f _ r _ => f.catchesAll = true → r = .ok ()

abbrev Catches (p : Code π ρ τ α) : Prop := Returns catchContract p

variable {K}

theorem catches_invokeQuietly (wg : WriteGroup) (ec : ErrorCode) : Catches (invokeQuietly wg ec : Code π ρ τ Unit) := by
  rw [invokeQuietly]
  cases wg.afterWriteNotificator with
  | none => exact returns_pure ()
  | some n => exact returns_guarded fun _ => returns_pure ()

theorem catches_resetCoordinator : Catches (resetCoordinator : Code π ρ τ Unit) := by
  refine returns_bind returns_current fun c => ?_
  have hagain : Catches (call .resetCoordinator : Code π ρ τ Unit) := returns_call fun _ _ _ h => h rfl
  rcases c.coordinator.resetStep with _ | ⟨_ | wg, k⟩
  · exact returns_pure ()
  · exact returns_bind (returns_change _) fun _ => hagain
  · exact returns_bind (returns_change _) fun _ => returns_bind (catches_invokeQuietly wg _) fun _ => hagain

theorem catches_close : Catches (close : Code π ρ τ Unit) :=
  returns_bind (returns_change _) fun _ => returns_bind (returns_change _) fun _ => returns_call fun _ _ _ h => h rfl

theorem catches_consumeData : Catches (consumeData K) := by
  refine returns_bind returns_current fun c => returns_bind (returns_change _) fun _ => ?_
  split
  · split
    · exact returns_guarded fun _ => catches_close
    · exact returns_change _
  · exact catches_close

theorem catches_waitForHttpMessage : Catches (waitForHttpMessage K) := by
  refine returns_bind (returns_change _) fun _ => returns_bind (returns_change _) fun _ =>
    returns_bind returns_current fun c => ?_
  split
  · exact returns_call fun _ _ _ h => h rfl
  · exact returns_change _

theorem catches_writeResponseParts (id : RequestId) (flags : ResponseOutputFlags) (wg : WriteGroup) :
    Catches (writeResponseParts id flags wg : Code π ρ τ Unit) :=
  returns_guarded fun _ => catches_close

theorem catchContract_body (f : Fn) (s : Connection π ρ τ) : Meets catchContract (body K f) s (catchContract f s) := by
  refine meets_imp fun hf => ?_
  have hcatches : Catches (body K f) := by
    cases f with
    | waitForHttpMessage => exact catches_waitForHttpMessage
    | consumeData => exact catches_consumeData
    | writeResponseParts id flags wg => exact catches_writeResponseParts id flags wg
    | resetCoordinator => exact catches_resetCoordinator
    | _ => exact absurd hf (by simp [Fn.catchesAll])
  refine meets_mono (hcatches s) ?_
  rintro _ _ ⟨_, h⟩
  exact h

theorem catches_afterRead (result : Except ErrorCode Str) : Catches (afterRead K result) := by
  cases result with
  | ok data => exact returns_bind (returns_change _) fun _ => returns_guarded fun _ => catches_close
  | error ec => cases ec <;> first | exact returns_pure () | exact catches_close

theorem catches_failWriteGroup (ec : ErrorCode) : Catches (failWriteGroup ec : Code π ρ τ Unit) := by
  refine returns_bind returns_current fun c => returns_bind (returns_change _) fun _ => ?_
  cases c.output.currentWg.bind WriteGroup.afterWriteNotificator with
  | none => exact returns_change _
  | some n =>
    refine returns_attempt fun r => ?_
    cases r with
    | ok a => exact returns_change _
    | error e => exact returns_change _

theorem catches_afterWrite (ec : ErrorCode) : Catches (afterWrite ec : Code π ρ τ Unit) := by
  have hfail : Catches (do
      when (ec ≠ .operationAborted) close
      failWriteGroup ec : Code π ρ τ Unit) :=
    returns_bind (returns_when catches_close) fun _ => catches_failWriteGroup ec
  cases ec with
  | success => exact returns_guarded fun _ => catches_close
  | _ => exact hfail

theorem catches_onHappening (x : Happening τ) : Catches (onHappening K x) := by
  cases x with
  | readDone result =>
    refine returns_bind returns_current fun c => ?_
    split
    · exact returns_bind (returns_change _) fun _ => catches_afterRead result
    · exact returns_pure ()
  | writeDone ec written =>
    refine returns_bind returns_current fun c => ?_
    cases c.writing with
    | none => exact returns_pure ()
    | some data =>
      dsimp only
      split
      · exact returns_pure ()
      · exact returns_bind (returns_change _) fun _ => catches_afterWrite ec
  | responseParts id flags wg => exact catches_writeResponseParts id flags wg
  | timer =>
    refine returns_bind (returns_change _) fun _ => returns_bind returns_current fun c => ?_
    split
    · cases c.currentTimeoutCb with
      | none => exact returns_pure ()
      | some cb => exact catches_close
    · exact returns_change _
  | timePasses now => exact returns_change _
  | appChanges app => exact returns_change _

/-- Whatever handlers and notificators throw, nothing is thrown out of a callback of the connection. -/
theorem nothing_thrown_out_of_callbacks {x : Happening τ} {c c' : Connection π ρ τ} {r : Except ConnectionException Unit}
    (h : Evals (body K) (onHappening K x) c r c') : r = .ok () := by
  obtain ⟨_, hr⟩ := h.meets (Q := fun r _ => ∃ a, r = .ok a) catchContract_body (catches_onHappening x c)
  exact hr

def throwingEnvironment : Environment (Option UInt8) UInt8 Unit :=
  { deferredEnvironment with application := ⟨fun _ _ => .throw, fun _ _ => .throw⟩ }

theorem nothing_thrown_out_of_callbacks_throwing :
    ∃ c r c', Evals (body throwingEnvironment) (onHappening throwingEnvironment (.readDone (.ok [7]))) c r c' ∧
      r = .ok () ∧ c'.ended = true := by
  have heval : Evals (body throwingEnvironment) (onHappening throwingEnvironment (.readDone (.ok [7])))
    { Connection.initial throwingEnvironment () with readOperationIsRunning := true } _ _ := ⟨8, rfl⟩
  exact ⟨_, _, _, heval, nothing_thrown_out_of_callbacks heval, rfl⟩

end Returning

section Holding

namespace Numbered

variable {n : ℕ} {ctx : ResponseContext} {ctxs : List ResponseContext}

theorem concat (h : Numbered n ctxs) (hid : ctx.requestId = UInt32.ofNat (n + ctxs.length)) :
    Numbered n (ctxs ++ [ctx]) := by
  intro i ctx' hi
  by_cases hlt : i < ctxs.length
  · rw [List.getElem?_append_left hlt] at hi
    exact h i ctx' hi
  · obtain ⟨hi', -⟩ := List.getElem?_eq_some_iff.mp hi
    rw [List.length_append, List.length_singleton] at hi'
    obtain rfl : i = ctxs.length := by omega
    obtain rfl : ctx = ctx' := by simpa using hi
    exact hid

theorem tail (h : Numbered n (ctx :: ctxs)) : Numbered (n + 1) ctxs := by
  intro i ctx' hi
  rw [h (i + 1) ctx' (by simpa using hi)]
  congr 1
  omega

theorem modify (h : Numbered n ctxs) (i : ℕ) {f : ResponseContext → ResponseContext}
    (hf : ∀ ctx, (f ctx).requestId = ctx.requestId) : Numbered n (ctxs.modify i f) := by
  intro j ctx' hj
  rw [List.getElem?_modify] at hj
  cases hctx : ctxs[j]? with
  | none => simp [hctx] at hj
  | some ctx =>
    rw [hctx, Option.map_eq_map, Option.map_some, Option.some_inj] at hj
    rw [← h j ctx hctx, ← hj]
    split
    · exact hf ctx
    · rfl

end Numbered

namespace Coordinator

structure Tidy (k : Coordinator) : Prop where
  numbered : ∃ n, Numbered n k.contextTable.live ∧ k.requestIdCounter = UInt32.ofNat (n + k.contextTable.live.length)
  spare : ∀ ctx ∈ k.contextTable.spare, ctx.writeGroups = []

def notificators (k : Coordinator) : List Notificator :=
  (k.contextTable.live.flatMap ResponseContext.tokens).filterMap Token.notificator?

variable {k k' : Coordinator}

theorem tidy_initial (maxReqCount : ℕ) : (initial maxReqCount).Tidy where
  numbered := ⟨0, by simp [Numbered, initial], rfl⟩
  spare := (Represents.initial maxReqCount).spare

theorem Tidy.register (h : k.Tidy) {id : RequestId} (hk : k.registerNewRequest = .ok (id, k')) :
    k'.Tidy ∧ k'.notificators = k.notificators := by
  obtain ⟨ctx, ctxs, hspare, rfl, hlive, hspare', hcounter, -⟩ := registerNewRequest_inv hk
  obtain ⟨n, hnumbered, hn⟩ := h.numbered
  have hgroups : ctx.writeGroups = [] := h.spare ctx (by simp [hspare])
  refine ⟨⟨⟨n, ?_, ?_⟩, ?_⟩, ?_⟩
  · rw [hlive]
    exact hnumbered.concat hn
  · rw [hcounter, hn, hlive, List.length_append, List.length_singleton, ← Nat.add_assoc, UInt32.ofNat_add _ 1]
    rfl
  · rw [hspare']
    exact fun ctx' h' => h.spare ctx' (by simp [hspare, h'])
  · simp [notificators, hlive, ResponseContext.tokens, ResponseContext.reinit, hgroups]

theorem Tidy.append (h : k.Tidy) {id : RequestId} {flags : ResponseOutputFlags} {wg : WriteGroup}
    (hk : k.appendResponse id flags wg = .ok k') :
    k'.Tidy ∧ k'.notificators.Perm (k.notificators ++ wg.afterWriteNotificator.toList) := by
  obtain ⟨n, hnumbered, hn⟩ := h.numbered
  obtain ⟨-, -, hcounter, hlt, hlive, hspare⟩ := appendResponse_ok hnumbered hk
  refine ⟨⟨⟨n, ?_, ?_⟩, ?_⟩, ?_⟩
  · rw [hlive]
    exact hnumbered.modify _ fun ctx => ResponseContext.enqueueGroup_requestId _ _
  · rw [hcounter, hn, hlive, List.length_modify]
  · rw [hspare]
    exact h.spare
  · rw [← Ring.live_length] at hlt
    obtain ⟨before, ctx, after, hsplit, -, hmodify⟩ := List.exists_of_modify
      (fun ctx : ResponseContext => { ctx with responseOutputFlags := flags }.enqueueGroup wg) hlt
    rw [notificators, notificators, hlive, hmodify, hsplit]
    simp only [List.flatMap_append, List.flatMap_cons, List.filterMap_append, ResponseContext.enqueueGroup_tokens,
      wg.tokens_notificators, List.append_assoc]
    refine List.Perm.append_left _ (List.Perm.append_left _ ?_)
    exact List.perm_append_comm

section FirstContext

variable {ctx : ResponseContext} {ctxs : List ResponseContext}

theorem Tidy.dequeue (h : k.Tidy) {wg : WriteGroup} {rest : List WriteGroup} (hlive : k.contextTable.live = ctx :: ctxs)
    (hgroups : ctx.writeGroups = wg :: rest) :
    let k' := { k with contextTable := k.contextTable.modify 0 ResponseContext.dequeueGroup }
    k'.Tidy ∧ k'.contextTable.live = ctx.dequeueGroup :: ctxs ∧ k'.contextTable.spare = k.contextTable.spare ∧
      k.notificators = wg.afterWriteNotificator.toList ++ k'.notificators := by
  intro k'
  have hcount : 0 < k.contextTable.count := by rw [← Ring.live_length, hlive]; simp
  have hlive' : k'.contextTable.live = k.contextTable.live.modify 0 ResponseContext.dequeueGroup := Ring.modify_live hcount
  have hspare : k'.contextTable.spare = k.contextTable.spare := Ring.modify_spare hcount
  obtain ⟨n, hnumbered, hn⟩ := h.numbered
  refine ⟨⟨⟨n, ?_, ?_⟩, ?_⟩, ?_, hspare, ?_⟩
  · rw [hlive']
    exact hnumbered.modify 0 fun _ => rfl
  · rw [hlive', List.length_modify]
    exact hn
  · rw [hspare]
    exact h.spare
  · rw [hlive', hlive]
    rfl
  · rw [notificators, notificators, hlive', hlive, List.modify_zero_cons, List.flatMap_cons, List.flatMap_cons,
      ResponseContext.tokens_of_writeGroups hgroups, List.append_assoc, List.filterMap_append, wg.tokens_notificators]

theorem Tidy.drop (h : k.Tidy) (hlive : k.contextTable.live = ctx :: ctxs) (hgroups : ctx.writeGroups = [])
    (hlive' : k'.contextTable.live = ctxs) (hspare' : k'.contextTable.spare = k.contextTable.spare ++ [ctx])
    (hcounter : k'.requestIdCounter = k.requestIdCounter) : k'.Tidy ∧ k.notificators = k'.notificators := by
  obtain ⟨n, hnumbered, hn⟩ := h.numbered
  rw [hlive] at hnumbered hn
  refine ⟨⟨⟨n + 1, hlive' ▸ hnumbered.tail, ?_⟩, ?_⟩, ?_⟩
  · rw [hcounter, hn, hlive', List.length_cons]
    congr 1
    omega
  · rw [hspare']
    exact List.forall_mem_append.mpr ⟨h.spare, List.forall_mem_singleton.mpr hgroups⟩
  · rw [notificators, notificators, hlive, hlive', List.flatMap_cons, ResponseContext.tokens, hgroups]
    rfl

end FirstContext

theorem Tidy.pop (h : k.Tidy) {wg : WriteGroup} {id : RequestId} (hk : k.popReadyBuffers = .ok (some (wg, id), k')) :
    k'.Tidy ∧ k.notificators = wg.afterWriteNotificator.toList ++ k'.notificators := by
  obtain ⟨-, hcounter, ctx, ctxs, rest, hlive, hgroups, hcase⟩ := popReadyBuffers_inv hk
  obtain ⟨hdequeued, hlive', hspare', hnotificators⟩ := h.dequeue hlive hgroups
  by_cases hcomplete : ctx.dequeueGroup.isComplete = true
  · rw [if_pos hcomplete, ← hspare'] at hcase
    rw [ResponseContext.isComplete, decide_eq_true_eq, List.isEmpty_iff] at hcomplete
    obtain ⟨htidy, hsame⟩ := hdequeued.drop hlive' hcomplete.1 hcase.1 hcase.2.1 hcounter
    exact ⟨htidy, hnotificators.trans (congrArg _ hsame)⟩
  · rw [if_neg hcomplete, ← hspare', ← hlive'] at hcase
    obtain ⟨hlive'', hspare'', -⟩ := hcase
    refine ⟨⟨?_, ?_⟩, ?_⟩
    · rw [hlive'', hcounter]
      exact hdequeued.numbered
    · rw [hspare'']
      exact hdequeued.spare
    · rw [hnotificators, notificators, notificators, hlive'']

theorem Tidy.resetStep (h : k.Tidy) {dropped : Option WriteGroup} (hk : k.resetStep = some (dropped, k')) :
    k'.Tidy ∧ k.notificators = (dropped.bind WriteGroup.afterWriteNotificator).toList ++ k'.notificators := by
  obtain ⟨ctx, ctxs, hlive, ⟨hgroups, rfl, rfl⟩ | ⟨wg, rest, hgroups, rfl, rfl⟩⟩ := resetStep_inv hk
  · obtain ⟨hlive', hspare'⟩ := Ring.pop_of_live hlive
    exact h.drop hlive hgroups hlive' hspare' rfl
  · obtain ⟨htidy, -, -, hnotificators⟩ := h.dequeue hlive hgroups
    exact ⟨htidy, hnotificators⟩

end Coordinator

namespace View

variable (v : View)

def held : List Notificator := v.coordinator.notificators ++ v.output.notificators

/-- How often a notificator has come without being held or called. -/
def owed (n : Notificator) : ℤ :=
  v.offered.count n - (v.notified.map Notification.notificator).count n - v.held.count n

theorem owed_notify (n : Notificator) (ec : ErrorCode) (m : Notificator) :
    (v.notify n ec).owed m = v.owed m - [n].count m := by
  simp only [owed, notify, held, List.map_append, List.map_cons, List.map_nil, List.count_append]
  omega

theorem record_owed (e : Event) : (v.record e).owed = v.owed := by
  rw [record]
  split <;> rfl

end View

end Holding

section Balance

def balanceGuarantee : Guarantee (Connection π ρ τ) where
  inv c := c.coordinator.Tidy
  rel s t := t.view.owed = s.view.owed ∧ (s.output.transmitting = true → t.output = s.output)
  refl _ := ⟨rfl, fun _ => rfl⟩
  trans _ _ _ h h' := ⟨h'.1.trans h.1, fun hs => (h'.2 (h.2 hs ▸ hs)).trans (h.2 hs)⟩

def settleGuarantee : Guarantee (Connection π ρ τ) where
  inv c := c.coordinator.Tidy
  rel s t := t.view.owed = s.view.owed
  refl _ := rfl
  trans _ _ _ h h' := h'.trans h

def balanceContract : Contract (Connection π ρ τ) ConnectionException Fn
  | .handleCurrentWriteCtx, s, _, t => settleGuarantee.Kept s t
  | .notificator n ec, s, _, t => balanceGuarantee.Kept (s.notify n ec) t
  | _, s, _, t => balanceGuarantee.Kept s t

def accountContract : Contract (Connection π ρ τ) ConnectionException Fn :=
  fun f s r t => catchContract f s r t ∧ balanceContract f s r t

abbrev Balanced (p : Code π ρ τ α) : Prop := Respects accountContract balanceGuarantee p

def Pays (d : List Notificator) (p : Code π ρ τ α) : Prop :=
  ∀ s, s.coordinator.Tidy → Meets accountContract p s (fun _ t => t.coordinator.Tidy ∧
    (∀ n, t.view.owed n = s.view.owed n - d.count n) ∧ (s.output.transmitting = true → t.output = s.output))

variable {K} {d : List Notificator}

theorem pays_bind {p : Code π ρ τ α} {h : α → Code π ρ τ β} (hp : Pays d p) (hh : ∀ a, Balanced (h a)) :
    Pays d (p >>= h) := by
  intro s hs
  refine meets_bind (meets_mono (hp s hs) ?_)
  rintro (e | a) t ⟨ht, howed, houtput⟩
  · exact ⟨ht, howed, houtput⟩
  · refine meets_mono (hh a t ht) ?_
    rintro _ u ⟨hu, howed', houtput'⟩
    refine ⟨hu, fun n => ?_, fun hs => ?_⟩
    · rw [howed', howed n]
    · exact (houtput' (houtput hs ▸ hs)).trans (houtput hs)

theorem pays_after {p : Code π ρ τ α} {h : α → Code π ρ τ β} (hp : Balanced p) (hreturns : Returns accountContract p)
    (hh : ∀ a, Pays d (h a)) : Pays d (p >>= h) := by
  intro s hs
  refine meets_bind (meets_mono (meets_and (hp s hs) (hreturns s)) ?_)
  rintro _ t ⟨⟨ht, howed, houtput⟩, a, rfl⟩
  refine meets_mono (hh a t ht) ?_
  rintro _ u ⟨hu, howed', houtput'⟩
  refine ⟨hu, fun n => ?_, fun hs => ?_⟩
  · rw [howed' n, howed]
  · exact (houtput' (houtput hs ▸ hs)).trans (houtput hs)

theorem pays_invokeQuietly (wg : WriteGroup) (ec : ErrorCode) :
    Pays wg.afterWriteNotificator.toList (invokeQuietly wg ec : Code π ρ τ Unit) := by
  intro s hs
  rw [invokeQuietly]
  cases wg.afterWriteNotificator with
  | none => exact ⟨hs, fun n => by simp, fun _ => rfl⟩
  | some n =>
    have hcall : ∀ r t, accountContract (.notificator n ec) s r t → t.coordinator.Tidy ∧
        (∀ m, t.view.owed m = s.view.owed m - [n].count m) ∧ (s.output.transmitting = true → t.output = s.output) := by
      rintro r t ⟨-, ht⟩
      obtain ⟨ht, howed, houtput⟩ := ht hs
      exact ⟨ht, fun m => (congrFun howed m).trans (s.view.owed_notify n ec m), houtput⟩
    exact meets_guarded (fun t ht => hcall _ t ht) fun e t ht => hcall _ t ht

theorem balanced_resetCoordinator : Balanced (resetCoordinator : Code π ρ τ Unit) := by
  intro s hs
  rw [resetCoordinator, meets_current]
  have hagain : Balanced (call .resetCoordinator : Code π ρ τ Unit) := respects_call fun _ _ _ h => h.2
  cases hstep : s.coordinator.resetStep with
  | none => exact ⟨hs, balanceGuarantee.refl s⟩
  | some x =>
    obtain ⟨dropped, k⟩ := x
    obtain ⟨htidy, hnotificators⟩ := Coordinator.Tidy.resetStep hs hstep
    have howed : ∀ n, { s with coordinator := k }.view.owed n =
        s.view.owed n + (dropped.bind WriteGroup.afterWriteNotificator).toList.count n := by
      intro n
      simp only [View.owed, View.held, Connection.view, hnotificators, List.count_append]
      omega
    cases dropped with
    | none =>
      dsimp only
      rw [meets_change]
      refine meets_mono (hagain _ htidy) ?_
      rintro _ t ⟨ht, howed', houtput⟩
      refine ⟨ht, funext fun n => ?_, houtput⟩
      rw [howed', howed n]
      simp
    | some wg =>
      dsimp only
      rw [meets_change]
      refine meets_mono (pays_bind (pays_invokeQuietly wg _) (fun _ => hagain) _ htidy) ?_
      rintro _ t ⟨ht, howed', houtput⟩
      refine ⟨ht, funext fun n => ?_, houtput⟩
      rw [howed' n, howed n]
      simp

theorem kept_of_owed {s t : Connection π ρ τ} (hcoordinator : t.coordinator = s.coordinator)
    (houtput : t.output = s.output) (howed : t.view.owed = s.view.owed) : balanceGuarantee.Kept s t := by
  intro hs
  refine ⟨?_, howed, fun _ => houtput⟩
  change t.coordinator.Tidy
  rw [hcoordinator]
  exact hs

theorem balanced_close : Balanced (close : Code π ρ τ Unit) :=
  respects_bind (respects_change fun _ => kept_of_owed rfl rfl rfl) fun _ =>
    respects_bind (respects_change fun _ => kept_of_owed rfl rfl rfl) fun _ => respects_call fun _ _ _ h => h.2

theorem balanced_registerNewRequest : Balanced (registerNewRequest : Code π ρ τ RequestId) := by
  intro s hs
  rw [registerNewRequest, meets_current]
  cases hk : s.coordinator.registerNewRequest with
  | error e => exact ⟨hs, balanceGuarantee.refl s⟩
  | ok r =>
    obtain ⟨htidy, hnotificators⟩ := Coordinator.Tidy.register hs hk
    refine ⟨?_, ?_, fun _ => Connection.record_output _ _⟩
    · change (Connection.record _ _).coordinator.Tidy
      rw [Connection.record_coordinator]
      exact htidy
    · rw [Connection.record_view, View.record_owed]
      funext n
      simp only [View.owed, View.held, Connection.view, hnotificators]

theorem balanceRules : ReadingRules (accountContract (π := π) (ρ := ρ) (τ := τ)) balanceGuarantee where
  view s t h := by
    have hview : ∀ {a : Type} (f : View → a), f t.view = f s.view := fun f => congrArg f h
    exact kept_of_owed (hview View.coordinator) (hview View.output) (hview View.owed)
  moved _ := kept_of_owed rfl rfl rfl
  called f hf := by
    cases f with
    | handleCurrentWriteCtx => exact absurd hf (by simp [Fn.reads])
    | resetCoordinator => exact absurd hf (by simp [Fn.reads])
    | notificator n ec => exact absurd hf (by simp [Fn.reads])
    | _ => exact fun _ _ _ h => h.2
  close := balanced_close
  register := balanced_registerNewRequest

theorem Balanced.settles {p : Code π ρ τ α} (h : Balanced p) : Respects accountContract settleGuarantee p :=
  h.weaken rfl fun _ _ hst => hst.1

theorem settles_currentWriteCtx :
    Respects accountContract settleGuarantee (guarded .handleCurrentWriteCtx (fun _ => close) : Code π ρ τ Unit) :=
  respects_guarded (fun _ _ _ h => h.2) fun _ => Balanced.settles balanced_close

theorem settles_initWrite {s : Connection π ρ τ} (hs : s.coordinator.Tidy) (hidle : s.output.currentWg = none) :
    Meets accountContract (initWrite K) s (fun _ t => t.coordinator.Tidy ∧ t.view.owed = s.view.owed) := by
  rw [initWrite, meets_current]
  cases hk : s.coordinator.popReadyBuffers with
  | error e => exact ⟨hs, rfl⟩
  | ok r =>
    obtain ⟨_ | ⟨wg, id⟩, k⟩ := r
    · obtain rfl := Coordinator.popReadyBuffers_eq_none hk
      exact Balanced.settles balanceRules.handleNothingToWrite s hs
    · obtain ⟨htidy, hnotificators⟩ := Coordinator.Tidy.pop hs hk
      rw [meets_change]
      refine meets_mono (settles_currentWriteCtx _ ?_) fun _ t ht => ⟨ht.1, ht.2.trans ?_⟩
      · change (Connection.record _ _).coordinator.Tidy
        rw [Connection.record_coordinator]
        exact htidy
      · rw [Connection.record_view, View.record_owed]
        funext n
        simp only [View.owed, View.held, Connection.view, hnotificators, OutputCtx.notificators,
          OutputCtx.startNextWriteGroup, hidle, Option.bind_some, Option.bind_none, Option.toList_none, List.count_append,
          List.count_nil]
        omega

theorem balanced_initWriteIfNecessary : Balanced (initWriteIfNecessary K) := by
  intro s hs
  rw [initWriteIfNecessary, meets_current]
  split
  · exact ⟨hs, balanceGuarantee.refl s⟩
  · next hidle =>
    have hnone : s.output.currentWg = none := by simpa [OutputCtx.transmitting] using hidle
    exact meets_mono (settles_initWrite hs hnone) fun _ t ht => ⟨ht.1, ht.2, fun h => absurd h hidle⟩

theorem owed_dropGroup {s : Connection π ρ τ} {o o' : OutputCtx} (h : o'.notificators = o.notificators) :
    { s with output := o' }.view.owed = { s with output := o }.view.owed := by
  funext n
  simp only [View.owed, View.held, Connection.view, h]

theorem owed_takeNotificator (s : Connection π ρ τ) {n : Notificator} (hn : s.output.notificators = [n]) (ec : ErrorCode) :
    ({ s with output := s.output.takeNotificator }.notify n ec).view.owed = s.view.owed := by
  funext m
  rw [Connection.notify_view, View.owed_notify]
  simp only [View.owed, View.held, Connection.view, OutputCtx.takeNotificator_notificators, hn, List.append_nil,
    List.count_append]
  omega

theorem settles_notificator {s : Connection π ρ τ} (hs : s.coordinator.Tidy) {n : Notificator}
    (hn : s.output.currentWg.bind WriteGroup.afterWriteNotificator = some n) {ec : ErrorCode}
    {r : Except ConnectionException Unit} {t : Connection π ρ τ} {o : OutputCtx}
    (h : accountContract (.notificator n ec) { s with output := s.output.takeNotificator } r t) (ho : o.notificators = []) :
    t.coordinator.Tidy ∧ { t with output := o }.view.owed = s.view.owed := by
  have hnotificators : s.output.notificators = [n] := by rw [OutputCtx.notificators, hn]; rfl
  have htransmitting : s.output.takeNotificator.transmitting = true := by
    obtain ⟨wg, hwg, -⟩ := Option.bind_eq_some_iff.mp hn
    simp [OutputCtx.transmitting, OutputCtx.takeNotificator, hwg]
  obtain ⟨ht, howed, houtput⟩ := h.2 hs
  have houtput : t.output = s.output.takeNotificator := houtput htransmitting
  refine ⟨ht, ?_⟩
  rw [← owed_takeNotificator s hnotificators ec, ← howed]
  refine owed_dropGroup (o := t.output) ?_
  rw [ho, houtput, OutputCtx.takeNotificator_notificators]

theorem settles_finishWriteGroup :
    Respects accountContract settleGuarantee (finishWriteGroup : Code π ρ τ Unit) := by
  intro s hs
  rw [finishWriteGroup, meets_current, meets_change]
  cases hn : s.output.currentWg.bind WriteGroup.afterWriteNotificator with
  | none =>
    refine ⟨hs, owed_dropGroup (o := s.output) ?_⟩
    rw [OutputCtx.notificators, OutputCtx.notificators, hn]
    rfl
  | some n =>
    refine meets_bind (meets_guarded (fun t ht => ?_) fun e t ht => ?_)
    · obtain ⟨ht, howed⟩ := settles_notificator (o := t.output.resetWriteGroup) hs hn ht rfl
      exact ⟨ht, howed⟩
    · obtain ⟨ht, howed⟩ := settles_notificator (o := t.output.resetWriteGroup) hs hn ht rfl
      exact ⟨ht, howed⟩

theorem settles_handleCurrentWriteCtx : Respects accountContract settleGuarantee (handleCurrentWriteCtx K) := by
  intro s hs
  have hstart : { s with output := s.output.extractNextWriteOperation.2 }.view.owed = s.view.owed := by
    refine owed_dropGroup (o := s.output) ?_
    rw [OutputCtx.notificators, OutputCtx.extractNextWriteOperation_currentWg, OutputCtx.notificators]
  rw [handleCurrentWriteCtx, meets_current]
  cases s.output.extractNextWriteOperation.1 with
  | none =>
    exact respects_bind settles_finishWriteGroup (fun _ => Balanced.settles (respects_bind respects_current
      (balanceRules.goOn balanced_initWriteIfNecessary))) s hs
  | trivial bufs => exact ⟨hs, hstart⟩
  | file content timelimit => exact ⟨hs, hstart⟩

theorem pays_appendResponse (id : RequestId) (flags : ResponseOutputFlags) (wg : WriteGroup) :
    Pays wg.afterWriteNotificator.toList (appendResponse id flags wg : Code π ρ τ Unit) := by
  intro s hs
  rw [appendResponse, meets_current]
  cases hk : s.coordinator.appendResponse id flags wg with
  | error e => exact pays_bind (pays_invokeQuietly wg _) (fun _ => respects_throw _) s hs
  | ok k =>
    obtain ⟨htidy, hnotificators⟩ := Coordinator.Tidy.append hs hk
    refine ⟨?_, fun n => ?_, fun _ => Connection.record_output _ _⟩
    · rw [Connection.record_coordinator]
      exact htidy
    · rw [Connection.record_view, View.record_owed]
      simp only [View.owed, View.held, Connection.view, List.count_append, hnotificators.count_eq]
      omega

theorem balanced_writeResponsePartsImpl (id : RequestId) (flags : ResponseOutputFlags) (wg : WriteGroup) :
    Balanced (writeResponsePartsImpl K id flags wg) := by
  have hpays : Pays wg.afterWriteNotificator.toList (do
      let c ← current
      if c.socketOpen then do
        when (c.upgradeStage = .waitForUpgradeHandlingResultOrNothing ∧ ¬ c.coordinator.isFull) (call .waitForHttpMessage)
        let c ← current
        if c.coordinator.closed then invokeQuietly wg .writeWasNotExecuted
        else do
          appendResponse id flags wg
          initWriteIfNecessary K
      else invokeQuietly wg .writeWasNotExecuted : Code π ρ τ Unit) := by
    refine pays_after respects_current returns_current fun c => ?_
    split
    · refine pays_after (respects_when (balanceRules.call _ rfl))
        (returns_when (returns_call fun _ _ _ h => h.1 rfl)) fun _ => ?_
      refine pays_after respects_current returns_current fun c => ?_
      split
      · exact pays_invokeQuietly wg _
      · exact pays_bind (pays_appendResponse id flags wg) fun _ => balanced_initWriteIfNecessary
    · exact pays_invokeQuietly wg _
  intro s hs
  rw [writeResponsePartsImpl, meets_change]
  refine meets_mono (hpays _ hs) ?_
  rintro _ t ⟨ht, howed, houtput⟩
  refine ⟨ht, funext fun n => ?_, houtput⟩
  rw [howed n]
  simp only [View.owed, View.held, Connection.view, List.count_append]
  omega

theorem balanceContract_body (f : Fn) (s : Connection π ρ τ) : Meets accountContract (body K f) s (balanceContract f s) := by
  cases f with
  | waitForHttpMessage => exact balanceRules.waitForHttpMessage.kept s
  | consumeData => exact balanceRules.consumeData.kept s
  | onRequestMessageComplete => exact balanceRules.onRequestMessageComplete.kept s
  | writeResponseParts id flags wg => exact (balanceRules.writeResponseParts id flags wg).kept s
  | writeResponsePartsImpl id flags wg => exact (balanced_writeResponsePartsImpl id flags wg).kept s
  | handleCurrentWriteCtx => exact settles_handleCurrentWriteCtx.kept s
  | resetCoordinator => exact balanced_resetCoordinator.kept s
  | notificator n ec => exact (balanceRules.userCode (K.application.notificator n ec)).kept (s.notify n ec)

theorem accountContract_body (f : Fn) (s : Connection π ρ τ) : Meets accountContract (body K f) s (accountContract f s) :=
  meets_and (meets_of_contract (fun _ _ _ _ h => h.1) (catchContract_body f s)) (balanceContract_body f s)

theorem settles_failWriteGroup (ec : ErrorCode) :
    Respects accountContract settleGuarantee (failWriteGroup ec : Code π ρ τ Unit) := by
  intro s hs
  rw [failWriteGroup, meets_current, meets_change]
  cases hn : s.output.currentWg.bind WriteGroup.afterWriteNotificator with
  | none =>
    refine ⟨hs, owed_dropGroup (o := s.output) ?_⟩
    rw [OutputCtx.notificators, OutputCtx.notificators, hn]
    rfl
  | some n =>
    intro r t ht
    cases r with
    | ok a =>
      obtain ⟨ht, howed⟩ := settles_notificator (o := t.output.failWriteGroup) hs hn ht rfl
      exact ⟨ht, howed⟩
    | error e =>
      obtain ⟨ht, howed⟩ := settles_notificator (o := t.output.resetWriteGroup) hs hn ht rfl
      exact ⟨ht, howed⟩

theorem settles_afterWrite (ec : ErrorCode) : Respects accountContract settleGuarantee (afterWrite ec : Code π ρ τ Unit) := by
  have hfail : Respects accountContract settleGuarantee (do
      when (ec ≠ .operationAborted) close
      failWriteGroup ec : Code π ρ τ Unit) :=
    respects_bind (respects_when (Balanced.settles balanced_close)) fun _ => settles_failWriteGroup ec
  cases ec with
  | success => exact settles_currentWriteCtx
  | _ => exact hfail

theorem settles_onHappening (x : Happening τ) : Respects accountContract settleGuarantee (onHappening K x) := by
  by_cases hx : ∀ ec written, x ≠ .writeDone ec written
  · exact Balanced.settles (balanceRules.onHappening hx)
  · push Not at hx
    obtain ⟨ec, written, rfl⟩ := hx
    refine respects_bind respects_current fun c => ?_
    cases c.writing with
    | none => exact respects_pure ()
    | some data =>
      dsimp only
      split
      · exact respects_pure ()
      · exact respects_bind (respects_change fun _ hs => ⟨hs, rfl⟩) fun _ => settles_afterWrite ec

theorem Reaches.balanced {app : τ} {past : List (Happening τ)} {c : Connection π ρ τ} (h : Reaches K app past c) :
    c.coordinator.Tidy ∧ c.view.owed = 0 := by
  induction h with
  | start h =>
    have hstart := balanceRules.start (K := K) (Connection.initial K app) (Coordinator.tidy_initial _)
    obtain ⟨ht, howed, -⟩ := h.meets accountContract_body hstart
    refine ⟨ht, howed.trans (funext fun n => ?_)⟩
    simp [View.owed, View.held, Connection.view, Connection.initial, Coordinator.notificators, Coordinator.initial,
      OutputCtx.notificators, OutputCtx.initial]
  | next hc h ih =>
    obtain ⟨ht, howed⟩ := h.meets accountContract_body (settles_onHappening _ _ ih.1)
    exact ⟨ht, howed.trans ih.2⟩

/-- Every notificator that came with parts of a response has been called once or is still held, in the
coordinator or with the group that is being written, whatever was thrown, refused or closed meanwhile. -/
theorem notificators_called_once {app : τ} {past : List (Happening τ)} {c : Connection π ρ τ} (h : Reaches K app past c) :
    c.offered.Perm (c.notified.map Notification.notificator ++ c.view.held) := by
  rw [List.perm_iff_count]
  intro n
  have howed := congrFun h.balanced.2 n
  rw [View.owed, Pi.zero_apply] at howed
  change (List.count n c.offered : ℤ) - (c.notified.map Notification.notificator).count n - _ = 0 at howed
  rw [List.count_append]
  omega

theorem notificators_called_once_deferred :
    ∃ c : Connection (Option UInt8) UInt8 Unit,
      c.offered.Perm (c.notified.map Notification.notificator ++ c.view.held) ∧ c.view.confirmed = [0, 1] := by
  obtain ⟨c, hc, -, -, hconfirmed⟩ := reaches_deferred
  exact ⟨c, notificators_called_once hc, hconfirmed⟩

end Balance

end NgkNet.Restinio.Http
