import NgkNet.Restinio.Http.Wire

set_option autoImplicit false

namespace NgkNet.Restinio.Http

open Ascii Prog

section Handlers

structure Whole where
  group : WriteGroup
  items : group.items ≠ []
  notificator : group.afterWriteNotificator = none

inductive Reply where
  | respond (response : Whole) (keepAlive : Bool)
  | refuse (status : HandlingStatus) (h : status ≠ .accepted)
  | fail

variable {π ρ τ : Type}

def Reply.code (id : RequestId) : Reply → UserCode τ HandlingStatus
  | respond response keepAlive =>
    .writeResponseParts id ⟨.finalParts, responseConnectionAttr keepAlive⟩ response.group (.pure .accepted)
  | refuse status _ => .pure status
  | fail => .throw

/-- The code takes the application from one state to another one, and ends with a reply. -/
inductive UserCode.Does (id : RequestId) : UserCode τ HandlingStatus → τ → τ → Reply → Prop where
  | reply (a : τ) (reply : Reply) : Does id (reply.code id) a a reply
  | update {g : τ → τ} {k : τ → UserCode τ HandlingStatus} {a b : τ} {reply : Reply} (h : Does id (k a) (g a) b reply) :
      Does id (.update g k) a b reply

def Application.Replies (A : Application ρ τ) (request : ρ) (a b : τ) (reply : Reply) : Prop :=
  ∀ id, (A.handler id request).Does id a b reply

theorem UserCode.Does.evals {K : Environment π ρ τ} {id : RequestId} {code : UserCode τ HandlingStatus} {a b : τ}
    {reply : Reply} (h : code.Does id a b reply) {c d : Connection π ρ τ} (hc : c.app = a)
    {r : Except ConnectionException HandlingStatus}
    (heval : Evals (body K) (reply.code id).run { c with app := b } r d) : Evals (body K) code.run c r d := by
  induction h generalizing c with
  | reply a reply =>
    subst hc
    exact heval
  | update _ ih =>
    subst hc
    apply evals_update
    exact ih rfl heval

end Handlers

section Vacancy

structure Coordinator.Vacant (closed : Bool) (maxReqCount : ℕ) (k : Coordinator) : Prop where
  closed : k.closed = closed
  live : k.contextTable.live = []
  spare : k.contextTable.spare.length = maxReqCount
  clean : ∀ ctx ∈ k.contextTable.spare, ctx.writeGroups = []

structure Coordinator.Single (maxReqCount : ℕ) (groups : List WriteGroup) (flags : ResponseOutputFlags) (k : Coordinator) :
    Prop where
  closed : k.closed = false
  live : ∃ id, k.contextTable.live = [⟨id, groups, flags⟩]
  spare : k.contextTable.spare.length + 1 = maxReqCount
  clean : ∀ ctx ∈ k.contextTable.spare, ctx.writeGroups = []

namespace Coordinator

variable {closed : Bool} {maxReqCount : ℕ} {k : Coordinator} {wg : WriteGroup} {groups : List WriteGroup}
  {flags : ResponseOutputFlags} {attr : ResponseConnection}

theorem vacant_initial (maxReqCount : ℕ) : (initial maxReqCount).Vacant false maxReqCount where
  closed := rfl
  live := by simp [initial]
  spare := by simp [initial]
  clean := (Represents.initial maxReqCount).spare

theorem Vacant.empty (h : k.Vacant closed maxReqCount) : k.empty = true := ResponseContextTable.empty_iff.mpr h.live

theorem Vacant.isFull (h : k.Vacant closed maxReqCount) (hmax : 0 < maxReqCount) : k.isFull = false := by
  rw [Coordinator.isFull, ← Bool.not_eq_true, ResponseContextTable.isFull_iff, ← List.length_eq_zero_iff, h.spare]
  omega

theorem Vacant.pop (h : k.Vacant false maxReqCount) : k.popReadyBuffers = .ok (none, k) :=
  popReadyBuffers_none h.closed (by simp [h.live])

theorem Vacant.resetStep (h : k.Vacant closed maxReqCount) : k.resetStep = none := by
  rw [Coordinator.resetStep, if_pos (ResponseContextTable.empty_iff.mpr h.live)]

theorem Single.isFull (h : k.Single maxReqCount groups flags) : k.isFull = decide (maxReqCount = 1) := by
  rw [Coordinator.isFull, Bool.eq_iff_iff, ResponseContextTable.isFull_iff, ← List.length_eq_zero_iff, decide_eq_true_eq,
    ← h.spare]
  omega

theorem Vacant.register (h : k.Vacant false maxReqCount) (hmax : 0 < maxReqCount) :
    ∃ k₁, k.registerNewRequest = .ok (k.requestIdCounter, k₁) ∧
      k₁.Single maxReqCount [] ⟨.notFinalParts, .connectionKeepalive⟩ ∧
      Numbered k.requestIdCounter.toNat k₁.contextTable.live := by
  obtain ⟨ctx, ctxs, hspare⟩ : ∃ ctx ctxs, k.contextTable.spare = ctx :: ctxs := by
    rw [← List.ne_nil_iff_exists_cons, ← List.length_pos_iff, h.spare]
    exact hmax
  obtain ⟨k₁, hregister, hlive₁, hspare₁, -, hclosed₁⟩ := registerNewRequest_ok hspare
  rw [h.live, List.nil_append] at hlive₁
  have hgroups : ctx.writeGroups = [] := h.clean ctx (by simp [hspare])
  refine ⟨k₁, hregister, ⟨hclosed₁.trans h.closed, ⟨k.requestIdCounter, ?_⟩, ?_, ?_⟩, ?_⟩
  · rw [hlive₁, ResponseContext.reinit, hgroups]
  · rw [hspare₁, ← h.spare, hspare, List.length_cons]
  · rw [hspare₁]
    exact fun ctx' h' => h.clean ctx' (by simp [hspare, h'])
  · rw [hlive₁]
    intro i ctx' hi
    obtain ⟨rfl, rfl⟩ : i = 0 ∧ ctx.reinit k.requestIdCounter = ctx' := by
      cases i with
      | zero => simpa using hi
      | succ i => simp at hi
    simp [ResponseContext.reinit]

theorem Single.append {id : RequestId} (h : k.Single maxReqCount [] ⟨.notFinalParts, .connectionKeepalive⟩)
    (hnumbered : Numbered id.toNat k.contextTable.live) (flags : ResponseOutputFlags) (wg : WriteGroup) :
    ∃ k', k.appendResponse id flags wg = .ok k' ∧ k'.Single maxReqCount [wg] flags := by
  obtain ⟨id', hlive⟩ := h.live
  have hcount : k.contextTable.count = 1 := by rw [← Ring.live_length, hlive]; rfl
  have hzero : (id - UInt32.ofNat id.toNat).toNat = 0 := by simp
  have hid := id.toNat_lt
  obtain ⟨k', happend⟩ : ∃ k', k.appendResponse id flags wg = .ok k' :=
    (appendResponse_isOk_iff hnumbered (by omega)).mpr ⟨h.closed, by omega, _, by rw [hzero, hlive]; rfl, by simp⟩
  obtain ⟨-, hclosed', -, -, hlive', hspare'⟩ := appendResponse_ok hnumbered happend
  refine ⟨k', happend, hclosed', ⟨id', ?_⟩, ?_, ?_⟩
  · rw [hlive', hzero, hlive]
    rfl
  · rw [hspare', h.spare]
  · rw [hspare']
    exact h.clean

theorem Single.pop (h : k.Single maxReqCount [wg] ⟨.finalParts, attr⟩) :
    ∃ id k', k.popReadyBuffers = .ok (some (wg, id), k') ∧ k'.Vacant (decide (attr = .connectionClose)) maxReqCount := by
  obtain ⟨id, hlive⟩ := h.live
  obtain ⟨k', hpop, -, hcase⟩ := popReadyBuffers_some h.closed hlive rfl
  rw [if_pos (by rfl)] at hcase
  obtain ⟨hlive', hspare', hclosed'⟩ := hcase
  refine ⟨_, k', hpop, hclosed', hlive', ?_, ?_⟩
  · rw [hspare', List.length_append, List.length_singleton, h.spare]
  · rw [hspare']
    exact List.forall_mem_append.mpr ⟨h.clean, List.forall_mem_singleton.mpr rfl⟩

theorem Single.resetStep_cons (h : k.Single maxReqCount (wg :: groups) flags) :
    ∃ k', k.resetStep = some (some wg, k') ∧ k'.Single maxReqCount groups flags := by
  obtain ⟨id, hlive⟩ := h.live
  have hcount : 0 < k.contextTable.count := by rw [← Ring.live_length, hlive]; simp
  have hne : k.contextTable.live ≠ [] := by simp [hlive]
  refine ⟨{ k with contextTable := k.contextTable.modify 0 ResponseContext.dequeueGroup }, ?_, h.closed, ⟨id, ?_⟩, ?_, ?_⟩
  · rw [resetStep, if_neg (by rw [ResponseContextTable.empty_iff]; exact hne), ResponseContextTable.front_eq hne, hlive]
    rfl
  · dsimp only
    rw [Ring.modify_live hcount, hlive]
    rfl
  · dsimp only
    rw [Ring.modify_spare hcount, h.spare]
  · dsimp only
    rw [Ring.modify_spare hcount]
    exact h.clean

theorem Single.resetStep_nil (h : k.Single maxReqCount [] flags) :
    ∃ k', k.resetStep = some (none, k') ∧ k'.Vacant false maxReqCount := by
  obtain ⟨id, hlive⟩ := h.live
  have hne : k.contextTable.live ≠ [] := by simp [hlive]
  obtain ⟨hlive', hspare'⟩ := Ring.pop_of_live hlive
  refine ⟨{ k with contextTable := k.contextTable.pop }, ?_, h.closed, hlive', ?_, ?_⟩
  · rw [resetStep, if_neg (by rw [ResponseContextTable.empty_iff]; exact hne), ResponseContextTable.front_eq hne, hlive]
    rfl
  · dsimp only
    rw [hspare', List.length_append, List.length_singleton, h.spare]
  · dsimp only
    rw [hspare']
    exact List.forall_mem_append.mpr ⟨h.clean, List.forall_mem_singleton.mpr rfl⟩

end Coordinator

end Vacancy

section Serving

variable {π ρ τ : Type}

structure Input (π ρ τ : Type) where
  socketOpen : Bool
  upgradeStage : UpgradeStage
  ended : Bool
  parser : π
  buf : Str
  readOperationIsRunning : Bool
  app : τ
  handled : List ρ
  wire : Str

def Connection.input (c : Connection π ρ τ) : Input π ρ τ :=
  ⟨c.socketOpen, c.upgradeStage, c.ended, c.parser, c.buf, c.readOperationIsRunning, c.app, c.handled, c.wire⟩

structure Ready (c : Connection π ρ τ) : Prop where
  socketOpen : c.socketOpen = true
  upgradeStage : c.upgradeStage = .none
  ended : c.ended = false

theorem Ready.of_input {c d : Connection π ρ τ} (h : Ready c) (hinput : d.input = c.input) : Ready d where
  socketOpen := (congrArg Input.socketOpen hinput).trans h.socketOpen
  upgradeStage := (congrArg Input.upgradeStage hinput).trans h.upgradeStage
  ended := (congrArg Input.ended hinput).trans h.ended

structure Writing (wg : WriteGroup) (data : Str) (c : Connection π ρ τ) : Prop extends Ready c where
  current : c.output.currentWg = some wg
  writing : c.writing = some data

variable {K : Environment π ρ τ} {c : Connection π ρ τ} {wg : WriteGroup} {maxReqCount : ℕ}

theorem ends_startOperation (hopen : c.socketOpen = true) (hoperation : c.output.extractNextWriteOperation.1 ≠ .none) :
    Ends (body K) (handleCurrentWriteCtx K) c (fun _ d => d.input = c.input ∧ d.coordinator = c.coordinator ∧
      d.initReadAfterThisWrite = c.initReadAfterThisWrite ∧ d.output = c.output.extractNextWriteOperation.2 ∧
      ∃ data, d.writing = some data ∧ data ++ d.output.rest = c.output.rest) := by
  have hbytes := c.output.extractNextWriteOperation_bytes
  refine ends_current ?_
  cases hop : c.output.extractNextWriteOperation.1 with
  | none => exact absurd hop hoperation
  | trivial bufs =>
    rw [hop] at hbytes
    refine ends_change_last ⟨rfl, rfl, rfl, rfl, _, ?_, hbytes⟩
    simp [Connection.startWrite, Connection.guardWriteOperation, Connection.scheduleOperationTimeoutCallback, hopen]
  | file content timelimit =>
    rw [hop] at hbytes
    refine ends_change_last ⟨rfl, rfl, rfl, rfl, _, ?_, hbytes⟩
    simp [Connection.startWrite, Connection.guardSendfileOperation, Connection.scheduleOperationTimeoutCallback, hopen]

theorem Connection.record_of_open (hended : c.ended = false) (e : Event) :
    c.record e = { c with events := c.events ++ [e] } := by
  rw [record, if_neg (by simp [hended])]

theorem extractNextWriteOperation_ne_none (hitems : wg.items ≠ []) :
    (OutputCtx.extractNextWriteOperation ⟨some wg, 0⟩).1 ≠ .none := by
  obtain ⟨item, rest, hcons⟩ := List.exists_cons_of_ne_nil hitems
  simp only [OutputCtx.extractNextWriteOperation, Option.map_some, Option.getD_some, hcons, List.getElem?_cons_zero]
  cases item <;> simp

section Closing

structure Closed (c d : Connection π ρ τ) : Prop where
  ended : d.ended = true
  socketOpen : d.socketOpen = false
  output : d.output = c.output
  writing : d.writing = c.writing
  app : d.app = c.app
  handled : d.handled = c.handled
  wire : d.wire = c.wire

theorem ends_close_vacant {closed : Bool} (h : c.coordinator.Vacant closed maxReqCount) :
    Ends (body K) close c (fun _ d => Closed c d ∧ d.coordinator.Vacant closed maxReqCount) := by
  refine ends_change (ends_change (ends_call (ends_current ?_)))
  simp only [Connection.cancelTimeoutChecking, h.resetStep]
  exact ends_pure ⟨⟨rfl, rfl, rfl, rfl, rfl, rfl, rfl⟩, h⟩

theorem ends_close_single {groups : List WriteGroup} {flags : ResponseOutputFlags}
    (h : c.coordinator.Single maxReqCount groups flags) (hnotificators : ∀ wg ∈ groups, wg.afterWriteNotificator = none) :
    Ends (body K) close c (fun _ d => Closed c d ∧ d.coordinator.Vacant false maxReqCount) := by
  refine ends_change (ends_change (ends_call ?_))
  -- The state in which the groups are dropped one by one.
  have hreset : ∀ {groups : List WriteGroup} {k : Coordinator}, k.Single maxReqCount groups flags →
      (∀ wg ∈ groups, wg.afterWriteNotificator = none) → ∀ b : Connection π ρ τ, b.coordinator = k →
      Ends (body K) resetCoordinator b (fun _ d => (∃ k', d = { b with coordinator := k' }) ∧
        d.coordinator.Vacant false maxReqCount) := by
    intro groups
    induction groups with
    | nil =>
      rintro k hk - b rfl
      obtain ⟨k', hstep, hvacant⟩ := hk.resetStep_nil
      refine ends_current ?_
      rw [hstep]
      refine ends_change (ends_call (ends_current ?_))
      dsimp only
      rw [hvacant.resetStep]
      exact ends_pure ⟨⟨k', rfl⟩, hvacant⟩
    | cons wg groups ih =>
      rintro k hk hnotificators b rfl
      obtain ⟨k', hstep, hsingle⟩ := hk.resetStep_cons
      refine ends_current ?_
      rw [hstep]
      refine ends_change (ends_bind ?_)
      rw [invokeQuietly, hnotificators wg List.mem_cons_self]
      refine ends_pure (ends_call (ends_mono (ih hsingle (fun wg' h' => hnotificators wg' (List.mem_cons_of_mem wg h'))
        { b with coordinator := k' } rfl) ?_))
      rintro _ d ⟨⟨k'', rfl⟩, hvacant⟩
      exact ⟨⟨k'', rfl⟩, hvacant⟩
  refine ends_mono (hreset h hnotificators _ rfl) ?_
  rintro _ d ⟨⟨k', rfl⟩, hvacant⟩
  exact ⟨⟨rfl, rfl, rfl, rfl, rfl, rfl, rfl⟩, hvacant⟩

end Closing

section Request

variable {attr : ResponseConnection}

theorem ends_initWriteIfNecessary (hready : Ready c) (houtput : c.output = .initial) (hitems : wg.items ≠ [])
    (hk : c.coordinator.Single maxReqCount [wg] ⟨.finalParts, attr⟩) :
    Ends (body K) (initWriteIfNecessary K) c (fun _ d => d.input = c.input ∧
      d.coordinator.Vacant (decide (attr = .connectionClose)) maxReqCount ∧
      d.initReadAfterThisWrite = decide (maxReqCount = 1) ∧ ∃ data, Writing wg data d ∧ data ++ d.output.rest = wg.bytes) := by
  obtain ⟨id, k', hpop, hvacant⟩ := hk.pop
  refine ends_current ?_
  rw [if_neg (by rw [houtput]; simp [OutputCtx.initial, OutputCtx.transmitting])]
  refine ends_current ?_
  rw [hpop]
  refine ends_change (ends_guarded ?_)
  rw [Connection.record_of_open (by exact hready.ended)]
  have hoperation : (c.output.startNextWriteGroup wg).extractNextWriteOperation.1 ≠ .none := by
    rw [houtput]
    exact extractNextWriteOperation_ne_none hitems
  refine ends_mono (ends_startOperation (by exact hready.socketOpen) hoperation) ?_
  rintro _ d ⟨hinput, hcoordinator, hflag, houtput', data, hwriting, hbytes⟩
  have hinput : d.input = c.input := hinput
  have hfull' := hvacant.isFull (by have := hk.spare; omega)
  refine ⟨hinput, hcoordinator ▸ hvacant, ?_, data, ⟨hready.of_input hinput, ?_, hwriting⟩, ?_⟩
  · rw [hflag, hk.isFull, hfull']
    simp
  · rw [houtput', OutputCtx.extractNextWriteOperation_currentWg]
    rfl
  · rw [hbytes, OutputCtx.startNextWriteGroup_rest]
    rw [houtput]
    rfl

theorem ends_writeResponsePartsImpl {id : RequestId} {flags : ResponseOutputFlags} {k : Coordinator} (hready : Ready c)
    (hclosed : c.coordinator.closed = false) (happend : c.coordinator.appendResponse id flags wg = .ok k)
    {Q : Unit → Connection π ρ τ → Prop}
    (h : Ends (body K) (initWriteIfNecessary K) { c with
      offered := c.offered ++ wg.afterWriteNotificator.toList
      coordinator := k
      events := c.events ++ [.appended id flags wg] } Q) :
    Ends (body K) (writeResponsePartsImpl K id flags wg) c Q := by
  refine ends_change (ends_current ?_)
  rw [if_pos (by exact hready.socketOpen)]
  refine ends_bind ?_
  rw [show (decide _ : Bool) = false by simp [hready.upgradeStage]]
  refine ends_pure (ends_current ?_)
  rw [if_neg (by rw [hclosed]; exact Bool.false_ne_true)]
  refine ends_bind (ends_current ?_)
  dsimp only
  rw [happend]
  refine ends_change_last ?_
  rw [Connection.record_of_open (by exact hready.ended)]
  exact h

theorem ends_handler_respond {id : RequestId} {request : ρ} {k : Coordinator} {b : τ} {response : Whole} {keepAlive : Bool}
    (hready : Ready c) (hclosed : c.coordinator.closed = false)
    (hreplies : K.application.Replies request c.app b (.respond response keepAlive))
    (happend : c.coordinator.appendResponse id ⟨.finalParts, responseConnectionAttr keepAlive⟩ response.group = .ok k)
    {Q : Connection π ρ τ → Prop}
    (h : Ends (body K) (initWriteIfNecessary K) { c with
      app := b
      offered := c.offered ++ response.group.afterWriteNotificator.toList
      coordinator := k
      events := c.events ++ [.appended id ⟨.finalParts, responseConnectionAttr keepAlive⟩ response.group] } (fun _ => Q)) :
    Ends (body K) (K.application.handler id request).run c (fun result d => result = .accepted ∧ Q d) := by
  have hcode : Ends (body K) ((Reply.respond response keepAlive).code id : UserCode τ HandlingStatus).run { c with app := b }
      (fun result d => result = .accepted ∧ Q d) := by
    refine ends_attempt (ends_guarded (ends_writeResponsePartsImpl (c := { c with app := b })
      ⟨hready.socketOpen, hready.upgradeStage, hready.ended⟩ hclosed happend ?_))
    exact ends_mono h fun _ d hd => ends_pure ⟨rfl, hd⟩
  obtain ⟨result, d, heval, hd⟩ := hcode
  exact ⟨result, d, (hreplies id).evals rfl heval, hd⟩

structure Replied (K : Environment π ρ τ) (wg : WriteGroup) (closed : Bool) (b : τ) (request : ρ) (c d : Connection π ρ τ) :
    Prop where
  parser : d.parser = K.parser.moved c.parser
  buf : d.buf = c.buf
  reading : d.readOperationIsRunning = c.readOperationIsRunning
  wire : d.wire = c.wire
  app : d.app = b
  handled : d.handled = c.handled ++ [request]
  vacant : d.coordinator.Vacant closed K.settings.maxPipelinedRequests
  flag : d.initReadAfterThisWrite = decide (K.settings.maxPipelinedRequests = 1)
  writing : ∃ data, Writing wg data d ∧ data ++ d.output.rest = wg.bytes

structure Asked (K : Environment π ρ τ) (maxReqCount : ℕ) (id : RequestId) (request : ρ) (c d : Connection π ρ τ) : Prop
    extends Ready d where
  parser : d.parser = K.parser.moved c.parser
  output : d.output = c.output
  writing : d.writing = c.writing
  flag : d.initReadAfterThisWrite = c.initReadAfterThisWrite
  single : d.coordinator.Single maxReqCount [] ⟨.notFinalParts, .connectionKeepalive⟩
  numbered : Numbered id.toNat d.coordinator.contextTable.live
  buf : d.buf = c.buf
  reading : d.readOperationIsRunning = c.readOperationIsRunning
  wire : d.wire = c.wire
  app : d.app = c.app
  handled : d.handled = c.handled ++ [request]

variable (K c) in
def Connection.asked (k : Coordinator) : Connection π ρ τ :=
  let d := ({ c with coordinator := k }.record .registered).guardRequestHandlingOperation K
  { d with handled := d.handled ++ [K.parser.request d.parser], parser := K.parser.moved d.parser }

theorem asked_eq (hready : Ready c) (k : Coordinator) :
    ∃ after cb, c.asked K k = { c with
      coordinator := k
      events := c.events ++ [.registered]
      currentTimeoutAfter := after
      currentTimeoutCb := cb
      handled := c.handled ++ [K.parser.request c.parser]
      parser := K.parser.moved c.parser } := by
  rw [Connection.asked, Connection.guardRequestHandlingOperation, Connection.record_of_open (by exact hready.ended)]
  split <;> exact ⟨_, _, rfl⟩

theorem Coordinator.Vacant.asked (hready : Ready c) (hk : c.coordinator.Vacant false maxReqCount) (hmax : 0 < maxReqCount) :
    ∃ id k, c.coordinator.registerNewRequest = .ok (id, k) ∧
      Asked K maxReqCount id (K.parser.request c.parser) c (c.asked K k) := by
  obtain ⟨k, hregister, hsingle, hnumbered⟩ := hk.register hmax
  obtain ⟨after, cb, hasked⟩ := asked_eq (K := K) hready k
  refine ⟨_, k, hregister, ?_⟩
  rw [hasked]
  exact ⟨⟨hready.socketOpen, hready.upgradeStage, hready.ended⟩, rfl, rfl, rfl, rfl, hsingle, hnumbered, rfl, rfl, rfl, rfl,
    rfl⟩

def afterHandler (id : RequestId) : HandlingStatus → Code π ρ τ Unit
  | .rejected | .notHandled => sayNotImplemented id
  | .accepted => do
    let c ← current
    when c.coordinator.isAbleToGetMoreMessages (call .waitForHttpMessage)

theorem asked_parserState (k : Coordinator) :
    (({ c with coordinator := k }.record .registered).guardRequestHandlingOperation K).parser = c.parser := by
  rw [Connection.guardRequestHandlingOperation, Connection.record]
  split <;> split <;> rfl

section Complete

variable {id : RequestId} {k : Coordinator} (hplain : K.parser.upgrade c.parser = false) (hstage : c.upgradeStage = .none)
  (hregister : c.coordinator.registerNewRequest = .ok (id, k))

include hplain hstage hregister

theorem ends_onRequestMessageComplete {Q : Unit → Connection π ρ τ → Prop}
    (h : Ends (body K) (K.application.handler id (K.parser.request c.parser)).run (c.asked K k)
      (fun status d => Ends (body K) (afterHandler id status) d Q)) : Ends (body K) (onRequestMessageComplete K) c Q := by
  refine ends_change ?_
  rw [hplain, if_neg Bool.false_ne_true]
  refine ends_current ?_
  rw [if_pos hstage]
  refine ends_bind (ends_current ?_)
  rw [hregister]
  refine ends_change (ends_pure (ends_change (ends_bind (ends_current (ends_change ?_)))))
  rw [← asked_parserState (K := K) (c := c) k] at h
  refine ends_mono h fun status d hd => ?_
  cases status <;> exact hd

theorem fails_onRequestMessageComplete {Q : Connection π ρ τ → Prop}
    (h : Fails (body K) (K.application.handler id (K.parser.request c.parser)).run (c.asked K k) Q) :
    Fails (body K) (onRequestMessageComplete K) c Q := by
  refine fails_change ?_
  rw [hplain, if_neg Bool.false_ne_true]
  refine fails_current ?_
  rw [if_pos hstage]
  refine fails_bind (ends_current ?_)
  rw [hregister]
  refine ends_change (ends_pure (fails_change (fails_first (fails_current (fails_change ?_)))))
  rw [← asked_parserState (K := K) (c := c) k] at h
  exact h

end Complete

section Outcomes

variable {request : ρ} {b : τ} (hready : Ready c) (hk : c.coordinator.Vacant false K.settings.maxPipelinedRequests)
  (hmax : 0 < K.settings.maxPipelinedRequests) (hplain : K.parser.upgrade c.parser = false)
  (hrequest : K.parser.request c.parser = request)

include hready hk hmax hplain hrequest

theorem ends_respond (houtput : c.output = .initial) {response : Whole} {keepAlive : Bool}
    (hreplies : K.application.Replies request c.app b (.respond response keepAlive)) {Q : Connection π ρ τ → Prop}
    (h : ∀ d, Replied K response.group (!keepAlive) b request c d →
      Ends (body K) (when keepAlive (call .waitForHttpMessage)) d (fun _ => Q)) :
    Ends (body K) (onRequestMessageComplete K) c (fun _ => Q) := by
  subst hrequest
  obtain ⟨id, k, hregister, hasked⟩ := Coordinator.Vacant.asked (K := K) hready hk hmax
  obtain ⟨k', happend, hsingle⟩ := hasked.single.append hasked.numbered
    ⟨.finalParts, responseConnectionAttr keepAlive⟩ response.group
  rw [← hasked.app] at hreplies
  refine ends_onRequestMessageComplete hplain hready.upgradeStage hregister (ends_mono
    (ends_handler_respond hasked.toReady hasked.single.closed hreplies happend (ends_initWriteIfNecessary
      ⟨hasked.socketOpen, hasked.upgradeStage, hasked.ended⟩ (hasked.output.trans houtput) response.items hsingle)) ?_)
  rintro status d ⟨rfl, hinput, hvacant, hflag, hwriting⟩
  have hclosed : decide (responseConnectionAttr keepAlive = .connectionClose) = !keepAlive := by cases keepAlive <;> rfl
  rw [hclosed] at hvacant
  refine ends_current ?_
  rw [Coordinator.isAbleToGetMoreMessages, hvacant.closed, hvacant.isFull hmax, Bool.not_not, Bool.not_false, Bool.and_true]
  refine h d ⟨?_, ?_, ?_, ?_, ?_, ?_, hvacant, hflag, hwriting⟩
  · exact (congrArg Input.parser hinput).trans hasked.parser
  · exact (congrArg Input.buf hinput).trans hasked.buf
  · exact (congrArg Input.readOperationIsRunning hinput).trans hasked.reading
  · exact (congrArg Input.wire hinput).trans hasked.wire
  · exact congrArg Input.app hinput
  · exact (congrArg Input.handled hinput).trans hasked.handled

theorem ends_refuse (houtput : c.output = .initial) {status : HandlingStatus} {hstatus : status ≠ .accepted}
    (hreplies : K.application.Replies request c.app b (.refuse status hstatus)) {Q : Connection π ρ τ → Prop}
    (h : ∀ d, Replied K (.ofItems createNotImplementedResp) true b request c d → Q d) :
    Ends (body K) (onRequestMessageComplete K) c (fun _ => Q) := by
  subst hrequest
  obtain ⟨id, k, hregister, hasked⟩ := Coordinator.Vacant.asked (K := K) hready hk hmax
  obtain ⟨k', happend, hsingle⟩ := hasked.single.append hasked.numbered ⟨.finalParts, .connectionClose⟩
    (.ofItems createNotImplementedResp)
  have hcode : Evals (body K) (K.application.handler id (K.parser.request c.parser)).run (c.asked K k) (.ok status)
      { c.asked K k with app := b } := (hreplies id).evals hasked.app (evals_pure status)
  refine ends_onRequestMessageComplete hplain hready.upgradeStage hregister (ends_of_evals hcode ?_)
  have hsay : afterHandler id status = (sayNotImplemented id : Code π ρ τ Unit) := by
    cases status with
    | accepted => exact absurd rfl hstatus
    | rejected => rfl
    | notHandled => rfl
  rw [hsay]
  refine ends_call (ends_mono (ends_writeResponsePartsImpl (c := { c.asked K k with app := b })
    ⟨hasked.socketOpen, hasked.upgradeStage, hasked.ended⟩ hasked.single.closed happend (ends_initWriteIfNecessary
      ⟨hasked.socketOpen, hasked.upgradeStage, hasked.ended⟩ (hasked.output.trans houtput)
      (by simp [WriteGroup.ofItems, createNotImplementedResp]) hsingle)) ?_)
  rintro _ d ⟨hinput, hvacant, hflag, hwriting⟩
  refine h d ⟨?_, ?_, ?_, ?_, ?_, ?_, hvacant, hflag, hwriting⟩
  · exact (congrArg Input.parser hinput).trans hasked.parser
  · exact (congrArg Input.buf hinput).trans hasked.buf
  · exact (congrArg Input.readOperationIsRunning hinput).trans hasked.reading
  · exact (congrArg Input.wire hinput).trans hasked.wire
  · exact congrArg Input.app hinput
  · exact (congrArg Input.handled hinput).trans hasked.handled

theorem fails_fail (hreplies : K.application.Replies request c.app b .fail) :
    Fails (body K) (onRequestMessageComplete K) c (fun d => Ends (body K) close d (fun _ e => e.ended = true ∧
      e.socketOpen = false ∧ e.writing = c.writing ∧ e.app = b ∧ e.handled = c.handled ++ [request] ∧ e.wire = c.wire)) := by
  subst hrequest
  obtain ⟨id, k, hregister, hasked⟩ := Coordinator.Vacant.asked (K := K) hready hk hmax
  refine fails_onRequestMessageComplete hplain hready.upgradeStage hregister
    ⟨_, _, (hreplies id).evals hasked.app (evals_throw _), ?_⟩
  refine ends_mono (ends_close_single (by exact hasked.single) (by simp)) ?_
  rintro _ d ⟨hd, -⟩
  exact ⟨hd.ended, hd.socketOpen, hd.writing.trans hasked.writing, hd.app, hd.handled.trans hasked.handled,
    hd.wire.trans hasked.wire⟩

end Outcomes

end Request

end Serving

end NgkNet.Restinio.Http
