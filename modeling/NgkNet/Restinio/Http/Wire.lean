import NgkNet.Restinio.Http.Pipeline
import NgkNet.Restinio.Http.Reading

set_option autoImplicit false

namespace NgkNet.Restinio.Http

open Ascii Prog

section Output

def Token.bytes : Token → Str
  | .item i => i.bytes
  | .notify _ => []

def Token.notificator? : Token → Option Notificator
  | .item _ => none
  | .notify n => some n

def given (events : List Event) : Str := (events.flatMap Event.given).flatMap Token.bytes

theorem WriteGroup.tokens_bytes (wg : WriteGroup) : wg.tokens.flatMap Token.bytes = wg.bytes := by
  have hnotify : (wg.afterWriteNotificator.toList.map Token.notify).flatMap Token.bytes = [] := by
    cases wg.afterWriteNotificator <;> rfl
  rw [tokens, List.flatMap_append, hnotify, List.append_nil, List.flatMap_map]
  rfl

theorem WriteGroup.tokens_notificators (wg : WriteGroup) :
    wg.tokens.filterMap Token.notificator? = wg.afterWriteNotificator.toList := by
  have hitems : (wg.items.map Token.item).filterMap Token.notificator? = [] := by
    simp [Token.notificator?]
  rw [tokens, List.filterMap_append, hitems, List.nil_append, List.filterMap_map]
  cases wg.afterWriteNotificator <;> rfl

theorem given_append_popped (events : List Event) (wg : WriteGroup) (last : Bool) :
    given (events ++ [.popped wg last]) = given events ++ wg.bytes := by
  simp [given, Event.given, wg.tokens_bytes]

namespace OutputCtx

variable (o : OutputCtx)

def rest : Str :=
  (((o.currentWg.map WriteGroup.items).getD []).drop o.nextWritableItemIndex).flatMap WritableItem.bytes

def notificators : List Notificator := (o.currentWg.bind WriteGroup.afterWriteNotificator).toList

theorem takeNotificator_notificators : o.takeNotificator.notificators = [] := by
  rw [notificators, takeNotificator]
  cases o.currentWg <;> rfl

theorem takeNotificator_of_none (h : o.currentWg.bind WriteGroup.afterWriteNotificator = none) :
    o.takeNotificator = o := by
  obtain ⟨_ | wg, i⟩ := o
  · rfl
  · have hwg : wg.afterWriteNotificator = none := h
    simp [takeNotificator, WriteGroup.takeNotificator, ← hwg]

theorem rest_of_currentWg_none (h : o.currentWg = none) : o.rest = [] := by simp [rest, h]

theorem takeNotificator_rest : o.takeNotificator.rest = o.rest := by
  rw [rest, rest, takeNotificator]
  cases o.currentWg <;> rfl

theorem startNextWriteGroup_rest (h : o.nextWritableItemIndex = 0) (wg : WriteGroup) :
    (o.startNextWriteGroup wg).rest = wg.bytes := by
  simp [rest, startNextWriteGroup, h, WriteGroup.bytes]

theorem prepareTrivialBuffersWo_spec (room : ℕ) (items : List WritableItem) :
    (prepareTrivialBuffersWo room items).length ≤ room ∧
      (prepareTrivialBuffersWo room items).flatten ++
          (items.drop (prepareTrivialBuffersWo room items).length).flatMap WritableItem.bytes =
        items.flatMap WritableItem.bytes := by
  induction items generalizing room with
  | nil => cases room <;> exact ⟨Nat.zero_le _, rfl⟩
  | cons item items ih =>
    cases room with
    | zero => exact ⟨Nat.le_refl _, rfl⟩
    | succ room =>
      cases item with
      | trivialWriteOperation buf =>
        obtain ⟨hlength, hbytes⟩ := ih room
        refine ⟨Nat.succ_le_succ hlength, ?_⟩
        rw [prepareTrivialBuffersWo, List.flatten_cons, List.length_cons, List.drop_succ_cons, List.append_assoc,
          hbytes, List.flatMap_cons]
        rfl
      | fileWriteOperation content timelimit => exact ⟨Nat.zero_le _, rfl⟩

theorem extractNextWriteOperation_bytes :
    o.extractNextWriteOperation.1.bytes ++ o.extractNextWriteOperation.2.rest = o.rest := by
  rw [extractNextWriteOperation]
  set items := (o.currentWg.map WriteGroup.items).getD [] with hitems
  dsimp only
  cases hitem : items[o.nextWritableItemIndex]? with
  | none => rfl
  | some item =>
    cases item with
    | trivialWriteOperation buf =>
      have h := (prepareTrivialBuffersWo_spec maxIovLen (items.drop o.nextWritableItemIndex)).2
      rw [List.drop_drop] at h
      exact h
    | fileWriteOperation content timelimit =>
      rw [rest, rest, ← hitems, List.drop_eq_getElem?_toList_append, hitem]
      rfl

theorem extractNextWriteOperation_none (h : o.extractNextWriteOperation.1 = .none) : o.rest = [] := by
  rw [extractNextWriteOperation] at h
  set items := (o.currentWg.map WriteGroup.items).getD [] with hitems
  dsimp only at h
  cases hitem : items[o.nextWritableItemIndex]? with
  | none =>
    rw [rest, ← hitems, List.drop_eq_nil_of_le (List.getElem?_eq_none_iff.mp hitem)]
    rfl
  | some item =>
    rw [hitem] at h
    cases item <;> cases h

theorem extractNextWriteOperation_currentWg : o.extractNextWriteOperation.2.currentWg = o.currentWg := by
  rw [extractNextWriteOperation]
  dsimp only
  split <;> rfl

end OutputCtx

end Output

section Soundness

variable {π ρ τ α β : Type}

def Notification.confirmed (x : Notification) : Option Notificator :=
  if x.ec = .success ∧ x.socketOpen then some x.notificator else none

def View.confirmed (v : View) : List Notificator := v.notified.filterMap Notification.confirmed

/-- As long as the socket is open, what was written, what is being written and what is left of the current
group make up what the coordinator has given out. -/
structure Sound (maxReqCount : ℕ) (v : View) : Prop where
  ordered : ∃ k, (v.ended = false → k = v.coordinator) ∧ Represents maxReqCount k (.after v.events) ∧
    v.events.flatMap Event.given = (Pipeline.after v.events).sent
  ended : v.ended = true → v.socketOpen = false
  idle : v.output.currentWg = none → v.writing = none ∧ (v.socketOpen = true → v.output.nextWritableItemIndex = 0)
  flow : v.socketOpen = true → v.wire ++ v.writing.getD [] ++ v.output.rest = given v.events
  shut : v.socketOpen = false → v.wire ++ v.writing.getD [] <+: given v.events
  told : ∃ done current, v.events.flatMap Event.given = done ++ current ∧
    done.filterMap Token.notificator? = v.confirmed ∧ done.flatMap Token.bytes <+: v.wire ∧
    (v.socketOpen = true → current.filterMap Token.notificator? = v.output.notificators)

structure Framed (v w : View) : Prop where
  -- While a group is being written, only the callback of its write operations goes on with it.
  socket : v.socketOpen = false → w.socketOpen = false
  ended : v.ended = true → w.ended = true
  output : v.output.transmitting = true → w.output = v.output ∧ w.writing = v.writing ∧ w.wire = v.wire

theorem Framed.refl (v : View) : Framed v v := ⟨id, id, fun _ => ⟨rfl, rfl, rfl⟩⟩

theorem Framed.trans {u v w : View} (h : Framed u v) (h' : Framed v w) : Framed u w := by
  refine ⟨fun hu => h'.socket (h.socket hu), fun hu => h'.ended (h.ended hu), fun hu => ?_⟩
  obtain ⟨ho, hw, hwire⟩ := h.output hu
  obtain ⟨ho', hw', hwire'⟩ := h'.output (ho ▸ hu)
  exact ⟨ho'.trans ho, hw'.trans hw, hwire'.trans hwire⟩

variable (K : Environment π ρ τ)

def wireGuarantee : Guarantee (Connection π ρ τ) where
  inv c := Sound K.settings.maxPipelinedRequests c.view
  rel s t := Framed s.view t.view
  refl s := Framed.refl s.view
  trans _ _ _ := Framed.trans

def writeGuarantee : Guarantee (Connection π ρ τ) where
  inv := (wireGuarantee K).inv
  rel s t := (s.socketOpen = false → t.socketOpen = false) ∧ (s.ended = true → t.ended = true)
  refl _ := ⟨id, id⟩
  trans _ _ _ h h' := ⟨fun hs => h'.1 (h.1 hs), fun hs => h'.2 (h.2 hs)⟩

def wireContract : Contract (Connection π ρ τ) ConnectionException Fn
  | .handleCurrentWriteCtx, s, _, t =>
    s.output.transmitting = true → s.writing = none → (writeGuarantee K).Kept s t
  | .resetCoordinator, s, _, t => s.ended = true → (wireGuarantee K).Kept s t
  | .notificator n ec, s, _, t => (wireGuarantee K).Kept (s.notify n ec) t
  | _, s, _, t => (wireGuarantee K).Kept s t

abbrev Safe (p : Code π ρ τ α) : Prop := Respects (wireContract K) (wireGuarantee K) p

variable {K}

theorem kept_of_view {s t : Connection π ρ τ} (h : t.view = s.view) : (wireGuarantee K).Kept s t := by
  intro hs
  have hrefl := (wireGuarantee K).refl s
  simp only [wireGuarantee, h] at hs hrefl ⊢
  exact ⟨hs, hrefl⟩

theorem Sound.shutDown {m : ℕ} {v : View} (h : Sound m v) (ended : Bool) (hover : v.ended = true → ended = true) :
    Sound m { v with socketOpen := false, ended := ended } where
  ordered := by
    obtain ⟨k, hk, hrep⟩ := h.ordered
    refine ⟨k, fun ho => hk ?_, hrep⟩
    by_contra hv
    rw [Bool.not_eq_false] at hv
    exact absurd (ho : ended = false) (by simp [hover hv])
  ended := fun _ => rfl
  idle := fun hnone => ⟨(h.idle hnone).1, by simp⟩
  flow := by simp
  shut := by
    intro _
    cases hopen : v.socketOpen with
    | false => exact h.shut hopen
    | true => exact ⟨_, h.flow hopen⟩
  told := by
    obtain ⟨done, current, htokens, hdone, hwritten, -⟩ := h.told
    exact ⟨done, current, htokens, hdone, hwritten, by simp⟩

section Notifying

theorem Sound.notify_failure {m : ℕ} {v : View} (h : Sound m v) (n : Notificator) {ec : ErrorCode} (hec : ec ≠ .success) :
    Sound m (v.notify n ec) where
  ordered := h.ordered
  ended := h.ended
  idle := h.idle
  flow := h.flow
  shut := h.shut
  told := by simpa [View.confirmed, View.notify, Notification.confirmed, hec] using h.told

theorem safe_invokeQuietly (wg : WriteGroup) {ec : ErrorCode} (hec : ec ≠ .success) :
    Safe K (invokeQuietly wg ec : Code π ρ τ Unit) := by
  rw [invokeQuietly]
  cases wg.afterWriteNotificator with
  | none => exact respects_pure ()
  | some n =>
    refine respects_guarded (fun s r t h hs => ?_) fun _ => respects_pure ()
    obtain ⟨ht, hst⟩ := h (Sound.notify_failure hs n hec)
    exact ⟨ht, hst.socket, hst.ended, hst.output⟩

theorem Sound.drop {m : ℕ} {v : View} (h : Sound m v) (hover : v.ended = true) (k : Coordinator) :
    Sound m { v with coordinator := k } := by
  obtain ⟨k', -, hrep⟩ := h.ordered
  exact ⟨⟨k', fun ho => absurd ho (by simp [hover]), hrep⟩, h.ended, h.idle, h.flow, h.shut, h.told⟩

theorem safe_resetCoordinator {s : Connection π ρ τ} (hover : s.ended = true) (hs : (wireGuarantee K).inv s) :
    Meets (wireContract K) resetCoordinator s (fun _ t => (wireGuarantee K).inv t ∧ (wireGuarantee K).rel s t) := by
  have hagain : ∀ t, (wireGuarantee K).inv t → (wireGuarantee K).rel s t → Meets (wireContract K)
      (call .resetCoordinator) t (fun _ u => (wireGuarantee K).inv u ∧ (wireGuarantee K).rel s u) := by
    intro t ht hst
    refine meets_call fun r u hu => ?_
    obtain ⟨hu, htu⟩ := hu (hst.ended hover) ht
    exact ⟨hu, hst.trans htu⟩
  have hdrop : ∀ k, (wireGuarantee K).inv { s with coordinator := k } ∧
      (wireGuarantee K).rel s { s with coordinator := k } :=
    fun k => ⟨hs.drop hover k, id, id, fun _ => ⟨rfl, rfl, rfl⟩⟩
  rw [resetCoordinator, meets_current]
  rcases s.coordinator.resetStep with _ | ⟨_ | wg, k⟩
  · exact ⟨hs, Framed.refl _⟩
  · rw [meets_change]
    exact hagain _ (hdrop k).1 (hdrop k).2
  · rw [meets_change]
    refine meets_bind (meets_mono (safe_invokeQuietly wg (by simp) _ (hdrop k).1) ?_)
    rintro (e | a) t ⟨ht, hst⟩
    · exact ⟨ht, (hdrop k).2.trans hst⟩
    · exact hagain t ht ((hdrop k).2.trans hst)

theorem meets_close {s : Connection π ρ τ} (hs : (wireGuarantee K).inv { s with socketOpen := false }) :
    Meets (wireContract K) close s (fun _ t => (wireGuarantee K).inv t ∧ t.socketOpen = false ∧ t.ended = true ∧
      (s.output.transmitting = true → t.output = s.output ∧ t.writing = s.writing ∧ t.wire = s.wire)) := by
  rw [close, meets_change, meets_change]
  refine meets_call fun r t ht => ?_
  obtain ⟨ht, hst⟩ := ht rfl (hs.shutDown true fun _ => rfl)
  exact ⟨ht, hst.socket rfl, hst.ended rfl, hst.output⟩

theorem safe_close : Safe K (close : Code π ρ τ Unit) := by
  intro s hs
  refine meets_mono (meets_close (hs.shutDown s.ended id)) ?_
  rintro _ t ⟨ht, hsocket, hended, houtput⟩
  exact ⟨ht, fun _ => hsocket, fun _ => hended, houtput⟩

end Notifying

section Events

variable {m : ℕ} {v : View} {k : Coordinator}

theorem Sound.record_silent (h : Sound m v) {e : Event} (he : e.given = [])
    (hstep : ∀ p, Represents m v.coordinator p → Represents m k (p.step e) ∧ (p.step e).sent = p.sent) :
    Sound m ({ v with coordinator := k }.record e) := by
  rcases Bool.eq_false_or_eq_true v.ended with hover | hover
  · rw [View.record, if_pos hover]
    exact h.drop hover k
  · rw [View.record, if_neg (by simp [hover])]
    have hgiven : given (v.events ++ [e]) = given v.events := by simp [given, he]
    obtain ⟨k', hk', hrep, hsent⟩ := h.ordered
    obtain rfl := hk' hover
    obtain ⟨hrep', hsent'⟩ := hstep _ hrep
    refine ⟨⟨k, fun _ => rfl, ?_, ?_⟩, h.ended, h.idle, ?_, ?_, ?_⟩
    · simpa [Pipeline.after] using hrep'
    · simpa [Pipeline.after, he, hsent] using hsent'.symm
    · intro ho
      exact (h.flow ho).trans hgiven.symm
    · intro ho
      change _ <+: given (v.events ++ [e])
      rw [hgiven]
      exact h.shut ho
    · simpa [he, View.confirmed] using h.told

theorem Sound.register (h : Sound m v) {id : RequestId} (hk : v.coordinator.registerNewRequest = .ok (id, k)) :
    Sound m ({ v with coordinator := k }.record .registered) :=
  h.record_silent rfl fun _ hp => ⟨hp.register hk, by simp [Pipeline.sent, Pipeline.step]⟩

theorem Sound.append (h : Sound m v) {id : RequestId} {flags : ResponseOutputFlags} {wg : WriteGroup}
    (hk : v.coordinator.appendResponse id flags wg = .ok k) :
    Sound m ({ v with coordinator := k }.record (.appended id flags wg)) :=
  h.record_silent rfl fun _ hp => ⟨hp.append hk, by simp [Pipeline.sent, Pipeline.step]⟩

theorem Sound.told_started (h : Sound m v) (hidle : v.output.currentWg = none) (wg : WriteGroup) :
    ∃ done current, v.events.flatMap Event.given ++ wg.tokens = done ++ current ∧
      done.filterMap Token.notificator? = v.confirmed ∧ done.flatMap Token.bytes <+: v.wire ∧
      (v.socketOpen = true → current.filterMap Token.notificator? = (v.output.startNextWriteGroup wg).notificators) := by
  obtain ⟨done, current, htokens, hdone, hwritten, hcurrent⟩ := h.told
  rcases Bool.eq_false_or_eq_true v.socketOpen with ho | ho
  · have hnone : current.filterMap Token.notificator? = [] := by
      rw [hcurrent ho, OutputCtx.notificators, hidle]
      rfl
    have hflow := h.flow ho
    rw [OutputCtx.rest_of_currentWg_none _ hidle, (h.idle hidle).1, Option.getD_none, List.append_nil,
      List.append_nil, given, htokens] at hflow
    refine ⟨done ++ current, wg.tokens, by rw [htokens], ?_, ?_, fun _ => wg.tokens_notificators⟩
    · rw [List.filterMap_append, hnone, List.append_nil, hdone]
    · rw [hflow]
  · exact ⟨done, current ++ wg.tokens, by rw [htokens, List.append_assoc], hdone, hwritten,
      fun ho' => absurd ho' (by simp [ho])⟩

theorem Sound.pop (h : Sound m v) (hidle : v.output.currentWg = none) {wg : WriteGroup} {id : RequestId}
    (hk : v.coordinator.popReadyBuffers = .ok (some (wg, id), k)) :
    Sound m ({ v with coordinator := k, output := v.output.startNextWriteGroup wg }.record
      (.popped wg (k.contextTable.count < v.coordinator.contextTable.count))) := by
  rcases Bool.eq_false_or_eq_true v.ended with hover | hover
  · rw [View.record, if_pos hover]
    obtain ⟨k', -, hrep⟩ := h.ordered
    have hshut := h.ended hover
    obtain ⟨done, current, htokens, hdone, hwritten, -⟩ := h.told
    exact ⟨⟨k', fun ho => absurd ho (by simp [hover]), hrep⟩, h.ended, by simp [OutputCtx.startNextWriteGroup],
      fun ho => absurd ho (by simp [hshut]), h.shut, done, current, htokens, hdone, hwritten,
      fun ho => absurd ho (by simp [hshut])⟩
  · rw [View.record, if_neg (by simp [hover])]
    obtain ⟨k', hk', hrep, hsent⟩ := h.ordered
    obtain rfl := hk' hover
    obtain ⟨last, rfl, hrep', hsent'⟩ := hrep.pop hk
    refine ⟨⟨k, fun _ => rfl, ?_, ?_⟩, h.ended, by simp [OutputCtx.startNextWriteGroup], ?_, ?_, ?_⟩
    · simpa [Pipeline.after] using hrep'
    · simpa [Pipeline.after, Event.given, hsent] using hsent'.symm
    · intro ho
      have hindex := (h.idle hidle).2 ho
      have hflow := h.flow ho
      rw [OutputCtx.rest_of_currentWg_none _ hidle, List.append_nil] at hflow
      change _ ++ _ ++ (v.output.startNextWriteGroup wg).rest = given (v.events ++ [_])
      rw [given_append_popped, OutputCtx.startNextWriteGroup_rest _ hindex, hflow]
    · intro ho
      change _ <+: given (v.events ++ [_])
      rw [given_append_popped]
      exact (h.shut ho).trans (List.prefix_append _ _)
    · simpa [Event.given, View.confirmed] using h.told_started hidle wg

theorem framed_record (v : View) (e : Event) (k : Coordinator) : Framed v ({ v with coordinator := k }.record e) := by
  rw [View.record]
  split <;> exact ⟨id, id, fun _ => ⟨rfl, rfl, rfl⟩⟩

end Events

theorem safe_registerNewRequest : Safe K (registerNewRequest : Code π ρ τ RequestId) := by
  intro s hs
  rw [registerNewRequest, meets_current]
  cases hk : s.coordinator.registerNewRequest with
  | error e => exact ⟨hs, Framed.refl _⟩
  | ok r =>
    change Sound _ (Connection.record _ _).view ∧ Framed _ (Connection.record _ _).view
    rw [Connection.record_view]
    exact ⟨hs.register hk, framed_record _ _ _⟩

theorem wireRules : ReadingRules (wireContract K) (wireGuarantee K) where
  view _ _ := kept_of_view
  moved s hs := ⟨hs.shutDown s.ended id, fun _ => rfl, id, fun _ => ⟨rfl, rfl, rfl⟩⟩
  called f hf := by
    cases f with
    | handleCurrentWriteCtx => exact absurd hf (by simp [Fn.reads])
    | resetCoordinator => exact absurd hf (by simp [Fn.reads])
    | notificator n ec => exact absurd hf (by simp [Fn.reads])
    | _ => exact fun _ _ _ h => h
  close := safe_close
  register := safe_registerNewRequest

section Writing

theorem Safe.write {p : Code π ρ τ α} (h : Safe K p) : Respects (wireContract K) (writeGuarantee K) p :=
  h.weaken rfl fun _ _ hst => ⟨hst.socket, hst.ended⟩

theorem safe_currentWriteCtx {s : Connection π ρ τ} (hs : (wireGuarantee K).inv s)
    (htransmitting : s.output.transmitting = true) (hwriting : s.writing = none) :
    Meets (wireContract K) (guarded .handleCurrentWriteCtx (fun _ => close)) s
      (fun _ t => (writeGuarantee K).inv t ∧ (writeGuarantee K).rel s t) := by
  refine meets_guarded (fun t ht => ht htransmitting hwriting hs) fun e t ht => ?_
  obtain ⟨ht, hst⟩ := ht htransmitting hwriting hs
  exact meets_mono (safe_close.write t ht) fun _ u hu => ⟨hu.1, (writeGuarantee K).trans s t u hst hu.2⟩

theorem safe_initWrite {s : Connection π ρ τ} (hs : (wireGuarantee K).inv s) (hidle : s.output.currentWg = none) :
    Meets (wireContract K) (initWrite K) s (fun _ t => (writeGuarantee K).inv t ∧ (writeGuarantee K).rel s t) := by
  rw [initWrite, meets_current]
  cases hk : s.coordinator.popReadyBuffers with
  | error e => exact ⟨hs, (writeGuarantee K).refl s⟩
  | ok r =>
    obtain ⟨_ | ⟨wg, id⟩, k⟩ := r
    · obtain rfl := Coordinator.popReadyBuffers_eq_none hk
      exact (Safe.write wireRules.handleNothingToWrite) s hs
    · rw [meets_change]
      refine meets_mono (safe_currentWriteCtx ?_ ?_ ?_) fun _ t ht => ⟨ht.1, ?_⟩
      · change Sound _ (Connection.record _ _).view
        rw [Connection.record_view]
        exact hs.pop hidle hk
      · rw [Connection.record_output]
        rfl
      · rw [Connection.record_writing]
        exact (hs.idle hidle).1
      · simpa [writeGuarantee] using ht.2

theorem safe_initWriteIfNecessary : Safe K (initWriteIfNecessary K) := by
  intro s hs
  rw [initWriteIfNecessary, meets_current]
  split
  · exact ⟨hs, Framed.refl _⟩
  · next hidle =>
    have hnone : s.output.currentWg = none := by simpa [OutputCtx.transmitting] using hidle
    refine meets_mono (safe_initWrite hs hnone) fun r t ht => ⟨ht.1, ht.2.1, ht.2.2, fun htrans => ?_⟩
    exact absurd htrans hidle

theorem Sound.confirm {m : ℕ} {v : View} (h : Sound m v) (hrest : v.output.rest = []) (hwriting : v.writing = none)
    {n : Notificator} (hn : v.output.notificators = [n]) :
    Sound m ({ v with output := v.output.takeNotificator }.notify n .success) where
  ordered := h.ordered
  ended := h.ended
  idle := by
    intro hnone
    change (v.output.currentWg.map WriteGroup.takeNotificator) = none at hnone
    rw [Option.map_eq_none_iff] at hnone
    exact h.idle hnone
  flow := by
    intro ho
    have := h.flow ho
    rwa [← v.output.takeNotificator_rest] at this
  shut := h.shut
  told := by
    obtain ⟨done, current, htokens, hdone, hwritten, hcurrent⟩ := h.told
    rcases Bool.eq_false_or_eq_true v.socketOpen with ho | ho
    · have hflow := h.flow ho
      rw [hrest, hwriting, Option.getD_none, List.append_nil, List.append_nil, given, htokens] at hflow
      refine ⟨done ++ current, [], htokens.trans (List.append_nil _).symm, ?_, ⟨[], by rw [← hflow, List.append_nil]; rfl⟩,
        fun _ => v.output.takeNotificator_notificators.symm⟩
      rw [List.filterMap_append, hdone, hcurrent ho, hn]
      simp [View.confirmed, View.notify, Notification.confirmed, ho]
    · refine ⟨done, current, htokens, hdone.trans ?_, hwritten, fun ho' => absurd ho' (by simp [View.notify, ho])⟩
      simp [View.confirmed, View.notify, Notification.confirmed, ho]

theorem Sound.resetWriteGroup {m : ℕ} {v : View} (h : Sound m v) (hrest : v.output.rest = []) (hwriting : v.writing = none)
    (hnotificators : v.output.notificators = []) : Sound m { v with output := v.output.resetWriteGroup } where
  ordered := h.ordered
  ended := h.ended
  idle := fun _ => ⟨hwriting, fun _ => rfl⟩
  flow := by
    intro ho
    have := h.flow ho
    rwa [hrest] at this
  shut := h.shut
  told := by
    obtain ⟨done, current, htokens, hdone, hwritten, hcurrent⟩ := h.told
    exact ⟨done, current, htokens, hdone, hwritten, fun ho => (hcurrent ho).trans hnotificators⟩

theorem Sound.startWrite {m : ℕ} {v : View} (h : Sound m v) (htransmitting : v.output.transmitting = true)
    (hwriting : v.writing = none) :
    Sound m { v with
      output := v.output.extractNextWriteOperation.2
      writing := some (if v.socketOpen then v.output.extractNextWriteOperation.1.bytes else []) } where
  ordered := h.ordered
  ended := h.ended
  idle := by
    intro hnone
    rw [OutputCtx.extractNextWriteOperation_currentWg] at hnone
    simp [OutputCtx.transmitting, hnone] at htransmitting
  flow := by
    intro ho
    have hflow := h.flow ho
    rw [hwriting, Option.getD_none, List.append_nil, ← v.output.extractNextWriteOperation_bytes,
      ← List.append_assoc] at hflow
    simpa [show v.socketOpen = true from ho] using hflow
  shut := by
    intro ho
    have hshut := h.shut ho
    rw [hwriting] at hshut
    simpa [show v.socketOpen = false from ho] using hshut
  told := by
    obtain ⟨done, current, htokens, hdone, hwritten, hcurrent⟩ := h.told
    refine ⟨done, current, htokens, hdone, hwritten, fun ho => ?_⟩
    rw [OutputCtx.notificators, OutputCtx.extractNextWriteOperation_currentWg]
    exact hcurrent ho

theorem safe_finishWriteGroup {s : Connection π ρ τ} (hs : (wireGuarantee K).inv s)
    (htransmitting : s.output.transmitting = true) (hwriting : s.writing = none) (hrest : s.output.rest = []) :
    Meets (wireContract K) finishWriteGroup s (fun _ t => (writeGuarantee K).inv t ∧ (writeGuarantee K).rel s t) := by
  have hreset : ∀ t : Connection π ρ τ, (wireGuarantee K).inv t → t.output = s.output.takeNotificator →
      t.writing = none → (wireGuarantee K).inv { t with output := t.output.resetWriteGroup } := by
    intro t ht houtput hwriting'
    refine Sound.resetWriteGroup ht ?_ hwriting' ?_
    · change t.output.rest = []
      rw [houtput, OutputCtx.takeNotificator_rest, hrest]
    · change t.output.notificators = []
      rw [houtput, OutputCtx.takeNotificator_notificators]
  rw [finishWriteGroup, meets_current, meets_change]
  cases hn : s.output.currentWg.bind WriteGroup.afterWriteNotificator with
  | none =>
    have htaken := s.output.takeNotificator_of_none hn
    exact ⟨hreset { s with output := s.output.takeNotificator } (by rw [htaken]; exact hs) rfl hwriting, id, id⟩
  | some n =>
    -- the notificator leaves the group that has been written where it is
    have htransmitting' : s.output.takeNotificator.transmitting = true := by
      simpa [OutputCtx.transmitting, OutputCtx.takeNotificator] using htransmitting
    have htold : (wireGuarantee K).inv ({ s with output := s.output.takeNotificator }.notify n .success) := by
      refine Sound.confirm hs hrest hwriting ?_
      change s.output.notificators = [n]
      rw [OutputCtx.notificators, hn]
      rfl
    refine meets_bind (meets_guarded (fun t ht => ?_) fun e t ht => ?_)
    · obtain ⟨ht, hst⟩ := ht htold
      obtain ⟨houtput, hwriting', -⟩ := hst.output htransmitting'
      exact ⟨hreset t ht houtput (hwriting'.trans hwriting), hst.socket, hst.ended⟩
    · obtain ⟨ht, hst⟩ := ht htold
      obtain ⟨houtput, hwriting', -⟩ := hst.output htransmitting'
      exact ⟨hreset t ht houtput (hwriting'.trans hwriting), hst.socket, hst.ended⟩

theorem safe_finishHandlingCurrentWriteCtx {s : Connection π ρ τ} (hs : (wireGuarantee K).inv s)
    (htransmitting : s.output.transmitting = true) (hwriting : s.writing = none) (hrest : s.output.rest = []) :
    Meets (wireContract K) (finishHandlingCurrentWriteCtx K) s
      (fun _ t => (writeGuarantee K).inv t ∧ (writeGuarantee K).rel s t) := by
  have hgoOn := respects_bind respects_current (wireRules.goOn (safe_initWriteIfNecessary (K := K)))
  refine meets_bind (meets_mono (safe_finishWriteGroup hs htransmitting hwriting hrest) ?_)
  rintro (e | a) t ⟨ht, hst⟩
  · exact ⟨ht, hst⟩
  · exact meets_mono (Safe.write hgoOn t ht) fun _ u hu => ⟨hu.1, (writeGuarantee K).trans s t u hst hu.2⟩

theorem safe_handleCurrentWriteCtx {s : Connection π ρ τ} (hs : (wireGuarantee K).inv s)
    (htransmitting : s.output.transmitting = true) (hwriting : s.writing = none) :
    Meets (wireContract K) (handleCurrentWriteCtx K) s
      (fun _ t => (writeGuarantee K).inv t ∧ (writeGuarantee K).rel s t) := by
  have hstart := hs.startWrite htransmitting hwriting
  rw [handleCurrentWriteCtx, meets_current]
  cases hoperation : s.output.extractNextWriteOperation.1 with
  | none =>
    exact safe_finishHandlingCurrentWriteCtx hs htransmitting hwriting
      (OutputCtx.extractNextWriteOperation_none _ hoperation)
  | trivial bufs =>
    rw [show s.view.output = s.output from rfl, hoperation] at hstart
    exact ⟨hstart, (writeGuarantee K).refl s⟩
  | file content timelimit =>
    rw [show s.view.output = s.output from rfl, hoperation] at hstart
    exact ⟨hstart, (writeGuarantee K).refl s⟩

theorem safe_appendResponse (id : RequestId) (flags : ResponseOutputFlags) (wg : WriteGroup) :
    Safe K (appendResponse id flags wg : Code π ρ τ Unit) := by
  intro s hs
  rw [appendResponse, meets_current]
  cases hk : s.coordinator.appendResponse id flags wg with
  | error e => exact respects_bind (safe_invokeQuietly wg (by simp)) (fun _ => respects_throw _) s hs
  | ok k =>
    change Sound _ (Connection.record _ _).view ∧ Framed _ (Connection.record _ _).view
    rw [Connection.record_view]
    exact ⟨hs.append hk, framed_record _ _ _⟩

theorem safe_writeResponsePartsImpl (id : RequestId) (flags : ResponseOutputFlags) (wg : WriteGroup) :
    Safe K (writeResponsePartsImpl K id flags wg) := by
  have hoffered : Safe K (change (fun c => { c with offered := c.offered ++ wg.afterWriteNotificator.toList })) :=
    respects_change fun s hs =>
      ⟨⟨hs.ordered, hs.ended, hs.idle, hs.flow, hs.shut, hs.told⟩, fun h => h, fun h => h, fun _ => ⟨rfl, rfl, rfl⟩⟩
  refine respects_bind hoffered fun _ => respects_bind respects_current fun c => ?_
  split
  · refine respects_bind (respects_when (wireRules.call _ rfl)) fun _ => respects_bind respects_current fun c => ?_
    split
    · exact safe_invokeQuietly wg (by simp)
    · exact respects_bind (safe_appendResponse id flags wg) fun _ => safe_initWriteIfNecessary
  · exact safe_invokeQuietly wg (by simp)

end Writing

theorem wireContract_body (f : Fn) (s : Connection π ρ τ) : Meets (wireContract K) (body K f) s (wireContract K f s) := by
  cases f with
  | waitForHttpMessage => exact wireRules.waitForHttpMessage.kept s
  | consumeData => exact wireRules.consumeData.kept s
  | onRequestMessageComplete => exact wireRules.onRequestMessageComplete.kept s
  | writeResponseParts id flags wg => exact (wireRules.writeResponseParts id flags wg).kept s
  | writeResponsePartsImpl id flags wg => exact (safe_writeResponsePartsImpl id flags wg).kept s
  | handleCurrentWriteCtx =>
    exact meets_imp fun htransmitting => meets_imp fun hwriting => meets_imp fun hs =>
      safe_handleCurrentWriteCtx hs htransmitting hwriting
  | resetCoordinator => exact meets_imp fun hover => meets_imp fun hs => safe_resetCoordinator hover hs
  | notificator n ec => exact (wireRules.userCode (K.application.notificator n ec)).kept (s.notify n ec)

section Callbacks

theorem Sound.failWriteGroup {m : ℕ} {v : View} (h : Sound m v) (hshut : v.socketOpen = false)
    (hwriting : v.writing = none) (o : OutputCtx) : Sound m { v with output := o } where
  ordered := h.ordered
  ended := h.ended
  idle := fun _ => ⟨hwriting, fun hopen => absurd hopen (by simp [hshut])⟩
  flow := fun hopen => absurd hopen (by simp [hshut])
  shut := h.shut
  told := by
    obtain ⟨done, current, htokens, hdone, hwritten, -⟩ := h.told
    exact ⟨done, current, htokens, hdone, hwritten, fun hopen => absurd hopen (by simp [hshut])⟩

theorem safe_failWriteGroup {s : Connection π ρ τ} (hs : (wireGuarantee K).inv s) (hshut : s.socketOpen = false)
    (hwriting : s.writing = none) (htransmitting : s.output.transmitting = true) {ec : ErrorCode} (hec : ec ≠ .success) :
    Meets (wireContract K) (failWriteGroup ec) s (fun _ t => (wireGuarantee K).inv t) := by
  have htaken : (wireGuarantee K).inv { s with output := s.output.takeNotificator } :=
    Sound.failWriteGroup hs hshut hwriting _
  rw [failWriteGroup, meets_current, meets_change]
  cases s.output.currentWg.bind WriteGroup.afterWriteNotificator with
  | none => exact Sound.failWriteGroup htaken hshut hwriting _
  | some n =>
    intro r t hcall
    have htransmitting' : s.output.takeNotificator.transmitting = true := by
      simpa [OutputCtx.transmitting, OutputCtx.takeNotificator] using htransmitting
    obtain ⟨ht, hst⟩ := hcall (Sound.notify_failure htaken n hec)
    have hwriting' := (hst.output htransmitting').2.1.trans hwriting
    cases r with
    | ok a => exact Sound.failWriteGroup ht (hst.socket hshut) hwriting' _
    | error e => exact Sound.failWriteGroup ht (hst.socket hshut) hwriting' _

theorem Sound.written {m : ℕ} {v : View} (h : Sound m v) {data : Str} (hwriting : v.writing = some data) :
    Sound m { v with writing := none, wire := v.wire ++ data } where
  ordered := h.ordered
  ended := h.ended
  idle := fun hnone => ⟨rfl, (h.idle hnone).2⟩
  flow := by
    intro hopen
    simpa [hwriting] using h.flow hopen
  shut := by
    intro hshut
    simpa [hwriting] using h.shut hshut
  told := by
    obtain ⟨done, current, htokens, hdone, hwritten, hcurrent⟩ := h.told
    exact ⟨done, current, htokens, hdone, hwritten.trans (List.prefix_append _ _), hcurrent⟩

theorem Sound.brokenOff {m : ℕ} {v : View} (h : Sound m v) {data : Str} (hwriting : v.writing = some data) (n : ℕ) :
    Sound m { v with socketOpen := false, writing := none, wire := v.wire ++ data.take n } where
  ordered := h.ordered
  ended := fun _ => rfl
  idle := fun _ => ⟨rfl, by simp⟩
  flow := by simp
  shut := by
    intro _
    have hshut := (h.shutDown v.ended id).shut rfl
    rw [hwriting] at hshut
    rw [Option.getD_none, List.append_nil]
    exact (List.prefix_append_right_inj v.wire |>.mpr (List.take_prefix n data)).trans hshut
  told := by
    obtain ⟨done, current, htokens, hdone, hwritten, -⟩ := h.told
    exact ⟨done, current, htokens, hdone, hwritten.trans (List.prefix_append _ _), by simp⟩

theorem safe_afterWrite_error {ec : ErrorCode} (hec : ec ≠ .success) {s : Connection π ρ τ}
    (hs : (wireGuarantee K).inv { s with socketOpen := false }) (habort : ec = .operationAborted → s.socketOpen = false)
    (hwriting : s.writing = none) (htransmitting : s.output.transmitting = true) :
    Meets (wireContract K) (afterWrite ec) s (fun _ t => (wireGuarantee K).inv t) := by
  have hcode : (afterWrite ec : Code π ρ τ Unit) = (do
      when (ec ≠ .operationAborted) close
      failWriteGroup ec) := by
    cases ec with
    | success => exact absurd rfl hec
    | _ => rfl
  rw [hcode]
  by_cases haborted : ec = .operationAborted
  · have hshut := habort haborted
    rw [haborted]
    refine safe_failWriteGroup ?_ hshut hwriting htransmitting (by simp)
    rwa [← hshut] at hs
  · refine meets_bind ?_
    rw [decide_eq_true haborted]
    refine meets_mono (meets_close hs) ?_
    rintro (e | a) t ⟨ht, hshut, -, houtput⟩
    · exact ht
    · obtain ⟨houtput, hwriting', -⟩ := houtput htransmitting
      exact safe_failWriteGroup ht hshut (hwriting'.trans hwriting) (houtput ▸ htransmitting) hec

theorem safe_writeDone (ec : ErrorCode) (written : ℕ) {s : Connection π ρ τ} (hs : (wireGuarantee K).inv s) :
    Meets (wireContract K) (onHappening K (.writeDone ec written)) s (fun _ t => (wireGuarantee K).inv t) := by
  rw [onHappening, meets_current]
  cases hwriting : s.writing with
  | none => exact hs
  | some data =>
    have htransmitting : s.output.transmitting = true := by
      rw [OutputCtx.transmitting, Option.isSome_iff_ne_none]
      intro hnone
      have := (hs.idle hnone).1
      rw [show s.view.writing = s.writing from rfl, hwriting] at this
      cases this
    dsimp only
    split
    · exact hs
    · next habort =>
      rw [meets_change]
      by_cases hec : ec = .success
      · subst hec
        exact meets_mono (safe_currentWriteCtx (hs.written hwriting) htransmitting rfl) fun _ _ ht => ht.1
      · refine safe_afterWrite_error hec ?_ (fun haborted => ?_) rfl htransmitting
        · rw [if_neg hec]
          exact hs.brokenOff hwriting written
        · rw [not_and, Bool.not_eq_true] at habort
          exact habort haborted

theorem safe_onHappening (x : Happening τ) {s : Connection π ρ τ} (hs : (wireGuarantee K).inv s) :
    Meets (wireContract K) (onHappening K x) s (fun _ t => (wireGuarantee K).inv t) := by
  by_cases hx : ∀ ec written, x ≠ .writeDone ec written
  · exact meets_mono (wireRules.onHappening hx s hs) fun _ _ ht => ht.1
  · push Not at hx
    obtain ⟨ec, written, rfl⟩ := hx
    exact safe_writeDone ec written hs

theorem sound_initial (app : τ) : (wireGuarantee K).inv (.initial K app) where
  ordered := ⟨_, fun _ => rfl, Represents.initial _, rfl⟩
  ended := by simp [Connection.view, Connection.initial]
  idle := fun _ => ⟨rfl, fun _ => rfl⟩
  flow := fun _ => rfl
  shut := by simp [Connection.view, Connection.initial]
  told := ⟨[], [], rfl, rfl, List.nil_prefix, fun _ => rfl⟩

theorem Reaches.sound {app : τ} {past : List (Happening τ)} {c : Connection π ρ τ} (h : Reaches K app past c) :
    (wireGuarantee K).inv c := by
  induction h with
  | start h =>
    refine h.meets (Q := fun _ t => (wireGuarantee K).inv t) wireContract_body ?_
    exact meets_mono (wireRules.start _ (sound_initial app)) fun _ _ ht => ht.1
  | next hc h ih => exact h.meets (Q := fun _ t => (wireGuarantee K).inv t) wireContract_body (safe_onHappening _ ih)

end Callbacks

def Answer.bytes (a : Answer) : Str := a.tokens.flatMap Token.bytes

def Pipeline.bytes (p : Pipeline) : Str := p.finished.flatMap Answer.bytes ++ p.taken.flatMap Token.bytes

theorem given_eq_bytes {events : List Event} (h : events.flatMap Event.given = (Pipeline.after events).sent) :
    given events = (Pipeline.after events).bytes := by
  rw [given, h, Pipeline.sent, List.flatMap_append, List.flatMap_assoc]
  rfl

/-- Whatever the application does, from its handlers, its notificators or later, and however reads, writes and
timeouts come in between: what a connection has written are the answers in the order of the requests,
each one from its beginning and complete before the next one begins, up to the first that closes the
connection. While the socket is open nothing of what was given out is lost. -/
theorem responses_written_in_request_order {app : τ} {past : List (Happening τ)} {c : Connection π ρ τ}
    (h : Reaches K app past c) :
    let p := Pipeline.after c.events
    c.wire <+: p.bytes ∧ p.bytes <+: p.answers.flatMap Answer.bytes ∧
      (∀ a ∈ p.finished, a.final) ∧ (∀ a ∈ p.finished.dropLast, a.closing = false) ∧
      (∀ a ∈ p.finished.getLast?, a.closing = true → p.taken = []) ∧
      p.pending.length ≤ K.settings.maxPipelinedRequests ∧
      (c.socketOpen = true → c.wire ++ c.writing.getD [] ++ c.output.rest = p.bytes) := by
  have hs : Sound _ c.view := h.sound
  obtain ⟨k, -, hrep, hsent⟩ := hs.ordered
  have hbytes := given_eq_bytes hsent
  intro p
  refine ⟨?_, ?_, hrep.finished, hrep.kept, ?_, hrep.pending_le, fun ho => hbytes ▸ hs.flow ho⟩
  · have hshut : c.wire ++ c.writing.getD [] <+: given c.events := (hs.shutDown c.ended id).shut rfl
    exact (List.prefix_append _ _).trans (hbytes ▸ hshut)
  · have hconserved := congrArg (List.flatMap Token.bytes) hrep.conserved
    rw [Pipeline.sent, List.flatMap_append, List.flatMap_append, List.flatMap_assoc, List.flatMap_assoc,
      List.flatMap_assoc] at hconserved
    exact ⟨_, hconserved⟩
  · intro a ha hclosing
    refine hrep.stopped ?_
    rw [hrep.closed, Option.any_eq_true]
    exact ⟨a, ha, hclosing⟩

/-- Before a notificator is told of a success, all that was given out up to its group has been written; the
notificators are told in this order. -/
theorem success_told_after_writing {app : τ} {past : List (Happening τ)} {c : Connection π ρ τ}
    (h : Reaches K app past c) :
    ∃ done, done <+: (Pipeline.after c.events).sent ∧ done.filterMap Token.notificator? = c.view.confirmed ∧
      done.flatMap Token.bytes <+: c.wire := by
  have hs : Sound _ c.view := h.sound
  obtain ⟨k, -, -, hsent⟩ := hs.ordered
  obtain ⟨done, current, htokens, hdone, hwritten, -⟩ := hs.told
  exact ⟨done, hsent ▸ ⟨current, htokens.symm⟩, hdone, hwritten⟩

end Soundness

section Deferred

def byteParser : HttpParser (Option UInt8) UInt8 where
  init := none
  execute s data := (min 1 data.length, true, data.head? <|> s)
  messageComplete s := s.isSome
  upgrade _ := false
  request s := s.getD 0
  moved s := s
  reset _ := none
  reset_init := rfl

def deferred : Application UInt8 Unit where
  handler _ _ := .pure .accepted
  notificator _ _ := .pure ()

def deferredEnvironment : Environment (Option UInt8) UInt8 Unit := ⟨⟨16, 2, 60, 10, 5⟩, byteParser, deferred⟩

def deferredResponse (id : RequestId) (byte : UInt8) : Happening Unit :=
  .responseParts id ⟨.finalParts, .connectionKeepalive⟩ ⟨[.trivialWriteOperation [byte]], 0, some id.toNat, .inl rfl⟩

-- The second request gets its response first.
def deferredPast : List (Happening Unit) :=
  [.readDone (.ok [7]), .readDone (.ok [8]), deferredResponse 1 80, deferredResponse 0 70, .writeDone .success 0,
    .writeDone .success 0]

theorem reaches_deferred :
    ∃ c, Reaches deferredEnvironment () deferredPast c ∧ c.handled = [7, 8] ∧ c.wire = [70, 80] ∧ c.view.confirmed = [0, 1] := by
  have hstart : Reaches deferredEnvironment () [] _ := .start ⟨2, rfl⟩
  have hread : Reaches deferredEnvironment () (deferredPast.take 1) _ := .next hstart ⟨8, rfl⟩
  have hread' : Reaches deferredEnvironment () (deferredPast.take 2) _ := .next hread ⟨8, rfl⟩
  have hsecond : Reaches deferredEnvironment () (deferredPast.take 3) _ := .next hread' ⟨8, rfl⟩
  have hfirst : Reaches deferredEnvironment () (deferredPast.take 4) _ := .next hsecond ⟨8, rfl⟩
  have hwritten : Reaches deferredEnvironment () (deferredPast.take 5) _ := .next hfirst ⟨8, rfl⟩
  have hwritten' : Reaches deferredEnvironment () deferredPast _ := .next hwritten ⟨8, rfl⟩
  exact ⟨_, hwritten', rfl, rfl, rfl⟩

theorem responses_written_in_request_order_deferred :
    ∃ c : Connection (Option UInt8) UInt8 Unit, c.wire = [70, 80] ∧ c.wire <+: (Pipeline.after c.events).bytes := by
  obtain ⟨c, hc, -, hwire, -⟩ := reaches_deferred
  exact ⟨c, hwire, (responses_written_in_request_order hc).1⟩

theorem success_told_after_writing_deferred :
    ∃ (c : Connection (Option UInt8) UInt8 Unit) (done : List Token), done <+: (Pipeline.after c.events).sent ∧
      done.filterMap Token.notificator? = [0, 1] ∧ done.flatMap Token.bytes <+: [70, 80] := by
  obtain ⟨c, hc, -, hwire, hconfirmed⟩ := reaches_deferred
  obtain ⟨done, hdone⟩ := success_told_after_writing hc
  exact ⟨c, done, by rwa [hwire, hconfirmed] at hdone⟩

end Deferred

end NgkNet.Restinio.Http
