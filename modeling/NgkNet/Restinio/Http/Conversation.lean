import NgkNet.Restinio.Http.Replies

set_option autoImplicit false

namespace NgkNet.Restinio.Http

open Ascii Prog

variable {π ρ τ : Type} {K : Environment π ρ τ} {c : Connection π ρ τ} {wg : WriteGroup} {maxReqCount : ℕ}

section Requests

structure Scans (P : HttpParser π ρ) (text : Str) (request : ρ) (after : ℕ → π) : Prop where
  start : after 0 = P.init
  part : ∀ i j, i < j → j < text.length → P.execute (after i) ((text.drop i).take (j - i)) = (j - i, true, after j)
  last : ∀ i rest, i < text.length → P.execute (after i) (text.drop i ++ rest) = (text.length - i, true, after text.length)
  incomplete : ∀ i, i < text.length → P.messageComplete (after i) = false
  complete : P.messageComplete (after text.length) = true
  plain : P.upgrade (after text.length) = false
  request : P.request (after text.length) = request
  again : P.reset (P.moved (after text.length)) = P.init
  ne_nil : text ≠ []

def HttpParser.map {ρ' : Type} (P : HttpParser π ρ) (f : ρ → ρ') : HttpParser π ρ' :=
  ⟨P.init, P.execute, P.messageComplete, P.upgrade, fun s => f (P.request s), P.moved, P.reset, P.reset_init⟩

theorem Scans.map {ρ' : Type} {P : HttpParser π ρ} {text : Str} {request : ρ} {after : ℕ → π} (h : Scans P text request after)
    (f : ρ → ρ') : Scans (P.map f) text (f request) after :=
  ⟨h.start, h.part, h.last, h.incomplete, h.complete, h.plain, congrArg f h.request, h.again, h.ne_nil⟩

theorem ends_waitForHttpMessage (hbuf : c.buf = []) {Q : Connection π ρ τ → Prop}
    (h : Q { (c.resetParser K).guardReadOperation K with readOperationIsRunning := true }) :
    Ends (body K) (waitForHttpMessage K) c (fun _ => Q) := by
  have hlength : ¬ ((c.resetParser K).guardReadOperation K).buf.length ≠ 0 := by
    rw [Connection.guardReadOperation]
    split <;> simp [Connection.resetParser, Connection.scheduleOperationTimeoutCallback, hbuf]
  refine ends_change (ends_change (ends_current ?_))
  rw [if_neg hlength]
  exact ends_change_last h

theorem Coordinator.Vacant.guardReadOperation {closed : Bool} (h : c.coordinator.Vacant closed maxReqCount) :
    c.guardReadOperation K =
      c.scheduleOperationTimeoutCallback K.settings.readNextHttpMessageTimelimit .handleReadTimeout := by
  rw [Connection.guardReadOperation, if_pos h.empty]

structure Idle (maxReqCount : ℕ) (c : Connection π ρ τ) : Prop extends Ready c where
  output : c.output = .initial
  writing : c.writing = none
  vacant : c.coordinator.Vacant false maxReqCount
  buf : c.buf = []
  reading : c.readOperationIsRunning = true

structure Replying (maxReqCount : ℕ) (wg : WriteGroup) (data : Str) (c : Connection π ρ τ) : Prop extends Writing wg data c where
  vacant : c.coordinator.Vacant false maxReqCount
  flag : c.initReadAfterThisWrite = decide (maxReqCount = 1)
  buf : c.buf = []
  reading : c.readOperationIsRunning = true

theorem ends_readDone (hreading : c.readOperationIsRunning = true) {data : Str}
    (hsize : data.length ≤ K.settings.bufferSize) {Q : Unit → Connection π ρ τ → Prop}
    (h : Ends (body K) (consumeData K) { c with readOperationIsRunning := false, buf := data } Q) :
    Ends (body K) (onHappening K (.readDone (.ok data))) c Q := by
  refine ends_current ?_
  rw [if_pos hreading]
  refine ends_change (ends_change (ends_guarded ?_))
  rw [List.take_of_length_le hsize]
  exact h

def Connection.received (c : Connection π ρ τ) (parser : π) : Connection π ρ τ :=
  { c with readOperationIsRunning := false, parser := parser, buf := [] }

section Pieces

variable {text : Str} {request : ρ} {after : ℕ → π} (hscans : Scans K.parser text request after)

include hscans

theorem ends_part {i j : ℕ} (hij : i < j) (hj : j < text.length) (hsize : j - i ≤ K.settings.bufferSize)
    (hidle : Idle K.settings.maxPipelinedRequests c) (hparser : c.parser = after i) :
    Ends (body K) (onHappening K (.readDone (.ok ((text.drop i).take (j - i))))) c
      (fun _ d => Idle K.settings.maxPipelinedRequests d ∧ d.parser = after j ∧ d.app = c.app ∧ d.handled = c.handled ∧
        d.wire = c.wire) := by
  have hlength : ((text.drop i).take (j - i)).length ≤ j - i := List.length_take_le _ _
  have hexecute : K.parser.execute c.parser ((text.drop i).take (j - i)) = (j - i, true, after j) := by
    rw [hparser, hscans.part i j hij hj]
  refine ends_readDone hidle.reading (hlength.trans hsize) ?_
  refine ends_of_evals (consumeData_piece
    (c := { c with readOperationIsRunning := false, buf := (text.drop i).take (j - i) }) hexecute
    (hscans.incomplete j hj)) ?_
  exact ⟨⟨⟨hidle.socketOpen, hidle.upgradeStage, hidle.ended⟩, hidle.output, hidle.writing, hidle.vacant,
    List.drop_eq_nil_iff.mpr hlength, rfl⟩, rfl, rfl, rfl, rfl⟩

theorem Scans.execute_last {i : ℕ} (hi : i < text.length) :
    K.parser.execute (after i) (text.drop i) = (text.length - i, true, after text.length) := by
  have hlast := hscans.last i [] hi
  rwa [List.append_nil] at hlast

theorem ends_last {i : ℕ} (hi : i < text.length) (hsize : text.length - i ≤ K.settings.bufferSize)
    (hidle : Idle K.settings.maxPipelinedRequests c) (hparser : c.parser = after i) {Q : Unit → Connection π ρ τ → Prop}
    (h : Ends (body K) (onRequestMessageComplete K) (c.received (after text.length)) Q ∨
      Fails (body K) (onRequestMessageComplete K) (c.received (after text.length)) (fun d => Ends (body K) close d Q)) :
    Ends (body K) (onHappening K (.readDone (.ok (text.drop i)))) c Q := by
  have hlength : (text.drop i).length = text.length - i := List.length_drop
  have hexecute := hscans.execute_last hi
  rw [← hparser] at hexecute
  have hbuf : (text.drop i).drop (text.length - i) = [] := List.drop_eq_nil_iff.mpr hlength.le
  refine ends_readDone hidle.reading (by rw [hlength]; exact hsize) ?_
  rcases h with h | h
  · refine consumeData_complete (c := { c with readOperationIsRunning := false, buf := text.drop i }) hexecute
      hscans.complete ?_
    dsimp only
    rw [hbuf]
    exact h
  · refine consumeData_fails (c := { c with readOperationIsRunning := false, buf := text.drop i }) hexecute
      hscans.complete ?_
    dsimp only
    rw [hbuf]
    exact h

end Pieces

end Requests

section Writes

theorem ends_writeDone {data : Str} (hwriting : c.writing = some data) (n : ℕ) {Q : Unit → Connection π ρ τ → Prop}
    (h : Ends (body K) (handleCurrentWriteCtx K) { c with writing := none, wire := c.wire ++ data } Q) :
    Ends (body K) (onHappening K (.writeDone .success n)) c Q := by
  refine ends_current ?_
  rw [hwriting]
  dsimp only
  rw [if_neg (by simp)]
  exact ends_change (ends_guarded h)

theorem ends_lastWrite {data : Str} (h : Writing wg data c) (hnotificator : wg.afterWriteNotificator = none)
    (hoperation : c.output.extractNextWriteOperation.1 = .none) {Q : Unit → Connection π ρ τ → Prop}
    (hnext : Ends (body K) (if c.coordinator.closed then close else do
      when c.initReadAfterThisWrite (call .waitForHttpMessage)
      initWriteIfNecessary K) { c with writing := none, wire := c.wire ++ data, output := .initial } Q) :
    Ends (body K) (onHappening K (.writeDone .success 0)) c Q := by
  refine ends_writeDone h.writing 0 (ends_current ?_)
  dsimp only
  rw [hoperation]
  refine ends_bind (ends_current (ends_change ?_))
  dsimp only
  rw [h.current, Option.bind_some, hnotificator]
  refine ends_change_last (ends_current ?_)
  dsimp only
  rw [if_pos h.upgradeStage]
  exact hnext

theorem ends_nothingToWrite (houtput : c.output = .initial) (hvacant : c.coordinator.Vacant false maxReqCount)
    {Q : Connection π ρ τ → Prop} (h : Q (c.guardReadOperation K)) :
    Ends (body K) (initWriteIfNecessary K) c (fun _ => Q) := by
  refine ends_current ?_
  rw [houtput, if_neg (by exact Bool.false_ne_true)]
  refine ends_current ?_
  rw [hvacant.pop]
  refine ends_change (ends_current ?_)
  rw [hvacant.closed, hvacant.empty, if_neg Bool.false_ne_true, if_pos rfl]
  exact ends_change_last h

variable (K) in
inductive Runs : Connection π ρ τ → List (Happening τ) → Connection π ρ τ → Prop where
  | nil (c : Connection π ρ τ) : Runs c [] c
  | cons {c d e : Connection π ρ τ} {x : Happening τ} {xs : List (Happening τ)}
      (h : Evals (body K) (onHappening K x) c (.ok ()) d) (hs : Runs d xs e) : Runs c (x :: xs) e

theorem Runs.append {c d e : Connection π ρ τ} {xs ys : List (Happening τ)} (h : Runs K c xs d) (h' : Runs K d ys e) :
    Runs K c (xs ++ ys) e := by
  induction h with
  | nil c => exact h'
  | cons hx _ ih => exact .cons hx (ih h')

theorem Runs.single {d : Connection π ρ τ} {x : Happening τ} (h : Evals (body K) (onHappening K x) c (.ok ()) d) :
    Runs K c [x] d :=
  .cons h (.nil d)

theorem Reaches.runs {app : τ} {past xs : List (Happening τ)} {d : Connection π ρ τ} (h : Reaches K app past c)
    (hruns : Runs K c xs d) : Reaches K app (past ++ xs) d := by
  induction hruns generalizing past with
  | nil c => rwa [List.append_nil]
  | cons hx _ ih =>
    rw [List.append_cons]
    exact ih (h.next hx)

theorem extractNextWriteOperation_index (o : OutputCtx) (h : o.extractNextWriteOperation.1 ≠ .none) :
    o.nextWritableItemIndex < ((o.currentWg.map WriteGroup.items).getD []).length ∧
      o.nextWritableItemIndex < o.extractNextWriteOperation.2.nextWritableItemIndex := by
  rw [OutputCtx.extractNextWriteOperation] at h ⊢
  dsimp only at h ⊢
  cases hitem : ((o.currentWg.map WriteGroup.items).getD [])[o.nextWritableItemIndex]? with
  | none => simp [hitem] at h
  | some item =>
    obtain ⟨hlt, heq⟩ := List.getElem?_eq_some_iff.mp hitem
    refine ⟨hlt, ?_⟩
    cases item with
    | trivialWriteOperation buf =>
      rw [List.drop_eq_getElem_cons hlt, heq]
      simp [OutputCtx.prepareTrivialBuffersWo, maxIovLen]
    | fileWriteOperation content timelimit => simp

theorem runs_operations {data : Str} (hwriting : Writing wg data c) :
    ∃ n d data', Runs K c (List.replicate n (.writeDone .success 0)) d ∧ Writing wg data' d ∧
      d.output.extractNextWriteOperation.1 = .none ∧ d.input = { c.input with wire := d.wire } ∧
      d.coordinator = c.coordinator ∧ d.initReadAfterThisWrite = c.initReadAfterThisWrite ∧
      d.wire ++ data' = c.wire ++ (data ++ c.output.rest) := by
  induction hleft : wg.items.length - c.output.nextWritableItemIndex using Nat.strong_induction_on generalizing c data with
  | _ left ih =>
    by_cases hoperation : c.output.extractNextWriteOperation.1 = .none
    · refine ⟨0, c, data, .nil c, hwriting, hoperation, rfl, rfl, rfl, ?_⟩
      rw [c.output.extractNextWriteOperation_none hoperation, List.append_nil]
    · obtain ⟨_, d, heval, hinput, hcoordinator, hflag, houtput, data', hwriting', hbytes⟩ := ends_writeDone hwriting.writing 0
        (ends_startOperation (K := K) (c := { c with writing := none, wire := c.wire ++ data }) hwriting.socketOpen hoperation)
      have hindex := extractNextWriteOperation_index _ hoperation
      rw [hwriting.current] at hindex
      have hready : Ready d := Ready.of_input (c := { c with writing := none, wire := c.wire ++ data })
        ⟨hwriting.socketOpen, hwriting.upgradeStage, hwriting.ended⟩ hinput
      have hcurrent : d.output.currentWg = some wg := by
        rw [houtput, OutputCtx.extractNextWriteOperation_currentWg]
        exact hwriting.current
      have hlt : wg.items.length - d.output.nextWritableItemIndex < left := by
        rw [houtput]
        simp only [Option.map_some, Option.getD_some] at hindex
        dsimp only
        omega
      obtain ⟨n, e, data'', hruns, hwriting'', hoperation', hinput', hcoordinator', hflag', hwire⟩ :=
        ih _ hlt ⟨hready, hcurrent, hwriting'⟩ rfl
      refine ⟨n + 1, e, data'', .cons heval hruns, hwriting'', hoperation', ?_, hcoordinator'.trans hcoordinator,
        hflag'.trans hflag, ?_⟩
      · rw [hinput', hinput]
        rfl
      · have hwire' : d.wire = c.wire ++ data := congrArg Input.wire hinput
        rw [hwire, hbytes, hwire', List.append_assoc]

theorem runs_reply {data : Str} (h : Replying maxReqCount wg data c) (hnotificator : wg.afterWriteNotificator = none) :
    ∃ n d, Runs K c (List.replicate n (.writeDone .success 0)) d ∧ Idle maxReqCount d ∧
      d.wire = c.wire ++ (data ++ c.output.rest) ∧ d.app = c.app ∧ d.handled = c.handled ∧
      d.parser = if maxReqCount = 1 then K.parser.reset c.parser else c.parser := by
  obtain ⟨n, d, data', hruns, hwriting, hoperation, hinput, hcoordinator, hflag, hwire⟩ := runs_operations (K := K) h.toWriting
  have hvacant : d.coordinator.Vacant false maxReqCount := hcoordinator ▸ h.vacant
  have hbuf : d.buf = [] := (congrArg Input.buf hinput).trans h.buf
  have hreading : d.readOperationIsRunning = true := (congrArg Input.readOperationIsRunning hinput).trans h.reading
  have hend : Ends (body K) (onHappening K (.writeDone .success 0)) d (fun _ e => Idle maxReqCount e ∧
      e.wire = d.wire ++ data' ∧ e.app = d.app ∧ e.handled = d.handled ∧
      e.parser = if maxReqCount = 1 then K.parser.reset d.parser else d.parser) := by
    refine ends_lastWrite hwriting hnotificator hoperation ?_
    rw [hvacant.closed, if_neg Bool.false_ne_true]
    refine ends_bind ?_
    rw [hflag, h.flag]
    by_cases hmax : maxReqCount = 1
    · rw [decide_eq_true hmax]
      refine ends_call (ends_waitForHttpMessage (by exact hbuf) ?_)
      rw [Coordinator.Vacant.guardReadOperation (by exact hvacant)]
      refine ends_nothingToWrite rfl (by exact hvacant) ?_
      rw [Coordinator.Vacant.guardReadOperation (by exact hvacant)]
      exact ⟨⟨⟨hwriting.socketOpen, hwriting.upgradeStage, hwriting.ended⟩, rfl, rfl, hvacant, hbuf, rfl⟩, rfl, rfl, rfl,
        (if_pos hmax).symm⟩
    · rw [decide_eq_false hmax]
      refine ends_pure (ends_nothingToWrite rfl (by exact hvacant) ?_)
      rw [Coordinator.Vacant.guardReadOperation (by exact hvacant)]
      exact ⟨⟨⟨hwriting.socketOpen, hwriting.upgradeStage, hwriting.ended⟩, rfl, rfl, hvacant, hbuf, hreading⟩, rfl, rfl, rfl,
        (if_neg hmax).symm⟩
  obtain ⟨_, e, heval, hidle, hwire', happ, hhandled, hparser⟩ := hend
  refine ⟨n + 1, e, ?_, hidle, hwire'.trans hwire, ?_, ?_, ?_⟩
  · rw [List.replicate_succ']
    exact hruns.append (.single heval)
  · exact happ.trans (congrArg Input.app hinput)
  · exact hhandled.trans (congrArg Input.handled hinput)
  · rw [hparser, show d.parser = c.parser from congrArg Input.parser hinput]

theorem runs_goodbye {data : Str} (hwriting : Writing wg data c) (hvacant : c.coordinator.Vacant true maxReqCount)
    (hnotificator : wg.afterWriteNotificator = none) :
    ∃ n d, Runs K c (List.replicate n (.writeDone .success 0)) d ∧ d.ended = true ∧ d.socketOpen = false ∧ d.writing = none ∧
      d.wire = c.wire ++ (data ++ c.output.rest) ∧ d.app = c.app ∧ d.handled = c.handled := by
  obtain ⟨n, d, data', hruns, hwriting', hoperation, hinput, hcoordinator, -, hwire⟩ := runs_operations (K := K) hwriting
  have hvacant' : d.coordinator.Vacant true maxReqCount := hcoordinator ▸ hvacant
  have hend : Ends (body K) (onHappening K (.writeDone .success 0)) d (fun _ e => e.ended = true ∧ e.socketOpen = false ∧
      e.writing = none ∧ e.wire = d.wire ++ data' ∧ e.app = d.app ∧ e.handled = d.handled) := by
    refine ends_lastWrite hwriting' hnotificator hoperation ?_
    rw [hvacant'.closed, if_pos rfl]
    refine ends_mono (ends_close_vacant (by exact hvacant')) ?_
    rintro _ e ⟨he, -⟩
    exact ⟨he.ended, he.socketOpen, he.writing, he.wire, he.app, he.handled⟩
  obtain ⟨_, e, heval, hended, hsocket, hnone, hwire', happ, hhandled⟩ := hend
  refine ⟨n + 1, e, ?_, hended, hsocket, hnone, hwire'.trans hwire, ?_, ?_⟩
  · rw [List.replicate_succ']
    exact hruns.append (.single heval)
  · exact happ.trans (congrArg Input.app hinput)
  · exact hhandled.trans (congrArg Input.handled hinput)

end Writes

section Sequence

structure CutOf (bufferSize : ℕ) (cut : List Str) (text : Str) : Prop where
  flatten : cut.flatten = text
  ne_nil : ∀ piece ∈ cut, piece ≠ []
  fits : ∀ piece ∈ cut, piece.length ≤ bufferSize

def reads (cut : List Str) : List (Happening τ) := cut.map fun piece => .readDone (.ok piece)

def exchange (cut : List Str) (n : ℕ) : List (Happening τ) := reads cut ++ List.replicate n (.writeDone .success 0)

theorem runs_pieces {text : Str} {request : ρ} {after : ℕ → π} (hscans : Scans K.parser text request after)
    {cut : List Str} {i : ℕ} (hi : i < text.length) (hcut : CutOf K.settings.bufferSize cut (text.drop i))
    (hidle : Idle K.settings.maxPipelinedRequests c) (hparser : c.parser = after i) {Q : Connection π ρ τ → Prop}
    (h : ∀ d, Idle K.settings.maxPipelinedRequests d → d.app = c.app → d.handled = c.handled → d.wire = c.wire →
      Ends (body K) (onRequestMessageComplete K) (d.received (after text.length)) (fun _ => Q) ∨
      Fails (body K) (onRequestMessageComplete K) (d.received (after text.length))
        (fun e => Ends (body K) close e (fun _ => Q))) :
    ∃ d, Runs K c (reads cut) d ∧ Q d := by
  induction cut generalizing i c with
  | nil =>
    have hnil : [] = text.drop i := hcut.flatten
    rw [eq_comm, List.drop_eq_nil_iff] at hnil
    omega
  | cons piece cut ih =>
    have hflatten : piece ++ cut.flatten = text.drop i := hcut.flatten
    have hfits := hcut.fits piece (by simp)
    have hlength := congrArg List.length hflatten
    rw [List.length_append, List.length_drop] at hlength
    have hpiece : 0 < piece.length := List.length_pos_iff.mpr (hcut.ne_nil piece (by simp))
    have htake : (text.drop i).take piece.length = piece := by rw [← hflatten, List.take_left]
    by_cases hlast : cut = []
    · subst hlast
      rw [List.flatten_nil, List.append_nil] at hflatten
      obtain ⟨_, d, heval, hd⟩ := ends_last hscans hi (by simp at hlength; omega) hidle hparser (h c hidle rfl rfl rfl)
      rw [← hflatten] at heval
      exact ⟨d, .single heval, hd⟩
    · have hrest : 0 < cut.flatten.length := by
        obtain ⟨next, cut', rfl⟩ := List.exists_cons_of_ne_nil hlast
        have := List.length_pos_iff.mpr (hcut.ne_nil next (by simp))
        rw [List.flatten_cons, List.length_append]
        omega
      obtain ⟨_, d, heval, hidle', hparser', happ, hhandled, hwire⟩ := ends_part hscans
        (show i < i + piece.length by omega) (by omega) (by omega) hidle hparser
      rw [Nat.add_sub_cancel_left, htake] at heval
      have hcut' : CutOf K.settings.bufferSize cut (text.drop (i + piece.length)) := by
        refine ⟨?_, fun p hp => hcut.ne_nil p (by simp [hp]), fun p hp => hcut.fits p (by simp [hp])⟩
        rw [← List.drop_drop, ← hflatten, List.drop_left]
      obtain ⟨e, hruns, he⟩ := ih (by omega) hcut' hidle' hparser' fun d' hidle'' happ' hhandled' hwire' =>
        h d' hidle'' (happ'.trans happ) (hhandled'.trans hhandled) (hwire'.trans hwire)
      exact ⟨e, .cons heval hruns, he⟩

/-- What is said to a client that sends one request after the other: the state in which it leaves the
application, what is written, and whether the connection is kept. -/
inductive Conversation (A : Application ρ τ) : τ → List ρ → τ → Str → Bool → Prop where
  | nil (a : τ) : Conversation A a [] a [] true
  | keep {a b d : τ} {request : ρ} {requests : List ρ} {response : Whole} {bytes : Str} {kept : Bool}
      (h : A.Replies request a b (.respond response true)) (hs : Conversation A b requests d bytes kept) :
      Conversation A a (request :: requests) d (response.group.bytes ++ bytes) kept
  | close {a b : τ} {request : ρ} {response : Whole} (h : A.Replies request a b (.respond response false)) :
      Conversation A a [request] b response.group.bytes false
  | refuse {a b : τ} {request : ρ} {status : HandlingStatus} {hstatus : status ≠ .accepted}
      (h : A.Replies request a b (.refuse status hstatus)) :
      Conversation A a [request] b (WriteGroup.ofItems createNotImplementedResp).bytes false
  | fail {a b : τ} {request : ρ} (h : A.Replies request a b .fail) : Conversation A a [request] b [] false

section Exchange

variable {text : Str} {request : ρ} {after : ℕ → π} {b : τ} {cut : List Str}
  (hscans : Scans K.parser text request after) (hcut : CutOf K.settings.bufferSize cut text)
  (hmax : 0 < K.settings.maxPipelinedRequests) (hidle : Idle K.settings.maxPipelinedRequests c)
  (hparser : c.parser = K.parser.init)

include hscans hcut hmax hidle hparser

theorem runs_keep {response : Whole} (hreplies : K.application.Replies request c.app b (.respond response true)) :
    ∃ n d, Runs K c (exchange cut n) d ∧ Idle K.settings.maxPipelinedRequests d ∧ d.parser = K.parser.init ∧
      d.wire = c.wire ++ response.group.bytes ∧ d.app = b ∧ d.handled = c.handled ++ [request] := by
  have htext : 0 < text.length := List.length_pos_iff.mpr hscans.ne_nil
  have hagain : ∀ e : Connection π ρ τ, e.parser = K.parser.moved (after text.length) →
      K.parser.reset e.parser = K.parser.init := fun e he => by
    rw [he, hscans.again]
  obtain ⟨d, hreads, data, hreplying, hbytes, hparser', happ, hhandled, hwire⟩ := runs_pieces (Q := fun d => ∃ data,
      Replying K.settings.maxPipelinedRequests response.group data d ∧ data ++ d.output.rest = response.group.bytes ∧
      d.parser = K.parser.init ∧ d.app = b ∧ d.handled = c.handled ++ [request] ∧ d.wire = c.wire)
    hscans htext (by rwa [List.drop_zero]) hidle (hparser.trans hscans.start.symm) fun d hidle' happ hhandled hwire => .inl (by
      rw [← happ] at hreplies
      refine ends_respond (c := d.received (after text.length)) ⟨hidle'.socketOpen, hidle'.upgradeStage, hidle'.ended⟩
        hidle'.vacant hmax hscans.plain hscans.request hidle'.output hreplies fun e he => ?_
      obtain ⟨data, hwriting, hbytes⟩ := he.writing
      refine ends_call (ends_waitForHttpMessage he.buf ?_)
      have hvacant : (e.resetParser K).coordinator.Vacant false K.settings.maxPipelinedRequests := he.vacant
      rw [hvacant.guardReadOperation]
      exact ⟨data, ⟨⟨⟨hwriting.socketOpen, hwriting.upgradeStage, hwriting.ended⟩, hwriting.current, hwriting.writing⟩,
        he.vacant, he.flag, he.buf, rfl⟩, hbytes, hagain e he.parser, he.app,
        he.handled.trans (by exact congrArg (· ++ [request]) hhandled), he.wire.trans hwire⟩)
  obtain ⟨n, e, hwrites, hidle', hwire', happ', hhandled', hparser''⟩ := runs_reply (K := K) hreplying response.notificator
  refine ⟨n, e, hreads.append hwrites, hidle', ?_, ?_, happ'.trans happ, hhandled'.trans hhandled⟩
  · rw [hparser'', hparser', K.parser.reset_init, ite_self]
  · rw [hwire', hwire, hbytes]

omit hmax in
theorem runs_close {closing : WriteGroup} (hnotificator : closing.afterWriteNotificator = none)
    (hreply : ∀ d : Connection π ρ τ, Ready d → d.coordinator.Vacant false K.settings.maxPipelinedRequests →
      K.parser.upgrade d.parser = false → K.parser.request d.parser = request → d.output = .initial → d.app = c.app →
      ∀ Q, (∀ e, Replied K closing true b request d e → Q e) →
        Ends (body K) (onRequestMessageComplete K) d (fun _ => Q)) :
    ∃ n d, Runs K c (exchange cut n) d ∧ d.ended = true ∧ d.socketOpen = false ∧ d.writing = none ∧
      d.wire = c.wire ++ closing.bytes ∧ d.app = b ∧ d.handled = c.handled ++ [request] := by
  have htext : 0 < text.length := List.length_pos_iff.mpr hscans.ne_nil
  obtain ⟨d, hreads, data, hwriting, hvacant, hbytes, happ, hhandled, hwire⟩ := runs_pieces (Q := fun d => ∃ data,
      Writing closing data d ∧ d.coordinator.Vacant true K.settings.maxPipelinedRequests ∧
      data ++ d.output.rest = closing.bytes ∧ d.app = b ∧ d.handled = c.handled ++ [request] ∧ d.wire = c.wire)
    hscans htext (by rwa [List.drop_zero]) hidle (hparser.trans hscans.start.symm) fun d hidle' happ hhandled hwire => .inl (by
      refine hreply (d.received (after text.length)) ⟨hidle'.socketOpen, hidle'.upgradeStage, hidle'.ended⟩ hidle'.vacant
        hscans.plain hscans.request hidle'.output happ _ fun e he => ?_
      obtain ⟨data, hwriting, hbytes⟩ := he.writing
      exact ⟨data, hwriting, he.vacant, hbytes, he.app, he.handled.trans (by exact congrArg (· ++ [request]) hhandled),
        he.wire.trans hwire⟩)
  obtain ⟨n, e, hwrites, hended, hsocket, hnone, hwire', happ', hhandled'⟩ := runs_goodbye (K := K) hwriting hvacant hnotificator
  refine ⟨n, e, hreads.append hwrites, hended, hsocket, hnone, ?_, happ'.trans happ, hhandled'.trans hhandled⟩
  rw [hwire', hwire, hbytes]

theorem runs_fail (hreplies : K.application.Replies request c.app b .fail) :
    ∃ d, Runs K c (exchange cut 0) d ∧ d.ended = true ∧ d.socketOpen = false ∧ d.writing = none ∧
      d.wire = c.wire ∧ d.app = b ∧ d.handled = c.handled ++ [request] := by
  have htext : 0 < text.length := List.length_pos_iff.mpr hscans.ne_nil
  obtain ⟨d, hreads, hd⟩ := runs_pieces (Q := fun d => d.ended = true ∧ d.socketOpen = false ∧ d.writing = none ∧
      d.wire = c.wire ∧ d.app = b ∧ d.handled = c.handled ++ [request])
    hscans htext (by rwa [List.drop_zero]) hidle (hparser.trans hscans.start.symm) fun d hidle' happ hhandled hwire => .inr (by
      rw [← happ] at hreplies
      obtain ⟨ex, e, hthrow, hclose⟩ := fails_fail (c := d.received (after text.length))
        ⟨hidle'.socketOpen, hidle'.upgradeStage, hidle'.ended⟩ hidle'.vacant hmax hscans.plain hscans.request hreplies
      refine ⟨ex, e, hthrow, ends_mono hclose ?_⟩
      rintro _ f ⟨hended, hsocket, hwriting, happ', hhandled', hwire'⟩
      exact ⟨hended, hsocket, hwriting.trans hidle'.writing, hwire'.trans hwire, happ',
        hhandled'.trans (by exact congrArg (· ++ [request]) hhandled)⟩)
  exact ⟨d, hreads.append (.nil d), hd⟩

end Exchange

theorem runs_conversation (hmax : 0 < K.settings.maxPipelinedRequests) {requests : List ρ} {b : τ} {bytes : Str} {kept : Bool}
    (h : Conversation K.application c.app requests b bytes kept) {cuts : List (List Str)}
    (hcuts : List.Forall₂ (fun cut request => ∃ text after, Scans K.parser text request after ∧
      CutOf K.settings.bufferSize cut text) cuts requests)
    (hidle : Idle K.settings.maxPipelinedRequests c) (hparser : c.parser = K.parser.init) :
    ∃ counts d, List.length counts = cuts.length ∧ Runs K c (List.zipWith exchange cuts counts).flatten d ∧
      d.socketOpen = kept ∧ d.ended = !kept ∧ d.writing = none ∧ d.wire = c.wire ++ bytes ∧ d.app = b ∧
      d.handled = c.handled ++ requests := by
  generalize happ : c.app = a at h
  -- The last exchange of a conversation that ends with the connection.
  have hsingle : ∀ {cuts : List (List Str)} {request : ρ}, List.Forall₂ (fun cut request => ∃ text after,
      Scans K.parser text request after ∧ CutOf K.settings.bufferSize cut text) cuts [request] → ∃ cut, cuts = [cut] ∧
      ∃ text after, Scans K.parser text request after ∧ CutOf K.settings.bufferSize cut text := by
    intro cuts request hcuts
    obtain ⟨cut, rest, hcut, hrest, rfl⟩ := List.forall₂_cons_right_iff.mp hcuts
    obtain rfl := List.forall₂_nil_right_iff.mp hrest
    exact ⟨cut, rfl, hcut⟩
  induction h generalizing c cuts with
  | nil a =>
    obtain rfl := List.forall₂_nil_right_iff.mp hcuts
    exact ⟨[], c, rfl, .nil c, hidle.socketOpen, hidle.ended, hidle.writing, by simp, happ, by simp⟩
  | keep hreplies _ ih =>
    subst happ
    obtain ⟨cut, rest, ⟨text, after, hscans, hcut⟩, hrest, rfl⟩ := List.forall₂_cons_right_iff.mp hcuts
    obtain ⟨n, d, hruns, hidle', hparser', hwire, happ, hhandled⟩ := runs_keep hscans hcut hmax hidle hparser hreplies
    obtain ⟨counts, e, hcounts, hruns', hsocket, hended, hnone, hwire', happ', hhandled'⟩ := ih hrest hidle' hparser' happ
    refine ⟨n :: counts, e, congrArg (· + 1) hcounts, ?_, hsocket, hended, hnone, ?_, happ', ?_⟩
    · rw [List.zipWith_cons_cons, List.flatten_cons]
      exact hruns.append hruns'
    · rw [hwire', hwire, List.append_assoc]
    · rw [hhandled', hhandled, List.append_assoc]
      rfl
  | @close _ _ _ response hreplies =>
    subst happ
    obtain ⟨cut, rfl, text, after, hscans, hcut⟩ := hsingle hcuts
    obtain ⟨n, d, hruns, hended, hsocket, hnone, hwire, happ, hhandled⟩ := runs_close hscans hcut hidle hparser
      response.notificator fun d hready hvacant hplain hrequest houtput happ Q hQ =>
        ends_respond hready hvacant hmax hplain hrequest houtput (happ ▸ hreplies) fun e he => ends_pure (hQ e he)
    exact ⟨[n], d, rfl, by simpa using hruns, hsocket, hended, hnone, hwire, happ, hhandled⟩
  | refuse hreplies =>
    subst happ
    obtain ⟨cut, rfl, text, after, hscans, hcut⟩ := hsingle hcuts
    obtain ⟨n, d, hruns, hended, hsocket, hnone, hwire, happ, hhandled⟩ := runs_close hscans hcut hidle hparser
      rfl fun d hready hvacant hplain hrequest houtput happ Q hQ =>
        ends_refuse hready hvacant hmax hplain hrequest houtput (happ ▸ hreplies) hQ
    exact ⟨[n], d, rfl, by simpa using hruns, hsocket, hended, hnone, hwire, happ, hhandled⟩
  | fail hreplies =>
    subst happ
    obtain ⟨cut, rfl, text, after, hscans, hcut⟩ := hsingle hcuts
    obtain ⟨d, hruns, hended, hsocket, hnone, hwire, happ, hhandled⟩ := runs_fail hscans hcut hmax hidle hparser hreplies
    exact ⟨[0], d, rfl, by simpa using hruns, hsocket, hended, hnone, by simpa using hwire, happ, hhandled⟩

variable (K) in
theorem reaches_idle (app : τ) :
    ∃ c, Reaches K app [] c ∧ Idle K.settings.maxPipelinedRequests c ∧ c.parser = K.parser.init ∧ c.wire = [] ∧ c.app = app ∧
      c.handled = [] := by
  have hend : Ends (body K) (start K) (Connection.initial K app) (fun _ c => Idle K.settings.maxPipelinedRequests c ∧
      c.parser = K.parser.init ∧ c.wire = [] ∧ c.app = app ∧ c.handled = []) :=
    ends_change (ends_waitForHttpMessage rfl ⟨⟨⟨rfl, rfl, rfl⟩, rfl, rfl, Coordinator.vacant_initial _, rfl, rfl⟩,
      K.parser.reset_init, rfl, rfl, rfl⟩)
  obtain ⟨_, c, heval, hc⟩ := hend
  exact ⟨c, .start heval, hc⟩

end Sequence

section Lines

def lineParser : HttpParser (Str × Bool) Str where
  init := ([], false)
  execute s data :=
    let line := data.takeWhile (· ≠ code '\n')
    if line.length < data.length then (line.length + 1, true, (s.1 ++ line, true))
    else (data.length, true, (s.1 ++ line, false))
  messageComplete s := s.2
  upgrade _ := false
  request s := s.1
  moved s := s
  reset _ := ([], false)
  reset_init := rfl

theorem takeWhile_line {line : Str} (h : code '\n' ∉ line) (rest : Str) :
    (line ++ rest).takeWhile (· ≠ code '\n') = line ++ rest.takeWhile (· ≠ code '\n') := by
  refine List.takeWhile_append_of_pos fun b hb => ?_
  simpa using fun heq : b = code '\n' => h (heq ▸ hb)

theorem lineParser_part (s : Str × Bool) {data : Str} (h : code '\n' ∉ data) :
    lineParser.execute s data = (data.length, true, (s.1 ++ data, false)) := by
  have hall := takeWhile_line h []
  rw [List.append_nil, List.takeWhile_nil, List.append_nil] at hall
  simp only [lineParser]
  rw [hall, if_neg (lt_irrefl _)]

theorem lineParser_last (s : Str × Bool) {data : Str} (h : code '\n' ∉ data) (rest : Str) :
    lineParser.execute s (data ++ code '\n' :: rest) = (data.length + 1, true, (s.1 ++ data, true)) := by
  simp only [lineParser]
  rw [takeWhile_line h, List.takeWhile_cons_of_neg (by simp), List.append_nil, if_pos (by simp)]

theorem scans_line (line : Str) (h : code '\n' ∉ line) :
    Scans lineParser (line ++ [code '\n']) line (fun i => if i ≤ line.length then (line.take i, false) else (line, true)) where
  start := by simp [lineParser]
  part i j hij hj := by
    rw [List.length_append, List.length_singleton] at hj
    have hpiece : ((line ++ [code '\n']).drop i).take (j - i) = (line.drop i).take (j - i) := by
      rw [List.drop_append_of_le_length (by omega), List.take_append_of_le_length (by rw [List.length_drop]; omega)]
    have hlength : ((line.drop i).take (j - i)).length = j - i := List.length_take_of_le (by rw [List.length_drop]; omega)
    rw [hpiece, lineParser_part, hlength, if_pos (by omega), if_pos (by omega)]
    · dsimp only
      rw [← List.take_add, Nat.add_sub_cancel' hij.le]
    · exact fun hb => h (List.mem_of_mem_drop (List.mem_of_mem_take hb))
  last i rest hi := by
    rw [List.length_append, List.length_singleton] at hi
    rw [List.drop_append_of_le_length (by omega), List.append_assoc, List.singleton_append, lineParser_last]
    · rw [if_pos (by omega), if_neg (by simp), List.take_append_drop, List.length_drop, List.length_append,
        List.length_singleton]
      congr 1
      omega
    · exact fun hb => h (List.mem_of_mem_drop hb)
  incomplete i hi := by
    rw [List.length_append, List.length_singleton] at hi
    rw [if_pos (by omega)]
    rfl
  complete := by simp [lineParser]
  plain := rfl
  request := by simp [lineParser]
  again := rfl
  ne_nil := by simp

def numberLines : Application Str ℕ where
  handler id line := .update (· + 1) fun n =>
    if line = [] then .pure .rejected
    else .writeResponseParts id ⟨.finalParts, .connectionKeepalive⟩
      (.ofItems [.trivialWriteOperation (ascii (toString n)), .trivialWriteOperation line]) (.pure .accepted)
  notificator _ _ := .pure ()

def numbered (n : ℕ) (line : Str) : Whole :=
  ⟨.ofItems [.trivialWriteOperation (ascii (toString n)), .trivialWriteOperation line], by simp [WriteGroup.ofItems], rfl⟩

def defaultSettings : Settings := ⟨4096, 1, 60, 10, 5⟩

def lineEnvironment : Environment (Str × Bool) Str ℕ := ⟨defaultSettings, lineParser, numberLines⟩

end Lines

end NgkNet.Restinio.Http
