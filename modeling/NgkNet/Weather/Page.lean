import Mathlib.Data.List.Induction
import NgkNet.Weather.Blocking
import NgkNet.Weather.Chat

set_option autoImplicit false

namespace NgkNet.Weather

open Ascii Restinio WebSocket PercentEncoding

abbrev Form := Station

inductive Call where
  | sendData
  | updateData (idnumber : Str)
  | deleteById (idnumber : Str)
  deriving DecidableEq

structure Browser where
  json : Form → Str
  path : Str → Str
  connectionId : ℕ
  socketId : ℕ

def Browser.request (browser : Browser) (method : Method) (path body : Str) : Request :=
  ⟨method, path, body, false, none, true, browser.connectionId⟩

def Call.request (browser : Browser) (form : Form) : Call → Request
  | .sendData => browser.request .post (ascii "/") (browser.json form)
  | .updateData idnumber => browser.request .put (browser.path idnumber) (browser.json form)
  | .deleteById idnumber => browser.request .delete (browser.path idnumber) []

def announce (form : Form) (done : Str) : Str := ascii "ID: " ++ form.ID ++ done

def Call.announcement (form : Form) : Call → Str
  | .sendData => announce form (ascii " added.")
  | .updateData _ => announce form (ascii " updated.")
  | .deleteById _ => announce form (ascii " deleted.")

inductive ReadyState where
  | connecting
  | connected
  | closed
  deriving DecidableEq

/-- The page, its HTTP connection and its socket. The requests of the calls behind those handled are on
their way to the server. -/
structure Session where
  store : Store
  readyState : ReadyState
  calls : List (Call × Form)
  handled : List (Store × Outcome)
  announced : List (ℕ × Call × Form)
  toServer : List Str
  toPage : List Str
  displayed : List Str

inductive Action where
  | connect
  | call (c : Call) (form : Form)
  | handleRequest
  | handleFrame
  | display
  | disconnect
  | otherRequest (req : Request)
  | otherFrame (id : ℕ) (m : Message)

def hello : Str := ascii "Hello Server!"

def Session.start (store : Store) : Session := ⟨store, .connecting, [], [], [], [], [], []⟩

def Session.send (s : Session) (c : Call) (form : Form) : Session :=
  -- Before the socket is open sending throws, behind its end it does nothing.
  if s.readyState = .connected then
    { s with
      announced := s.announced ++ [(s.calls.length, c, form)], toServer := s.toServer ++ [c.announcement form] }
  else s

def Session.issue (s : Session) (c : Call) (form : Form) : Session := { s with calls := s.calls ++ [(c, form)] }

variable (env : Env) (browser : Browser)

def Session.handleRequest (s : Session) : Session :=
  match s.calls[s.handled.length]? with
  | none => s
  | some (c, form) =>
    let out := serve env (c.request browser form) s.store
    { s with store := out.2.1, handled := s.handled ++ [(s.store, out)] }

def Session.handleFrame (s : Session) : Session :=
  match s.toServer with
  | [] => s
  | text :: rest =>
    let r := liveUpdateCall browser.socketId ⟨true, .textFrame, text⟩ s.store
    { s with store := r.1, toServer := rest, toPage := s.toPage ++ r.2.map Message.payload }

def Session.display (s : Session) : Session :=
  match s.toPage with
  | [] => s
  | text :: rest => { s with toPage := rest, displayed := s.displayed ++ [text] }

def Session.step (s : Session) : Action → Session
  | .connect =>
    if s.readyState = .connecting then { s with readyState := .connected, toServer := [hello] } else s
  | .call c form => (s.send c form).issue c form
  | .handleRequest => s.handleRequest env browser
  | .handleFrame => s.handleFrame browser
  | .display => s.display
  | .disconnect => { s with readyState := .closed, toServer := [], toPage := [] }
  | .otherRequest req => { s with store := (serve env req s.store).2.1 }
  | .otherFrame id m => { s with store := (liveUpdateCall id m s.store).1 }

def Session.run (s : Session) (actions : List Action) : Session := actions.foldl (Session.step env browser) s

def Call.Names (ID : Str) : Call → Prop
  | .sendData => True
  | .updateData idnumber => idnumber = ID
  | .deleteById idnumber => idnumber = ID

def Call.Applied (c : Call) (form : Form) (out : Outcome) : Prop :=
  c.Names form.ID ∧ Answered out statusOk ∧
    (c = .sendData → ∃ b, env.json.fromJson (browser.json form) = some b ∧ b.ID = form.ID)

def Session.Confirms (s : Session) (k : ℕ) (text : Str) : Prop :=
  ∃ i c form found out, s.announced[k]? = some (i, c, form) ∧ text = c.announcement form ∧
    s.calls[i]? = some (c, form) ∧ s.handled[i]? = some (found, out) ∧ c.Applied env browser form out

def Session.Truthful (s : Session) : Prop :=
  ∀ (k : ℕ) (text : Str), s.displayed[k + 1]? = some text → s.Confirms env browser k text

def Call.Acceptable (form : Form) (w : List Station) (c : Call) : Prop :=
  c.Names form.ID ∧
    match c with
    | .sendData => ∃ b, env.json.fromJson (browser.json form) = some b ∧ b.ID = form.ID
    | .updateData _ => ∃ n b, Addresses env (c.request browser form) .put n ∧
        env.json.fromJson (browser.json form) = some b ∧ (∃ d ∈ w, Matches (cast env) n d) ∧
        ∀ d ∈ w, ¬ Unparsable (cast env) d
    | .deleteById _ => ∃ n, Addresses env (c.request browser form) .delete n ∧
        ∀ d ∈ visited (cast env) n w, ¬ Unparsable (cast env) d

def Session.Earned (s : Session) (k : ℕ) : Prop :=
  ∃ i c form found out, s.announced[k]? = some (i, c, form) ∧ s.handled[i]? = some (found, out) ∧
    c.Acceptable env browser form found.weather

/-- The announcement that is displayed next is of a call that the server has handled, in front of a
collection with which it takes the call. -/
def Session.Due (s : Session) : Prop :=
  ∀ k : ℕ, s.toPage ≠ [] → s.displayed.length = k + 1 → s.Earned env browser k

section Server

variable {env : Env} {browser : Browser} {req : Request} {store : Store}

theorem Answered.dispatched {status : StatusLine} (h : Answered (serve env req store) status) :
    ∃ path handler params, targetPath req.path = .ok path ∧
      dispatch entries req.method path = some (handler, params) := by
  cases hp : targetPath req.path with
  | error e => simp [serve, serveWith, hp, Answered] at h
  | ok path =>
    cases hd : dispatch entries req.method path with
    | none => simp [serve, serveWith, hp, hd, Answered] at h
    | some found => exact ⟨path, found.1, found.2, rfl, hd⟩

theorem not_answered_methodNotAllowed {path : Str} {params : RouteParams} (hp : targetPath req.path = .ok path)
    (hd : dispatch entries req.method path = some (.methodNotAllowed, params)) :
    ¬ Answered (serve env req store) statusOk := by
  rw [serve_of_dispatch env store hp hd, runHandler, methodNotAllowed_run, answered_iff]
  exact (by decide : statusMethodNotAllowed ≠ statusOk)

theorem answered_put_iff (hm : req.method = .put) :
    Answered (serve env req store) statusOk ↔ ∃ n b, Addresses env req .put n ∧
      env.json.fromJson req.body = some b ∧ (∃ d ∈ store.weather, Matches (cast env) n d) ∧
      ∀ d ∈ store.weather, ¬ Unparsable (cast env) d := by
  constructor
  · intro h
    obtain ⟨path, handler, params, hp, hd⟩ := h.dispatched
    obtain ⟨r, hr, rfl, ht, -⟩ := exists_row_of_dispatch hd
    have hh : ∀ r ∈ rows, r.methods.test .put = true → r.handler = .weatherUpdate ∨ r.handler = .methodNotAllowed := by
      decide
    rcases hh r hr (hm ▸ ht) with hr | hr <;> rw [hr] at hd
    · obtain ⟨ID, -, hID, hs⟩ := serve_weatherUpdate env hp hd store
      rw [hs] at h
      cases hc : cast env ID with
      | error e => simp [hc, Answered] at h
      | ok n =>
        cases hb : env.json.fromJson req.body with
        | none =>
          rw [hc, hb] at h
          exact absurd (answered_iff.mp h) statusOk_ne_badRequest.symm
        | some b =>
          rw [hc, hb] at h
          exact ⟨n, b, ⟨hm, path, ID, hp, hID, hc⟩, rfl, updateResponse_ok_iff.mp (answered_iff.mp h)⟩
    · exact absurd h (not_answered_methodNotAllowed hp hd)
  · rintro ⟨n, b, ha, hb, h⟩
    rw [serve_put ha hb, answered_iff, updateResponse_ok_iff]
    exact h

theorem answered_delete_iff (hm : req.method = .delete) :
    Answered (serve env req store) statusOk ↔ ∃ n, Addresses env req .delete n ∧
      ∀ d ∈ visited (cast env) n store.weather, ¬ Unparsable (cast env) d := by
  constructor
  · intro h
    obtain ⟨path, handler, params, hp, hd⟩ := h.dispatched
    obtain ⟨r, hr, rfl, ht, -⟩ := exists_row_of_dispatch hd
    have hh : ∀ r ∈ rows, r.methods.test .delete = true → r.handler = .weatherDelete ∨ r.handler = .methodNotAllowed := by
      decide
    rcases hh r hr (hm ▸ ht) with hr | hr <;> rw [hr] at hd
    · obtain ⟨ID, -, hID, hs⟩ := serve_weatherDelete env hp hd store
      rw [hs] at h
      cases hc : cast env ID with
      | error e => simp [hc, Answered] at h
      | ok n =>
        rw [hc] at h
        exact ⟨n, ⟨hm, path, ID, hp, hID, hc⟩, deleteResponse_ok_iff.mp (answered_iff.mp h)⟩
    · exact absurd h (not_answered_methodNotAllowed hp hd)
  · rintro ⟨n, ha, h⟩
    rw [serve_delete ha, answered_iff, deleteResponse_ok_iff]
    exact h

theorem answered_post {b : Station} (hm : req.method = .post) (hp : req.path = ascii "/")
    (hb : env.json.fromJson req.body = some b) : Answered (serve env req store) statusOk := by
  have ht : targetPath req.path = .ok (ascii "/") := by
    rw [hp]
    decide
  obtain ⟨params, hd⟩ := dispatch_postData.mpr ⟨hm, .inl rfl⟩
  rw [serve_postData env ht hd, hb, answered_iff, baseResponse_status]

theorem applied_iff_acceptable (c : Call) (form : Form) :
    c.Applied env browser form (serve env (c.request browser form) store) ↔
      c.Acceptable env browser form store.weather := by
  apply and_congr_right
  intro _
  cases c with
  | sendData =>
    constructor
    · exact fun h => h.2 rfl
    · rintro ⟨b, hb, hID⟩
      exact ⟨answered_post rfl rfl hb, fun _ => ⟨b, hb, hID⟩⟩
  | updateData idnumber =>
    rw [answered_put_iff rfl]
    simp [Call.request, Browser.request]
  | deleteById idnumber =>
    rw [answered_delete_iff rfl]
    simp

end Server

def Session.line (s : Session) : List Str := s.displayed ++ (s.toPage ++ s.toServer)

def Session.texts (s : Session) : List Str := hello :: s.announced.map (fun a => a.2.1.announcement a.2.2)

structure Session.Sound (s : Session) : Prop where
  silent : s.readyState = .connecting → s.line = [] ∧ s.announced = []
  whole : s.readyState = .connected → s.line = s.texts
  fifo : s.line <+: s.texts
  issued : ∀ a ∈ s.announced, s.calls[a.1]? = some a.2
  served : ∀ (i : ℕ) (found : Store) (out : Outcome), s.handled[i]? = some (found, out) →
    ∃ (c : Call) (form : Form), s.calls[i]? = some (c, form) ∧ out = serve env (c.request browser form) found

structure Session.SameCalls (s s' : Session) : Prop where
  readyState : s'.readyState = s.readyState
  announced : s'.announced = s.announced
  calls : s'.calls = s.calls
  handled : s'.handled = s.handled

section Sound

variable {env : Env} {browser : Browser} {s : Session}

theorem Session.start_sound (store : Store) : (Session.start store).Sound env browser := by
  constructor
  · exact fun _ => ⟨rfl, rfl⟩
  · exact fun h => nomatch h
  · exact List.nil_prefix
  · exact fun a ha => nomatch ha
  · exact fun i found out h => nomatch h

theorem Session.line_handleFrame : (s.handleFrame browser).line = s.line := by
  cases h : s.toServer with
  | nil => simp only [Session.handleFrame, h]
  | cons text rest => simp [Session.handleFrame, Session.line, h, liveUpdateCall]

theorem Session.line_display : s.display.line = s.line := by
  cases h : s.toPage with
  | nil => simp only [Session.display, h]
  | cons text rest => simp [Session.display, Session.line, h]

theorem Session.sameCalls_handleFrame : s.SameCalls (s.handleFrame browser) := by
  rw [Session.handleFrame]
  split <;> exact ⟨rfl, rfl, rfl, rfl⟩

theorem Session.sameCalls_display : s.SameCalls s.display := by
  rw [Session.display]
  split <;> exact ⟨rfl, rfl, rfl, rfl⟩

theorem Session.Sound.congr (h : s.Sound env browser) {s' : Session} (hs : s.SameCalls s') (hl : s'.line = s.line) :
    s'.Sound env browser := by
  obtain ⟨hr, ha, hc, hh⟩ := hs
  have ht : s'.texts = s.texts := by rw [Session.texts, Session.texts, ha]
  constructor
  · rw [hr, hl, ha]
    exact h.silent
  · rw [hr, hl, ht]
    exact h.whole
  · rw [hl, ht]
    exact h.fifo
  · rw [ha, hc]
    exact h.issued
  · rw [hh, hc]
    exact h.served

theorem Session.Sound.connect (h : s.Sound env browser) (hr : s.readyState = .connecting) :
    ({ s with readyState := .connected, toServer := [hello] } : Session).Sound env browser := by
  obtain ⟨hl, ha⟩ := h.silent hr
  have hw : ({ s with readyState := .connected, toServer := [hello] } : Session).line =
      ({ s with readyState := .connected, toServer := [hello] } : Session).texts := by
    simp_all [Session.line, Session.texts]
  exact ⟨fun hr' => (nomatch hr'), fun _ => hw, hw ▸ List.prefix_rfl, h.issued, h.served⟩

theorem Session.Sound.disconnect (h : s.Sound env browser) :
    ({ s with readyState := .closed, toServer := [], toPage := [] } : Session).Sound env browser := by
  refine ⟨fun hr => (nomatch hr), fun hr => (nomatch hr), ?_, h.issued, h.served⟩
  have hd : s.displayed <+: s.line := List.prefix_append _ _
  change s.displayed ++ [] <+: s.texts
  rw [List.append_nil]
  exact hd.trans h.fifo

theorem getElem?_of_isPrefix {α : Type} {l l' : List α} {i : ℕ} {a : α} (hp : l <+: l') (h : l[i]? = some a) :
    l'[i]? = some a := by
  obtain ⟨t, rfl⟩ := hp
  rw [List.getElem?_append_left (List.getElem?_eq_some_iff.mp h).1, h]

theorem Session.Sound.issue (h : s.Sound env browser) (c : Call) (form : Form) :
    (s.issue c form).Sound env browser := by
  refine ⟨h.silent, h.whole, h.fifo, ?_, ?_⟩
  · intro a ha
    exact getElem?_of_isPrefix (List.prefix_append _ _) (h.issued a ha)
  · intro i found out hi
    obtain ⟨c', form', hc, ho⟩ := h.served i found out hi
    exact ⟨c', form', getElem?_of_isPrefix (List.prefix_append _ _) hc, ho⟩

theorem Session.Sound.call (h : s.Sound env browser) (c : Call) (form : Form) :
    ((s.send c form).issue c form).Sound env browser := by
  by_cases hr : s.readyState = .connected
  · have hi := h.issue c form
    have hw : ((s.send c form).issue c form).line = ((s.send c form).issue c form).texts := by
      have := h.whole hr
      simp only [Session.send, hr, if_true, Session.issue, Session.line, Session.texts, List.map_append,
        List.map_cons, List.map_nil] at this ⊢
      rw [← List.cons_append, ← this, List.append_assoc, List.append_assoc]
    rw [Session.send, if_pos hr] at hw ⊢
    refine ⟨fun hr' => absurd (hr.symm.trans hr') (by decide), fun _ => hw, hw ▸ List.prefix_rfl, ?_, hi.served⟩
    intro a ha
    rcases List.mem_append.mp ha with ha | ha
    · exact hi.issued a ha
    · rw [List.mem_singleton.mp ha]
      exact List.getElem?_concat_length
  · rw [Session.send, if_neg hr]
    exact h.issue c form

theorem Session.Sound.handleRequest (h : s.Sound env browser) : (s.handleRequest env browser).Sound env browser := by
  cases hc : s.calls[s.handled.length]? with
  | none =>
    simp only [Session.handleRequest, hc]
    exact h
  | some call =>
    obtain ⟨c, form⟩ := call
    simp only [Session.handleRequest, hc]
    refine ⟨h.silent, h.whole, h.fifo, h.issued, ?_⟩
    intro i found out hi
    by_cases hlt : i < s.handled.length
    · rw [List.getElem?_append_left hlt] at hi
      exact h.served i found out hi
    · obtain rfl : i = s.handled.length := by
        have := (List.getElem?_eq_some_iff.mp hi).1
        rw [List.length_append, List.length_singleton] at this
        omega
      rw [List.getElem?_concat_length, Option.some.injEq, Prod.mk.injEq] at hi
      obtain ⟨rfl, rfl⟩ := hi
      exact ⟨c, form, hc, rfl⟩

theorem Session.Sound.step (h : s.Sound env browser) (a : Action) : (s.step env browser a).Sound env browser := by
  cases a with
  | connect =>
    simp only [Session.step]
    split
    next hr => exact h.connect hr
    next => exact h
  | call c form => exact h.call c form
  | handleRequest => exact h.handleRequest
  | handleFrame => exact h.congr Session.sameCalls_handleFrame Session.line_handleFrame
  | display => exact h.congr Session.sameCalls_display Session.line_display
  | disconnect => exact h.disconnect
  | otherRequest req => exact h.congr ⟨rfl, rfl, rfl, rfl⟩ rfl
  | otherFrame id m => exact h.congr ⟨rfl, rfl, rfl, rfl⟩ rfl

theorem Session.Sound.run (h : s.Sound env browser) (actions : List Action) :
    (s.run env browser actions).Sound env browser := by
  induction actions generalizing s with
  | nil => exact h
  | cons a actions ih => exact ih (h.step a)

theorem Session.Sound.confirms_iff (h : s.Sound env browser) {k : ℕ} {text : Str}
    (ht : s.texts[k + 1]? = some text) : s.Confirms env browser k text ↔ s.Earned env browser k := by
  rw [Session.texts, List.getElem?_cons_succ, List.getElem?_map] at ht
  constructor
  · rintro ⟨i, c, form, found, out, ha, -, hc, hh, happ⟩
    obtain ⟨c', form', hc', rfl⟩ := h.served i found out hh
    rw [hc] at hc'
    cases hc'
    exact ⟨i, c, form, found, _, ha, hh, (applied_iff_acceptable c form).mp happ⟩
  · rintro ⟨i, c, form, found, out, ha, hh, hacc⟩
    have hc : s.calls[i]? = some (c, form) := h.issued _ (List.mem_of_getElem? ha)
    obtain ⟨c', form', hc', rfl⟩ := h.served i found out hh
    rw [hc] at hc'
    cases hc'
    rw [ha, Option.map_some, Option.some.injEq] at ht
    exact ⟨i, c, form, found, _, ha, ht.symm, hc, hh, (applied_iff_acceptable c form).mpr hacc⟩

end Sound

section Truth

variable {env : Env} {browser : Browser} {s : Session}

theorem Session.Confirms.mono {s' : Session} {k : ℕ} {text : Str} (h : s.Confirms env browser k text)
    (ha : s.announced <+: s'.announced) (hc : s.calls <+: s'.calls) (hh : s.handled <+: s'.handled) :
    s'.Confirms env browser k text := by
  obtain ⟨i, c, form, found, out, h₁, ht, h₂, h₃, happ⟩ := h
  exact ⟨i, c, form, found, out, getElem?_of_isPrefix ha h₁, ht, getElem?_of_isPrefix hc h₂,
    getElem?_of_isPrefix hh h₃, happ⟩

theorem Session.SameCalls.grows {s' : Session} (h : s.SameCalls s') :
    s.announced <+: s'.announced ∧ s.calls <+: s'.calls ∧ s.handled <+: s'.handled := by
  rw [h.announced, h.calls, h.handled]
  exact ⟨List.prefix_rfl, List.prefix_rfl, List.prefix_rfl⟩

theorem Session.step_grows (s : Session) (a : Action) : s.announced <+: (s.step env browser a).announced ∧
    s.calls <+: (s.step env browser a).calls ∧ s.handled <+: (s.step env browser a).handled := by
  cases a with
  | connect =>
    simp only [Session.step]
    split <;> exact ⟨List.prefix_rfl, List.prefix_rfl, List.prefix_rfl⟩
  | call c form =>
    simp only [Session.step, Session.send, Session.issue]
    split
    · exact ⟨List.prefix_append _ _, List.prefix_append _ _, List.prefix_rfl⟩
    · exact ⟨List.prefix_rfl, List.prefix_append _ _, List.prefix_rfl⟩
  | handleRequest =>
    simp only [Session.step, Session.handleRequest]
    split
    · exact ⟨List.prefix_rfl, List.prefix_rfl, List.prefix_rfl⟩
    · exact ⟨List.prefix_rfl, List.prefix_rfl, List.prefix_append _ _⟩
  | handleFrame => exact Session.sameCalls_handleFrame.grows
  | display => exact Session.sameCalls_display.grows
  | disconnect => exact ⟨List.prefix_rfl, List.prefix_rfl, List.prefix_rfl⟩
  | otherRequest req => exact ⟨List.prefix_rfl, List.prefix_rfl, List.prefix_rfl⟩
  | otherFrame id m => exact ⟨List.prefix_rfl, List.prefix_rfl, List.prefix_rfl⟩

theorem Session.displayed_step {a : Action} (ha : a ≠ .display) :
    (s.step env browser a).displayed = s.displayed := by
  cases a with
  | display => exact absurd rfl ha
  | connect =>
    simp only [Session.step]
    split <;> rfl
  | call c form =>
    simp only [Session.step, Session.send, Session.issue]
    split <;> rfl
  | handleRequest =>
    simp only [Session.step, Session.handleRequest]
    split <;> rfl
  | handleFrame =>
    simp only [Session.step, Session.handleFrame]
    split <;> rfl
  | disconnect => rfl
  | otherRequest req => rfl
  | otherFrame id m => rfl

theorem Session.Truthful.step (h : s.Truthful env browser) {a : Action} {k : ℕ} {text : Str}
    (hk : s.displayed[k + 1]? = some text) : (s.step env browser a).Confirms env browser k text := by
  obtain ⟨ha, hc, hh⟩ := s.step_grows a
  exact (h k text hk).mono ha hc hh

theorem Session.Sound.truthful_display_iff (hs : s.Sound env browser) (h : s.Truthful env browser) :
    s.display.Truthful env browser ↔ s.Due env browser := by
  cases hp : s.toPage with
  | nil =>
    rw [Session.display, hp]
    exact iff_of_true h (fun k hne => absurd hp hne)
  | cons text rest =>
    have hdisplayed : s.display.displayed = s.displayed ++ [text] := by rw [Session.display, hp]
    have htexts : s.texts[s.displayed.length]? = some text := by
      obtain ⟨t, ht⟩ := hs.fifo
      rw [← ht, Session.line, hp]
      simp
    have hlast : ∀ k, s.displayed.length = k + 1 →
        (s.display.Confirms env browser k text ↔ s.Earned env browser k) := by
      intro k hk
      rw [← hs.confirms_iff (hk ▸ htexts)]
      simp only [Session.Confirms, Session.display, hp]
    constructor
    · intro ht k _ hk
      apply (hlast k hk).mp
      apply ht k text
      rw [hdisplayed, ← hk, List.getElem?_concat_length]
    · intro hd k text' hk
      rw [hdisplayed] at hk
      by_cases hlt : k + 1 < s.displayed.length
      · rw [List.getElem?_append_left hlt] at hk
        exact h.step (a := .display) hk
      · obtain heq : s.displayed.length = k + 1 := by
          have := (List.getElem?_eq_some_iff.mp hk).1
          rw [List.length_append, List.length_singleton] at this
          omega
        rw [← heq, List.getElem?_concat_length, Option.some.injEq] at hk
        subst hk
        exact (hlast k heq).mpr (hd k (by simp [hp]) heq)

theorem Session.Sound.truthful_step_iff (hs : s.Sound env browser) (h : s.Truthful env browser) (a : Action) :
    (s.step env browser a).Truthful env browser ↔ (a = .display → s.Due env browser) := by
  by_cases ha : a = .display
  · subst ha
    exact (hs.truthful_display_iff h).trans (by simp)
  · refine iff_of_true ?_ (fun hd => absurd hd ha)
    intro k text hk
    rw [Session.displayed_step ha] at hk
    exact h.step hk

theorem Session.run_concat (actions : List Action) (a : Action) :
    s.run env browser (actions ++ [a]) = (s.run env browser actions).step env browser a := by
  simp [Session.run]

theorem not_truthful {k i : ℕ} {text : Str} {c : Call} {form : Form} (hk : s.displayed[k + 1]? = some text)
    (ha : s.announced[k]? = some (i, c, form))
    (hn : ∀ found out, s.handled[i]? = some (found, out) → ¬ c.Applied env browser form out) :
    ¬ s.Truthful env browser := by
  intro h
  obtain ⟨i', c', form', found, out, ha', -, -, hh, happ⟩ := h k text hk
  rw [ha] at ha'
  cases ha'
  exact hn found out hh happ

end Truth

/-- All that the page ever displays is true, exactly if each announcement is displayed behind the handling of
its request, with which the server finds nothing wrong and which is for the station that the form names. -/
theorem truthful_iff_due (store : Store) (actions : List Action) :
    (∀ pre, pre <+: actions → ((Session.start store).run env browser pre).Truthful env browser) ↔
      ∀ pre, pre ++ [.display] <+: actions → ((Session.start store).run env browser pre).Due env browser := by
  have sound : ∀ pre, ((Session.start store).run env browser pre).Sound env browser :=
    (Session.start_sound store).run
  constructor
  · intro h pre hp
    have ht := h (pre ++ [.display]) hp
    rw [Session.run_concat] at ht
    exact ((sound pre).truthful_step_iff (h pre ((List.prefix_append _ _).trans hp)) .display).mp ht rfl
  · intro h pre
    induction pre using List.reverseRecOn with
    | nil =>
      intro _ k text hk
      exact nomatch hk
    | append_singleton pre a ih =>
      intro hp
      rw [Session.run_concat]
      apply ((sound pre).truthful_step_iff (ih ((List.prefix_append _ _).trans hp)) a).mpr
      rintro rfl
      exact h pre hp

def sampleBrowser : Browser := ⟨jsonText, fun idnumber => slash :: idnumber, 1, 2⟩

def pageEnv : Env :=
  ⟨jsonOf [sampleStation (ascii "1"), sampleStation (ascii "6")], sampleEnv.memory, sampleEnv.date⟩

def pageRun (actions : List Action) : Session :=
  (Session.start initialStore).run pageEnv sampleBrowser ([.connect, .handleFrame, .display] ++ actions)

def overtaken : List Action := [.call .sendData (sampleStation (ascii "6")), .handleFrame, .display]

def mistaken : List Action :=
  [.call (.updateData (ascii "2")) (sampleStation (ascii "1")), .handleRequest, .handleFrame, .display]

def refused : List Action :=
  [.call (.updateData (ascii "6")) (sampleStation (ascii "6")), .handleRequest, .handleFrame, .display]

theorem announcements_not_truthful :
    ((pageRun overtaken).displayed = [hello, ascii "ID: 6 added."] ∧
      ¬ (pageRun overtaken).Truthful pageEnv sampleBrowser) ∧
    ((pageRun mistaken).displayed = [hello, ascii "ID: 1 updated."] ∧
      ¬ (pageRun mistaken).Truthful pageEnv sampleBrowser) ∧
    ((pageRun refused).displayed = [hello, ascii "ID: 6 updated."] ∧
      ¬ (pageRun refused).Truthful pageEnv sampleBrowser) := by
  have ho : (pageRun overtaken).displayed = [hello, ascii "ID: 6 added."] := by decide
  have hm : (pageRun mistaken).displayed = [hello, ascii "ID: 1 updated."] := by decide
  have hr : (pageRun refused).displayed = [hello, ascii "ID: 6 updated."] := by decide
  refine ⟨⟨ho, ?_⟩, ⟨hm, ?_⟩, ⟨hr, ?_⟩⟩
  · have ha : (pageRun overtaken).announced[0]? = some (0, .sendData, sampleStation (ascii "6")) := by
      decide
    have hh : (pageRun overtaken).handled.length = 0 := by decide
    apply not_truthful (congrArg (fun l : List Str => l[1]?) ho) ha
    intro found out h
    rw [List.length_eq_zero_iff.mp hh] at h
    exact nomatch h
  · have ha : (pageRun mistaken).announced[0]? =
        some (0, .updateData (ascii "2"), sampleStation (ascii "1")) := by decide
    apply not_truthful (congrArg (fun l : List Str => l[1]?) hm) ha
    rintro found out - ⟨hn, -⟩
    exact absurd hn (by decide : ascii "2" ≠ ascii "1")
  · have ha : (pageRun refused).announced[0]? =
        some (0, .updateData (ascii "6"), sampleStation (ascii "6")) := by decide
    have hh : (pageRun refused).handled[0]?.map (fun x => x.2.2.2.responses.map Response.status) =
        some [statusBadRequest] := by decide +kernel
    apply not_truthful (congrArg (fun l : List Str => l[1]?) hr) ha
    rintro found out h ⟨-, ⟨-, hs⟩, -⟩
    rw [h, Option.map_some, hs] at hh
    exact absurd hh (by decide)

end NgkNet.Weather
