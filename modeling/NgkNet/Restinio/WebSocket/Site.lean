import NgkNet.Restinio.Request
import NgkNet.Restinio.WebSocket.Handshake
import NgkNet.Restinio.WebSocket.Serving
import NgkNet.Restinio.WebSocket.Writing

set_option autoImplicit false

namespace NgkNet.Restinio.WebSocket

open Ascii

variable {σ : Type}

structure Site (σ : Type) where
  app : σ
  conns : ℕ → Option Conn
  log : List (Entry σ)

namespace Site

def view (w : Site σ) (c : Conn) : Loc σ := ⟨c, w.app, w.log⟩

def onConn (K : Context σ) (f : Loc σ → Loc σ) (w : Site σ) : Site σ :=
  match w.conns K.id with
  | none => w
  | some c => ⟨(f (w.view c)).app, Function.update w.conns K.id (some (f (w.view c)).conn), (f (w.view c)).log⟩

def upgraded (c : Conn) (id : ℕ) (w : Site σ) : Site σ :=
  ⟨w.app, Function.update w.conns id (some c), w.log ++ [⟨.upgraded id, w.app⟩]⟩

end Site

structure Settings where
  writeHttpResponseTimelimit : ℕ
  readNextHttpMessageTimelimit : ℕ
  payloadMaxSize : ℕ

inductive Event where
  | request (req : Request)
  | readDone (id : ℕ) (result : Option Str)
  | writeDone (id : ℕ) (ok : Bool)
  | checkTimeout (id : ℕ)

structure Occurrence where
  now : ℕ
  event : Event

section Step

variable (H : MessageHandler σ) (settings : Settings) (onRequest : ℕ → Request → Site σ → Site σ)

def clockAt (now : ℕ) : Clock :=
  ⟨now, settings.writeHttpResponseTimelimit, settings.readNextHttpMessageTimelimit⟩

def contextAt (now id : ℕ) : Context σ := ⟨id, clockAt settings now, settings.payloadMaxSize, H⟩

def Site.step (w : Site σ) (o : Occurrence) : Site σ :=
  match o.event with
  | .request req => onRequest o.now req w
  | .readDone id result => w.onConn (contextAt H settings o.now id) (readDone (contextAt H settings o.now id) result)
  | .writeDone id ok => w.onConn (contextAt H settings o.now id) (writeDone (contextAt H settings o.now id) ok)
  | .checkTimeout id => w.onConn (contextAt H settings o.now id) (checkTimeout (contextAt H settings o.now id))

end Step

def upgradeText (req : Request) : Str := (upgradeResponse (req.secWebsocketKey.getD [])).toOption.getD []

namespace Site

structure Sound (H : MessageHandler σ) (settings : Settings) (w : Site σ) : Prop where
  consistent : Consistent H w.log w.app
  fresh : ∀ id, w.conns id = none → ¬ Upgraded w.log id ∧ closeCalls w.log id = 0 ∧ ¬ Ended w.log id
  known : ∀ id c, w.conns id = some c → Upgraded w.log id ∧ ServingOrOver (contextAt H settings 0 id) (w.view c)

variable {H : MessageHandler σ} {settings : Settings} {w : Site σ}

theorem sound_initial {app : σ} (h : ∀ id, H.holds app id = false) :
    (⟨app, fun _ => none, []⟩ : Site σ).Sound H settings := by
  refine ⟨⟨?_, ?_, ?_⟩, ?_, ?_⟩
  · intro id
    simp [h, Upgraded, happened]
  · intro before e hp
    simp at hp
  · intro id
    simp [closeCalls, happened]
  · intro id _
    simp [Upgraded, closeCalls, Ended, happened]
  · intro id c hc
    cases hc

theorem Sound.onConn (h : w.Sound H settings) (hH : H.Lawful) {K : Context σ} (hK : K.handler = H)
    (hlimit : K.payloadMaxSize = settings.payloadMaxSize) {f : Loc σ → Loc σ}
    (hserve : ∀ s, ServingOrOver K s → ServingOrOver K (f s))
    (hkeep : ∀ P s, Preserved K P → P s → P (f s)) : (w.onConn K f).Sound H settings := by
  subst hK
  rw [Site.onConn]
  cases hc : w.conns K.id with
  | none => exact h
  | some c =>
    obtain ⟨hup, hs⟩ := h.known K.id c hc
    have hframe : ∀ j, K.id ≠ j → Frame K j (w.view c) (f (w.view c)) := fun j hj =>
      hkeep _ _ (frame_stable hH hj _).preserved ⟨rfl, rfl, Iff.rfl, Iff.rfl⟩
    refine ⟨hkeep _ (w.view c) (consistent_stable hH).preserved h.consistent, ?_, ?_⟩
    · intro j hj
      have hne : K.id ≠ j := by
        rintro rfl
        simp at hj
      have hf := hframe j hne
      have hj' : w.conns j = none := by simpa [Function.update_of_ne hne.symm] using hj
      obtain ⟨h₁, h₂, h₃⟩ := h.fresh j hj'
      exact ⟨mt hf.upgraded.mp h₁, hf.closeCalls.trans h₂, mt hf.ended.mp h₃⟩
    · intro j d hj
      by_cases hne : K.id = j
      · subst hne
        obtain rfl : (f (w.view c)).conn = d := by simpa using hj
        refine ⟨hkeep _ (w.view c) (upgraded_stable K.id).preserved hup, ?_⟩
        have hnow := hserve (w.view c) (hs.congr rfl hlimit rfl rfl rfl Iff.rfl)
        exact hnow.congr rfl hlimit.symm rfl rfl rfl Iff.rfl
      · have hf := hframe j hne
        have hj' : w.conns j = some d := by simpa [Function.update_of_ne (Ne.symm hne)] using hj
        obtain ⟨hup', hs'⟩ := h.known j d hj'
        exact ⟨hf.upgraded.mpr hup', hs'.congr rfl rfl rfl hf.holds hf.closeCalls hf.ended⟩

theorem Sound.withApp (h : w.Sound H settings) {app : σ} (hh : ∀ id, H.holds app id = H.holds w.app id) :
    ({ w with app := app } : Site σ).Sound H settings := by
  refine ⟨⟨fun id => ?_, h.consistent.past, h.consistent.once⟩, h.fresh, fun id c hc => ?_⟩
  · rw [hh]
    exact h.consistent.now id
  · obtain ⟨hup, hs⟩ := h.known id c hc
    exact ⟨hup, hs.congr rfl rfl rfl (hh id) rfl Iff.rfl⟩

theorem Sound.withConns (h : w.Sound H settings) {conns : ℕ → Option Conn}
    (hc : ∀ id, ∃ f, (∀ c, (f c).state = c.state ∧ (f c).input = c.input) ∧ conns id = (w.conns id).map f) :
    ({ w with conns := conns } : Site σ).Sound H settings := by
  refine ⟨h.consistent, fun id hid => ?_, fun id d hd => ?_⟩
  · obtain ⟨f, -, he⟩ := hc id
    exact h.fresh id (Option.map_eq_none_iff.mp (he.symm.trans hid))
  · obtain ⟨f, hf, he⟩ := hc id
    obtain ⟨c, hw, rfl⟩ := Option.map_eq_some_iff.mp (he.symm.trans hd)
    obtain ⟨hup, hs⟩ := h.known id c hw
    exact ⟨hup, hs.update (f := f) (hf c).1 (hf c).2⟩

theorem activated_serving {K : Context σ} {s : Loc σ} {k : Clock} {response : Str}
    (hs : s.conn = .activated k response) (hh : K.handler.holds s.app K.id = true)
    (hc : closeCalls s.log K.id = 0) (he : ¬ Ended s.log K.id) : Serving K s := by
  have hstate : (Conn.initial.writeData k [response] false).vital = Conn.initial.vital :=
    congrArg Prod.fst (Conn.initial.writeData_state k [response])
  simp only [Conn.vital, Prod.mk.injEq] at hstate
  obtain ⟨h₁, h₂, h₃, h₄, -, h₆, -⟩ := hstate
  refine ⟨⟨hh, hc, he, ?_⟩, .none, [], hs ▸ Conn.activated_stands k response⟩
  rw [hs]
  simp only [Conn.vital, Conn.activated, Prod.mk.injEq]
  exact ⟨h₁, h₂, h₃, h₄, trivial, h₆, trivial⟩

theorem Sound.upgrade (h : w.Sound H settings) {id : ℕ} (hid : w.conns id = none) {app : σ}
    (happ : ∀ j, H.holds app j = true ↔ j = id ∨ H.holds w.app j = true) {k : Clock} {response : Str} :
    (upgraded (.activated k response) id { w with app := app }).Sound H settings := by
  obtain ⟨hup, hcalls, hend⟩ := h.fresh id hid
  have hcalls' : ∀ j, closeCalls (w.log ++ [⟨.upgraded id, app⟩]) j = closeCalls w.log j := by
    intro j
    simp [closeCalls_append]
  have hend' : ∀ j, Ended (w.log ++ [⟨.upgraded id, app⟩]) j ↔ Ended w.log j := by
    intro j
    simp [ended_append]
  have hup' : ∀ j, Upgraded (w.log ++ [⟨.upgraded id, app⟩]) j ↔ Upgraded w.log j ∨ id = j := by
    intro j
    simp [upgraded_append]
  refine ⟨?_, ?_, ?_⟩
  · refine h.consistent.append (e := ⟨.upgraded id, app⟩) ?_ ?_
    · intro j
      rw [happ, hup', hcalls', h.consistent.now j]
      by_cases hj : id = j
      · subst hj
        simp [hcalls]
      · simp [hj, Ne.symm hj]
    · intro j
      rw [hcalls']
      exact h.consistent.once j
  · intro j hj
    have hne : id ≠ j := by
      rintro rfl
      simp [upgraded] at hj
    have hj' : w.conns j = none := by simpa [upgraded, Function.update_of_ne hne.symm] using hj
    obtain ⟨h₁, h₂, h₃⟩ := h.fresh j hj'
    exact ⟨fun hu => ((hup' j).mp hu).elim h₁ hne, (hcalls' j).trans h₂, mt (hend' j).mp h₃⟩
  · intro j d hj
    by_cases hne : id = j
    · subst hne
      obtain rfl : Conn.activated k response = d := by simpa [upgraded] using hj
      refine ⟨(hup' id).mpr (.inr rfl), .inl (activated_serving rfl ?_ ((hcalls' id).trans hcalls)
        (mt (hend' id).mp hend))⟩
      exact (happ id).mpr (.inl rfl)
    · have hj' : w.conns j = some d := by simpa [upgraded, Function.update_of_ne (Ne.symm hne)] using hj
      obtain ⟨hupj, hs⟩ := h.known j d hj'
      refine ⟨(hup' j).mpr (.inl hupj), hs.congr rfl rfl rfl ?_ (hcalls' j) (hend' j)⟩
      rw [Bool.eq_iff_iff]
      exact (happ j).trans (or_iff_right (Ne.symm hne))

theorem Sound.step (h : w.Sound H settings) (hH : H.Lawful) {onRequest : ℕ → Request → Site σ → Site σ}
    (hrequest : ∀ now req, (onRequest now req w).Sound H settings) (o : Occurrence) :
    (w.step H settings onRequest o).Sound H settings := by
  rw [Site.step]
  cases o.event with
  | request req => exact hrequest o.now req
  | readDone id result =>
    exact h.onConn hH rfl rfl (fun s hs => hs.readDone hH result) (fun P s hP hs => hP.readDone result s hs)
  | writeDone id ok =>
    exact h.onConn hH rfl rfl (fun s hs => hs.writeDone hH ok) (fun P s hP hs => hP.writeDone ok s hs)
  | checkTimeout id =>
    exact h.onConn hH rfl rfl (fun s hs => hs.checkTimeout hH) (fun P s hP hs => hP.checkTimeout s hs)

theorem Sound.upgraded_iff (h : w.Sound H settings) (id : ℕ) : Upgraded w.log id ↔ w.conns id ≠ none := by
  cases hc : w.conns id with
  | none => exact iff_of_false (h.fresh id hc).1 (fun hne => hne rfl)
  | some c => exact iff_of_true (h.known id c hc).1 (fun he => (nomatch he))

theorem Sound.serving (h : w.Sound H settings) {id : ℕ} (hh : H.holds w.app id = true) :
    ∃ c, w.conns id = some c ∧ Serving (contextAt H settings 0 id) (w.view c) := by
  cases hc : w.conns id with
  | none => exact absurd ((h.consistent.now id).mp hh).1 (h.fresh id hc).1
  | some c =>
    rcases (h.known id c hc).2 with hs | ho
    · exact ⟨c, rfl, hs⟩
    · exact absurd (hh.symm.trans ho.dropped) (by decide)

def Tidied (w : Site σ) : Prop := ∀ id c, w.conns id = some c → c.Tidy

theorem Tidied.onConn (h : w.Tidied) {K : Context σ} {f : Loc σ → Loc σ}
    (hkeep : ∀ P s, Preserved K P → P s → P (f s)) : (w.onConn K f).Tidied := by
  rw [Site.onConn]
  cases hc : w.conns K.id with
  | none => exact h
  | some c =>
    intro j d hj
    by_cases hne : j = K.id
    · subst hne
      obtain rfl : (f (w.view c)).conn = d := by simpa using hj
      exact hkeep _ (w.view c) tidy_preserved (h K.id c hc)
    · exact h j d (by simpa [Function.update_of_ne hne] using hj)

theorem Tidied.step (h : w.Tidied) {onRequest : ℕ → Request → Site σ → Site σ}
    (hrequest : ∀ now req, (onRequest now req w).Tidied) (o : Occurrence) :
    (w.step H settings onRequest o).Tidied := by
  rw [Site.step]
  cases o.event with
  | request req => exact hrequest o.now req
  | readDone id result => exact h.onConn fun P s hP hs => hP.readDone result s hs
  | writeDone id ok => exact h.onConn fun P s hP hs => hP.writeDone ok s hs
  | checkTimeout id => exact h.onConn fun P s hP hs => hP.checkTimeout s hs

theorem Tidied.upgraded (h : w.Tidied) (id : ℕ) (k : Clock) (response : Str) :
    (w.upgraded (.activated k response) id).Tidied := by
  intro j d hj
  by_cases hne : j = id
  · subst hne
    obtain rfl : Conn.activated k response = d := by simpa [Site.upgraded] using hj
    exact Conn.activated_tidy k response
  · exact h j d (by simpa [Site.upgraded, Function.update_of_ne hne] using hj)

end Site

end NgkNet.Restinio.WebSocket
