import NgkNet.Restinio.WebSocket.History
import NgkNet.Weather.Answering

set_option autoImplicit false

namespace NgkNet.Weather

open Ascii Restinio WebSocket PercentEncoding

def liveUpdateCall (id : ℕ) (m : Message) (store : Store) : Store × List Message :=
  if m.opcode = .textFrame ∨ m.opcode = .binaryFrame ∨ m.opcode = .continuationFrame then (store, [m])
  else if m.opcode = .pingFrame then (store, [{ m with opcode := .pongFrame }])
  else if m.opcode = .connectionCloseFrame then ({ store with registry := erase id store.registry }, [])
  else (store, [])

def liveUpdateHandler : MessageHandler Store where
  call := liveUpdateCall
  holds store id := id ∈ store.registry

theorem liveUpdateHandler_lawful : liveUpdateHandler.Lawful := by
  constructor
  · intro id m store j hm
    simp only [liveUpdateHandler, liveUpdateCall, if_neg hm]
    split
    · rfl
    · split <;> rfl
  · intro id m store j hm
    simp [liveUpdateHandler, liveUpdateCall, hm, erase]
  · intro id m store out hout
    simp only [liveUpdateHandler, liveUpdateCall] at hout
    split at hout
    next hm =>
      rw [List.mem_singleton.mp hout]
      rintro hc
      simp [hc] at hm
    split at hout
    · rw [List.mem_singleton.mp hout]
      simp
    · split at hout <;> simp at hout

theorem serve_registry (env : Env) (req : Request) (store : Store) :
    ¬ UpgradeRequest req ∧ (serve env req store).2.2.upgraded = [] ∧
        (serve env req store).2.1.registry = store.registry ∨
      UpgradeRequest req ∧ (serve env req store).2.2.upgraded = [req.connectionId] ∧
        (serve env req store).2.1 = emplaced req.connectionId store := by
  cases hp : targetPath req.path with
  | error e =>
    refine .inl ⟨?_, by simp [serve, serveWith, hp, Exchange.fresh]⟩
    rintro ⟨-, ⟨q, hq, -⟩, -⟩
    cases hp.symm.trans hq
  | ok path =>
    cases hd : dispatch entries req.method path with
    | none =>
      refine .inl ⟨fun hu => ?_, by simp [serve, serveWith, hp, hd, Exchange.fresh]⟩
      obtain ⟨params, hdispatched⟩ := hu.dispatched hp
      cases hd.symm.trans hdispatched
    | some found =>
      obtain ⟨handler, params⟩ := found
      rw [serve_of_dispatch env store hp hd]
      by_cases hl : handler = .liveUpdate
      · subst hl
        have hu := upgradeRequest_iff hp hd
        rw [runHandler, onLiveUpdate_run]
        cases hc : req.connectionUpgrade with
        | false => exact .inl ⟨by simp [hu, hc], rfl, rfl⟩
        | true =>
          cases hk : req.secWebsocketKey with
          | none => exact .inl ⟨by simp [hu, hk], rfl, rfl⟩
          | some key => exact .inr ⟨hu.mpr ⟨hc, by rw [hk]; rfl⟩, rfl, rfl⟩
      · left
        have hno : ¬ UpgradeRequest req := by
          intro hu
          obtain ⟨params', hdispatched⟩ := hu.dispatched hp
          exact hl (congrArg Prod.fst (Option.some.inj (hd.symm.trans hdispatched)))
        obtain ⟨-, w, b, hr⟩ | ⟨-, e, c, moves, hr, -⟩ := runHandler_cases env hp hd hl store
        · rw [hr]
          exact ⟨hno, rfl, rfl⟩
        · rw [hr]
          exact ⟨hno, rfl, rfl⟩

theorem mem_emplaced {id j : ℕ} {store : Store} :
    j ∈ (emplaced id store).registry ↔ j = id ∨ j ∈ store.registry := by
  rw [emplaced]
  split
  next h =>
    constructor
    · exact .inr
    · rintro (rfl | hj)
      · exact h
      · exact hj
  · exact List.mem_cons

abbrev World := Site Store

section World

variable (env : Env) (settings : Settings)

def World.initial : World := ⟨initialStore, fun _ => none, []⟩

def World.onRequest (now : ℕ) (req : Request) (w : World) : World :=
  -- A connection that has become a websocket delivers no further requests.
  if (w.conns req.connectionId).isSome then w
  else
    let out := serve env req w.app
    out.2.2.upgraded.foldl (fun w id => w.upgraded (.activated (clockAt settings now) (upgradeText req)) id)
      { w with app := out.2.1 }

def World.step (w : World) (o : Occurrence) : World :=
  Site.step liveUpdateHandler settings (World.onRequest env settings) w o

def World.after (events : List Occurrence) : World := events.foldl (World.step env settings) .initial

theorem World.onRequest_cases (now : ℕ) (req : Request) (w : World) :
    (w.conns req.connectionId = none → ¬ UpgradeRequest req) ∧
        (∃ store, store.registry = w.app.registry ∧ w.onRequest env settings now req = { w with app := store }) ∨
      (w.conns req.connectionId = none ∧ UpgradeRequest req) ∧ w.onRequest env settings now req =
        Site.upgraded (.activated (clockAt settings now) (upgradeText req)) req.connectionId
          { w with app := emplaced req.connectionId w.app } := by
  rw [World.onRequest]
  split
  next hid => exact .inl ⟨fun hn => by simp [hn] at hid, w.app, rfl, rfl⟩
  next hid =>
    dsimp only
    rcases serve_registry env req w.app with ⟨hno, hup, hr⟩ | ⟨hu, hup, hs⟩
    · rw [hup]
      exact .inl ⟨fun _ => hno, _, hr, rfl⟩
    · rw [hup, hs]
      exact .inr ⟨⟨by simpa using hid, hu⟩, rfl⟩

variable {env settings}

theorem World.step_upgrade {w : World} {req : Request} (hu : UpgradeRequest req)
    (hfree : w.conns req.connectionId = none) (now : ℕ) :
    w.step env settings ⟨now, .request req⟩ =
      Site.upgraded (.activated (clockAt settings now) (upgradeText req)) req.connectionId
        { w with app := emplaced req.connectionId w.app } := by
  rcases World.onRequest_cases env settings now req w with ⟨hno, -⟩ | ⟨-, he⟩
  · exact absurd hu (hno hfree)
  · exact he

theorem World.onRequest_upgrading : Upgrading liveUpdateHandler settings (World.onRequest env settings) := by
  intro now req w id
  rcases World.onRequest_cases env settings now req w with
    ⟨-, store, hr, he⟩ | ⟨⟨hfree, -⟩, he⟩
  · rw [he]
    exact .inl ⟨rfl, congrArg (fun r => decide (id ∈ r)) hr⟩
  · rw [he]
    by_cases hid : id = req.connectionId
    · subst hid
      exact .inr ⟨hfree, _, Function.update_self _ _ _⟩
    · refine .inl ⟨Function.update_of_ne hid _ _, decide_eq_decide.mpr ?_⟩
      exact mem_emplaced.trans (or_iff_right hid)

theorem World.onRequest_sound {w : World} (h : w.Sound liveUpdateHandler settings) (now : ℕ) (req : Request) :
    (w.onRequest env settings now req).Sound liveUpdateHandler settings := by
  rcases World.onRequest_cases env settings now req w with
    ⟨-, store, hr, he⟩ | ⟨⟨hfree, -⟩, he⟩
  · rw [he]
    exact h.withApp fun id => congrArg (fun r => decide (id ∈ r)) hr
  · rw [he]
    exact h.upgrade hfree fun j => by simp only [liveUpdateHandler, decide_eq_true_eq, mem_emplaced]

theorem World.step_sound {w : World} (h : w.Sound liveUpdateHandler settings) (o : Occurrence) :
    (w.step env settings o).Sound liveUpdateHandler settings :=
  h.step liveUpdateHandler_lawful (World.onRequest_sound h) o

theorem World.initial_sound : World.initial.Sound liveUpdateHandler settings :=
  Site.sound_initial fun _ => rfl

theorem World.after_sound (events : List Occurrence) :
    (World.after env settings events).Sound liveUpdateHandler settings := by
  have hrun : ∀ w : World, w.Sound liveUpdateHandler settings →
      (events.foldl (World.step env settings) w).Sound liveUpdateHandler settings := by
    induction events with
    | nil => exact fun w h => h
    | cons o events ih => exact fun w h => ih _ (World.step_sound h o)
  exact hrun _ World.initial_sound

end World

end NgkNet.Weather
