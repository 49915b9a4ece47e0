import NgkNet.Weather.Chat

set_option autoImplicit false

namespace NgkNet.Weather

open Ascii Restinio WebSocket PercentEncoding

def World.Serves (w : World) (id : ℕ) : Prop := ∃ c, w.conns id = some c ∧ c.Served

def UpgradedBy (id : ℕ) : Event → Prop
  | .request req => req.connectionId = id ∧ UpgradeRequest req
  | _ => False

section Registry

variable (env : Env) (settings : Settings)

def World.history (events : List Occurrence) : History Store :=
  events.foldl (History.step liveUpdateHandler settings (World.onRequest env settings))
    ⟨World.initial, fun _ => [], fun _ => none⟩

variable {env settings} {events : List Occurrence} {id : ℕ}

theorem World.after_append (more : List Occurrence) :
    World.after env settings (events ++ more) = more.foldl (World.step env settings) (World.after env settings events) :=
  List.foldl_append

theorem World.after_snoc (o : Occurrence) :
    World.after env settings (events ++ [o]) = (World.after env settings events).step env settings o :=
  World.after_append [o]

theorem World.history_site : (World.history env settings events).site = World.after env settings events := by
  induction events using List.reverseRecOn with
  | nil => rfl
  | append_singleton events o ih =>
    rw [World.history, List.foldl_append, World.after_snoc, ← ih]
    rfl

theorem World.history_faithful : Faithful liveUpdateHandler settings (World.history env settings events) :=
  (faithful_initial fun _ => rfl).run liveUpdateHandler_lawful (fun _ now req hs => World.onRequest_sound hs now req)
    World.onRequest_upgrading events

theorem step_conns_none_iff (w : World) (o : Occurrence) :
    (w.step env settings o).conns id = none ↔ w.conns id = none ∧ ¬ UpgradedBy id o.event := by
  obtain ⟨now, event⟩ := o
  cases event with
  | request req =>
    show (w.onRequest env settings now req).conns id = none ↔ _
    rcases World.onRequest_cases env settings now req w with
      ⟨hno, store, -, he⟩ | ⟨⟨hfree, hu⟩, he⟩
    · rw [he]
      refine ⟨fun hc => ⟨hc, ?_⟩, fun hc => hc.1⟩
      rintro ⟨rfl, hu⟩
      exact hno hc hu
    · rw [he]
      by_cases hid : id = req.connectionId
      · subst hid
        refine iff_of_false (fun hc => ?_) fun hc => hc.2 ⟨rfl, hu⟩
        cases (Function.update_self _ _ _).symm.trans hc
      · have hsame : (Site.upgraded (.activated (clockAt settings now) (upgradeText req)) req.connectionId
            { w with app := emplaced req.connectionId w.app }).conns id = w.conns id := Function.update_of_ne hid _ _
        rw [hsame]
        exact ⟨fun hc => ⟨hc, fun hb => hid hb.1.symm⟩, fun hc => hc.1⟩
  | readDone | writeDone | checkTimeout =>
    exact (Site.step_conns_none rfl w id).trans (and_iff_left not_false).symm

theorem World.upgraded_iff :
    Upgraded (World.after env settings events).log id ↔ ∃ o ∈ events, UpgradedBy id o.event := by
  induction events using List.reverseRecOn with
  | nil => simp [World.after, World.initial, Upgraded, happened]
  | append_singleton events o ih =>
    rw [(World.after_sound _).upgraded_iff, World.after_snoc, Ne, step_conns_none_iff, not_and_or, not_not, ← Ne,
      ← (World.after_sound events).upgraded_iff, ih]
    simp [or_and_right, exists_or]

theorem step_mem_registry {w : World} {o : Occurrence} (hfree : w.conns id = none) (hu : UpgradedBy id o.event) :
    id ∈ (w.step env settings o).app.registry := by
  obtain ⟨now, event⟩ := o
  cases event with
  | request req =>
    obtain ⟨rfl, hu⟩ := hu
    rw [World.step_upgrade hu hfree]
    exact mem_emplaced.mpr (.inl rfl)
  | _ => exact hu.elim

theorem World.step_registry (o : Occurrence) :
    id ∈ (World.after env settings (events ++ [o])).app.registry ↔
      id ∈ (World.after env settings events).app.registry ∧ ¬ EndsBy settings (World.history env settings events) id o ∨
        ¬ Upgraded (World.after env settings events).log id ∧ UpgradedBy id o.event := by
  have hsound : (World.after env settings events).Sound liveUpdateHandler settings := World.after_sound events
  have hsound' : (World.after env settings (events ++ [o])).Sound liveUpdateHandler settings := World.after_sound _
  have hsite : (World.history env settings events).site = World.after env settings events := World.history_site
  rw [World.after_snoc] at hsound' ⊢
  by_cases hid : id ∈ (World.after env settings events).app.registry
  · have hheld : liveUpdateHandler.holds (World.history env settings events).site.app id = true := by
      rw [hsite]
      exact decide_eq_true hid
    have hup : Upgraded (World.after env settings events).log id :=
      ((hsound.consistent.now id).mp (decide_eq_true hid)).1
    rcases World.history_faithful.decides liveUpdateHandler_lawful World.onRequest_upgrading hheld o with
      ⟨hnot, hstays, -⟩ | ⟨hends, hleaves, -⟩
    · rw [History.step, hsite] at hstays
      exact iff_of_true (of_decide_eq_true hstays) (.inl ⟨hid, hnot⟩)
    · rw [History.step, hsite] at hleaves
      exact iff_of_false (of_decide_eq_false hleaves) (fun h => h.elim (fun h => h.2 hends) (fun h => h.1 hup))
  · rw [iff_false_intro (fun h => hid h.1 : ¬ (_ ∧ ¬ EndsBy settings (World.history env settings events) id o)), false_or]
    cases hc : (World.after env settings events).conns id with
    | some c =>
      have hleft : (World.after env settings events).Left liveUpdateHandler id :=
        ⟨by simp [hc], decide_eq_false hid⟩
      have hleft' : ((World.after env settings events).step env settings o).Left liveUpdateHandler id :=
        hleft.step liveUpdateHandler_lawful hsound World.onRequest_upgrading o
      exact iff_of_false (of_decide_eq_false hleft'.2) (fun h => h.1 (hsound.known id c hc).1)
    | none =>
      refine ⟨fun h => ⟨(hsound.fresh id hc).1, ?_⟩, fun h => step_mem_registry hc h.2⟩
      have hup := ((hsound'.consistent.now id).mp (decide_eq_true h)).1
      by_contra hno
      exact (hsound'.upgraded_iff id).mp hup ((step_conns_none_iff _ o).mpr ⟨hc, hno⟩)

theorem World.ended_registry {o : Occurrence} (hid : id ∈ (World.after env settings events).app.registry)
    (hends : EndsBy settings (World.history env settings events) id o) (more : List Occurrence) :
    closeCalls (World.after env settings (events ++ o :: more)).log id = 1 ∧
      id ∉ (World.after env settings (events ++ o :: more)).app.registry := by
  have hup : Upgraded (World.after env settings events).log id :=
    (((World.after_sound events).consistent.now id).mp (decide_eq_true hid)).1
  have hleft : (World.after env settings (events ++ [o])).Left liveUpdateHandler id := by
    refine ⟨?_, decide_eq_false fun hin => ?_⟩
    · rw [World.after_snoc, Ne, step_conns_none_iff]
      exact fun hc => ((World.after_sound events).upgraded_iff id).mp hup hc.1
    · rcases (World.step_registry o).mp hin with ⟨-, hno⟩ | ⟨hno, -⟩
      · exact hno hends
      · exact hno hup
  have hrun : (more.foldl (World.step env settings) (World.after env settings (events ++ [o]))).Left
      liveUpdateHandler id ∧ closeCalls (more.foldl (World.step env settings) _).log id = 1 :=
    hleft.run liveUpdateHandler_lawful (fun _ now req hs => World.onRequest_sound hs now req)
      World.onRequest_upgrading (World.after_sound _) more
  rw [← List.singleton_append, ← List.append_assoc, World.after_append]
  exact ⟨hrun.2, of_decide_eq_false hrun.1.2⟩

theorem World.serves_iff {w : World} (h : w.Sound liveUpdateHandler settings) :
    id ∈ w.app.registry ↔ w.Serves id := by
  cases hc : w.conns id with
  | none =>
    refine iff_of_false (fun hm => (h.fresh id hc).1 ((h.consistent.now id).mp (decide_eq_true hm)).1) ?_
    rintro ⟨c, hc', -⟩
    cases hc.symm.trans hc'
  | some c =>
    rcases (h.known id c hc).2 with hs | ho
    · exact iff_of_true (of_decide_eq_true hs.holds) ⟨c, hc, hs.served⟩
    · refine iff_of_false (of_decide_eq_false ho.dropped) ?_
      rintro ⟨d, hd, hserved⟩
      obtain rfl : c = d := Option.some.inj (hc.symm.trans hd)
      exact ho.unserved hserved

/-- The registry holds the upgraded connections whose close frame the handler has not got yet, and these are the ones
that are still served. A connection comes in with its upgrade; what ends it takes it out for good, with one such
call. -/
theorem registry_exact (env : Env) (settings : Settings) (events : List Occurrence) (id : ℕ) :
    (id ∈ (World.after env settings events).app.registry ↔
      Upgraded (World.after env settings events).log id ∧ closeCalls (World.after env settings events).log id = 0) ∧
      (∀ before e, before ++ [e] <+: (World.after env settings events).log →
        (id ∈ e.app.registry ↔ Upgraded (before ++ [e]) id ∧ closeCalls (before ++ [e]) id = 0)) ∧
      closeCalls (World.after env settings events).log id ≤ 1 ∧
      (Upgraded (World.after env settings events).log id →
        (Ended (World.after env settings events).log id ↔
          closeCalls (World.after env settings events).log id = 1)) ∧
      (id ∈ (World.after env settings events).app.registry ↔ (World.after env settings events).Serves id) ∧
      (Upgraded (World.after env settings events).log id ↔ ∃ o ∈ events, UpgradedBy id o.event) ∧
      ∀ o, (id ∈ (World.after env settings (events ++ [o])).app.registry ↔
          id ∈ (World.after env settings events).app.registry ∧
              ¬ EndsBy settings (World.history env settings events) id o ∨
            ¬ Upgraded (World.after env settings events).log id ∧ UpgradedBy id o.event) ∧
        (id ∈ (World.after env settings events).app.registry →
          EndsBy settings (World.history env settings events) id o → ∀ more,
            closeCalls (World.after env settings (events ++ o :: more)).log id = 1 ∧
              id ∉ (World.after env settings (events ++ o :: more)).app.registry) := by
  have h : (World.after env settings events).Sound liveUpdateHandler settings := World.after_sound events
  have hnow := h.consistent.now id
  simp only [liveUpdateHandler, decide_eq_true_eq] at hnow
  refine ⟨hnow, fun before e hp => ?_, h.consistent.once id, fun hup => ?_, World.serves_iff h, World.upgraded_iff,
    fun o => ⟨World.step_registry o, World.ended_registry⟩⟩
  · simpa [liveUpdateHandler] using h.consistent.past before e hp id
  · obtain ⟨c, hc⟩ := Option.ne_none_iff_exists'.mp ((h.upgraded_iff id).mp hup)
    rcases (h.known id c hc).2 with hs | ho
    · have hcalls : closeCalls (World.after env settings events).log id = 0 := hs.unclosed
      exact iff_of_false hs.going (by rw [hcalls]; decide)
    · exact iff_of_true ho.ended ho.closed

end Registry

end NgkNet.Weather
