import NgkNet.Weather.Conversion

set_option autoImplicit false

namespace NgkNet.Weather

open Ascii Restinio PercentEncoding

def Replied (out : Outcome) : Prop := out.1 = .ok .accepted ∧ ∃ r, out.2.2.responses = [r]

variable {env : Env} {q : Str}

theorem replied_answered {b : ResponseBuilder} {store : Store} :
    Replied (.ok .accepted, store, answered b) :=
  ⟨rfl, b.response, rfl⟩

section Dispatched

variable {req : Request} {handler : Handler} {params : RouteParams}

/-- A handler other than that of the chat replies exactly if it can convert its path parameter. -/
theorem replied_iff_convertible (history : List Request) (hp : targetPath req.path = .ok q)
    (hd : dispatch entries req.method q = some (handler, params)) (hl : handler ≠ .liveUpdate) :
    Replied (serve env req (storeAfter env history)) ↔ Convertible req.method q := by
  rw [serve_of_dispatch env _ hp hd]
  obtain ⟨hc, w, b, hr⟩ | ⟨hc, e, c, moves, hr, -⟩ := runHandler_cases env hp hd hl (storeAfter env history)
  · rw [hr]
    exact iff_of_true replied_answered hc
  · rw [hr]
    exact iff_of_false (by simp [Replied]) hc

end Dispatched

theorem replied_iff_convertible_put :
    Convertible .put (ascii "/7") ∧
      Replied (serve sampleEnv (sampleRequest .put (ascii "/7") []) (storeAfter sampleEnv [])) := by
  have hp : targetPath (sampleRequest .put (ascii "/7") []).path = .ok (ascii "/7") := by decide
  have hID : IdPath (ascii "/7") (ascii "7") :=
    ⟨[], rfl, by decide, List.all_eq_true.mp (by decide), .inl rfl⟩
  have hc : Convertible (sampleRequest .put (ascii "/7") []).method (ascii "/7") :=
    (convertible_iff_cast sampleEnv (.inl rfl) hID).mpr ⟨7, by decide⟩
  have hd := dispatch_weatherUpdate.mpr ⟨rfl, ascii "7", hID, rfl⟩
  exact ⟨hc, (replied_iff_convertible [] hp hd (by decide)).mpr hc⟩

def longPut : Request := sampleRequest .put (ascii "/99999999999") []

def parenthesisGet : Request := sampleRequest .get (ascii "/date/2021(11)") []

theorem long_put_not_replied :
    targetPath longPut.path = .ok (ascii "/99999999999") ∧
      (dispatch entries longPut.method (ascii "/99999999999")).map Prod.fst = some .weatherUpdate ∧
      ¬ Replied (serve sampleEnv longPut (storeAfter sampleEnv [])) ∧
      targetPath parenthesisGet.path = .ok (ascii "/date/2021(11)") ∧
      (dispatch entries parenthesisGet.method (ascii "/date/2021(11)")).map Prod.fst = some .dateGet ∧
      ¬ Replied (serve sampleEnv parenthesisGet (storeAfter sampleEnv [])) := by
  refine ⟨by decide +kernel, by decide +kernel, ?_, by decide +kernel, by decide +kernel, ?_⟩
  · rintro ⟨h, -⟩
    exact absurd h (by decide +kernel)
  · rintro ⟨h, -⟩
    exact absurd h (by decide +kernel)

def UpgradeRequest (req : Request) : Prop :=
  req.method = .get ∧ (∃ q, targetPath req.path = .ok q ∧ ChatPath q) ∧ req.connectionUpgrade = true ∧
    req.secWebsocketKey.isSome = true

structure Linear (req : Request) (out : Outcome) : Prop where
  moves : out.2.2.moves ≤ 1
  present : out.1 ≠ .error .connectionAlreadyMoved
  upgrade : UpgradeRequest req → out.1 = .ok .accepted

theorem linear_of_not_upgrade {req : Request} {out : Outcome} (h : ¬ UpgradeRequest req)
    (hm : out.2.2.moves ≤ 1) (hp : out.1 ≠ .error .connectionAlreadyMoved) : Linear req out :=
  ⟨hm, hp, fun hu => absurd hu h⟩

theorem UpgradeRequest.dispatched {req : Request} (h : UpgradeRequest req) (hp : targetPath req.path = .ok q) :
    ∃ params, dispatch entries req.method q = some (.liveUpdate, params) := by
  obtain ⟨hm, ⟨q', hp', hq⟩, -⟩ := h
  obtain rfl : q = q' := Except.ok.inj (hp.symm.trans hp')
  exact dispatch_liveUpdate.mpr ⟨hm, hq⟩

theorem upgradeRequest_iff {req : Request} {params : RouteParams} (hp : targetPath req.path = .ok q)
    (hd : dispatch entries req.method q = some (.liveUpdate, params)) :
    UpgradeRequest req ↔ req.connectionUpgrade = true ∧ req.secWebsocketKey.isSome = true := by
  obtain ⟨hm, hq⟩ := dispatch_liveUpdate.mp ⟨params, hd⟩
  exact ⟨fun h => h.2.2, fun h => ⟨hm, ⟨q, hp, hq⟩, h⟩⟩

theorem liveUpdate_linear_iff {req : Request} {params : RouteParams} {store : Store}
    (hp : targetPath req.path = .ok q) (hd : dispatch entries req.method q = some (.liveUpdate, params)) :
    Linear req ((onLiveUpdate env req).run (store, .fresh req)) ↔ ¬ UpgradeRequest req := by
  have hu := upgradeRequest_iff hp hd
  rw [onLiveUpdate_run]
  cases hc : req.connectionUpgrade with
  | false =>
    have hno : ¬ UpgradeRequest req := by simp [hu, hc]
    exact iff_of_true (linear_of_not_upgrade hno (Nat.zero_le 1) (by simp)) hno
  | true =>
    cases hk : req.secWebsocketKey with
    | none =>
      have hno : ¬ UpgradeRequest req := by simp [hu, hk]
      exact iff_of_true (linear_of_not_upgrade hno (Nat.zero_le 1) (by simp)) hno
    | some key =>
      refine iff_of_false ?_ (by simp [hu, hc, hk])
      intro h
      exact h.present rfl

theorem linear_answered {req : Request} {b : ResponseBuilder} {store : Store} :
    Linear req (.ok .accepted, store, answered b) :=
  ⟨Nat.le_refl 1, by simp, fun _ => rfl⟩

theorem linear_of_not_chat {req : Request} {handler : Handler} {params : RouteParams}
    (hp : targetPath req.path = .ok q) (hd : dispatch entries req.method q = some (handler, params))
    (hl : handler ≠ .liveUpdate) (hno : ¬ UpgradeRequest req) (store : Store) :
    Linear req ((runHandler env req params handler).run (store, .fresh req)) := by
  obtain ⟨-, w, b, hr⟩ | ⟨-, e, c, moves, hr, he, hm⟩ := runHandler_cases env hp hd hl store
  · rw [hr]
    exact linear_answered
  · rw [hr]
    exact linear_of_not_upgrade hno hm (by simpa using he)

theorem linear_iff_not_upgrade (history : List Request) (req : Request) :
    Linear req (serve env req (storeAfter env history)) ↔ ¬ UpgradeRequest req := by
  cases hp : targetPath req.path with
  | error e =>
    have hno : ¬ UpgradeRequest req := by
      rintro ⟨-, ⟨q, hq, -⟩, -⟩
      simp [hp] at hq
    simp only [serve, serveWith, hp]
    exact iff_of_true (linear_of_not_upgrade hno (Nat.zero_le 1) (by simp)) hno
  | ok q =>
    cases hd : dispatch entries req.method q with
    | none =>
      have hno : ¬ UpgradeRequest req := by
        intro hu
        obtain ⟨params, hd'⟩ := hu.dispatched hp
        simp [hd] at hd'
      simp only [serve, serveWith, hp, hd]
      exact iff_of_true (linear_of_not_upgrade hno (Nat.zero_le 1) (by simp)) hno
    | some found =>
      obtain ⟨handler, params⟩ := found
      rw [serve_of_dispatch env _ hp hd]
      by_cases hl : handler = .liveUpdate
      · subst hl
        exact liveUpdate_linear_iff hp hd
      · have hno : ¬ UpgradeRequest req := by
          intro hu
          obtain ⟨params', hd'⟩ := hu.dispatched hp
          rw [hd] at hd'
          simp_all
        exact iff_of_true (linear_of_not_chat hp hd hl hno _) hno

def chatRequest : Request :=
  { sampleRequest .get (ascii "/chat") [] with
    connectionUpgrade := true, secWebsocketKey := some (ascii "dGhlIHNhbXBsZSBub25jZQ==") }

theorem chat_request_not_linear :
    UpgradeRequest chatRequest ∧
      (serve sampleEnv chatRequest (storeAfter sampleEnv [])).1 = .error .connectionAlreadyMoved ∧
      ¬ Linear chatRequest (serve sampleEnv chatRequest (storeAfter sampleEnv [])) := by
  have he : (serve sampleEnv chatRequest (storeAfter sampleEnv [])).1 = .error .connectionAlreadyMoved := by
    decide +kernel
  refine ⟨⟨rfl, ⟨ascii "/chat", by decide, ascii "/chat", [], rfl, by decide, .inl rfl⟩, rfl, rfl⟩, he, ?_⟩
  intro h
  exact h.present he

theorem serve_methodNotAllowed {req : Request} (hp : targetPath req.path = .ok q)
    (hm : req.method ∉ [.get, .post, .options]) (hq : RootPath q) (store : Store) :
    Answered (serve env req store) statusMethodNotAllowed := by
  obtain ⟨params, hd⟩ := dispatch_methodNotAllowed.mpr ⟨hm, hq⟩
  rw [serve_of_dispatch env store hp hd, runHandler, methodNotAllowed_run, answered_iff]
  rfl

/-- The routing table: at most one entry matches, and which one does. -/
theorem routing_exact {es : List (RouteEntry Handler)} (hes : serverHandler = .ok es) (method : Method)
    {p : Str} (hp : targetPath p = .ok q) :
    (matching es method q).length ≤ 1 ∧
      (∀ es' : List (RouteEntry Handler), es'.Perm es → dispatch es' method q = dispatch es method q) ∧
      (∀ params, dispatch es method q = some (.weatherUpdate, params) ↔
        method = .put ∧ ∃ ID, IdPath q ID ∧ params = ⟨q, [(ascii "ID", ID)], []⟩) ∧
      (∀ params, dispatch es method q = some (.weatherDelete, params) ↔
        method = .delete ∧ ∃ ID, IdPath q ID ∧ params = ⟨q, [(ascii "ID", ID)], []⟩) ∧
      (∀ params, dispatch es method q = some (.dateGet, params) ↔
        method = .get ∧ ∃ Date, DatePath q Date ∧ params = ⟨q, [(ascii "Date", Date)], []⟩) ∧
      ((∃ params, dispatch es method q = some (.weatherList, params)) ↔ method = .get ∧ RootPath q) ∧
      ((∃ params, dispatch es method q = some (.postData, params)) ↔ method = .post ∧ RootPath q) ∧
      (method ∉ [.get, .post, .options] → RootPath q → ∀ req store, req.method = method → req.path = p →
        Answered (serve env req store) statusMethodNotAllowed) := by
  obtain rfl : entries = es := Except.ok.inj (serverHandler_eq.symm.trans hes)
  refine ⟨matching_length_le_one method q, ?_, fun _ => dispatch_weatherUpdate, fun _ => dispatch_weatherDelete,
    fun _ => dispatch_dateGet, dispatch_weatherList, dispatch_postData, ?_⟩
  · intro es' hperm
    exact dispatch_perm (matching_length_le_one method q) hperm
  · rintro hm hq req store rfl rfl
    exact serve_methodNotAllowed hp hm hq store

theorem routing_exact_patch :
    serverHandler = .ok entries ∧ targetPath (ascii "/%2D") = .ok (ascii "/-") ∧
      (matching entries .patch (ascii "/-")).length ≤ 1 ∧
      targetPath (ascii "//") = .ok (ascii "//") ∧
      Answered (serve sampleEnv (sampleRequest .patch (ascii "//") []) (storeAfter sampleEnv []))
        statusMethodNotAllowed := by
  have hminus : targetPath (ascii "/%2D") = .ok (ascii "/-") := by decide
  have hroot : targetPath (ascii "//") = .ok (ascii "//") := by decide
  refine ⟨serverHandler_eq, hminus, (@routing_exact sampleEnv _ _ serverHandler_eq .patch _ hminus).1, hroot, ?_⟩
  obtain ⟨-, -, -, -, -, -, -, h⟩ := @routing_exact sampleEnv _ _ serverHandler_eq .patch _ hroot
  exact h (by decide) (.inr rfl) (sampleRequest .patch (ascii "//") []) (storeAfter sampleEnv []) rfl rfl

end NgkNet.Weather
