import NgkNet.Weather.Server

set_option autoImplicit false

namespace NgkNet.Weather

open Ascii Restinio PercentEncoding

def Failed (out : Outcome) : Prop :=
  (∃ e, out.1 = .error e) ∨ ∃ r ∈ out.2.2.responses, r.status = statusBadRequest

section Pure

variable (cast : Str → Except CastError UInt32)

def InFrontOfUnparsable (P : Station → Prop) (w : List Station) : Prop :=
  ∀ before c after, w = before ++ c :: after → Unparsable cast c → (∀ a ∈ before, ¬ Unparsable cast a) →
    ∀ a ∈ before, P a

def UpdateIntact (n : UInt32) (b : Station) (w : List Station) : Prop :=
  InFrontOfUnparsable cast (fun a => Matches cast n a → a = b) w

def DeleteIntact (n : UInt32) (w : List Station) : Prop :=
  InFrontOfUnparsable cast (fun a => ¬ Matches cast n a) (visited cast n w)

def Throughout (P : Station → Prop) : List Station → Prop
  | [] => True
  | c :: w =>
    match cast c.ID with
    | .error _ => True
    | .ok _ => P c ∧ Throughout P w

variable {cast}

theorem firstError_isSome_iff {w : List Station} :
    (firstError cast w).isSome = true ↔ ∃ c ∈ w, Unparsable cast c := by
  induction w with
  | nil => simp [firstError]
  | cons c w ih =>
    cases hc : cast c.ID with
    | error e => simp [firstError, hc, Unparsable]
    | ok n => simp [firstError, hc, Unparsable, ih]

theorem inFrontOfUnparsable_of_parsable {P : Station → Prop} {w : List Station}
    (h : ¬ ∃ c ∈ w, Unparsable cast c) : InFrontOfUnparsable cast P w := by
  rintro before c after rfl hc
  exact absurd ⟨c, by simp, hc⟩ h

theorem exists_first_unparsable {w : List Station} (h : ∃ c ∈ w, Unparsable cast c) :
    ∃ before c after, w = before ++ c :: after ∧ Unparsable cast c ∧ ∀ a ∈ before, ¬ Unparsable cast a := by
  induction w with
  | nil => simp at h
  | cons c w ih =>
    by_cases hc : Unparsable cast c
    · exact ⟨[], c, w, rfl, hc, by simp⟩
    · obtain ⟨before, d, after, rfl, hd, hall⟩ := ih (by simpa [hc] using h)
      exact ⟨c :: before, d, after, rfl, hd, by simpa [hc] using hall⟩

theorem inFrontOfUnparsable_cons {P : Station → Prop} {c : Station} {w : List Station} :
    InFrontOfUnparsable cast P (c :: w) ↔
      Unparsable cast c ∨ ((∃ d ∈ w, Unparsable cast d) → P c) ∧ InFrontOfUnparsable cast P w := by
  by_cases hc : Unparsable cast c
  · simp only [hc, true_or, iff_true]
    intro before d after he hd hall a ha
    cases before with
    | nil => simp at ha
    | cons b before =>
      obtain ⟨rfl, -⟩ := List.cons.inj he
      exact absurd hc (hall c List.mem_cons_self)
  · simp only [hc, false_or]
    constructor
    · intro h
      constructor
      · intro hw
        obtain ⟨before, d, after, rfl, hd, hall⟩ := exists_first_unparsable hw
        exact h (c :: before) d after rfl hd (by simpa [hc] using hall) c List.mem_cons_self
      · rintro before d after rfl hd hall a ha
        exact h (c :: before) d after rfl hd (by simpa [hc] using hall) a (List.mem_cons_of_mem _ ha)
    · rintro ⟨hP, h⟩ before d after he hd hall a ha
      cases before with
      | nil => simp at ha
      | cons b before =>
        obtain ⟨rfl, rfl⟩ := List.cons.inj he
        rcases List.mem_cons.mp ha with rfl | ha
        · exact hP ⟨d, by simp, hd⟩
        · exact h before d after rfl hd (fun x hx => hall x (List.mem_cons_of_mem _ hx)) a ha

theorem throughout_iff {P : Station → Prop} {w : List Station} (h : ∃ c ∈ w, Unparsable cast c) :
    Throughout cast P w ↔ InFrontOfUnparsable cast P w := by
  induction w with
  | nil => simp at h
  | cons c w ih =>
    rw [inFrontOfUnparsable_cons]
    cases hc : cast c.ID with
    | error e => simp [Throughout, hc, Unparsable]
    | ok n =>
      have hu : ¬ Unparsable cast c := by simp [Unparsable, hc]
      have hw : ∃ d ∈ w, Unparsable cast d := by simpa [hu] using h
      simp only [Throughout, hc, hu, hw, forall_const, false_or, ih hw]

theorem updated_eq_self_iff {n : UInt32} {b : Station} {w : List Station} :
    updated cast n b w = w ↔ Throughout cast (fun a => Matches cast n a → a = b) w := by
  induction w with
  | nil => simp [updated, Throughout]
  | cons c w ih =>
    cases hc : cast c.ID with
    | error e => simp [updated, Throughout, hc]
    | ok m =>
      have hmatch : Matches cast n c ↔ n = m := by simp [Matches, hc, eq_comm]
      simp only [updated, Throughout, hc, List.cons.injEq, ih, hmatch]
      apply and_congr_left'
      by_cases hm : n = m <;> simp [hm, eq_comm]

theorem deleted_length_le (n : UInt32) (w : List Station) : (deleted cast n w).length ≤ w.length := by
  fun_induction deleted cast n w with
  | case1 => exact Nat.le_refl _
  | case2 c h => simp
  | case3 c h => exact Nat.le_refl _
  | case4 c d rest e h => exact Nat.le_refl _
  | case5 c d rest h ih =>
    simp only [List.length_cons] at ih ⊢
    omega
  | case6 c d rest m h hm ih =>
    simp only [List.length_cons] at ih ⊢
    omega

theorem deleted_eq_self_iff {n : UInt32} {w : List Station} :
    deleted cast n w = w ↔ Throughout cast (fun a => ¬ Matches cast n a) (visited cast n w) := by
  fun_induction deleted cast n w with
  | case1 => simp [visited, Throughout]
  | case2 c h => simp [visited, Throughout, h, Matches]
  | case3 c h =>
    cases hc : cast c.ID with
    | error e => simp [visited, Throughout, hc]
    | ok m => simpa [visited, Throughout, hc, Matches] using h
  | case4 c d rest e h => simp [visited, Throughout, h]
  | case5 c d rest h ih =>
    have hl : (deleted cast n rest).length ≤ rest.length := deleted_length_le n rest
    constructor
    · intro he
      have := congrArg List.length he
      simp only [List.length_cons] at this
      omega
    · intro ht
      simp [visited, Throughout, h, Matches] at ht
  | case6 c d rest m h hm ih => simp [visited, Throughout, h, Matches, Ne.symm hm, ih]

end Pure

variable (env : Env)

def Intact (req : Request) (w : List Station) : Prop :=
  ∀ path ID n, targetPath req.path = .ok path → IdPath path ID → cast env ID = .ok n →
    (req.method = .put → ∀ b, env.json.fromJson req.body = some b → UpdateIntact (cast env) n b w) ∧
    (req.method = .delete → DeleteIntact (cast env) n w)

theorem updated_of_no_match {cast : Str → Except CastError UInt32} {n : UInt32} {b : Station} {w : List Station}
    (h : ∀ c ∈ w, ¬ Matches cast n c) : updated cast n b w = w := by
  induction w with
  | nil => rfl
  | cons c w ih =>
    have hc := h c List.mem_cons_self
    have hw := ih (fun d hd => h d (List.mem_cons_of_mem _ hd))
    cases hv : cast c.ID with
    | error e => simp [updated, hv]
    | ok m =>
      have hm : n ≠ m := by
        rintro rfl
        exact hc hv
      simp [updated, hv, hm, hw]

theorem update_atomic_iff (req : Request) (n : UInt32) (b : Station) (w : List Station) :
    ((updateResponse env req n w).response.status = statusBadRequest → updated (cast env) n b w = w) ↔
      UpdateIntact (cast env) n b w := by
  by_cases hu : ∃ c ∈ w, Unparsable (cast env) c
  · obtain ⟨e, he⟩ := Option.isSome_iff_exists.mp (firstError_isSome_iff.mpr hu)
    have hs : (updateResponse env req n w).response.status = statusBadRequest := by
      rw [updateResponse, updateResponseWith, he]
      rfl
    rw [UpdateIntact, ← throughout_iff hu, ← updated_eq_self_iff]
    exact ⟨fun h => h hs, fun h _ => h⟩
  · have hnone : firstError (cast env) w = none := by
      rw [← Option.not_isSome_iff_eq_none, firstError_isSome_iff]
      exact hu
    refine iff_of_true ?_ (inFrontOfUnparsable_of_parsable hu)
    intro hs
    apply updated_of_no_match
    intro c hc hm
    have hany : w.any (fun c => Matches (cast env) n c) = true :=
      List.any_eq_true.mpr ⟨c, hc, by simpa using hm⟩
    rw [updateResponse, updateResponseWith, hnone, hany] at hs
    exact absurd hs statusOk_ne_badRequest

theorem delete_atomic_iff (n : UInt32) (w : List Station) :
    ((firstError (cast env) (visited (cast env) n w)).isSome = true → deleted (cast env) n w = w) ↔
      DeleteIntact (cast env) n w := by
  rw [firstError_isSome_iff, DeleteIntact, deleted_eq_self_iff]
  by_cases hu : ∃ c ∈ visited (cast env) n w, Unparsable (cast env) c
  · rw [throughout_iff hu]
    exact ⟨fun h => h hu, fun h _ => h⟩
  · exact iff_of_true (fun h => absurd h hu) (inFrontOfUnparsable_of_parsable hu)

theorem failed_answered {b : ResponseBuilder} {store : Store} :
    Failed (.ok .accepted, store, answered b) ↔ b.response.status = statusBadRequest := by
  simp [Failed, answered]

theorem deleteResponse_status_iff {req : Request} {n : UInt32} {w : List Station} :
    (deleteResponse env req n w).response.status = statusBadRequest ↔
      (firstError (cast env) (visited (cast env) n w)).isSome = true := by
  rw [deleteResponse, deleteResponseWith]
  cases firstError (cast env) (visited (cast env) n w) with
  | some e => exact iff_of_true rfl rfl
  | none => exact iff_of_false statusOk_ne_badRequest (by simp)

section Served

variable {req : Request} {path : Str} {params : RouteParams} {store : Store}
  (hp : targetPath req.path = .ok path)
include hp

theorem intact_of_dispatch (hu : ∀ params, dispatch entries req.method path ≠ some (.weatherUpdate, params))
    (hd : ∀ params, dispatch entries req.method path ≠ some (.weatherDelete, params)) :
    Intact env req store.weather := by
  intro path' ID n hp' hID hc
  obtain rfl : path = path' := Except.ok.inj (hp.symm.trans hp')
  constructor
  · intro hm
    exact absurd (dispatch_weatherUpdate.mpr ⟨hm, ID, hID, rfl⟩) (hu _)
  · intro hm
    exact absurd (dispatch_weatherDelete.mpr ⟨hm, ID, hID, rfl⟩) (hd _)

theorem update_intact_iff (hd : dispatch entries req.method path = some (.weatherUpdate, params)) :
    (Failed (serve env req store) → (serve env req store).2.1.weather = store.weather) ↔
      Intact env req store.weather := by
  obtain ⟨ID, hm, hID, hs⟩ := serve_weatherUpdate env hp hd store
  have hintact : Intact env req store.weather ↔ ∀ n, cast env ID = .ok n →
      ∀ b, env.json.fromJson req.body = some b → UpdateIntact (cast env) n b store.weather := by
    constructor
    · intro h n hc
      exact (h path ID n hp hID hc).1 hm
    · intro h path' ID' n hp' hID' hc
      obtain rfl : path = path' := Except.ok.inj (hp.symm.trans hp')
      obtain rfl := hID.unique hID'
      exact ⟨fun _ => h n hc, fun hm' => absurd (hm.symm.trans hm') (by decide)⟩
  rw [hintact, hs]
  cases hc : cast env ID with
  | error e => simp
  | ok n =>
    cases hb : env.json.fromJson req.body with
    | none => simp
    | some b => simpa [failed_answered] using update_atomic_iff env req n b store.weather

theorem delete_intact_iff (hd : dispatch entries req.method path = some (.weatherDelete, params)) :
    (Failed (serve env req store) → (serve env req store).2.1.weather = store.weather) ↔
      Intact env req store.weather := by
  obtain ⟨ID, hm, hID, hs⟩ := serve_weatherDelete env hp hd store
  have hintact : Intact env req store.weather ↔ ∀ n, cast env ID = .ok n →
      DeleteIntact (cast env) n store.weather := by
    constructor
    · intro h n hc
      exact (h path ID n hp hID hc).2 hm
    · intro h path' ID' n hp' hID' hc
      obtain rfl : path = path' := Except.ok.inj (hp.symm.trans hp')
      obtain rfl := hID.unique hID'
      exact ⟨fun hm' => absurd (hm.symm.trans hm') (by decide), fun _ => h n hc⟩
  rw [hintact, hs]
  cases hc : cast env ID with
  | error e => simp
  | ok n =>
    simpa [failed_answered, deleteResponse_status_iff] using delete_atomic_iff env n store.weather

end Served

theorem serve_intact_iff (req : Request) (store : Store) :
    (Failed (serve env req store) → (serve env req store).2.1.weather = store.weather) ↔
      Intact env req store.weather := by
  cases hp : targetPath req.path with
  | error e =>
    refine iff_of_true (fun _ => by simp only [serve, serveWith, hp]) ?_
    intro path ID n hp'
    rw [hp] at hp'
    exact absurd hp' (by simp)
  | ok path =>
    cases hd : dispatch entries req.method path with
    | none =>
      refine iff_of_true (fun _ => by simp only [serve, serveWith, hp, hd]) (intact_of_dispatch env hp ?_ ?_) <;> simp [hd]
    | some found =>
      obtain ⟨handler, params⟩ := found
      by_cases hu : handler = .weatherUpdate
      · subst hu
        exact update_intact_iff env hp hd
      by_cases hx : handler = .weatherDelete
      · subst hx
        exact delete_intact_iff env hp hd
      refine iff_of_true ?_ (intact_of_dispatch env hp (by simp [hd, hu]) (by simp [hd, hx]))
      by_cases hpost : handler = .postData
      · subst hpost
        rw [serve_postData env hp hd]
        cases env.json.fromJson req.body with
        | none => simp
        | some b =>
          intro hf
          exact absurd (failed_answered.mp hf) statusOk_ne_badRequest
      · intro _
        rw [serve_of_dispatch env store hp hd]
        exact serve_weather_of_not_mutating env hd (by simp [hu, hx, hpost]) store

/-- A request that fails leaves the collection as it was, exactly if no station is replaced by another
one, or removed, before the first unparsable station that its loop reaches. -/
theorem failure_atomic_iff (history : List Request) (req : Request) :
    (Failed (serve env req (storeAfter env history)) →
      (serve env req (storeAfter env history)).2.1.weather = (storeAfter env history).weather) ↔
      Intact env req (storeAfter env history).weather :=
  serve_intact_iff env req (storeAfter env history)

def blockingPost : Request := sampleRequest .post (ascii "/") (jsonText (sampleStation (ascii "abc")))

def firstPut : Request := sampleRequest .put (ascii "/1") (jsonText (sampleStation (ascii "1")))

def firstDelete : Request := sampleRequest .delete (ascii "/1") []

theorem firstPut_addresses : Addresses sampleEnv firstPut .put 1 :=
  addresses_of_idPath (ascii "1") (by decide) (by decide) (List.all_eq_true.mp (by decide))
    (by decide)

theorem firstDelete_addresses : Addresses sampleEnv firstDelete .delete 1 :=
  addresses_of_idPath (ascii "1") (by decide) (by decide) (List.all_eq_true.mp (by decide))
    (by decide)

theorem weather_after_blockingPost :
    (storeAfter sampleEnv [blockingPost]).weather = initialWeather ++ [sampleStation (ascii "abc")] := by
  rw [storeAfter, List.foldl_cons, List.foldl_nil, blockingPost,
    serve_samplePost sampleEnv (sampleEnv_fromJson (.inl rfl)), initialStore]

theorem firstPut_body : sampleEnv.json.fromJson firstPut.body = some (sampleStation (ascii "1")) :=
  sampleEnv_fromJson (.inr rfl)

theorem initialWeather_parsable : ∀ c ∈ initialWeather, ¬ Unparsable (cast sampleEnv) c := by decide

theorem halfway_put_not_atomic :
    Failed (serve sampleEnv firstPut (storeAfter sampleEnv [blockingPost])) ∧
      (serve sampleEnv firstPut (storeAfter sampleEnv [blockingPost])).2.1.weather ≠
        (storeAfter sampleEnv [blockingPost]).weather := by
  rw [serve_put firstPut_addresses firstPut_body, weather_after_blockingPost]
  constructor
  · rw [failed_answered]
    decide
  · decide

end NgkNet.Weather
