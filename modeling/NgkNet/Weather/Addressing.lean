import NgkNet.Weather.Blocking

set_option autoImplicit false

namespace NgkNet.Weather

open Ascii Restinio PercentEncoding

section Pure

variable {cast : Str → Except CastError UInt32} {n : UInt32}

theorem Matches.of_parsable {c : Station} {m : UInt32} (hc : cast c.ID = .ok m) : Matches cast n c ↔ n = m := by
  rw [Matches, hc, Except.ok.injEq, eq_comm]

def Spread (cast : Str → Except CastError UInt32) (n : UInt32) (w : List Station) : Prop :=
  w.IsChain (fun c d => ¬ (Matches cast n c ∧ Matches cast n d))

theorem spread_cons_of_not_matches {c : Station} {w : List Station} (hc : ¬ Matches cast n c) :
    Spread cast n (c :: w) ↔ Spread cast n w := by
  cases w with
  | nil => simp [Spread]
  | cons d w =>
    rw [Spread, List.isChain_cons_cons]
    exact and_iff_right fun h => hc h.1

theorem spread_cons_cons_of_matches {c d : Station} {w : List Station} (hc : Matches cast n c) :
    Spread cast n (c :: d :: w) ↔ ¬ Matches cast n d ∧ Spread cast n w := by
  rw [Spread, List.isChain_cons_cons, not_and]
  constructor
  · rintro ⟨hd, h⟩
    exact ⟨hd hc, (spread_cons_of_not_matches (hd hc)).mp h⟩
  · rintro ⟨hd, h⟩
    exact ⟨fun _ => hd, (spread_cons_of_not_matches hd).mpr h⟩

theorem deleted_eq_filter_iff {w : List Station} (hall : ∀ c ∈ w, ¬ Unparsable cast c) :
    deleted cast n w = w.filter (fun c => ¬ Matches cast n c) ↔ Spread cast n w := by
  fun_induction deleted cast n w with
  | case1 => simp [Spread]
  | case2 c h => simp [Spread, Matches, h]
  | case3 c h => simp [Spread, Matches, h]
  | case4 c d rest e h => exact absurd ⟨e, h⟩ (hall c List.mem_cons_self)
  | case5 c d rest h ih =>
    have hrest := ih fun a ha => hall a (List.mem_cons_of_mem _ (List.mem_cons_of_mem _ ha))
    have hc : Matches cast n c := h
    rw [spread_cons_cons_of_matches hc, ← hrest, List.filter_cons_of_neg (by simpa using hc)]
    by_cases hd : Matches cast n d
    · refine iff_of_false ?_ (fun hs => hs.1 hd)
      intro he
      have hmem : d ∈ (d :: rest).filter (fun c => ¬ Matches cast n c) := by
        rw [← he]
        exact List.mem_cons_self
      simpa [hd] using (List.mem_filter.mp hmem).2
    · rw [List.filter_cons_of_pos (by simpa using hd), List.cons.injEq, and_iff_right rfl]
      exact (and_iff_right hd).symm
  | case6 c d rest m h hm ih =>
    have hrest := ih fun a ha => hall a (List.mem_cons_of_mem _ ha)
    have hc : ¬ Matches cast n c := fun hc => hm ((Matches.of_parsable h).mp hc)
    rw [spread_cons_of_not_matches hc, ← hrest, List.filter_cons_of_pos (by simpa using hc), List.cons.injEq,
      and_iff_right rfl]

theorem updated_eq_map {b : Station} {w : List Station} (hall : ∀ c ∈ w, ¬ Unparsable cast c) :
    updated cast n b w = w.map (fun c => if Matches cast n c then b else c) := by
  apply List.ext_getElem?
  intro i
  rw [updated_getElem? hall, List.getElem?_map]

end Pure

variable {env : Env} {req : Request} {n : UInt32} {store : Store}

/-- Deleting removes all and only the addressed stations exactly if no two of them are side by side. -/
theorem delete_exact_iff (h : Addresses env req .delete n)
    (hall : ∀ c ∈ store.weather, ¬ Unparsable (cast env) c) :
    (serve env req store).2.1.weather = store.weather.filter (fun c => ¬ Matches (cast env) n c) ↔
      Spread (cast env) n store.weather := by
  rw [serve_delete h]
  exact deleted_eq_filter_iff hall

theorem delete_exact_initially :
    (serve sampleEnv firstDelete initialStore).2.1.weather =
      initialStore.weather.filter (fun c => ¬ Matches (cast sampleEnv) 1 c) := by
  apply (delete_exact_iff firstDelete_addresses ?_).mpr
  · rw [Spread]
    decide
  · exact initialWeather_parsable

def twinPost : Request := sampleRequest .post (ascii "/") (jsonText (sampleStation (ascii "1")))

theorem weather_after_twins :
    (storeAfter sampleEnv [twinPost, twinPost]).weather =
      initialWeather ++ [sampleStation (ascii "1")] ++ [sampleStation (ascii "1")] := by
  have hpost := serve_samplePost sampleEnv (sampleEnv_fromJson (.inr rfl))
  rw [storeAfter, List.foldl_cons, List.foldl_cons, List.foldl_nil, twinPost, hpost, hpost, initialStore]

theorem delete_passes_over_twin :
    Addresses sampleEnv firstDelete .delete 1 ∧
      (∀ c ∈ (storeAfter sampleEnv [twinPost, twinPost]).weather, ¬ Unparsable (cast sampleEnv) c) ∧
      sampleStation (ascii "1") ∈
        (serve sampleEnv firstDelete (storeAfter sampleEnv [twinPost, twinPost])).2.1.weather ∧
      Matches (cast sampleEnv) 1 (sampleStation (ascii "1")) := by
  rw [serve_delete firstDelete_addresses, weather_after_twins]
  exact ⟨firstDelete_addresses, by decide, by decide, by decide⟩

theorem updateResponse_of_no_match (hall : ∀ c ∈ store.weather, ¬ Unparsable (cast env) c)
    (hnone : ¬ ∃ c ∈ store.weather, Matches (cast env) n c) :
    updateResponse env req n store.weather = (markAsBadRequest (baseResponse env req)).setBody
      (ascii "No weather with #" ++ ascii (toString n.toNat) ++ ascii "\n") := by
  have hany : store.weather.any (fun c => Matches (cast env) n c) = false := by
    rw [← Bool.not_eq_true, List.any_eq_true]
    simpa using hnone
  rw [updateResponse, updateResponseWith, firstError_eq_none_iff.mpr hall, hany]
  rfl

theorem put_exact {b : Station} (h : Addresses env req .put n) (hb : env.json.fromJson req.body = some b)
    (hall : ∀ c ∈ store.weather, ¬ Unparsable (cast env) c) :
    ((∃ c ∈ store.weather, Matches (cast env) n c) →
      Answered (serve env req store) statusOk ∧
        (serve env req store).2.1.weather =
          store.weather.map (fun c => if Matches (cast env) n c then b else c)) ∧
    ((¬ ∃ c ∈ store.weather, Matches (cast env) n c) →
      Answered (serve env req store) statusBadRequest ∧
        (serve env req store).2.2.responses.map Response.body =
          [ascii "No weather with #" ++ ascii (toString n.toNat) ++ ascii "\n"] ∧
        (serve env req store).2.1.weather = store.weather) := by
  rw [serve_put h hb]
  constructor
  · intro hsome
    exact ⟨answered_iff.mpr (updateResponse_ok_iff.mpr ⟨hsome, hall⟩), updated_eq_map hall⟩
  · intro hnone
    have hunchanged : updated (cast env) n b store.weather = store.weather :=
      updated_of_no_match fun c hc hm => hnone ⟨c, hc, hm⟩
    rw [updateResponse_of_no_match hall hnone, hunchanged]
    exact ⟨answered_iff.mpr rfl, rfl, rfl⟩

theorem put_exact_initially :
    Answered (serve sampleEnv firstPut initialStore) statusOk ∧
      (serve sampleEnv firstPut initialStore).2.1.weather =
        initialStore.weather.map
          (fun c => if Matches (cast sampleEnv) 1 c then sampleStation (ascii "1") else c) := by
  apply (put_exact firstPut_addresses firstPut_body ?_).1
  · decide
  · exact initialWeather_parsable

def absentPut : Request := sampleRequest .put (ascii "/6") (jsonText (sampleStation (ascii "1")))

theorem absent_put_body :
    Addresses sampleEnv absentPut .put 6 ∧
      sampleEnv.json.fromJson absentPut.body = some (sampleStation (ascii "1")) ∧
      (∀ c ∈ initialStore.weather, ¬ Unparsable (cast sampleEnv) c) ∧
      (¬ ∃ c ∈ initialStore.weather, Matches (cast sampleEnv) 6 c) ∧
      (serve sampleEnv absentPut initialStore).2.2.responses.map Response.body ≠
        [ascii "No weather with #6"] := by
  have haddr : Addresses sampleEnv absentPut .put 6 :=
    addresses_of_idPath (ascii "6") (by decide) (by decide) (List.all_eq_true.mp (by decide))
      (by decide)
  have hbody : sampleEnv.json.fromJson absentPut.body = some (sampleStation (ascii "1")) :=
    sampleEnv_fromJson (.inr rfl)
  have hnone : ¬ ∃ c ∈ initialStore.weather, Matches (cast sampleEnv) 6 c := by decide
  refine ⟨haddr, hbody, initialWeather_parsable, hnone, ?_⟩
  rw [serve_put haddr hbody, updateResponse_of_no_match initialWeather_parsable hnone]
  decide

/-- An ASCII identifier is matched by the number that it denotes, and by nothing else, exactly if the
conversion does not misread it. -/
theorem matched_by_number_iff {c : Station} (hascii : ∀ b ∈ c.ID, b < 0x80) :
    ((∀ n, Matches (cast env) n c ↔ Numeral c.ID n.toNat) ∧
      ((∀ n : UInt32, ¬ Numeral c.ID n.toNat) → Unparsable (cast env) c) ∧
      ∀ n, cast env c.ID = .ok n → n.toNat = unboundedValue env.memory (stripPlus c.ID)) ↔
      ¬ Misread c.ID := by
  constructor
  · rintro ⟨hmatch, -, -⟩ hmis
    obtain ⟨m, hm⟩ := (castToUInt32_of_not_digits env.memory hascii hmis.not_digits).mpr hmis
    exact hmis.not_digits (numeral_iff.mp ((hmatch m).mp hm)).1
  · intro hmis
    have hmatch : ∀ n, Matches (cast env) n c ↔ Numeral c.ID n.toNat := by
      intro m
      by_cases hd : Digits (stripPlus c.ID)
      · exact castToUInt32_of_digits env.memory hd
      · refine iff_of_false ?_ (fun hn => hd (numeral_iff.mp hn).1)
        exact fun hm => hmis ((castToUInt32_of_not_digits env.memory hascii hd).mp ⟨m, hm⟩)
    refine ⟨hmatch, ?_, ?_⟩
    · intro hnone
      cases hc : cast env c.ID with
      | error e => exact ⟨e, hc⟩
      | ok m => exact absurd ((hmatch m).mp hc) (hnone m)
    · intro m hm
      obtain ⟨hd, -, -, hv⟩ := numeral_iff.mp ((hmatch m).mp hm)
      rw [unboundedValue_of_digits env.memory hd, hv]

theorem matched_by_number_six :
    (∀ b ∈ (sampleStation (ascii "+6")).ID, b < 0x80) ∧ ¬ Misread (sampleStation (ascii "+6")).ID ∧
      (Matches (cast sampleEnv) 6 (sampleStation (ascii "+6")) ↔ Numeral (ascii "+6") 6) := by
  have hall : (sampleStation (ascii "+6")).ID.all (fun b => b < 0x80) = true := by decide
  have hascii : ∀ b ∈ (sampleStation (ascii "+6")).ID, b < 0x80 := by simpa using List.all_eq_true.mp hall
  have hread : ¬ Misread (sampleStation (ascii "+6")).ID := by
    rintro ⟨-, -, -, hat, -⟩
    exact absurd hat (by decide)
  exact ⟨hascii, hread, ((matched_by_number_iff hascii).mpr hread).1 6⟩

theorem at_sign_matched :
    (∀ b ∈ (sampleStation (ascii "@")).ID, b < 0x80) ∧
      Matches (cast sampleEnv) 240 (sampleStation (ascii "@")) ∧ ¬ Numeral (ascii "@") 240 ∧
      cast sampleEnv (ascii "@@@@@@@@@") = .ok 896862864 ∧
      unboundedValue sampleEnv.memory (ascii "@@@@@@@@@") = 26666666640 := by
  have hall : (sampleStation (ascii "@")).ID.all (fun b => b < 0x80) = true := by decide
  refine ⟨by simpa using List.all_eq_true.mp hall, by decide, ?_, by decide, by decide⟩
  intro hn
  exact absurd ((numeral_iff.mp hn).1 (code '@') (by decide)) (by decide)

end NgkNet.Weather
