import NgkNet.Weather.Atomicity

set_option autoImplicit false

namespace NgkNet.Weather

open Ascii Restinio PercentEncoding

def Replaced (env : Env) (n : UInt32) (b : Station) (w w' : List Station) : Prop :=
  ∀ (i : ℕ) (c : Station), w[i]? = some c → Matches (cast env) n c → w'[i]? = some b

variable {env : Env}

theorem firstError_eq_none_iff {cast : Str → Except CastError UInt32} {w : List Station} :
    firstError cast w = none ↔ ∀ c ∈ w, ¬ Unparsable cast c := by
  rw [← Option.not_isSome_iff_eq_none, firstError_isSome_iff]
  simp

theorem updateResponse_ok_iff {req : Request} {n : UInt32} {w : List Station} :
    (updateResponse env req n w).response.status = statusOk ↔
      (∃ c ∈ w, Matches (cast env) n c) ∧ ∀ c ∈ w, ¬ Unparsable (cast env) c := by
  have hany : (∃ c ∈ w, Matches (cast env) n c) ↔ w.any (fun c => Matches (cast env) n c) = true := by simp
  rw [← firstError_eq_none_iff, hany, updateResponse, updateResponseWith]
  cases firstError (cast env) w with
  | some e => exact iff_of_false statusOk_ne_badRequest.symm (by simp)
  | none =>
    cases w.any (fun c => Matches (cast env) n c) with
    | false => exact iff_of_false statusOk_ne_badRequest.symm (by simp)
    | true => exact iff_of_true rfl ⟨rfl, rfl⟩

theorem deleteResponse_ok_iff {req : Request} {n : UInt32} {w : List Station} :
    (deleteResponse env req n w).response.status = statusOk ↔
      ∀ c ∈ visited (cast env) n w, ¬ Unparsable (cast env) c := by
  rw [← firstError_eq_none_iff, deleteResponse, deleteResponseWith]
  cases firstError (cast env) (visited (cast env) n w) with
  | some e => exact iff_of_false statusOk_ne_badRequest.symm (by simp)
  | none => exact iff_of_true rfl rfl

theorem mem_of_mem_visited {cast : Str → Except CastError UInt32} {n : UInt32} {w : List Station} {c : Station}
    (h : c ∈ visited cast n w) : c ∈ w := by
  fun_induction visited cast n w with
  | case1 => exact h
  | case2 d => exact h
  | case3 d e rest hd ih =>
    rcases List.mem_cons.mp h with rfl | h
    · exact List.mem_cons_self
    · exact List.mem_cons_of_mem _ (List.mem_cons_of_mem _ (ih h))
  | case4 d e rest hd ih =>
    rcases List.mem_cons.mp h with rfl | h
    · exact List.mem_cons_self
    · exact List.mem_cons_of_mem _ (ih h)

theorem updated_getElem? {cast : Str → Except CastError UInt32} {n : UInt32} {b : Station} {w : List Station}
    (hall : ∀ c ∈ w, ¬ Unparsable cast c) (i : ℕ) :
    (updated cast n b w)[i]? = w[i]?.map (fun c => if Matches cast n c then b else c) := by
  induction w generalizing i with
  | nil => simp [updated]
  | cons c w ih =>
    have hw := ih (fun d hd => hall d (List.mem_cons_of_mem _ hd))
    cases hc : cast c.ID with
    | error e => exact absurd ⟨e, hc⟩ (hall c List.mem_cons_self)
    | ok m =>
      cases i with
      | zero => simp [updated, hc, Matches, eq_comm]
      | succ i => simp [updated, hc, hw]

/-- Updating and deleting what is there work exactly if every station's ID can be converted; deleting alone works
exactly if those that its loop looks at can. -/
theorem put_delete_work_iff (history : List Request) {n : UInt32} {b : Station} {put delete : Request}
    (hmatch : ∃ c ∈ (storeAfter env history).weather, Matches (cast env) n c)
    (hput : Addresses env put .put n) (hb : env.json.fromJson put.body = some b)
    (hdelete : Addresses env delete .delete n) :
    ((Answered (serve env put (storeAfter env history)) statusOk ∧
      Replaced env n b (storeAfter env history).weather
        (serve env put (storeAfter env history)).2.1.weather ∧
      Answered (serve env delete (storeAfter env history)) statusOk) ↔
      ∀ c ∈ (storeAfter env history).weather, ¬ Unparsable (cast env) c) ∧
    (Answered (serve env delete (storeAfter env history)) statusOk ↔
      ∀ c ∈ visited (cast env) n (storeAfter env history).weather, ¬ Unparsable (cast env) c) := by
  rw [serve_put hput hb, serve_delete hdelete, answered_iff, answered_iff, updateResponse_ok_iff,
    deleteResponse_ok_iff]
  refine ⟨?_, Iff.rfl⟩
  constructor
  · exact fun h => h.1.2
  · intro hall
    refine ⟨⟨hmatch, hall⟩, ?_, fun c hc => hall c (mem_of_mem_visited hc)⟩
    intro i c hi hm
    rw [updated_getElem? hall, hi, Option.map_some, if_pos hm]

theorem put_delete_work_initially :
    Answered (serve sampleEnv firstPut (storeAfter sampleEnv [])) statusOk ∧
      Replaced sampleEnv 1 (sampleStation (ascii "1")) (storeAfter sampleEnv []).weather
        (serve sampleEnv firstPut (storeAfter sampleEnv [])).2.1.weather ∧
      Answered (serve sampleEnv firstDelete (storeAfter sampleEnv [])) statusOk := by
  apply (put_delete_work_iff [] ?_ firstPut_addresses firstPut_body firstDelete_addresses).1.mpr
  · exact initialWeather_parsable
  · decide

theorem stored_record_blocks :
    (∃ c ∈ (storeAfter sampleEnv [blockingPost]).weather, Matches (cast sampleEnv) 1 c) ∧
      Addresses sampleEnv firstPut .put 1 ∧
      sampleEnv.json.fromJson firstPut.body = some (sampleStation (ascii "1")) ∧
      Addresses sampleEnv firstDelete .delete 1 ∧
      ¬ Answered (serve sampleEnv firstPut (storeAfter sampleEnv [blockingPost])) statusOk ∧
      ¬ Answered (serve sampleEnv firstDelete (storeAfter sampleEnv [blockingPost])) statusOk := by
  have hblock : sampleStation (ascii "abc") ∈ (storeAfter sampleEnv [blockingPost]).weather := by
    rw [weather_after_blockingPost]
    exact List.mem_append_right _ (List.mem_singleton_self _)
  have hunparsable : Unparsable (cast sampleEnv) (sampleStation (ascii "abc")) := by decide
  have hvisited : sampleStation (ascii "abc") ∈
      visited (cast sampleEnv) 1 (storeAfter sampleEnv [blockingPost]).weather := by
    rw [weather_after_blockingPost]
    decide
  refine ⟨?_, firstPut_addresses, firstPut_body, firstDelete_addresses, ?_, ?_⟩
  · rw [weather_after_blockingPost]
    decide
  · rw [serve_put firstPut_addresses firstPut_body, answered_iff, updateResponse_ok_iff]
    exact fun h => h.2 _ hblock hunparsable
  · rw [serve_delete firstDelete_addresses, answered_iff, deleteResponse_ok_iff]
    exact fun h => h _ hvisited hunparsable

end NgkNet.Weather
