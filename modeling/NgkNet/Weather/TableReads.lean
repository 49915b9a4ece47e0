import NgkNet.Weather.Blocking

set_option autoImplicit false

namespace NgkNet.Restinio

open Ascii

/-- The index into the digits table: a signed `char` widened to a 64-bit `size_t`. -/
def tableIndex (c : UInt8) : ℕ := if c < 0x80 then c.toNat else 2 ^ 64 - 256 + c.toNat

def anyOfReads (memory : UInt8 → UInt8) : Str → List ℕ
  | [] => []
  | c :: s => tableIndex c :: if digitsMapping memory c = 0xFF then [] else anyOfReads memory s

def castReads (memory : UInt8 → UInt8) (data : Str) : List ℕ :=
  if data.head? = some (code '-') then []
  else
    let data := stripPlus data
    if data.length = 0 then []
    else if 10 < data.length then []
    else if data.any (fun c => digitsMapping memory c = 0xFF) then anyOfReads memory data
    else if data.length = 10 ∧ memcmpGt data uint32Max then anyOfReads memory data
    else anyOfReads memory data ++ data.map tableIndex

def Exposed (s : Str) : Prop :=
  ∃ before c after, s = before ++ c :: after ∧ (∀ d ∈ before, isDigit d = true ∨ d = code '@') ∧ 0x80 ≤ c

def Overreads (s : Str) : Prop :=
  s.head? ≠ some (code '-') ∧ (stripPlus s).length ≤ 10 ∧ Exposed (stripPlus s)

theorem tableIndex_lt_iff {c : UInt8} : tableIndex c < 256 ↔ c < 0x80 := by
  have hc := c.toNat_lt
  rw [tableIndex]
  by_cases h : c < 0x80
  · rw [if_pos h]
    exact iff_of_true hc h
  · rw [if_neg h]
    exact iff_of_false (by omega) h

theorem exposed_cons_iff {c : UInt8} {s : Str} :
    Exposed (c :: s) ↔ 0x80 ≤ c ∨ (isDigit c = true ∨ c = code '@') ∧ Exposed s := by
  constructor
  · rintro ⟨before, d, after, hs, hb, hd⟩
    cases before with
    | nil =>
      obtain ⟨rfl, -⟩ := List.cons.inj hs
      exact .inl hd
    | cons a before =>
      obtain ⟨rfl, htail⟩ := List.cons.inj hs
      exact .inr ⟨hb c List.mem_cons_self, before, d, after, htail, fun e he => hb e (List.mem_cons_of_mem _ he), hd⟩
  · rintro (hc | ⟨hc, before, d, after, rfl, hb, hd⟩)
    · exact ⟨[], c, s, rfl, by simp, hc⟩
    · exact ⟨c :: before, d, after, rfl, List.forall_mem_cons.mpr ⟨hc, hb⟩, hd⟩

section Reads

variable (memory : UInt8 → UInt8) {s : Str}

theorem anyOfReads_lt_iff : (∀ i ∈ anyOfReads memory s, i < 256) ↔ ¬ Exposed s := by
  induction s with
  | nil => simp [anyOfReads, Exposed]
  | cons c s ih =>
    rw [exposed_cons_iff, anyOfReads, List.forall_mem_cons, tableIndex_lt_iff, not_or, UInt8.not_le]
    apply and_congr_right
    intro hc
    rw [← digitsMapping_ascii memory hc, not_and_or, not_not]
    by_cases hinvalid : digitsMapping memory c = 0xFF
    · rw [if_pos hinvalid]
      exact iff_of_true (by simp) (.inl hinvalid)
    · rw [if_neg hinvalid, ih]
      exact (or_iff_right hinvalid).symm

theorem anyOfReads_of_valid (h : ∀ c ∈ s, digitsMapping memory c ≠ 0xFF) :
    anyOfReads memory s = s.map tableIndex := by
  induction s with
  | nil => rfl
  | cons c s ih =>
    rw [anyOfReads, if_neg (h c List.mem_cons_self), ih fun d hd => h d (List.mem_cons_of_mem _ hd), List.map_cons]

theorem castReads_lt_iff : (∀ i ∈ castReads memory s, i < 256) ↔ ¬ Overreads s := by
  rw [castReads]
  split
  · next h => exact iff_of_true (by simp) (fun ho => ho.1 h)
  next hminus =>
  simp only [List.length_eq_zero_iff]
  split
  · next h =>
    refine iff_of_true (by simp) ?_
    rintro ⟨-, -, before, c, after, hs, -⟩
    rw [h] at hs
    exact absurd hs (by simp)
  split
  · next h => exact iff_of_true (by simp) (fun ho => absurd ho.2.1 (by omega))
  next hlen =>
  have hover : ¬ Overreads s ↔ ∀ i ∈ anyOfReads memory (stripPlus s), i < 256 := by
    rw [anyOfReads_lt_iff, Overreads, and_iff_right hminus, and_iff_right (by omega)]
  rw [hover]
  split
  · exact Iff.rfl
  next hvalid =>
  split
  · exact Iff.rfl
  · have hall : ∀ c ∈ stripPlus s, digitsMapping memory c ≠ 0xFF := by simpa using hvalid
    rw [← anyOfReads_of_valid memory hall]
    simp

end Reads

end NgkNet.Restinio

namespace NgkNet.Weather

open Ascii Restinio PercentEncoding

abbrev Tracked := Store × List ℕ

def tracked {α : Type} (x : Handling Store α) : Handling Tracked α :=
  ⟨fun s => ((x.run (s.1.1, s.2)).1, ((x.run (s.1.1, s.2)).2.1, s.1.2), (x.run (s.1.1, s.2)).2.2)⟩

variable (env : Env)

def trackedCast (s : Str) : Handling Tracked UInt32 := do
  Eff.modify (fun t => ((t.1.1, t.1.2 ++ castReads env.memory s), t.2))
  castBy (cast env) s

def logging : Scan Tracked := ⟨cast env, tracked, trackedCast env⟩

@[simp]
theorem logging_cast : (logging env).cast = cast env := rfl

@[simp]
theorem logging_onStore {α : Type} (x : Handling Store α) : (logging env).onStore x = tracked x := rfl

@[simp]
theorem logging_castId : (logging env).castId = trackedCast env := rfl

def trackedServe (req : Request) (store : Store) : Except Exception HandlingStatus × Tracked × Exchange :=
  serveWith env (logging env) req (store, [])

def scanned (cast : Str → Except CastError UInt32) : List Station → List Station
  | [] => []
  | c :: rest =>
    match cast c.ID with
    | .error _ => [c]
    | .ok _ => c :: scanned cast rest

def readsOf (w : List Station) : List ℕ := w.flatMap (fun c => castReads env.memory c.ID)

theorem readsOf_cons (c : Station) (w : List Station) :
    readsOf env (c :: w) = castReads env.memory c.ID ++ readsOf env w := rfl

def withLog {α : Type} (r : Except Exception α × Store × Exchange) (log : List ℕ) :
    Except Exception α × Tracked × Exchange :=
  (r.1, (r.2.1, log), r.2.2)

theorem tracked_run {α : Type} (x : Handling Store α) (store : Store) (log : List ℕ) (e : Exchange) :
    (tracked x).run ((store, log), e) = withLog (x.run (store, e)) log := rfl

theorem trackedCast_run (s : Str) (store : Store) (log : List ℕ) (x : Exchange) :
    (trackedCast env s).run ((store, log), x) =
      withLog ((castBy (cast env) s).run (store, x)) (log ++ castReads env.memory s) := by
  simp only [trackedCast, Eff.run_bind, Eff.run_modify, castBy_run]
  cases cast env s <;> rfl

theorem updateLoopWith_logging (n : UInt32) (b : Station) (before rest : List Station) (fuel : ℕ) (answer : Bool)
    (registry log : List ℕ) (x : Exchange) (hf : rest.length < fuel) :
    (updateLoopWith (logging env) n b fuel before.length answer).run ((⟨before ++ rest, registry⟩, log), x) =
      withLog ((updateLoopWith (.plain (cast env)) n b fuel before.length answer).run (⟨before ++ rest, registry⟩, x))
        (log ++ readsOf env (scanned (cast env) rest)) := by
  induction rest generalizing before fuel answer log with
  | nil =>
    obtain ⟨fuel, rfl⟩ : ∃ k, fuel = k + 1 := ⟨fuel - 1, by omega⟩
    simp [updateLoopWith, logging_onStore, logging_castId, Scan.plain_onStore, Scan.plain_castId, Eff.run_bind,
      tracked_run, withLog, weather, scanned, readsOf]
  | cons c rest ih =>
    obtain ⟨fuel, rfl⟩ : ∃ k, fuel = k + 1 := ⟨fuel - 1, by omega⟩
    rw [List.length_cons] at hf
    have hget : (before ++ c :: rest)[before.length]? = some c := by simp
    simp only [updateLoopWith, logging_onStore, logging_castId, Scan.plain_onStore, Scan.plain_castId, Eff.run_bind,
      tracked_run, withLog, weather, Eff.run_read, hget, trackedCast_run, castBy_run, scanned]
    cases hc : cast env c.ID with
    | error e => simp [readsOf]
    | ok m =>
      simp only [readsOf_cons, ← List.append_assoc]
      by_cases hm : n = m
      · have hset : (before ++ c :: rest).set before.length b = (before ++ [b]) ++ rest := by simp
        have hi := ih (before ++ [b]) fuel true (log ++ castReads env.memory c.ID) (by omega)
        rw [List.length_append, List.length_singleton] at hi
        simp only [if_pos hm, Eff.run_bind, tracked_run, withLog, setWeather, Eff.run_modify, hset, hi]
      · have hi := ih (before ++ [c]) fuel answer (log ++ castReads env.memory c.ID) (by omega)
        rw [List.length_append, List.length_singleton, List.append_assoc, List.singleton_append] at hi
        simp only [if_neg hm, hi, withLog]

theorem deleteLoopWith_logging_end (n : UInt32) (before : List Station) (fuel i : ℕ) (registry log : List ℕ)
    (x : Exchange) (hi : before.length ≤ i) :
    (deleteLoopWith (logging env) n (fuel + 1) i).run ((⟨before, registry⟩, log), x) =
      withLog ((deleteLoopWith (.plain (cast env)) n (fuel + 1) i).run (⟨before, registry⟩, x)) log := by
  simp [deleteLoopWith, Eff.run_bind, tracked_run, withLog, weather, List.getElem?_eq_none hi]

theorem deleteLoopWith_logging (n : UInt32) (before rest : List Station) (fuel : ℕ) (registry log : List ℕ)
    (x : Exchange) (hf : rest.length < fuel) :
    (deleteLoopWith (logging env) n fuel before.length).run ((⟨before ++ rest, registry⟩, log), x) =
      withLog ((deleteLoopWith (.plain (cast env)) n fuel before.length).run (⟨before ++ rest, registry⟩, x))
        (log ++ readsOf env (scanned (cast env) (visited (cast env) n rest))) := by
  induction fuel using Nat.strongRecOn generalizing before rest log with
  | _ fuel ih =>
    obtain ⟨fuel, rfl⟩ : ∃ k, fuel = k + 1 := ⟨fuel - 1, by omega⟩
    cases rest with
    | nil =>
      rw [List.append_nil, deleteLoopWith_logging_end env n before fuel _ registry log x (Nat.le_refl _)]
      simp [visited, scanned, readsOf]
    | cons c rest =>
      obtain ⟨fuel, rfl⟩ : ∃ k, fuel = k + 1 := ⟨fuel - 1, by rw [List.length_cons] at hf; omega⟩
      have hget : (before ++ c :: rest)[before.length]? = some c := by simp
      have herase : (before ++ c :: rest).eraseIdx before.length = before ++ rest := by
        rw [List.eraseIdx_append_of_length_le (Nat.le_refl _), Nat.sub_self, List.eraseIdx_cons_zero]
      rw [deleteLoopWith.eq_2 (logging env), deleteLoopWith.eq_2 (.plain _)]
      simp only [logging_onStore, logging_castId, Scan.plain_onStore, Scan.plain_castId, Eff.run_bind, tracked_run, withLog,
        weather, Eff.run_read, hget, trackedCast_run, castBy_run]
      cases hc : cast env c.ID with
      | error e => cases rest <;> simp [visited, scanned, readsOf, hc]
      | ok m =>
        by_cases hm : n = m
        · simp only [if_pos hm, Eff.run_bind, tracked_run, withLog, setWeather, Eff.run_modify, herase]
          cases rest with
          | nil =>
            rw [List.append_nil, deleteLoopWith_logging_end env n before fuel _ registry _ x (Nat.le_succ _)]
            simp [visited, scanned, readsOf, hc, withLog]
          | cons d rest =>
            have hi := ih (fuel + 1) (by omega) (before ++ [d]) rest (log ++ castReads env.memory c.ID)
              (by simp only [List.length_cons] at hf; omega)
            rw [List.length_append, List.length_singleton, List.append_assoc, List.singleton_append] at hi
            rw [hi]
            simp [visited, scanned, readsOf_cons, hc, hm, withLog]
        · have hi := ih (fuel + 1) (by omega) (before ++ [c]) rest (log ++ castReads env.memory c.ID)
            (by simp only [List.length_cons] at hf; omega)
          rw [List.length_append, List.length_singleton, List.append_assoc, List.singleton_append] at hi
          simp only [if_neg hm, hi]
          cases rest with
          | nil => simp [visited, scanned, readsOf, hc, withLog]
          | cons d rest => simp [visited, scanned, readsOf_cons, hc, Ne.symm hm, withLog]

theorem onWeatherUpdateWith_logging (req : Request) {params : RouteParams} {ID : Str} (store : Store)
    (hp : params.get (ascii "ID") = some ID) :
    (onWeatherUpdateWith env (logging env) req params).run ((store, []), .fresh req) =
      withLog ((onWeatherUpdate env req params).run (store, .fresh req))
        (match cast env ID, env.json.fromJson req.body with
          | .ok _, some _ => readsOf env (scanned (cast env) store.weather)
          | _, _ => []) := by
  simp only [onWeatherUpdateWith, onWeatherUpdate, logging_cast, Scan.plain_cast, Eff.run_bind, param, hp, Eff.run_pure,
    castBy_run]
  cases hc : cast env ID with
  | error e => rfl
  | ok n =>
    simp only [createResponse_fresh, Eff.catchAll]
    cases hb : env.json.fromJson req.body with
    | none => simp only [fromJson, hb, Eff.run_throw, Eff.run_bind, withLog, Eff.run_pure]; rfl
    | some b =>
      have hloop := updateLoopWith_logging env n b [] store.weather (store.weather.length + 1) false store.registry
        [] ⟨none, 1, [], []⟩ (Nat.lt_succ_self _)
      simp only [List.nil_append, List.length_nil] at hloop
      simp only [fromJson, hb, logging_onStore, Scan.plain_onStore, Eff.run_bind, tracked_run, withLog, Eff.run_pure,
        weather, Eff.run_read, hloop]
      rcases (updateLoopWith (.plain (cast env)) n b (store.weather.length + 1) 0 false).run (store, ⟨none, 1, [], []⟩) with
        ⟨e | answer, s, x⟩
      · rfl
      · cases answer <;> rfl

theorem onWeatherDeleteWith_logging (req : Request) {params : RouteParams} {ID : Str} (store : Store)
    (hp : params.get (ascii "ID") = some ID) :
    (onWeatherDeleteWith env (logging env) req params).run ((store, []), .fresh req) =
      withLog ((onWeatherDelete env req params).run (store, .fresh req))
        (match cast env ID with
          | .ok n => readsOf env (scanned (cast env) (visited (cast env) n store.weather))
          | .error _ => []) := by
  simp only [onWeatherDeleteWith, onWeatherDelete, logging_cast, Scan.plain_cast, Eff.run_bind, createResponse_fresh, param,
    hp, Eff.run_pure, castBy_run]
  cases hc : cast env ID with
  | error e => rfl
  | ok n =>
    have hloop := deleteLoopWith_logging env n [] store.weather (store.weather.length + 1) store.registry
      [] ⟨none, 1, [], []⟩ (Nat.lt_succ_self _)
    simp only [List.nil_append, List.length_nil] at hloop
    simp only [logging_onStore, Scan.plain_onStore, Eff.catchAll, Eff.run_bind, tracked_run, withLog, weather, Eff.run_read,
      hloop]
    rcases (deleteLoopWith (.plain (cast env)) n (store.weather.length + 1) 0).run (store, ⟨none, 1, [], []⟩) with
      ⟨e | u, s, x⟩ <;> rfl

def Converts (req : Request) (w : List Station) (c : Station) : Prop :=
  ∃ n, (Addresses env req .put n ∧ (∃ b, env.json.fromJson req.body = some b) ∧ c ∈ scanned (cast env) w) ∨
    (Addresses env req .delete n ∧ c ∈ scanned (cast env) (visited (cast env) n w))

theorem addresses_iff {req : Request} {method : Method} {path ID : Str} {n : UInt32}
    (hp : targetPath req.path = .ok path) (hID : IdPath path ID) :
    Addresses env req method n ↔ req.method = method ∧ cast env ID = .ok n := by
  constructor
  · rintro ⟨hm, path', ID', hp', hID', hc⟩
    obtain rfl : path = path' := Except.ok.inj (hp.symm.trans hp')
    obtain rfl := hID.unique hID'
    exact ⟨hm, hc⟩
  · rintro ⟨hm, hc⟩
    exact ⟨hm, path, ID, hp, hID, hc⟩

def TracksScan (req : Request) (store : Store) : Prop :=
  ∃ read, trackedServe env req store = withLog (serve env req store) (readsOf env read) ∧
    ∀ c, c ∈ read ↔ Converts env req store.weather c

theorem trackedServe_of_dispatch {req : Request} {path : Str} {params : RouteParams} {handler : Handler}
    (store : Store) (hp : targetPath req.path = .ok path)
    (hd : dispatch entries req.method path = some (handler, params)) :
    trackedServe env req store = (runHandlerWith env (logging env) req params handler).run ((store, []), .fresh req) :=
  serveWith_of_dispatch env (logging env) (store, []) hp hd

section Served

variable {req : Request} {path : Str} {params : RouteParams} (hp : targetPath req.path = .ok path)

theorem tracksScan_of_no_scan {store : Store} (he : trackedServe env req store = withLog (serve env req store) [])
    (hu : ∀ path params, targetPath req.path = .ok path →
      dispatch entries req.method path ≠ some (.weatherUpdate, params))
    (hd : ∀ path params, targetPath req.path = .ok path →
      dispatch entries req.method path ≠ some (.weatherDelete, params)) : TracksScan env req store := by
  refine ⟨[], he, fun c => iff_of_false List.not_mem_nil ?_⟩
  rintro ⟨n, ⟨⟨hm, path, ID, hp, hID, -⟩, -⟩ | ⟨⟨hm, path, ID, hp, hID, -⟩, -⟩⟩
  · exact hu path _ hp (dispatch_weatherUpdate.mpr ⟨hm, ID, hID, rfl⟩)
  · exact hd path _ hp (dispatch_weatherDelete.mpr ⟨hm, ID, hID, rfl⟩)

include hp

theorem tracksScan_update (hd : dispatch entries req.method path = some (.weatherUpdate, params)) (store : Store) :
    TracksScan env req store := by
  obtain ⟨hm, ID, hID, rfl⟩ := dispatch_weatherUpdate.mp hd
  have hrun := onWeatherUpdateWith_logging env req store (get_single path (ascii "ID") ID)
  rw [TracksScan, trackedServe_of_dispatch env store hp hd, serve_of_dispatch env store hp hd,
    runHandlerWith, runHandler, hrun]
  have hconverts : ∀ c, Converts env req store.weather c ↔ ∃ n, cast env ID = .ok n ∧
      (∃ b, env.json.fromJson req.body = some b) ∧ c ∈ scanned (cast env) store.weather := by
    simp [Converts, addresses_iff env hp hID, hm]
  cases hc : cast env ID with
  | error e => exact ⟨[], rfl, by simp [hconverts, hc]⟩
  | ok n =>
    cases hb : env.json.fromJson req.body with
    | none => exact ⟨[], rfl, by simp [hconverts, hb]⟩
    | some b => exact ⟨scanned (cast env) store.weather, rfl, by simp [hconverts, hc, hb]⟩

theorem tracksScan_delete (hd : dispatch entries req.method path = some (.weatherDelete, params)) (store : Store) :
    TracksScan env req store := by
  obtain ⟨hm, ID, hID, rfl⟩ := dispatch_weatherDelete.mp hd
  have hrun := onWeatherDeleteWith_logging env req store (get_single path (ascii "ID") ID)
  rw [TracksScan, trackedServe_of_dispatch env store hp hd, serve_of_dispatch env store hp hd,
    runHandlerWith, runHandler, hrun]
  have hconverts : ∀ c, Converts env req store.weather c ↔ ∃ n, cast env ID = .ok n ∧
      c ∈ scanned (cast env) (visited (cast env) n store.weather) := by
    simp [Converts, addresses_iff env hp hID, hm]
  cases hc : cast env ID with
  | error e => exact ⟨[], rfl, by simp [hconverts, hc]⟩
  | ok n => exact ⟨scanned (cast env) (visited (cast env) n store.weather), rfl, by simp [hconverts, hc]⟩

end Served

theorem trackedServe_eq (req : Request) (store : Store) : TracksScan env req store := by
  cases hp : targetPath req.path with
  | error e =>
    refine tracksScan_of_no_scan env ?_ ?_ ?_
    · rw [trackedServe, serve, serveWith_of_error env _ _ hp, serveWith_of_error env _ _ hp, withLog]
    · simp [hp]
    · simp [hp]
  | ok path =>
    have hpath : ∀ path', targetPath req.path = .ok path' → path' = path := by
      intro path' hp'
      exact (Except.ok.inj (hp.symm.trans hp')).symm
    cases hd : dispatch entries req.method path with
    | none =>
      refine tracksScan_of_no_scan env ?_ ?_ ?_
      · rw [trackedServe, serve, serveWith_of_none env _ _ hp hd, serveWith_of_none env _ _ hp hd, withLog]
      · intro path' params hp'
        simp [hpath path' hp', hd]
      · intro path' params hp'
        simp [hpath path' hp', hd]
    | some found =>
      obtain ⟨handler, params⟩ := found
      by_cases hu : handler = .weatherUpdate
      · subst hu
        exact tracksScan_update env hp hd store
      by_cases hx : handler = .weatherDelete
      · subst hx
        exact tracksScan_delete env hp hd store
      refine tracksScan_of_no_scan env ?_ ?_ ?_
      · rw [trackedServe_of_dispatch env store hp hd, serve_of_dispatch env store hp hd]
        cases handler <;> first | rfl | contradiction
      · intro path' params' hp'
        simp [hpath path' hp', hd, hu]
      · intro path' params' hp'
        simp [hpath path' hp', hd, hx]

/-- The scans stay inside the digits table exactly if no station that they convert has an ID whose bytes
from 0x80 on get to the table. -/
theorem table_reads_in_range_iff (history : List Request) (req : Request) :
    (∀ i ∈ (trackedServe env req (storeAfter env history)).2.1.2, i < 256) ↔
      ∀ c, Converts env req (storeAfter env history).weather c → ¬ Overreads c.ID := by
  obtain ⟨read, he, hread⟩ := trackedServe_eq env req (storeAfter env history)
  rw [he]
  simp only [← hread, ← castReads_lt_iff env.memory, withLog, readsOf, List.mem_flatMap]
  constructor
  · exact fun h c hc i hi => h i ⟨c, hc, hi⟩
  · rintro h i ⟨c, hc, hi⟩
    exact h c hc i hi

def accentedEnv : Env := { sampleEnv with json := jsonOf [sampleStation [0xC3, 0xA9]] }

def accentedPost : Request := sampleRequest .post (ascii "/") (jsonText (sampleStation [0xC3, 0xA9]))

theorem accented_reads_outside :
    2 ^ 64 - 61 ∈ (trackedServe accentedEnv firstDelete (storeAfter accentedEnv [accentedPost])).2.1.2 := by
  decide +kernel

end NgkNet.Weather
