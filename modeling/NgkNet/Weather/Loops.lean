import NgkNet.Weather.Handlers

set_option autoImplicit false

namespace NgkNet.Weather

open Ascii Restinio

section Pure

variable (cast : Str → Except CastError UInt32)

def Matches (n : UInt32) (c : Station) : Prop := cast c.ID = .ok n

def Unparsable (c : Station) : Prop := ∃ e, cast c.ID = .error e

instance (n : UInt32) (c : Station) : Decidable (Matches cast n c) := inferInstanceAs (Decidable (_ = _))

instance (c : Station) : Decidable (Unparsable cast c) :=
  match h : cast c.ID with
  | .error e => isTrue ⟨e, h⟩
  | .ok _ => isFalse fun ⟨_, he⟩ => nomatch h.symm.trans he

def firstError : List Station → Option CastError
  | [] => none
  | c :: rest =>
    match cast c.ID with
    | .error e => some e
    | .ok _ => firstError rest

def updated (n : UInt32) (b : Station) : List Station → List Station
  | [] => []
  | c :: rest =>
    match cast c.ID with
    | .error _ => c :: rest
    | .ok m => (if n = m then b else c) :: updated n b rest

/-- The stations that the delete loop looks at: it passes over the one behind a station it removes. -/
def visited (n : UInt32) : List Station → List Station
  | [] => []
  | [c] => [c]
  | c :: d :: rest => if cast c.ID = .ok n then c :: visited n rest else c :: visited n (d :: rest)

def deleted (n : UInt32) : List Station → List Station
  | [] => []
  | [c] => if cast c.ID = .ok n then [] else [c]
  | c :: d :: rest =>
    match cast c.ID with
    | .error _ => c :: d :: rest
    | .ok m => if n = m then d :: deleted n rest else c :: deleted n (d :: rest)

end Pure

section Runs

variable (cast : Str → Except CastError UInt32)

theorem castBy_run {σ : Type} (s : Str) (x : σ × Exchange) : (castBy cast s).run x =
    match cast s with
    | .ok n => (.ok n, x)
    | .error e => (.error (.cast e), x) := by
  rw [castBy]
  cases cast s <;> rfl

theorem updateLoopWith_run (n : UInt32) (b : Station) (before rest : List Station) (fuel : ℕ) (answer : Bool)
    (registry : List ℕ) (x : Exchange) (hf : rest.length < fuel) :
    (updateLoopWith (.plain cast) n b fuel before.length answer).run (⟨before ++ rest, registry⟩, x) =
      (match firstError cast rest with
        | some e => .error (.cast e)
        | none => .ok (answer || rest.any (fun c => Matches cast n c)),
      ⟨before ++ updated cast n b rest, registry⟩, x) := by
  induction rest generalizing before fuel answer with
  | nil =>
    obtain ⟨fuel, rfl⟩ : ∃ k, fuel = k + 1 := ⟨fuel - 1, by omega⟩
    simp [updateLoopWith, Scan.plain_onStore, Scan.plain_castId, Eff.run_bind, weather, updated, firstError]
  | cons c rest ih =>
    obtain ⟨fuel, rfl⟩ : ∃ k, fuel = k + 1 := ⟨fuel - 1, by omega⟩
    rw [List.length_cons] at hf
    have hget : (before ++ c :: rest)[before.length]? = some c := by simp
    cases hc : cast c.ID with
    | error e =>
      simp [updateLoopWith, Scan.plain_onStore, Scan.plain_castId, Eff.run_bind, weather, castBy_run, hc, updated,
        firstError]
    | ok m =>
      by_cases hm : n = m
      · have hset : (before ++ c :: rest).set before.length b = (before ++ [b]) ++ rest := by simp
        have hi := ih (before ++ [b]) fuel true (by omega)
        rw [List.length_append, List.length_singleton] at hi
        simp only [updateLoopWith, Scan.plain_onStore, Scan.plain_castId, Eff.run_bind, weather, Eff.run_read, hget,
          castBy_run, hc, if_pos hm, setWeather, Eff.run_modify, hset, hi]
        simp [updated, firstError, hc, hm, Matches]
      · have hi := ih (before ++ [c]) fuel answer (by omega)
        rw [List.length_append, List.length_singleton, List.append_assoc, List.singleton_append] at hi
        simp only [updateLoopWith, Scan.plain_onStore, Scan.plain_castId, Eff.run_bind, weather, Eff.run_read, hget,
          castBy_run, hc, if_neg hm, hi]
        simp [updated, firstError, hc, hm, Matches, Ne.symm hm]

theorem deleteLoopWith_end (n : UInt32) (before : List Station) (fuel i : ℕ) (registry : List ℕ) (x : Exchange)
    (hi : before.length ≤ i) :
    (deleteLoopWith (.plain cast) n (fuel + 1) i).run (⟨before, registry⟩, x) = (.ok (), ⟨before, registry⟩, x) := by
  simp [deleteLoopWith, Eff.run_bind, weather, List.getElem?_eq_none hi]

theorem deleteLoopWith_run (n : UInt32) (before rest : List Station) (fuel : ℕ) (registry : List ℕ) (x : Exchange)
    (hf : rest.length < fuel) :
    (deleteLoopWith (.plain cast) n fuel before.length).run (⟨before ++ rest, registry⟩, x) =
      (match firstError cast (visited cast n rest) with
        | some e => .error (.cast e)
        | none => .ok (),
      ⟨before ++ deleted cast n rest, registry⟩, x) := by
  induction fuel using Nat.strongRecOn generalizing before rest with
  | _ fuel ih =>
    obtain ⟨fuel, rfl⟩ : ∃ k, fuel = k + 1 := ⟨fuel - 1, by omega⟩
    cases rest with
    | nil =>
      rw [List.append_nil, deleteLoopWith_end cast n before fuel _ registry x (Nat.le_refl _)]
      simp [visited, deleted, firstError]
    | cons c rest =>
      obtain ⟨fuel, rfl⟩ : ∃ k, fuel = k + 1 := ⟨fuel - 1, by rw [List.length_cons] at hf; omega⟩
      have hget : (before ++ c :: rest)[before.length]? = some c := by simp
      have herase : (before ++ c :: rest).eraseIdx before.length = before ++ rest := by
        rw [List.eraseIdx_append_of_length_le (Nat.le_refl _), Nat.sub_self, List.eraseIdx_cons_zero]
      rw [deleteLoopWith]
      simp only [Scan.plain_onStore, Scan.plain_castId, Eff.run_bind, weather, Eff.run_read, hget, castBy_run]
      cases hc : cast c.ID with
      | error e =>
        cases rest with
        | nil => simp [visited, deleted, firstError, hc]
        | cons d rest => simp [visited, deleted, firstError, hc]
      | ok m =>
        by_cases hm : n = m
        · simp only [if_pos hm, Eff.run_bind, setWeather, Eff.run_modify, herase]
          cases rest with
          | nil =>
            rw [List.append_nil, deleteLoopWith_end cast n before fuel _ registry x (Nat.le_succ _)]
            simp [visited, deleted, firstError, hc, hm]
          | cons d rest =>
            have hi := ih (fuel + 1) (by omega) (before ++ [d]) rest
              (by simp only [List.length_cons] at hf; omega)
            rw [List.length_append, List.length_singleton, List.append_assoc, List.singleton_append] at hi
            rw [hi]
            simp [visited, deleted, firstError, hc, hm]
        · have hi := ih (fuel + 1) (by omega) (before ++ [c]) rest
            (by simp only [List.length_cons] at hf; omega)
          rw [List.length_append, List.length_singleton, List.append_assoc, List.singleton_append] at hi
          simp only [if_neg hm, hi]
          cases rest with
          | nil => simp [visited, deleted, firstError, hc, Ne.symm hm]
          | cons d rest => simp [visited, deleted, firstError, hc, hm, Ne.symm hm]

end Runs

theorem castTo_run {σ : Type} (env : Env) (s : Str) (x : σ × Exchange) : (castTo env.memory s).run x =
    match cast env s with
    | .ok n => (.ok n, x)
    | .error e => (.error (.cast e), x) :=
  castBy_run (cast env) s x

end NgkNet.Weather
