import NgkNet.Lab2.Listing

set_option autoImplicit false

namespace NgkNet.Lab2

open Ascii Restinio Weather PercentEncoding

variable {env : Env}

theorem serve_latest_iff {req : Request} {q : Str} (hm : req.method = .get) (hp : targetPath req.path = .ok q)
    (hq : ThreePath q) (w : Weathers) :
    bodies (serve env req w) = [printed (numbered (latest w))] ∧
      ((latest w).map Prod.fst = w.drop (w.length - 3) ↔ w.length ≠ 1 ∧ w.length ≠ 2 ∧ w.length < 2 ^ 64 + 3) := by
  rw [serve_three hp w hm hq]
  exact ⟨rfl, latest_eq_iff w⟩

/-- Both programs list the last three stations, or all if there are fewer, exactly if there are not one
or two of them. -/
theorem latest_three_iff (history : List Request) {req : Request} {q : Str} (hm : req.method = .get)
    (hp : targetPath req.path = .ok q) (hq : ThreePath q) :
    ((Weather.serve env req (storeAfter env history)).2.2.responses.map Response.body =
        [ascii "3 latest entries:\n" ++
          (latest (storeAfter env history).weather).flatMap (fun b => env.json.toJson b.1)] ∧
      ((latest (storeAfter env history).weather).map Prod.fst =
          (storeAfter env history).weather.drop ((storeAfter env history).weather.length - 3) ↔
        (storeAfter env history).weather.length ≠ 1 ∧ (storeAfter env history).weather.length ≠ 2 ∧
          (storeAfter env history).weather.length < 2 ^ 64 + 3)) ∧
    (bodies (serve env req (weathersAfter env history)) = [printed (numbered (latest (weathersAfter env history)))] ∧
      ((latest (weathersAfter env history)).map Prod.fst =
          (weathersAfter env history).drop ((weathersAfter env history).length - 3) ↔
        (weathersAfter env history).length ≠ 1 ∧ (weathersAfter env history).length ≠ 2 ∧
          (weathersAfter env history).length < 2 ^ 64 + 3)) :=
  ⟨Weather.serve_latest_iff env hm hp hq _, serve_latest_iff hm hp hq _⟩

def threeGet : Request := sampleRequest .get (ascii "/three") []

theorem threePath_three : ThreePath (ascii "/three") := ⟨ascii "/three", [], by decide, by decide, .inl rfl⟩

theorem latest_three_initially :
    (latest (storeAfter sampleEnv []).weather).map Prod.fst =
      (storeAfter sampleEnv []).weather.drop ((storeAfter sampleEnv []).weather.length - 3) := by
  have hp : targetPath threeGet.path = .ok (ascii "/three") := by decide +kernel
  exact (latest_three_iff [] rfl hp threePath_three).1.2.mpr (by decide)

def deletes : List Request :=
  [sampleRequest .delete (ascii "/3") [], sampleRequest .delete (ascii "/2") [], sampleRequest .delete (ascii "/1") []]

theorem two_stations_not_listed :
    (storeAfter sampleEnv deletes).weather.length = 2 ∧
      (Weather.serve sampleEnv threeGet (storeAfter sampleEnv deletes)).2.2.responses.map Response.body =
        [ascii "3 latest entries:\n"] ∧
      (weathersAfter sampleEnv deletes).length = 2 ∧
      bodies (serve sampleEnv threeGet (weathersAfter sampleEnv deletes)) = [[]] := by
  decide +kernel

end NgkNet.Lab2
