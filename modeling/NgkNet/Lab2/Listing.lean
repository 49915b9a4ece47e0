import NgkNet.Lab2.Positions

set_option autoImplicit false

namespace NgkNet.Lab2

open Ascii Restinio Weather PercentEncoding

variable {env : Env}

def referenceAfter (env : Env) (reqs : List Request) : List Station :=
  (reqs.map (requested env)).foldl (fun w op => op.apply w) initialWeathers

theorem weathersAfter_eq (reqs : List Request) : weathersAfter env reqs = referenceAfter env reqs := by
  have hstep : (fun w req => (serve env req w).2.1) = fun w req => (requested env req).apply w := by
    funext w req
    exact serve_weathers req w
  rw [weathersAfter, hstep, referenceAfter, List.foldl_map]

def bodies (out : Outcome) : List Str := out.2.2.responses.map Response.body

def getText (k : ℕ) (b : Station) : Str :=
  ascii "Weather #" ++ number k ++ ascii " is: " ++ b.Date ++ ascii " [" ++ b.ID ++ ascii "]\n"

def deleteText (k : ℕ) (b : Station) : Str :=
  ascii "Delete weather #" ++ number k ++ ascii ": " ++ b.Date ++ ascii "[" ++ b.ID ++ ascii "]\n"

/-- The numbers that the listings show are the numbers under which stations are addressed. -/
structure Agreement (env : Env) (w : Weathers) : Prop where
  list : ∀ {req q}, req.method = .get → targetPath req.path = .ok q → RootPath q →
    bodies (serve env req w) =
      [ascii "Weather collection (Weather count: " ++ number w.length ++ ascii ")\n" ++ printed (numbered w.zipIdx)]
  date : ∀ {req q value Date}, req.method = .get → targetPath req.path = .ok q → DatePath q value →
    unescapePercentEncoding value = .ok Date →
    bodies (serve env req w) =
      [if ∃ b ∈ w, b.Date = Date then
        ascii "Weathers of " ++ Date ++ ascii ":\n" ++ printed (numbered (w.zipIdx.filter (fun b => Date = b.1.Date)))
      else ascii "No weather with that date " ++ Date ++ ascii "\n"]
  ID : ∀ {req q value ID}, req.method = .get → targetPath req.path = .ok q → SegmentPath (ascii "/id/") q value →
    unescapePercentEncoding value = .ok ID →
    bodies (serve env req w) =
      [ascii "Weathers of " ++ ID ++ ascii ":\n" ++ printed (numbered (w.zipIdx.filter (fun b => ID = b.1.ID)))]
  addressed : ∀ {k b}, (k, b) ∈ numbered w.zipIdx → w[k - 1]? = some b ∧
    ∀ {req q n}, targetPath req.path = .ok q → pathNumber env.memory q = some n → n.toNat = k →
      (req.method = .get → bodies (serve env req w) = [getText k b]) ∧
      (req.method = .put → ∀ {b'}, env.json.fromJson req.body = some b' →
        (serve env req w).2.1 = w.set (k - 1) b') ∧
      (req.method = .delete → bodies (serve env req w) = [deleteText k b] ∧
        (serve env req w).2.1 = w.eraseIdx (k - 1))
  absent : ∀ {req q} {n : UInt32}, targetPath req.path = .ok q → pathNumber env.memory q = some n →
    (∀ b, (n.toNat, b) ∉ numbered w.zipIdx) →
      (req.method = .get → bodies (serve env req w) = [absentBody n.toNat]) ∧ (serve env req w).2.1 = w
  reachable : ∀ {k b}, (k, b) ∈ numbered w.zipIdx → ∃ n : UInt32, n.toNat = k ∧
    targetPath (slash :: number k) = .ok (slash :: number k) ∧
    pathNumber env.memory (slash :: number k) = some n

theorem mem_numbered {w : Weathers} {k : ℕ} {b : Station} :
    (k, b) ∈ numbered w.zipIdx ↔ 1 ≤ k ∧ w[k - 1]? = some b := by
  rw [numbered, List.mem_map]
  constructor
  · rintro ⟨⟨b', i⟩, hb, he⟩
    obtain ⟨rfl, rfl⟩ := Prod.mk.inj he
    exact ⟨Nat.le_add_left 1 i, List.mk_mem_zipIdx_iff_getElem?.mp hb⟩
  · rintro ⟨hk, hb⟩
    exact ⟨(b, k - 1), List.mk_mem_zipIdx_iff_getElem?.mpr hb, by simp only [Nat.sub_add_cancel hk]⟩

theorem le_length_of_mem_numbered {w : Weathers} {k : ℕ} {b : Station} (h : (k, b) ∈ numbered w.zipIdx) :
    0 ≠ k ∧ k ≤ w.length := by
  obtain ⟨hk, hb⟩ := mem_numbered.mp h
  obtain ⟨hlt, -⟩ := List.getElem?_eq_some_iff.mp hb
  omega

theorem exists_mem_numbered {w : Weathers} {k : ℕ} (h : 0 ≠ k ∧ k ≤ w.length) : ∃ b, (k, b) ∈ numbered w.zipIdx := by
  have hlt : k - 1 < w.length := by omega
  exact ⟨w[k - 1], mem_numbered.mpr ⟨by omega, List.getElem?_eq_getElem hlt⟩⟩

theorem ofNat_eq_zero_iff {n : ℕ} (h : n < 2 ^ 32) : Int32.ofNat n = 0 ↔ n = 0 := by
  have hmod : Int32.ofNat n = 0 ↔ n % 2 ^ 32 = 0 := by
    rw [← Int32.toBitVec_inj]
    simp [← BitVec.toNat_inj]
  rw [hmod, Nat.mod_eq_of_lt h]

theorem dateBody_eq {Date : Str} {w : Weathers} (h : w.length < 2 ^ 32) :
    dateBody Date w = if ∃ b ∈ w, b.Date = Date then
        ascii "Weathers of " ++ Date ++ ascii ":\n" ++ printed (numbered (w.zipIdx.filter (fun b => Date = b.1.Date)))
      else ascii "No weather with that date " ++ Date ++ ascii "\n" := by
  have hlen : (w.zipIdx.filter (fun b => Date = b.1.Date)).length < 2 ^ 32 := by
    have := List.length_filter_le (fun b : Station × ℕ => Date = b.1.Date) w.zipIdx
    rw [List.length_zipIdx] at this
    omega
  have hnone : (w.zipIdx.filter (fun b => Date = b.1.Date)).length = 0 ↔ ¬ ∃ b ∈ w, b.Date = Date := by
    rw [List.length_eq_zero_iff, List.filter_eq_nil_iff]
    constructor
    · rintro h ⟨b, hb, rfl⟩
      obtain ⟨i, hi⟩ := List.mem_iff_getElem?.mp hb
      exact h (b, i) (List.mk_mem_zipIdx_iff_getElem?.mpr hi) (by simp)
    · intro h a ha hd
      exact h ⟨a.1, List.fst_mem_of_mem_zipIdx ha, (of_decide_eq_true hd).symm⟩
  rw [dateBody]
  simp only [ofNat_eq_zero_iff hlen, hnone, ite_not]

theorem exists_digits_of_pathNumber {q : Str} {n : UInt32} (h : pathNumber env.memory q = some n) :
    ∃ digits, IdPath q digits ∧ cast env digits = .ok n := by
  obtain ⟨digits, hd, hn⟩ := Option.bind_eq_some_iff.mp h
  refine ⟨digits, pathDigits_eq_some_iff.mp hd, ?_⟩
  rw [Weather.cast]
  cases hc : castToUInt32 env.memory digits with
  | error e => simp [hc, Except.toOption] at hn
  | ok m => simpa [hc, Except.toOption] using hn

theorem getBody_of_numbered {w : Weathers} {k : ℕ} {b : Station} (h : (k, b) ∈ numbered w.zipIdx) :
    getBody w k = getText k b ∧ deleteBody w k = deleteText k b := by
  have hk := le_length_of_mem_numbered h
  obtain ⟨hlt, hb⟩ := List.getElem?_eq_some_iff.mp (mem_numbered.mp h).2
  rw [getBody, dif_pos hk, deleteBody, dif_pos hk, List.get_eq_getElem, hb]
  exact ⟨rfl, rfl⟩

theorem addressed_of_numbered {w : Weathers} {b : Station} {req : Request} {q : Str} {n : UInt32}
    (h : (n.toNat, b) ∈ numbered w.zipIdx) (hp : targetPath req.path = .ok q) (hn : pathNumber env.memory q = some n) :
    (req.method = .get → bodies (serve env req w) = [getText n.toNat b]) ∧
    (req.method = .put → ∀ {b'}, env.json.fromJson req.body = some b' →
      (serve env req w).2.1 = w.set (n.toNat - 1) b') ∧
    (req.method = .delete → bodies (serve env req w) = [deleteText n.toNat b] ∧
      (serve env req w).2.1 = w.eraseIdx (n.toNat - 1)) := by
  obtain ⟨digits, hq, hc⟩ := exists_digits_of_pathNumber hn
  obtain ⟨hget, hdelete⟩ := getBody_of_numbered h
  have hk := le_length_of_mem_numbered h
  refine ⟨?_, ?_, ?_⟩
  · intro hm
    rw [serve_get hp w hq hm, hc, ← hget]
    rfl
  · intro hm b' hb'
    rw [serve_put hp w hq hm, hc, hb']
    exact if_pos hk
  · intro hm
    rw [serve_delete hp w hq hm, hc, ← hdelete]
    exact ⟨rfl, if_pos hk⟩

theorem absent_of_not_numbered {w : Weathers} {req : Request} {q : Str} {n : UInt32}
    (h : ∀ b, (n.toNat, b) ∉ numbered w.zipIdx) (hp : targetPath req.path = .ok q)
    (hn : pathNumber env.memory q = some n) :
    (req.method = .get → bodies (serve env req w) = [absentBody n.toNat]) ∧ (serve env req w).2.1 = w := by
  obtain ⟨digits, hq, hc⟩ := exists_digits_of_pathNumber hn
  have hk : ¬ (0 ≠ n.toNat ∧ n.toNat ≤ w.length) := by
    intro hk
    obtain ⟨b, hb⟩ := exists_mem_numbered hk
    exact h b hb
  constructor
  · intro hm
    rw [serve_get hp w hq hm, hc, bodies]
    simp only [getBody, dif_neg hk]
    rfl
  · have hroot : ¬ RootPath q := by
      intro hroot
      have hnumber : Path.number.Contains q := ⟨digits, hq⟩
      have hr : Path.root.Contains q := hroot
      exact absurd (hnumber.unique hr) (by decide)
    by_cases hput : req.method = .put
    · rw [serve_put hp w hq hput, hc]
      cases env.json.fromJson req.body with
      | none => rfl
      | some b => exact if_neg hk
    by_cases hdelete : req.method = .delete
    · rw [serve_delete hp w hq hdelete, hc]
      exact if_neg hk
    · exact serve_unchanged hp (fun h => hroot h.2) (fun h => hput h.1) (fun h => hdelete h.1) w

theorem pathNumber_number {k : ℕ} (h : k < 2 ^ 32) :
    ∃ n : UInt32, n.toNat = k ∧ targetPath (slash :: number k) = .ok (slash :: number k) ∧
      pathNumber env.memory (slash :: number k) = some n := by
  obtain ⟨hdigits, hvalue⟩ := toString_spec k
  have hpath : IdPath (slash :: number k) (number k) :=
    ⟨[], by rw [List.append_nil], toString_ne_nil k, hdigits, .inl rfl⟩
  have hn : (UInt32.ofNat k).toNat = k := UInt32.toNat_ofNat_of_lt' h
  have hcast : cast env (number k) = .ok (UInt32.ofNat k) :=
    (castToUInt32_digits env.memory hdigits (toString_ne_nil k)).mpr
      ⟨length_toString_le k (by decide) (by omega), hvalue.trans hn.symm⟩
  refine ⟨UInt32.ofNat k, hn, ?_, ?_⟩
  · apply targetPath_literal
    intro hm
    rcases List.mem_cons.mp hm with hm | hm
    · exact absurd hm (by decide)
    · exact absurd (hdigits _ hm) (by decide)
  · rw [pathNumber_of_idPath hpath, hcast]
    rfl

theorem agreement_of_length {w : Weathers} (h : w.length < 2 ^ 32) : Agreement env w where
  list := by
    intro req q hm hp hq
    rw [serve_list hp w hm hq]
    rfl
  date := by
    intro req q value Date hm hp hq hu
    rw [serve_date hp w hm hq hu, ← dateBody_eq h]
    rfl
  ID := by
    intro req q value ID hm hp hq hu
    rw [serve_ID hp w hm hq hu]
    rfl
  addressed := by
    intro k b hb
    refine ⟨(mem_numbered.mp hb).2, ?_⟩
    rintro req q n hp hn rfl
    exact addressed_of_numbered hb hp hn
  absent := by
    intro req q n hp hn hb
    exact absent_of_not_numbered hb hp hn
  reachable := by
    intro k b hb
    have := (le_length_of_mem_numbered hb).2
    exact pathNumber_number (by omega)

/-- The store is the reference list, and as long as it has fewer than 2^32 stations the numbers in the
listings address the stations that they are printed with. -/
theorem positional_store (history : List Request) :
    weathersAfter env history = referenceAfter env history ∧
      ((weathersAfter env history).length < 2 ^ 32 → Agreement env (weathersAfter env history)) :=
  ⟨weathersAfter_eq history, agreement_of_length⟩

def growingPost : Request := sampleRequest .post (ascii "/") (jsonText (sampleStation (ascii "1")))

theorem positional_store_changed :
    (weathersAfter sampleEnv [growingPost, sampleRequest .delete (ascii "/2") []]).map Station.ID =
        [ascii "1", ascii "3", ascii "4", ascii "5", ascii "1"] ∧
      Agreement sampleEnv (weathersAfter sampleEnv [growingPost, sampleRequest .delete (ascii "/2") []]) :=
  ⟨by decide +kernel, (positional_store _).2 (by decide +kernel)⟩

theorem weathersAfter_replicate (m : ℕ) :
    weathersAfter sampleEnv (List.replicate m growingPost) =
      initialWeathers ++ List.replicate m (sampleStation (ascii "1")) := by
  have hstep : ∀ w, (serve sampleEnv growingPost w).2.1 = w ++ [sampleStation (ascii "1")] := by
    intro w
    have hp : targetPath growingPost.path = .ok (ascii "/") := by decide
    have hb : sampleEnv.json.fromJson growingPost.body = some (sampleStation (ascii "1")) :=
      sampleEnv_fromJson (.inr rfl)
    rw [serve_post hp w rfl (.inl rfl), hb]
  induction m with
  | zero => rfl
  | succ m ih =>
    rw [List.replicate_succ', weathersAfter, List.foldl_append, ← weathersAfter, ih, List.foldl_cons, List.foldl_nil,
      hstep, List.replicate_succ', List.append_assoc]

theorem largest_number_unaddressable :
    (2 ^ 32, sampleStation (ascii "1")) ∈
        numbered (weathersAfter sampleEnv (List.replicate (2 ^ 32 - 5) growingPost)).zipIdx ∧
      pathNumber sampleEnv.memory (slash :: number (2 ^ 32)) = none ∧
      ¬ ∃ q n, pathNumber sampleEnv.memory q = some n ∧ n.toNat = 2 ^ 32 := by
  refine ⟨?_, by decide +kernel, ?_⟩
  · rw [weathersAfter_replicate, mem_numbered, List.getElem?_append_right (by decide)]
    refine ⟨by decide, ?_⟩
    rw [List.getElem?_replicate, if_pos (by decide)]
  · rintro ⟨q, n, -, hn⟩
    exact absurd n.toNat_lt (by omega)

end NgkNet.Lab2
