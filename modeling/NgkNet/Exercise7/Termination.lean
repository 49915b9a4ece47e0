import NgkNet.Exercise7.Replies

set_option autoImplicit false

namespace NgkNet.Exercise7

open Bytes CString

def Reply.measures : Reply → Bool
  | .uptime _ => true
  | .loadavg _ => true
  | .unknownCommand _ => false

/-- What `buf` holds each time that `sendU` or `sendL` evaluates `strlen(buf)`. -/
def measured (behind : List UInt8) : List (List UInt8 × Proc) → List UInt8 → List (List UInt8)
  | [], _ => []
  | (datagram, proc) :: rest, buf =>
    let next := getUL behind datagram proc buf
    if next.2.measures then next.1 :: measured behind rest next.1 else measured behind rest next.1

structure ShortProc where
  proc : Proc
  uptime_short : proc.uptime.length < 1024
  loadavg_short : proc.loadavg.length < 1024

def Terminated (buf : List UInt8) : Prop := buf.length = 1024 ∧ ∃ k < 1024, buf[k]? = some 0

def Command (bytes : List UInt8) : Prop := isU (bytes.headD 0) = true ∨ isL (bytes.headD 0) = true

theorem not_command_nil : ¬ Command [] := by
  rintro (h | h)
  · exact absurd h (by decide)
  · exact absurd h (by decide)

structure Kept (history : List (List UInt8)) (buf : List UInt8) : Prop where
  length : buf.length = 1024
  last : buf[1023]?.getD 0 = lastByte history 1023

theorem kept_initial : Kept [] initialBuf := ⟨holds_initial.length, holds_initial.bytes 1023⟩

theorem Kept.receive {history : List (List UInt8)} {buf : List UInt8} (h : Kept history buf) (d : Datagram) :
    Kept (d.bytes :: history) (overwrite buf d.bytes) where
  length := by rw [overwrite_length (by rw [h.length]; exact d.le_size), h.length]
  last := by rw [overwrite_getElem?_getD, lastByte_cons, h.last]

theorem Kept.read {history : List (List UInt8)} {buf content : List UInt8} (h : Kept history buf)
    (hc : content.length < 1024) : Kept history (overwrite buf content) where
  length := by rw [overwrite_length (by rw [h.length]; omega), h.length]
  last := by rw [overwrite_getElem?_getD, if_neg (by omega), h.last]

theorem Kept.terminated {history : List (List UInt8)} {buf : List UInt8} (h : Kept history buf)
    (hz : lastByte history 1023 = 0) : Terminated buf := by
  have hlast := h.last
  have hl := h.length
  rw [hz, List.getElem?_eq_getElem (by omega), Option.getD_some] at hlast
  exact ⟨hl, 1023, by omega, by rw [List.getElem?_eq_getElem (by omega), hlast]⟩

theorem sendProc_short {content buf : List UInt8} (hc : content.length < 1024) :
    (sendProc content buf).1 = overwrite buf content := by
  rw [sendProc, List.take_of_length_le (by omega)]

theorem getUL_cases (behind : List UInt8) (d : Datagram) (p : ShortProc) (buf : List UInt8) :
    (Command (overwrite buf d.bytes) ∧ (getUL behind d.bytes p.proc buf).2.measures = true ∧
      ∃ content ∈ [p.proc.uptime, p.proc.loadavg],
        (getUL behind d.bytes p.proc buf).1 = overwrite (overwrite buf d.bytes) content) ∨
    (¬ Command (overwrite buf d.bytes) ∧ (getUL behind d.bytes p.proc buf).2.measures = false ∧
      (getUL behind d.bytes p.proc buf).1 = overwrite buf d.bytes) := by
  have ht : d.bytes.take 1024 = d.bytes := List.take_of_length_le d.le_size
  simp only [getUL, ht, Command]
  by_cases hU : isU ((overwrite buf d.bytes).headD 0) = true
  · simp only [hU, ↓reduceIte, sendU, sendProc_short p.uptime_short]
    exact .inl ⟨.inl trivial, rfl, _, List.mem_cons_self, rfl⟩
  by_cases hL : isL ((overwrite buf d.bytes).headD 0) = true
  · simp only [hU, hL, ↓reduceIte, sendL, sendProc_short p.loadavg_short]
    exact .inl ⟨.inr trivial, rfl, _, List.mem_cons_of_mem _ List.mem_cons_self, rfl⟩
  · simp only [hU, hL, sendElse, Reply.measures]
    simp

theorem ShortProc.short (p : ShortProc) {content : List UInt8} (h : content ∈ [p.proc.uptime, p.proc.loadavg]) :
    content.length < 1024 := by
  simp only [List.mem_cons, List.not_mem_nil, or_false] at h
  obtain rfl | rfl := h
  · exact p.uptime_short
  · exact p.loadavg_short

theorem Kept.getUL (behind : List UInt8) {history : List (List UInt8)} {buf : List UInt8} (h : Kept history buf)
    (d : Datagram) (p : ShortProc) : Kept (d.bytes :: history) (getUL behind d.bytes p.proc buf).1 := by
  obtain ⟨-, -, content, hc, he⟩ | ⟨-, -, he⟩ := getUL_cases behind d p buf
  · rw [he]
    exact (h.receive d).read (p.short hc)
  · rw [he]
    exact h.receive d

theorem command_overwrite {buf xs : List UInt8} (h : Command (overwrite buf xs)) :
    Command xs ∨ xs = [] ∧ Command buf := by
  cases xs with
  | nil => exact .inr ⟨rfl, h⟩
  | cons x xs => exact .inl h

structure Guarded (history : List (List UInt8)) (buf : List UInt8) : Prop extends Kept history buf where
  command : Command buf → lastByte history 1023 = 0

theorem guarded_initial : Guarded [] initialBuf where
  toKept := kept_initial
  command _ := rfl

theorem Guarded.getUL (behind : List UInt8) {history : List (List UInt8)} {buf : List UInt8}
    (h : Guarded history buf) (d : Datagram) (p : ShortProc)
    (hd : Command d.bytes → lastByte (d.bytes :: history) 1023 = 0) :
    Guarded (d.bytes :: history) (getUL behind d.bytes p.proc buf).1 ∧
      ((getUL behind d.bytes p.proc buf).2.measures = true →
        Terminated (getUL behind d.bytes p.proc buf).1) := by
  have hk := h.toKept.getUL behind d p
  have hnul : Command (overwrite buf d.bytes) → lastByte (d.bytes :: history) 1023 = 0 := by
    intro hc
    obtain hc | ⟨he, hc⟩ := command_overwrite hc
    · exact hd hc
    · rw [he, lastByte_cons, if_neg (by simp)]
      exact h.command hc
  obtain ⟨hc, hm, -⟩ | ⟨hc, hm, he⟩ := getUL_cases behind d p buf
  · exact ⟨⟨hk, fun _ => hnul hc⟩, fun _ => hk.terminated (hnul hc)⟩
  · refine ⟨⟨hk, fun hc' => absurd (he ▸ hc') hc⟩, fun hm' => ?_⟩
    exact absurd (hm.symm.trans hm') Bool.false_ne_true

def EndInNul (history : List (List UInt8)) (datagrams : List Datagram) : Prop :=
  ∀ before d after, datagrams = before ++ d :: after → Command d.bytes →
    lastByte (((before ++ [d]).map Datagram.bytes).reverse ++ history) 1023 = 0

theorem endInNul_cons {history : List (List UInt8)} {d : Datagram} {datagrams : List Datagram} :
    EndInNul history (d :: datagrams) ↔
      (Command d.bytes → lastByte (d.bytes :: history) 1023 = 0) ∧ EndInNul (d.bytes :: history) datagrams := by
  rw [EndInNul, forall_split_cons]
  simp [EndInNul]

def input (r : Datagram × ShortProc) : List UInt8 × Proc := (r.1.bytes, r.2.proc)

theorem measured_terminated (behind : List UInt8) (rounds : List (Datagram × ShortProc))
    {history : List (List UInt8)} {buf : List UInt8} (h : Guarded history buf)
    (hn : EndInNul history (rounds.map Prod.fst)) :
    ∀ b ∈ measured behind (rounds.map input) buf, Terminated b := by
  induction rounds generalizing history buf with
  | nil => simp [measured]
  | cons r rounds ih =>
    obtain ⟨hd, hrest⟩ := endInNul_cons.mp hn
    obtain ⟨hg, ht⟩ := h.getUL behind r.1 r.2 hd
    have hlater := ih hg hrest
    simp only [List.map_cons, input, measured]
    split
    · next hm => exact List.forall_mem_cons.mpr ⟨ht hm, hlater⟩
    · exact hlater

def onesProc : ShortProc where
  proc := ⟨List.replicate 1023 1, List.replicate 1023 1⟩
  uptime_short := by rw [List.length_replicate]; omega
  loadavg_short := by rw [List.length_replicate]; omega

theorem Kept.last_of_ones {history : List (List UInt8)} {buf : List UInt8} (h : Kept history buf)
    (ht : Terminated (overwrite buf (List.replicate 1023 1))) : lastByte history 1023 = 0 := by
  obtain ⟨-, k, hk, hz⟩ := ht
  have hget := overwrite_getElem?_getD buf (List.replicate 1023 1) k
  rw [hz, Option.getD_some, List.length_replicate] at hget
  split at hget
  · next hlt =>
    rw [List.getElem?_replicate, if_pos hlt] at hget
    exact absurd hget (by decide)
  · obtain rfl : k = 1023 := by omega
    rw [← h.last, ← hget]

theorem endInNul_of_terminated (behind : List UInt8) (datagrams : List Datagram)
    {history : List (List UInt8)} {buf : List UInt8} (h : Kept history buf)
    (ht : ∀ b ∈ measured behind ((datagrams.map fun d => (d, onesProc)).map input) buf, Terminated b) :
    EndInNul history datagrams := by
  induction datagrams generalizing history buf with
  | nil =>
    intro before d after he
    simp at he
  | cons d datagrams ih =>
    simp only [List.map_cons, input, measured] at ht
    rw [endInNul_cons]
    obtain ⟨-, hm, content, hc, he⟩ | ⟨hc, hm, he⟩ := getUL_cases behind d onesProc buf
    · rw [if_pos hm, List.forall_mem_cons] at ht
      have hones : content = List.replicate 1023 1 := by
        obtain rfl | hc := List.mem_cons.mp hc
        · rfl
        · exact List.mem_singleton.mp hc
      subst hones
      refine ⟨fun _ => (h.receive d).last_of_ones (he ▸ ht.1), ih (h.getUL behind d onesProc) ht.2⟩
    · rw [if_neg (by rw [hm]; exact Bool.false_ne_true)] at ht
      refine ⟨fun hd => absurd ?_ hc, ih (h.getUL behind d onesProc) ht⟩
      cases hb : d.bytes with
      | nil =>
        rw [hb] at hd
        exact absurd hd not_command_nil
      | cons x xs => rwa [hb] at hd

section Rounds

variable {history : List (List UInt8)} {buf : List UInt8}

def requested (history : List (List UInt8)) (r : Datagram × ShortProc) : Option (List UInt8) :=
  let first := lastByte (r.1.bytes :: history) 0
  if isU first then some r.2.proc.uptime else if isL first then some r.2.proc.loadavg else none

def written (history : List (List UInt8)) (rounds : List (Datagram × ShortProc)) : List (List UInt8) :=
  rounds.foldl (fun history r => (requested history r).toList ++ r.1.bytes :: history) history

/-- There is a NUL in the file that is read, or left behind its end. -/
def NulLeft (history : List (List UInt8)) (r : Datagram × ShortProc) : Prop :=
  ∀ content ∈ requested history r,
    0 ∈ content ∨ ∃ k < 1024, content.length ≤ k ∧ lastByte (r.1.bytes :: history) k = 0

theorem Holds.headD (h : Holds history buf) : buf.headD 0 = lastByte history 0 := by
  rw [← h.bytes, ← List.head?_eq_getElem?, List.headD_eq_head?_getD]

theorem Holds.terminated_iff (h : Holds history buf) : Terminated buf ↔ ∃ k < 1024, lastByte history k = 0 := by
  rw [Terminated, and_iff_right h.length]
  refine exists_congr fun k => and_congr_right fun hk => ?_
  rw [← h.bytes, List.getElem?_eq_getElem (by rw [h.length]; exact hk), Option.some_inj, Option.getD_some]

theorem exists_lastByte_cons_iff {content : List UInt8} (hc : content.length < 1024) :
    (∃ k < 1024, lastByte (content :: history) k = 0) ↔
      0 ∈ content ∨ ∃ k < 1024, content.length ≤ k ∧ lastByte history k = 0 := by
  simp only [lastByte_cons]
  constructor
  · rintro ⟨k, hk, hz⟩
    split at hz
    · next hlt =>
      rw [List.getElem?_eq_getElem hlt, Option.getD_some] at hz
      exact .inl (hz ▸ List.getElem_mem hlt)
    · next hge => exact .inr ⟨k, hk, Nat.le_of_not_lt hge, hz⟩
  · rintro (hz | ⟨k, hk, hge, hz⟩)
    · obtain ⟨k, hlt, hz⟩ := List.getElem_of_mem hz
      exact ⟨k, by omega, by rw [if_pos hlt, List.getElem?_eq_getElem hlt, Option.getD_some, hz]⟩
    · exact ⟨k, hk, by rw [if_neg (by omega), hz]⟩

theorem Holds.getUL (behind : List UInt8) (h : Holds history buf) (r : Datagram × ShortProc) :
    Holds (written history [r]) (getUL behind r.1.bytes r.2.proc buf).1 ∧
      (getUL behind r.1.bytes r.2.proc buf).2.measures = (requested history r).isSome := by
  have hreceived := h.write r.1.le_size
  have ht : r.1.bytes.take 1024 = r.1.bytes := List.take_of_length_le r.1.le_size
  simp only [Exercise7.getUL, ht, hreceived.headD, written, List.foldl_cons, List.foldl_nil, requested]
  split
  · rw [sendU, sendProc_short r.2.uptime_short]
    exact ⟨hreceived.write (Nat.le_of_lt r.2.uptime_short), rfl⟩
  · split
    · rw [sendL, sendProc_short r.2.loadavg_short]
      exact ⟨hreceived.write (Nat.le_of_lt r.2.loadavg_short), rfl⟩
    · exact ⟨hreceived, rfl⟩

theorem requested_length {r : Datagram × ShortProc} {content : List UInt8} (h : content ∈ requested history r) :
    content.length < 1024 := by
  rw [requested, Option.mem_def] at h
  split at h
  · cases h
    exact r.2.uptime_short
  · split at h
    · cases h
      exact r.2.loadavg_short
    · cases h

theorem measured_iff_nulLeft (behind : List UInt8) (rounds : List (Datagram × ShortProc)) (h : Holds history buf) :
    (∀ b ∈ measured behind (rounds.map input) buf, Terminated b) ↔
      ∀ before r after, rounds = before ++ r :: after → NulLeft (written history before) r := by
  induction rounds generalizing history buf with
  | nil => simp [measured]
  | cons r rounds ih =>
    obtain ⟨hnext, hmeasures⟩ := h.getUL behind r
    rw [forall_split_cons]
    change _ ↔ NulLeft history r ∧
      ∀ before q after, rounds = before ++ q :: after → NulLeft (written (written history [r]) before) q
    rw [← ih hnext]
    simp only [List.map_cons, input, measured, hmeasures]
    cases hrequested : requested history r with
    | none => simp [NulLeft, hrequested]
    | some content =>
      have hwritten : written history [r] = content :: r.1.bytes :: history := by simp [written, hrequested]
      rw [if_pos Option.isSome_some, List.forall_mem_cons, hnext.terminated_iff, hwritten,
        exists_lastByte_cons_iff (requested_length hrequested)]
      simp [NulLeft, hrequested]

end Rounds

/-- In any run the array is terminated whenever it is measured exactly if each time the file that was read holds a NUL or
one was left behind its end. Whatever the `/proc` files hold, this is so exactly if at every command the latest
datagram that filled the array ends in a NUL. -/
theorem measured_terminated_iff (behind : List UInt8) (datagrams : List Datagram) :
    ((∀ rounds : List (Datagram × ShortProc), rounds.map Prod.fst = datagrams →
      ∀ buf ∈ measured behind (rounds.map input) initialBuf, Terminated buf) ↔
      EndInNul [] datagrams) ∧
    ∀ rounds : List (Datagram × ShortProc),
      (∀ buf ∈ measured behind (rounds.map input) initialBuf, Terminated buf) ↔
        ∀ before r after, rounds = before ++ r :: after → NulLeft (written [] before) r := by
  refine ⟨?_, fun rounds => measured_iff_nulLeft behind rounds holds_initial⟩
  constructor
  · intro h
    exact endInNul_of_terminated behind datagrams kept_initial (h _ (by simp [Function.comp_def]))
  · rintro hn rounds rfl
    exact measured_terminated behind rounds guarded_initial hn

def fullRequest : Datagram where
  bytes := 85 :: List.replicate 1023 120
  le_size := by rw [List.length_cons, List.length_replicate]

def sampleProc : ShortProc where
  proc := ⟨[49, 10], [48, 10]⟩
  uptime_short := by decide
  loadavg_short := by decide

theorem overwrite_full {buf xs : List UInt8} (h : buf.length ≤ xs.length) : overwrite buf xs = xs := by
  rw [overwrite, List.drop_eq_nil_of_le h, List.append_nil]

theorem not_terminated {buf : List UInt8} (h : 0 ∉ buf) : ¬ Terminated buf := by
  rintro ⟨-, k, -, hk⟩
  exact h (List.mem_of_getElem? hk)

theorem full_request_unterminated :
    ∃ buf ∈ measured [] [input (fullRequest, sampleProc)] initialBuf, ¬ Terminated buf := by
  have hfull : overwrite initialBuf fullRequest.bytes = fullRequest.bytes :=
    overwrite_full (by rw [initialBuf, fullRequest, List.length_cons, List.length_replicate, List.length_replicate])
  obtain ⟨-, hm, content, hc, he⟩ | ⟨hc, -⟩ := getUL_cases [] fullRequest sampleProc initialBuf
  · have hcontent : 0 ∉ content := by
      obtain rfl | hc := List.mem_cons.mp hc
      · decide
      · obtain rfl := List.mem_singleton.mp hc
        decide
    have hbytes : 0 ∉ fullRequest.bytes := by
      rw [fullRequest, List.mem_cons, List.mem_replicate, not_or]
      exact ⟨by decide, fun h => absurd h.2 (by decide)⟩
    refine ⟨(getUL [] fullRequest.bytes sampleProc.proc initialBuf).1, ?_, not_terminated ?_⟩
    · simp only [input, measured, hm, ↓reduceIte]
      exact List.mem_cons_self
    · rw [he, hfull, overwrite, List.mem_append, not_or]
      exact ⟨hcontent, fun hmem => hbytes (List.mem_of_mem_drop hmem)⟩
  · rw [hfull] at hc
    exact absurd (.inl rfl) hc

end NgkNet.Exercise7
