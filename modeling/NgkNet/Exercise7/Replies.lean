import Mathlib.Data.UInt
import NgkNet.Exercise7.UdpServer

set_option autoImplicit false

namespace NgkNet.Exercise7

open Bytes CString

structure Datagram where
  bytes : List UInt8
  le_size : bytes.length ≤ 1024

structure ProcFile where
  bytes : List UInt8
  nul_free : 0 ∉ bytes
  short : bytes.length < 1024
  digit : 48 ≤ bytes.headD 0 ∧ bytes.headD 0 ≤ 57

structure Round where
  datagram : Datagram
  uptime : ProcFile
  loadavg : ProcFile

namespace Round

def input (r : Round) : List UInt8 × Proc :=
  (r.datagram.bytes, ⟨r.uptime.bytes, r.loadavg.bytes⟩)

def expected (behind : List UInt8) (r : Round) : Reply :=
  if isU (r.datagram.bytes.headD 0) then .uptime (some r.uptime.bytes)
  else if isL (r.datagram.bytes.headD 0) then .loadavg (some r.loadavg.bytes)
  else sendElse behind

def requested (r : Round) : Option ProcFile :=
  if isU (r.datagram.bytes.headD 0) then some r.uptime
  else if isL (r.datagram.bytes.headD 0) then some r.loadavg
  else none

def writes (r : Round) : List (List UInt8) :=
  (r.requested.map ProcFile.bytes).toList ++ [r.datagram.bytes]

end Round

def NulBehindContent (history : List (List UInt8)) (r : Round) : Prop :=
  ∀ file ∈ r.requested, lastByte (r.datagram.bytes :: history) file.bytes.length = 0

def writesOf (rounds : List Round) : List (List UInt8) := (rounds.map Round.writes).reverse.flatten

structure Holds (history : List (List UInt8)) (buf : List UInt8) : Prop where
  length : buf.length = 1024
  bytes : ∀ k, buf[k]?.getD 0 = lastByte history k

def NoCommand (bytes : List UInt8) : Prop := isU (bytes.headD 0) = false ∧ isL (bytes.headD 0) = false

theorem noCommand_initial : NoCommand initialBuf := ⟨rfl, rfl⟩

theorem holds_initial : Holds [] initialBuf where
  length := List.length_replicate
  bytes := Zeros.getElem?_getD (fun _ hx => List.eq_of_mem_replicate hx)

theorem Holds.write {history : List (List UInt8)} {buf : List UInt8} (h : Holds history buf)
    {xs : List UInt8} (hx : xs.length ≤ 1024) : Holds (xs :: history) (overwrite buf xs) where
  length := by rw [overwrite_length (by rw [h.length]; exact hx), h.length]
  bytes := overwrite_lastByte h.bytes xs

theorem isU_overwrite {buf : List UInt8} (h : NoCommand buf) (xs : List UInt8) :
    isU ((overwrite buf xs).headD 0) = isU (xs.headD 0) := by
  cases xs with
  | nil => exact h.1
  | cons x xs => rfl

theorem isL_overwrite {buf : List UInt8} (h : NoCommand buf) (xs : List UInt8) :
    isL ((overwrite buf xs).headD 0) = isL (xs.headD 0) := by
  cases xs with
  | nil => exact h.2
  | cons x xs => rfl

theorem ProcFile.noCommand (file : ProcFile) : NoCommand file.bytes := by
  have h := file.digit
  simp only [UInt8.le_iff_toNat_le, UInt8.reduceToNat] at h
  simp only [NoCommand, isU, isL, Bool.or_eq_false_iff, decide_eq_false_iff_not, ← UInt8.toNat_inj,
    UInt8.reduceToNat]
  omega

theorem ProcFile.noCommand_overwrite (file : ProcFile) (buf : List UInt8) :
    NoCommand (overwrite buf file.bytes) := by
  have h := file.noCommand
  have hd := file.digit
  cases hb : file.bytes with
  | nil =>
    rw [hb] at hd
    exact absurd hd.1 (by decide)
  | cons x xs => rwa [hb] at h

theorem sendProc_bytes (file : ProcFile) (buf : List UInt8) :
    (sendProc file.bytes buf).1 = overwrite buf file.bytes := by
  rw [sendProc, List.take_of_length_le (by have := file.short; omega)]

theorem sendProc_sent_iff (file : ProcFile) (buf : List UInt8) (hb : buf.length = 1024) :
    (sendProc file.bytes buf).2 = some file.bytes ↔ buf[file.bytes.length]?.getD 0 = 0 := by
  have hs := file.short
  have hl : (overwrite buf file.bytes).length = 1024 := by rw [overwrite_length (by omega), hb]
  have htake : (overwrite buf file.bytes).take file.bytes.length = file.bytes := List.take_left
  have hnul : (overwrite buf file.bytes)[file.bytes.length]? = some 0 ↔
      buf[file.bytes.length]?.getD 0 = 0 := by
    have := overwrite_getElem?_getD buf file.bytes file.bytes.length
    rw [if_neg (Nat.lt_irrefl _)] at this
    rw [← this, List.getElem?_eq_getElem (by omega)]
    simp
  rw [sendProc, List.take_of_length_le (by omega), Option.map_eq_some_iff, ← hnul]
  constructor
  · rintro ⟨n, hn, ht⟩
    rw [strlen_eq_some_iff] at hn
    have hlt : n < 1024 := by rw [← hl]; exact (List.getElem?_eq_some_iff.mp hn.1).1
    have : n = file.bytes.length := by rw [← ht, List.length_take]; omega
    rw [← this]
    exact hn.1
  · intro h
    refine ⟨file.bytes.length, ?_, htake⟩
    rw [strlen_eq_some_iff, htake]
    exact ⟨h, file.nul_free⟩

theorem sendProc_step {history : List (List UInt8)} {buf : List UInt8} (h : Holds history buf)
    (file : ProcFile) :
    Holds (file.bytes :: history) (sendProc file.bytes buf).1 ∧ NoCommand (sendProc file.bytes buf).1 ∧
      ((sendProc file.bytes buf).2 = some file.bytes ↔ lastByte history file.bytes.length = 0) := by
  rw [sendProc_bytes, sendProc_sent_iff file buf h.length, h.bytes]
  exact ⟨h.write (Nat.le_of_lt file.short), file.noCommand_overwrite buf, Iff.rfl⟩

theorem getUL_step (behind : List UInt8) {history : List (List UInt8)} {buf : List UInt8}
    (h : Holds history buf) (hc : NoCommand buf) (r : Round) :
    let next := getUL behind r.input.1 r.input.2 buf
    Holds (r.writes ++ history) next.1 ∧ NoCommand next.1 ∧
      (next.2 = r.expected behind ↔ NulBehindContent history r) := by
  have hw := h.write r.datagram.le_size
  have ht : r.datagram.bytes.take 1024 = r.datagram.bytes := List.take_of_length_le r.datagram.le_size
  simp only [getUL, Round.input, ht, isU_overwrite hc, isL_overwrite hc]
  by_cases hU : isU (r.datagram.bytes.headD 0) = true
  · have hs := sendProc_step hw r.uptime
    simpa [-List.headD_eq_head?_getD, Round.writes, Round.expected, Round.requested, NulBehindContent, hU,
      sendU] using hs
  by_cases hL : isL (r.datagram.bytes.headD 0) = true
  · have hs := sendProc_step hw r.loadavg
    simpa [-List.headD_eq_head?_getD, Round.writes, Round.expected, Round.requested, NulBehindContent, hU, hL,
      sendL] using hs
  · have hn : NoCommand (overwrite buf r.datagram.bytes) := by
      rw [NoCommand, isU_overwrite hc, isL_overwrite hc]
      exact ⟨Bool.eq_false_iff.mpr hU, Bool.eq_false_iff.mpr hL⟩
    simpa [-List.headD_eq_head?_getD, Round.writes, Round.expected, Round.requested, NulBehindContent, hU,
      hL] using And.intro hw hn

theorem writesOf_append (rounds : List Round) (r : Round) :
    writesOf (rounds ++ [r]) = r.writes ++ writesOf rounds := by
  simp [writesOf]

theorem forall_split_cons {α : Type} {P : List α → α → Prop} {x : α} {xs : List α} :
    (∀ before y after, x :: xs = before ++ y :: after → P before y) ↔
      P [] x ∧ ∀ before y after, xs = before ++ y :: after → P (x :: before) y := by
  constructor
  · intro h
    exact ⟨h [] x xs rfl, fun before y after hxs => h (x :: before) y after (by rw [hxs]; rfl)⟩
  · rintro ⟨hx, hxs⟩ before y after hsplit
    cases before with
    | nil =>
      obtain ⟨rfl, -⟩ := List.cons.inj hsplit
      exact hx
    | cons b before =>
      obtain ⟨rfl, hrest⟩ := List.cons.inj hsplit
      exact hxs before y after hrest

theorem replies_iff (behind : List UInt8) (earlier rounds : List Round) {buf : List UInt8}
    (h : Holds (writesOf earlier) buf) (hc : NoCommand buf) :
    replies behind (rounds.map Round.input) buf = rounds.map (Round.expected behind) ↔
      ∀ before r after, rounds = before ++ r :: after →
        NulBehindContent (writesOf (earlier ++ before)) r := by
  induction rounds generalizing earlier buf with
  | nil => simp [replies]
  | cons r rest ih =>
    obtain ⟨hh, hn, hr⟩ := getUL_step behind h hc r
    rw [← writesOf_append] at hh
    simp only [List.map_cons, replies, List.cons.injEq]
    rw [hr, ih (earlier ++ [r]) hh hn, forall_split_cons]
    simp

/-- Every reply is the requested file's content exactly if, at each such round, the latest of the
earlier messages and files that is longer than the content has a NUL right behind it. -/
theorem replies_faithful_iff (behind : List UInt8) (rounds : List Round) :
    replies behind (rounds.map Round.input) initialBuf = rounds.map (Round.expected behind) ↔
      ∀ before r after, rounds = before ++ r :: after → NulBehindContent (writesOf before) r := by
  rw [replies_iff behind [] rounds holds_initial noCommand_initial]
  simp only [List.nil_append]

def longRequest : Round where
  datagram := ⟨[85, 120, 121, 122], by decide⟩
  uptime := ⟨[49, 10], by decide, by decide, by decide⟩
  loadavg := ⟨[48, 10], by decide, by decide, by decide⟩

theorem long_request_leaks :
    replies [] [longRequest.input] initialBuf = [.uptime (some [49, 10, 121, 122])] ∧
      replies [] [longRequest.input] initialBuf ≠ [longRequest.expected []] := by
  have h : replies [] [longRequest.input] initialBuf = [.uptime (some [49, 10, 121, 122])] := by
    decide
  refine ⟨h, ?_⟩
  rw [h]
  decide

end NgkNet.Exercise7
