import NgkNet.Restinio.WebSocket.Frames

set_option autoImplicit false

namespace NgkNet.Restinio.WebSocket

open Ascii

inductive Ongoing where
  | none
  | text (sofar : Str)
  | binary

namespace Ongoing

def sofar : Ongoing → Str
  | .text t => t
  | _ => []

def kind : Ongoing → PreviousDataFrame
  | .none => .none
  | .text _ => .text
  | .binary => .binary

def next (m : Message) (o : Ongoing) : Ongoing :=
  if m.opcode.isControlFrame then o
  else if m.finalFlag then .none
  else
    match o with
    | .none => if m.opcode = .textFrame then .text m.payload else .binary
    | .text t => .text (t ++ m.payload)
    | .binary => .binary

end Ongoing

/-- What RFC 6455 lets a client send next, other than a close frame. -/
inductive Allowed : Ongoing → Message → Prop
  | text {final : Bool} {payload : Str} (h : final = true → Utf8 payload) : Allowed .none ⟨final, .textFrame, payload⟩
  | binary {final : Bool} {payload : Str} : Allowed .none ⟨final, .binaryFrame, payload⟩
  | moreText {t : Str} {final : Bool} {payload : Str} (h : final = true → Utf8 (t ++ payload)) :
      Allowed (.text t) ⟨final, .continuationFrame, payload⟩
  | moreBinary {final : Bool} {payload : Str} : Allowed .binary ⟨final, .continuationFrame, payload⟩
  | ping {o : Ongoing} {payload : Str} (h : payload.length ≤ 125) : Allowed o ⟨true, .pingFrame, payload⟩
  | pong {o : Ongoing} {payload : Str} (h : payload.length ≤ 125) : Allowed o ⟨true, .pongFrame, payload⟩

def Legal : Ongoing → List ClientFrame → Prop
  | o, [] => ∃ rest, Utf8 (o.sofar ++ rest)
  | o, f :: frames => f.message.payload.length < 2 ^ 63 ∧ Allowed o f.message ∧ Legal (o.next f.message) frames

/-- No control frame comes where the text so far ends inside a character. -/
def Unbroken : Ongoing → List ClientFrame → Prop
  | _, [] => True
  | o, f :: frames => (f.message.opcode.isControlFrame = true → Utf8 o.sofar) ∧ Unbroken (o.next f.message) frames

namespace Ongoing

def carriesText (o : Ongoing) (m : Message) : Bool :=
  m.opcode = .textFrame || (m.opcode = .continuationFrame && o.kind = .text)

def checked (o : Ongoing) (m : Message) : Str :=
  if o.carriesText m then o.sofar ++ m.payload
  else if m.opcode = .connectionCloseFrame then o.sofar ++ m.payload.drop 2
  else o.sofar

def during (o : Ongoing) (m : Message) : PreviousDataFrame :=
  if m.opcode = .textFrame && !m.finalFlag then .text
  else if m.opcode = .binaryFrame && !m.finalFlag then .binary
  else o.kind

end Ongoing

structure Fits (o : Ongoing) (m : Message) : Prop where
  opcode : m.opcode.isValid = true
  control : m.opcode.isControlFrame = true → m.finalFlag = true
  continues : m.opcode = .continuationFrame → o ≠ .none
  begins : m.opcode.isDataFrame = true → o = .none

namespace Fits

variable {o : Ongoing} {m : Message} (h : Fits o m)
include h

theorem kind : (if o.during m ≠ .none && !m.opcode.isControlFrame && m.finalFlag then .none else o.during m) =
    (o.next m).kind := by
  obtain ⟨final, opcode, payload⟩ := m
  cases opcode with
  | continuationFrame =>
    cases o with
    | none => exact absurd rfl (h.continues rfl)
    | _ => cases final <;> rfl
  | textFrame | binaryFrame =>
    obtain rfl := h.begins rfl
    cases final <;> rfl
  | connectionCloseFrame | pingFrame | pongFrame => cases o <;> rfl
  | other code => exact absurd h.opcode Bool.false_ne_true

theorem unfinished (hf : m.finalFlag = false) : (o.next m).sofar = o.checked m := by
  obtain ⟨final, opcode, payload⟩ := m
  obtain rfl : final = false := hf
  cases opcode with
  | continuationFrame =>
    cases o with
    | none => exact absurd rfl (h.continues rfl)
    | _ => rfl
  | textFrame | binaryFrame =>
    obtain rfl := h.begins rfl
    rfl
  | connectionCloseFrame | pingFrame | pongFrame => exact absurd (h.control rfl) Bool.false_ne_true
  | other code => exact absurd h.opcode Bool.false_ne_true

omit h in
theorem finished (hf : m.finalFlag = true) : o.next m = .none ∨ m.opcode.isControlFrame = true ∧ o.next m = o := by
  cases hc : m.opcode.isControlFrame with
  | true => exact .inr ⟨rfl, if_pos hc⟩
  | false => exact .inl (by simp only [Ongoing.next, hc, hf, Bool.false_eq_true, if_false, if_true])

omit h in
theorem checked_control (hc : m.opcode.isControlFrame = true) (hne : m.opcode ≠ .connectionCloseFrame) :
    o.checked m = o.sofar := by
  obtain ⟨final, opcode, payload⟩ := m
  cases opcode with
  | pingFrame | pongFrame => rfl
  | connectionCloseFrame => exact absurd rfl hne
  | _ => cases hc

end Fits

theorem Allowed.fits {o : Ongoing} {m : Message} (h : Allowed o m) :
    Fits o m ∧ m.opcode ≠ .connectionCloseFrame ∧ (m.opcode.isControlFrame = true → m.payload.length ≤ 125) := by
  cases h with
  | text h => exact ⟨⟨rfl, fun h => (nomatch h), fun h => (nomatch h), fun _ => rfl⟩, by simp, fun h => (nomatch h)⟩
  | binary => exact ⟨⟨rfl, fun h => (nomatch h), fun h => (nomatch h), fun _ => rfl⟩, by simp, fun h => (nomatch h)⟩
  | moreText h =>
    exact ⟨⟨rfl, fun h => (nomatch h), fun _ h => (nomatch h), fun h => (nomatch h)⟩, by simp, fun h => (nomatch h)⟩
  | moreBinary =>
    exact ⟨⟨rfl, fun h => (nomatch h), fun _ h => (nomatch h), fun h => (nomatch h)⟩, by simp, fun h => (nomatch h)⟩
  | ping h => exact ⟨⟨rfl, fun _ => rfl, fun h => (nomatch h), fun h => (nomatch h)⟩, by simp, fun _ => h⟩
  | pong h => exact ⟨⟨rfl, fun _ => rfl, fun h => (nomatch h), fun h => (nomatch h)⟩, by simp, fun _ => h⟩

theorem Allowed.utf8 {o : Ongoing} {m : Message} (h : Allowed o m) (hf : m.finalFlag = true)
    (hu : m.opcode.isControlFrame = true → Utf8 o.sofar) : Utf8 (o.checked m) := by
  cases h with
  | text h => exact h hf
  | binary => exact utf8_nil
  | moreText h => exact h hf
  | moreBinary => exact utf8_nil
  | ping h => exact hu rfl
  | pong h => exact hu rfl

theorem Legal.sofar {o : Ongoing} {frames : List ClientFrame} (h : Legal o frames) :
    ∃ rest, Utf8 (o.sofar ++ rest) := by
  induction frames generalizing o with
  | nil => exact h
  | cons f frames ih =>
    obtain ⟨-, hf, hrest⟩ := h
    obtain ⟨⟨final, opcode, payload⟩, key⟩ := f
    cases hf with
    | text h => exact ⟨[], utf8_nil⟩
    | binary => exact ⟨[], utf8_nil⟩
    | @moreText t _ _ h =>
      cases final with
      | true => exact ⟨payload, h rfl⟩
      | false =>
        obtain ⟨rest, hr⟩ := ih hrest
        exact ⟨payload ++ rest, by rw [← List.append_assoc]; exact hr⟩
    | moreBinary => exact ⟨[], utf8_nil⟩
    | ping h => exact ih hrest
    | pong h => exact ih hrest

theorem Legal.checked {o : Ongoing} {f : ClientFrame} {frames : List ClientFrame} (h : Legal o (f :: frames)) :
    ∃ rest, Utf8 (o.checked f.message ++ rest) := by
  have hsofar := h.sofar
  obtain ⟨-, ha, hrest⟩ := h
  obtain ⟨hfits, hclose, -⟩ := ha.fits
  cases hc : f.message.opcode.isControlFrame with
  | true =>
    rw [Fits.checked_control hc hclose]
    exact hsofar
  | false =>
    cases hf : f.message.finalFlag with
    | true => exact ⟨[], by rw [List.append_nil]; exact ha.utf8 hf (fun h => absurd (hc.symm.trans h) (by decide))⟩
    | false =>
      rw [← hfits.unfinished hf]
      exact hrest.sofar

theorem Legal.mem {o : Ongoing} {frames : List ClientFrame} (h : Legal o frames) {f : ClientFrame} (hf : f ∈ frames) :
    f.message.payload.length < 2 ^ 63 ∧ f.message.opcode.isValid = true ∧
      f.message.opcode ≠ .connectionCloseFrame := by
  induction frames generalizing o with
  | nil => exact absurd hf List.not_mem_nil
  | cons g frames ih =>
    obtain ⟨hlen, ha, hrest⟩ := h
    rcases List.mem_cons.mp hf with rfl | hf
    · exact ⟨hlen, ha.fits.1.opcode, ha.fits.2.1⟩
    · exact ih hrest hf

def ValidCloseCode (n : ℕ) : Prop :=
  1000 ≤ n ∧ n ≤ 1011 ∧ n ≠ 1004 ∧ n ≠ 1005 ∧ n ≠ 1006 ∨ 3000 ≤ n ∧ n ≤ 4999

structure Acceptable (o : Ongoing) (m : Message) : Prop where
  text : Utf8Checker.Begun (o.checked m)
  code : m.opcode = .connectionCloseFrame → 2 ≤ m.payload.length → ValidCloseCode (bigEndianValue (m.payload.take 2))

namespace FrameHeader

def message (hd : FrameHeader) (payload : Str) : Message := ⟨hd.final, hd.opcode, payload⟩

structure Valid (o : Ongoing) (hd : FrameHeader) : Prop where
  fits : Fits o (hd.message [])
  short : hd.opcode.isControlFrame = true → hd.length ≤ 125
  masked : hd.masked = true
  unreserved : hd.reserved = false

theorem Valid.message {o : Ongoing} {hd : FrameHeader} (h : hd.Valid o) (payload : Str) : Fits o (hd.message payload) :=
  ⟨h.fits.opcode, h.fits.control, h.fits.continues, h.fits.begins⟩

end FrameHeader

theorem checked_append (o : Ongoing) (hd : FrameHeader) (a b : Str) :
    o.checked (hd.message (a ++ b)) = o.checked (hd.message a) ++
      if o.carriesText (hd.message a) then b
      else if hd.opcode = .connectionCloseFrame then b.drop (2 - a.length) else [] := by
  have hcarries : o.carriesText (hd.message (a ++ b)) = o.carriesText (hd.message a) := rfl
  rw [Ongoing.checked, Ongoing.checked, hcarries]
  split
  · exact (List.append_assoc _ _ _).symm
  · show (if hd.opcode = .connectionCloseFrame then o.sofar ++ (a ++ b).drop 2 else o.sofar) =
      (if hd.opcode = .connectionCloseFrame then o.sofar ++ a.drop 2 else o.sofar) ++ _
    split
    · rw [List.drop_append, List.append_assoc]
    · exact (List.append_nil _).symm

theorem Acceptable.of_append {o : Ongoing} {hd : FrameHeader} {a b : Str} (h : Acceptable o (hd.message (a ++ b))) :
    Acceptable o (hd.message a) := by
  refine ⟨?_, fun hc hlen => ?_⟩
  · have htext := h.text
    rw [checked_append] at htext
    exact htext.of_append
  · have hlen : 2 ≤ a.length := hlen
    have hcode := h.code hc (by show 2 ≤ (a ++ b).length; rw [List.length_append]; omega)
    rwa [show (hd.message (a ++ b)).payload.take 2 = a.take 2 from List.take_append_of_le_length hlen] at hcode

theorem Legal.acceptable {o : Ongoing} {f : ClientFrame} {frames : List ClientFrame} (h : Legal o (f :: frames))
    {a b : Str} (hp : f.message.payload = a ++ b) : Acceptable o (f.frameHeader.message a) := by
  obtain ⟨rest, hrest⟩ := h.checked
  have hall : Acceptable o (f.frameHeader.message (a ++ b)) := by
    rw [← hp]
    exact ⟨Utf8Checker.begun_of_utf8 hrest, fun hc => absurd hc h.2.1.fits.2.1⟩
  exact hall.of_append

theorem Allowed.valid {o : Ongoing} {f : ClientFrame} (h : Allowed o f.message) : f.frameHeader.Valid o :=
  ⟨⟨h.fits.1.opcode, h.fits.1.control, h.fits.1.continues, h.fits.1.begins⟩, h.fits.2.2, rfl, rfl⟩

namespace Validator

structure Between (o : Ongoing) (v : Validator) : Prop where
  working : v.workingState = .emptyState
  previous : v.previousDataFrame = o.kind
  unmask : v.unmaskFlag = true
  checker : Utf8Checker.Tracks o.sofar v.utf8Checker

structure Inside (o : Ongoing) (hd : FrameHeader) (part : Str) (v : Validator) : Prop where
  state : v.validationState.isStillValid = true
  working : v.workingState = .processingFrame
  frame : hd.Matches v.currentFrame
  previous : v.previousDataFrame = o.during (hd.message part)
  unmask : v.unmaskFlag = true
  unmasker : v.unmasker = ⟨readNumberFromBigEndianBytes 32 (List.ofFn hd.maskingKey), part.length⟩
  code : hd.opcode = .connectionCloseFrame → v.expectedCloseCode = ⟨2, part.take 2⟩
  checker : Utf8Checker.Tracks (o.checked (hd.message part)) v.utf8Checker

variable {o : Ongoing} {hd : FrameHeader} {v : Validator}

theorem validateFrameHeader_iff {md : MessageDetails} (hm : hd.Matches md) :
    validateFrameHeader md = .frameHeaderIsValid ↔ hd.opcode.isValid = true ∧
      (hd.opcode.isControlFrame = true → hd.final = true) ∧ hd.masked = true ∧ hd.reserved = false ∧
      (hd.opcode.isControlFrame = true → hd.length ≤ 125) := by
  rw [validateFrameHeader, hm.finalFlag, hm.reserved, hm.opcode, hm.maskFlag, hm.payloadLen, maxPayloadSizeWithoutExt]
  cases hd.opcode.isValid with
  | false => simp
  | true =>
    cases hd.opcode.isControlFrame <;> cases hd.final <;> cases hd.masked <;> cases hd.reserved <;> simp

theorem checkPreviousFrameType_iff (opcode : Opcode) (o : Ongoing) :
    checkPreviousFrameType opcode o.kind = .frameHeaderIsValid ↔
      (opcode = .continuationFrame → o ≠ .none) ∧ (opcode.isDataFrame = true → o = .none) := by
  cases o <;> cases opcode <;> simp [checkPreviousFrameType, Ongoing.kind, Opcode.isDataFrame]

theorem checked_nil (o : Ongoing) (hd : FrameHeader) : o.checked (hd.message []) = o.sofar := by
  simp only [Ongoing.checked, FrameHeader.message, List.drop_nil, List.append_nil, ite_self]

theorem Between.acceptable (h : v.Between o) (hd : FrameHeader) : Acceptable o (hd.message []) :=
  ⟨(checked_nil o hd).symm ▸ h.checker.begun, fun _ hlen => absurd hlen (by simp [FrameHeader.message])⟩

theorem Between.processNewFrame (h : v.Between o) {md : MessageDetails} (hm : hd.Matches md) (hv : hd.Valid o) :
    v.processNewFrame md = .ok (.frameHeaderIsValid, v.acceptFrame md) ∧ (v.acceptFrame md).Inside o hd [] := by
  have hheader := (validateFrameHeader_iff hm).mpr
    ⟨hv.fits.opcode, hv.fits.control, hv.masked, hv.unreserved, hv.short⟩
  have horder := (checkPreviousFrameType_iff hd.opcode o).mpr ⟨hv.fits.continues, hv.fits.begins⟩
  constructor
  · simp only [Validator.processNewFrame, h.working, hheader, hm.opcode, h.previous, horder, ne_eq, not_true_eq_false,
      if_false]
  · refine ⟨rfl, rfl, hm, ?_, h.unmask, ?_, fun hc => ?_, ?_⟩
    · simp only [acceptFrame, hm.opcode, hm.finalFlag, h.previous]
      rfl
    · simp only [acceptFrame, h.unmask, if_true, hm.maskingKey hv.masked, List.length_nil]
    · simp only [acceptFrame, hm.opcode, hc, if_true, ExpectedData.reset, List.take_nil]
    · rw [checked_nil]
      exact h.checker

theorem Between.processNewFrame_invalid (h : v.Between o) {md : MessageDetails} (hm : hd.Matches md)
    (hv : ¬ hd.Valid o) :
    ∃ r, r ≠ .frameHeaderIsValid ∧ v.processNewFrame md = .ok (r, { v with validationState := r }) := by
  rw [Validator.processNewFrame, if_neg (by simp [h.working])]
  by_cases hheader : validateFrameHeader md = .frameHeaderIsValid
  · have horder : checkPreviousFrameType md.opcode v.previousDataFrame ≠ .frameHeaderIsValid := by
      rw [hm.opcode, h.previous]
      intro horder
      obtain ⟨hcontinues, hbegins⟩ := (checkPreviousFrameType_iff hd.opcode o).mp horder
      obtain ⟨hopcode, hcontrol, hmasked, hreserved, hshort⟩ := (validateFrameHeader_iff hm).mp hheader
      exact hv ⟨⟨hopcode, hcontrol, hcontinues, hbegins⟩, hshort, hmasked, hreserved⟩
    exact ⟨_, horder, by simp only [hheader, ne_eq, not_true_eq_false, if_false, if_pos horder]⟩
  · exact ⟨_, hheader, by simp only [ne_eq, if_pos hheader]⟩

theorem Inside.carriesText {part : Str} (h : v.Inside o hd part) :
    (v.currentFrame.opcode = .textFrame || (v.currentFrame.opcode = .continuationFrame && v.previousDataFrame = .text)) =
      o.carriesText (hd.message part) := by
  have hopcode : (hd.message part).opcode = hd.opcode := rfl
  rw [h.frame.opcode, h.previous, Ongoing.carriesText, Ongoing.during, hopcode]
  by_cases hm : hd.opcode = .continuationFrame
  · simp [hm]
  · simp [hm]

theorem validCloseCode_iff {s : Str} (hs : s.length = 2) :
    validCloseCode (readNumberFromBigEndianBytes 16 s) = true ↔ ValidCloseCode (bigEndianValue s) := by
  have hn : (readNumberFromBigEndianBytes 16 s).toNat = bigEndianValue s :=
    readNumberFromBigEndianBytes_toNat (by omega)
  rw [ValidCloseCode, ← hn, validCloseCode]
  simp only [Bool.not_eq_true', Bool.or_eq_false_iff, Bool.and_eq_false_iff, decide_eq_false_iff_not, BitVec.lt_def,
    ← BitVec.toNat_inj, BitVec.reduceToNat]
  omega

def Judged (o : Ongoing) (hd : FrameHeader) (part : Str) (v : Validator) : Prop :=
  v.validationState = .payloadPartIsValid ∧ v.Inside o hd part ∧ Acceptable o (hd.message part) ∨
    (v.validationState = .incorrectUtf8Data ∨ v.validationState = .invalidCloseCode) ∧ ¬ Acceptable o (hd.message part)

theorem Inside.judged_checkUtf8 {part : Str} (h : v.Inside o hd part) (ha : Acceptable o (hd.message part))
    (hs : v.validationState = .payloadPartIsValid) {byte : UInt8}
    (hchecked : o.checked (hd.message (part ++ [byte])) = o.checked (hd.message part) ++ [byte])
    (hclose : hd.opcode = .connectionCloseFrame → 2 ≤ part.length) :
    Judged o hd (part ++ [byte])
      (({ v with
        unmaskFlag := true
        unmasker := ⟨readNumberFromBigEndianBytes 32 (List.ofFn hd.maskingKey), part.length + 1⟩ } :
          Validator).checkUtf8 byte) := by
  have hlength : (part ++ [byte]).length = part.length + 1 := List.length_append
  have htake : hd.opcode = .connectionCloseFrame → (part ++ [byte]).take 2 = part.take 2 := fun hc =>
    List.take_append_of_le_length (hclose hc)
  cases hok : (v.utf8Checker.processByte byte).1 with
  | true =>
    refine .inl ⟨?_, ⟨?_, h.working, h.frame, h.previous, rfl, ?_, fun hc => ?_, ?_⟩, ?_, fun hc _ => ?_⟩
    · simp only [checkUtf8, hok, if_true, hs]
    · simp only [checkUtf8, hok, if_true, hs]
      rfl
    · rw [hlength]
      rfl
    · rw [htake hc]
      exact h.code hc
    · rw [hchecked]
      exact h.checker.processByte hok
    · rw [hchecked]
      exact (h.checker.processByte_iff byte).mp hok
    · rw [show (hd.message (part ++ [byte])).payload.take 2 = part.take 2 from htake hc]
      exact ha.code hc (hclose hc)
  | false =>
    refine .inr ⟨.inl ?_, fun hbad => ?_⟩
    · simp only [checkUtf8, hok, Bool.false_eq_true, if_false]
    · have htext := hbad.text
      rw [hchecked, ← h.checker.processByte_iff byte, hok] at htext
      cases htext

theorem Inside.judged_kept {part : Str} (h : v.Inside o hd part) (ha : Acceptable o (hd.message part))
    (hs : v.validationState = .payloadPartIsValid) {byte : UInt8} {expected : ExpectedData}
    (hchecked : o.checked (hd.message (part ++ [byte])) = o.checked (hd.message part))
    (hcode : hd.opcode = .connectionCloseFrame → expected = ⟨2, (part ++ [byte]).take 2⟩ ∧
      (2 ≤ (part ++ [byte]).length → ValidCloseCode (bigEndianValue ((part ++ [byte]).take 2)))) :
    Judged o hd (part ++ [byte])
      { v with
        unmaskFlag := true
        unmasker := ⟨readNumberFromBigEndianBytes 32 (List.ofFn hd.maskingKey), part.length + 1⟩
        expectedCloseCode := expected } := by
  refine .inl ⟨hs, ⟨h.state, h.working, h.frame, h.previous, rfl, ?_, fun hc => (hcode hc).1, ?_⟩, ?_,
    fun hc => (hcode hc).2⟩
  · rw [List.length_append, List.length_singleton]
  · rw [hchecked]
    exact h.checker
  · rw [hchecked]
    exact ha.text

theorem Inside.judged_code {part : Str} (h : v.Inside o hd part) (ha : Acceptable o (hd.message part))
    (hs : v.validationState = .payloadPartIsValid) {byte : UInt8} (hclose : hd.opcode = .connectionCloseFrame)
    (hlen : part.length < 2) (hchecked : o.checked (hd.message (part ++ [byte])) = o.checked (hd.message part))
    {w : Validator} (hw : w = { v with
      unmaskFlag := true
      unmasker := ⟨readNumberFromBigEndianBytes 32 (List.ofFn hd.maskingKey), part.length + 1⟩
      expectedCloseCode := ⟨2, part ++ [byte]⟩ }) :
    Judged o hd (part ++ [byte])
      (if decide (part.length + 1 = 2) && !validCloseCode (readNumberFromBigEndianBytes 16 (part ++ [byte])) then
        { w with validationState := .invalidCloseCode }
      else w) := by
  have hlength : (part ++ [byte]).length = part.length + 1 := List.length_append
  have htake : (part ++ [byte]).take 2 = part ++ [byte] := List.take_of_length_le (by omega)
  by_cases htwo : part.length + 1 = 2
  · have hcode := validCloseCode_iff (hlength.trans htwo)
    rw [decide_eq_true htwo, Bool.true_and]
    cases hok : validCloseCode (readNumberFromBigEndianBytes 16 (part ++ [byte])) with
    | true =>
      rw [hok] at hcode
      subst hw
      exact h.judged_kept ha hs hchecked fun _ => ⟨by rw [htake], fun _ => htake.symm ▸ hcode.mp rfl⟩
    | false =>
      refine .inr ⟨.inr rfl, fun hbad => ?_⟩
      have hvalid : ValidCloseCode (bigEndianValue ((part ++ [byte]).take 2)) :=
        hbad.code hclose (Nat.le_of_eq (hlength.trans htwo).symm)
      rw [htake, ← hcode, hok] at hvalid
      cases hvalid
  · rw [decide_eq_false htwo, Bool.false_and]
    subst hw
    exact h.judged_kept ha hs hchecked fun _ => ⟨by rw [htake], fun hle => absurd hle (by omega)⟩

theorem Inside.processPayloadByte {part : Str} (h : v.Inside o hd part) (ha : Acceptable o (hd.message part))
    (hs : v.validationState = .payloadPartIsValid) (byte : UInt8) :
    ∃ v', v.processPayloadByte (byte ^^^ hd.maskingKey (Fin.ofNat 4 part.length)) = .ok (byte, v') ∧
      Judged o hd (part ++ [byte]) v' := by
  have hchecked := checked_append o hd part [byte]
  simp only [Validator.processPayloadByte, h.unmask, if_true, h.unmasker, unmaskByte_mask]
  rw [h.carriesText]
  by_cases htext : o.carriesText (hd.message part) = true
  · rw [if_pos htext] at hchecked
    have hclose : hd.opcode = .connectionCloseFrame → 2 ≤ part.length := by
      intro hc
      simp [Ongoing.carriesText, FrameHeader.message, hc] at htext
    rw [if_pos htext]
    exact ⟨_, rfl, h.judged_checkUtf8 ha hs hchecked hclose⟩
  rw [if_neg htext] at hchecked ⊢
  rw [h.frame.opcode]
  by_cases hclose : hd.opcode = .connectionCloseFrame
  · rw [if_pos hclose] at hchecked ⊢
    have hexpected := h.code hclose
    by_cases hlen : 2 ≤ part.length
    · rw [show 2 - part.length = 0 by omega, List.drop_zero] at hchecked
      have hloaded : v.expectedCloseCode.allBytesLoaded = true := by
        rw [hexpected]
        exact decide_eq_true (List.length_take_of_le hlen)
      simp only [hloaded, Bool.not_true, Bool.false_eq_true, if_false]
      exact ⟨_, rfl, h.judged_checkUtf8 ha hs hchecked fun _ => hlen⟩
    · rw [List.drop_eq_nil_of_le (by rw [List.length_singleton]; omega), List.append_nil] at hchecked
      rw [List.take_of_length_le (by omega)] at hexpected
      have hloaded : v.expectedCloseCode.allBytesLoaded = false := by
        rw [hexpected]
        exact decide_eq_false (by show ¬ part.length = 2; omega)
      have hadd : v.expectedCloseCode.addByteAndCheckSize byte =
          .ok (decide (part.length + 1 = 2), ⟨2, part ++ [byte]⟩) := by
        rw [hexpected]
        exact ExpectedData.addByteAndCheckSize_eq (show part.length < 2 by omega) byte
      simp only [hloaded, Bool.not_false, if_true, hadd]
      exact ⟨_, (apply_ite (fun w => Except.ok (byte, w)) _ _ _).symm,
        h.judged_code ha hs hclose (by omega) hchecked rfl⟩
  · rw [if_neg hclose, List.append_nil] at hchecked
    rw [if_neg hclose]
    exact ⟨_, rfl, h.judged_kept ha hs hchecked fun hc => absurd hc hclose⟩

theorem Inside.processBytes {part : Str} (h : v.Inside o hd part) (ha : Acceptable o (hd.message part))
    (hs : v.validationState = .payloadPartIsValid) (data : Str) :
    ∃ out v', v.processBytes (mask hd.maskingKey part.length data) = .ok (out, v') ∧ Judged o hd (part ++ data) v' ∧
      (v'.validationState = .payloadPartIsValid → out = data) := by
  induction data generalizing part v with
  | nil => exact ⟨[], v, rfl, .inl ⟨hs, by rwa [List.append_nil], by rwa [List.append_nil]⟩, fun _ => rfl⟩
  | cons byte data ih =>
    obtain ⟨v₁, hv₁, hj⟩ := h.processPayloadByte ha hs byte
    have hsplit : part ++ byte :: data = part ++ [byte] ++ data := List.append_cons part byte data
    rw [mask, Validator.processBytes, hv₁]
    show ∃ out v', (if v₁.validationState ≠ .payloadPartIsValid then _ else _) = _ ∧ _
    rcases hj with ⟨hs₁, h₁, ha₁⟩ | ⟨hs₁, hbad⟩
    · rw [if_neg (not_not.mpr hs₁)]
      obtain ⟨out, v', hrun, hj', hout⟩ := ih h₁ ha₁ hs₁
      rw [List.length_append, List.length_singleton] at hrun
      rw [hrun, hsplit]
      exact ⟨byte :: out, v', rfl, hj', fun hv => congrArg _ (hout hv)⟩
    · have hne : v₁.validationState ≠ .payloadPartIsValid := by
        rcases hs₁ with hs₁ | hs₁ <;> rw [hs₁] <;> decide
      rw [if_pos hne, hsplit]
      exact ⟨_, v₁, rfl, .inr ⟨hs₁, fun hgood => hbad hgood.of_append⟩, fun hv => absurd hv hne⟩

theorem Inside.processPart {part : Str} (h : v.Inside o hd part) (ha : Acceptable o (hd.message part)) (data : Str) :
    ∃ out v', v.processAndUnmaskNextPayloadPart (mask hd.maskingKey part.length data) =
        .ok (v'.validationState, out, v') ∧ Judged o hd (part ++ data) v' ∧
      (v'.validationState = .payloadPartIsValid → out = data) := by
  have hv : ({ v with validationState := .payloadPartIsValid } : Validator).Inside o hd part :=
    ⟨rfl, h.working, h.frame, h.previous, h.unmask, h.unmasker, h.code, h.checker⟩
  obtain ⟨out, v', hrun, hj⟩ := hv.processBytes ha rfl data
  refine ⟨out, v', ?_, hj⟩
  rw [processAndUnmaskNextPayloadPart, if_neg (by rw [h.working]; decide), if_pos h.state, hrun]
  rfl

theorem Inside.finishFrame {part : Str} (h : v.Inside o hd part) (hv : hd.Valid o)
    (hu : hd.final = true → Utf8 (o.checked (hd.message part))) :
    v.finishFrame.1 = .frameIsValid ∧
      (hd.opcode ≠ .connectionCloseFrame → v.finishFrame.2.Between (o.next (hd.message part))) := by
  have hkind := (hv.message part).kind
  rw [← h.previous] at hkind
  have hprevious : v.finishFrame.2.previousDataFrame = (o.next (hd.message part)).kind := by
    rw [← hkind]
    simp only [Validator.finishFrame, h.frame.opcode, h.frame.finalFlag]
    rfl
  cases hf : hd.final with
  | false =>
    refine ⟨?_, fun _ => ⟨rfl, hprevious, h.unmask, ?_⟩⟩
    · simp only [Validator.finishFrame, h.state, if_true, h.frame.finalFlag, hf, Bool.false_and, Bool.false_eq_true,
        if_false]
    · rw [(hv.message part).unfinished hf]
      simp only [Validator.finishFrame, h.frame.finalFlag, hf, Bool.false_eq_true, if_false]
      exact h.checker
  | true =>
    have hfinalized : v.utf8Checker.finalized = true := h.checker.finalized_iff.mpr (hu hf)
    have hcomplete := h.checker.complete hfinalized
    refine ⟨?_, fun hclose => ⟨rfl, hprevious, h.unmask, ?_⟩⟩
    · simp only [Validator.finishFrame, h.state, if_true, h.frame.finalFlag, hf, hfinalized, Bool.not_true,
        Bool.and_false, Bool.false_eq_true, if_false]
    · simp only [Validator.finishFrame, h.frame.finalFlag, hf, if_true]
      rcases Fits.finished (o := o) (m := hd.message part) hf with hnext | ⟨hc, hnext⟩
      · rw [hnext]
        exact Utf8Checker.tracks_nil.mpr ⟨rfl, hcomplete.2⟩
      · have hchecker := h.checker
        rw [Fits.checked_control hc hclose] at hchecker
        rw [hnext]
        exact hchecker.reset hcomplete

theorem Inside.finishFrame_broken {part : Str} (h : v.Inside o hd part) (hf : hd.final = true)
    (hu : ¬ Utf8 (o.checked (hd.message part))) : v.finishFrame.1 = .incorrectUtf8Data := by
  have hopen : v.utf8Checker.finalized = false := Bool.eq_false_iff.mpr (mt h.checker.finalized_iff.mp hu)
  simp only [Validator.finishFrame, h.frame.finalFlag, hf, hopen, Bool.not_false, Bool.and_self, if_true]

end Validator

end NgkNet.Restinio.WebSocket
