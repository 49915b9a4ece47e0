import Mathlib.Tactic.Common
import NgkNet.Base.Ascii

set_option autoImplicit false

namespace NgkNet.Restinio.WebSocket

open Ascii

inductive Opcode where
  | continuationFrame
  | textFrame
  | binaryFrame
  | connectionCloseFrame
  | pingFrame
  | pongFrame
  | other (code : UInt8)
  deriving DecidableEq

namespace Opcode

def ofCode (code : UInt8) : Opcode :=
  if code = 0x00 then .continuationFrame
  else if code = 0x01 then .textFrame
  else if code = 0x02 then .binaryFrame
  else if code = 0x08 then .connectionCloseFrame
  else if code = 0x09 then .pingFrame
  else if code = 0x0A then .pongFrame
  else .other code

def toCode : Opcode → UInt8
  | .continuationFrame => 0x00
  | .textFrame => 0x01
  | .binaryFrame => 0x02
  | .connectionCloseFrame => 0x08
  | .pingFrame => 0x09
  | .pongFrame => 0x0A
  | .other code => code

def isValid : Opcode → Bool
  | .other _ => false
  | _ => true

def isControlFrame (opcode : Opcode) : Bool :=
  opcode = .connectionCloseFrame || opcode = .pingFrame || opcode = .pongFrame

def isDataFrame (opcode : Opcode) : Bool := opcode = .textFrame || opcode = .binaryFrame

end Opcode

inductive WsException where
  | cannotAddByte
  | anotherFrameIsProcessing
  | currentStateIsEmpty
  | lengthError
  deriving DecidableEq

def maxPayloadSizeWithoutExt : ℕ := 125

def shortExtLenCode : UInt8 := 126

def longExtLenCode : UInt8 := 127

structure MessageDetails where
  finalFlag : Bool
  rsv1Flag : Bool
  rsv2Flag : Bool
  rsv3Flag : Bool
  opcode : Opcode
  maskFlag : Bool
  payloadLenCode : UInt8
  extPayloadLen : BitVec 64
  maskingKey : BitVec 32
  deriving DecidableEq

namespace MessageDetails

def initial : MessageDetails := ⟨true, false, false, false, .continuationFrame, false, 0, 0, 0⟩

def make (finalFlag : Bool) (opcode : Opcode) (payloadLen : ℕ) : MessageDetails :=
  if maxPayloadSizeWithoutExt < payloadLen then
    { initial with
      finalFlag := finalFlag
      opcode := opcode
      payloadLenCode := if 0xFFFF < payloadLen then longExtLenCode else shortExtLenCode
      extPayloadLen := BitVec.ofNat 64 payloadLen }
  else
    { initial with
      finalFlag := finalFlag
      opcode := opcode
      payloadLenCode := UInt8.ofNat payloadLen }

def payloadLen (m : MessageDetails) : ℕ :=
  if maxPayloadSizeWithoutExt < m.payloadLenCode.toNat then m.extPayloadLen.toNat else m.payloadLenCode.toNat

end MessageDetails

structure ExpectedData where
  expectedSize : ℕ
  loadedData : Str
  deriving DecidableEq

namespace ExpectedData

def reset (size : ℕ) : ExpectedData := ⟨size, []⟩

def allBytesLoaded (d : ExpectedData) : Bool := d.loadedData.length = d.expectedSize

def addByteAndCheckSize (byte : UInt8) (d : ExpectedData) : Except WsException (Bool × ExpectedData) :=
  if d.allBytesLoaded then .error .cannotAddByte
  else
    let d := { d with loadedData := d.loadedData ++ [byte] }
    .ok (d.allBytesLoaded, d)

end ExpectedData

def readNumberFromBigEndianBytes (w : ℕ) (data : Str) : BitVec w :=
  data.foldl (fun number byte => number <<< 8 ||| byte.toBitVec.setWidth w) 0

def writeNumberToBigEndianBytes (bytes : ℕ) (number : BitVec 64) : Str :=
  (List.range bytes).map (fun i => ⟨(number >>> ((bytes - i - 1) * 8)).setWidth 8⟩)

inductive ParserState where
  | waitingForFirst2Bytes
  | waitingForExtLen
  | waitingForMaskKey
  | headerParsed
  deriving DecidableEq

structure Parser where
  expectedData : ExpectedData
  currentMsg : MessageDetails
  currentState : ParserState
  deriving DecidableEq

namespace Parser

def initial : Parser := ⟨.reset 2, .initial, .waitingForFirst2Bytes⟩

def headerParsed (p : Parser) : Bool := p.currentState = .headerParsed

def parseFirst2Bytes (data : Str) (m : MessageDetails) : MessageDetails :=
  let first := data.getD 0 0
  let second := data.getD 1 0
  { m with
    finalFlag := first &&& 0x80 ≠ 0
    rsv1Flag := first &&& 0x40 ≠ 0
    rsv2Flag := first &&& 0x20 ≠ 0
    rsv3Flag := first &&& 0x10 ≠ 0
    opcode := .ofCode (first &&& 0x0F)
    maskFlag := second &&& 0x80 ≠ 0
    payloadLenCode := second &&& 0x7F }

def processFirst2Bytes (p : Parser) : Parser :=
  let m := parseFirst2Bytes p.expectedData.loadedData p.currentMsg
  if maxPayloadSizeWithoutExt < m.payloadLenCode.toNat then
    ⟨.reset (if m.payloadLenCode = shortExtLenCode then 2 else 8), m, .waitingForExtLen⟩
  else if m.maskFlag then ⟨.reset 4, m, .waitingForMaskKey⟩
  else ⟨.reset m.payloadLenCode.toNat, m, .headerParsed⟩

def processExtendedLength (p : Parser) : Parser :=
  let m := { p.currentMsg with
    extPayloadLen := readNumberFromBigEndianBytes 64 p.expectedData.loadedData }
  if m.maskFlag then ⟨.reset 4, m, .waitingForMaskKey⟩
  else ⟨p.expectedData, m, .headerParsed⟩

def processMaskingKey (p : Parser) : Parser :=
  let m := if p.currentMsg.maskFlag then { p.currentMsg with
      maskingKey := readNumberFromBigEndianBytes 32 p.expectedData.loadedData }
    else p.currentMsg
  ⟨p.expectedData, m, .headerParsed⟩

def processByte (byte : UInt8) (p : Parser) : Except WsException Parser := do
  let (loaded, expected) ← p.expectedData.addByteAndCheckSize byte
  let p := { p with expectedData := expected }
  if loaded then
    match p.currentState with
    | .waitingForFirst2Bytes => .ok p.processFirst2Bytes
    | .waitingForExtLen => .ok p.processExtendedLength
    | .waitingForMaskKey => .ok p.processMaskingKey
    | .headerParsed => .ok p
  else .ok p

def parserExecute (p : Parser) : Str → Except WsException (Parser × Str)
  | [] => .ok (p, [])
  | byte :: data =>
    if p.headerParsed then .ok (p, byte :: data)
    else do
      let p ← p.processByte byte
      parserExecute p data

theorem parserExecute_length_le {p p' : Parser} {data rest : Str} (h : p.parserExecute data = .ok (p', rest)) :
    rest.length ≤ data.length := by
  induction data generalizing p with
  | nil =>
    obtain ⟨-, rfl⟩ := Prod.mk.inj (Except.ok.inj h)
    exact Nat.le_refl _
  | cons byte data ih =>
    rw [parserExecute] at h
    by_cases hp : p.headerParsed = true
    · rw [if_pos hp] at h
      obtain ⟨-, rfl⟩ := Prod.mk.inj (Except.ok.inj h)
      exact Nat.le_refl _
    · rw [if_neg hp] at h
      cases hb : p.processByte byte with
      | error e => simp [hb, bind, Except.bind] at h
      | ok q =>
        rw [hb] at h
        exact Nat.le_succ_of_le (ih h)

theorem parserExecute_length_lt {p p' : Parser} {data rest : Str} (hp : p.headerParsed = false) (h₀ : data ≠ [])
    (h : p.parserExecute data = .ok (p', rest)) : rest.length < data.length := by
  obtain ⟨byte, data, rfl⟩ := List.exists_cons_of_ne_nil h₀
  rw [parserExecute, hp, if_neg (by decide)] at h
  cases hb : p.processByte byte with
  | error e => simp [hb, bind, Except.bind] at h
  | ok q =>
    rw [hb] at h
    exact Nat.lt_succ_of_le (parserExecute_length_le h)

end Parser

def writeMessageDetails (m : MessageDetails) : Str :=
  let first := (if m.finalFlag then 0x80 else 0) ||| (if m.rsv1Flag then 0x40 else 0) |||
    (if m.rsv2Flag then 0x20 else 0) ||| (if m.rsv3Flag then 0x10 else 0) ||| (m.opcode.toCode &&& 0x0F)
  let second := (if m.maskFlag then 0x80 else 0) ||| m.payloadLenCode
  let extLen :=
    if m.payloadLenCode = shortExtLenCode then writeNumberToBigEndianBytes 2 m.extPayloadLen
    else if m.payloadLenCode = longExtLenCode then writeNumberToBigEndianBytes 8 m.extPayloadLen
    else []
  let key := if m.maskFlag then writeNumberToBigEndianBytes 4 (m.maskingKey.setWidth 64) else []
  [first, second] ++ extLen ++ key

end NgkNet.Restinio.WebSocket
