import NgkNet.Restinio.Utf8Checker
import NgkNet.Restinio.WebSocket.Parser

set_option autoImplicit false

namespace NgkNet.Restinio.WebSocket

open Ascii

inductive ValidationState where
  | initialState
  | frameHeaderIsValid
  | payloadPartIsValid
  | frameIsValid
  | invalidOpcode
  | emptyMaskFromClientSide
  | nonFinalControlFrame
  | nonZeroRsvFlags
  | payloadLenIsTooBig
  | continuationFrameWithoutDataFrame
  | newDataFrameWithoutFinishingPrevious
  | invalidCloseCode
  | incorrectUtf8Data
  deriving DecidableEq

def ValidationState.isStillValid : ValidationState → Bool
  | .initialState => true
  | .frameHeaderIsValid => true
  | .payloadPartIsValid => true
  | .frameIsValid => true
  | _ => false

inductive WorkingState where
  | emptyState
  | processingFrame
  deriving DecidableEq

inductive PreviousDataFrame where
  | none
  | text
  | binary
  deriving DecidableEq

structure Unmasker where
  mask : BitVec 32
  processedBytesCount : ℕ
  deriving DecidableEq

def Unmasker.unmaskByte (byte : UInt8) (u : Unmasker) : UInt8 × Unmasker :=
  (byte ^^^ ⟨(u.mask >>> (24 - 8 * (u.processedBytesCount % 4))).setWidth 8⟩,
    { u with processedBytesCount := u.processedBytesCount + 1 })

structure Validator where
  validationState : ValidationState
  workingState : WorkingState
  previousDataFrame : PreviousDataFrame
  currentFrame : MessageDetails
  expectedCloseCode : ExpectedData
  utf8Checker : Utf8Checker
  unmaskFlag : Bool
  unmasker : Unmasker
  deriving DecidableEq

namespace Validator

def initial (doUnmask : Bool) : Validator :=
  ⟨.initialState, .emptyState, .none, .initial, .reset 0, .initial, doUnmask, ⟨0, 0⟩⟩

def validateFrameHeader (frame : MessageDetails) : ValidationState :=
  if !frame.opcode.isValid then .invalidOpcode
  else if frame.opcode.isControlFrame && !frame.finalFlag then .nonFinalControlFrame
  else if !frame.maskFlag then .emptyMaskFromClientSide
  else if frame.rsv1Flag || frame.rsv2Flag || frame.rsv3Flag then .nonZeroRsvFlags
  else if frame.opcode.isControlFrame && maxPayloadSizeWithoutExt < frame.payloadLen then .payloadLenIsTooBig
  else .frameHeaderIsValid

def checkPreviousFrameType (opcode : Opcode) (previous : PreviousDataFrame) : ValidationState :=
  if previous = .none && opcode = .continuationFrame then .continuationFrameWithoutDataFrame
  else if previous ≠ .none && opcode.isDataFrame then .newDataFrameWithoutFinishingPrevious
  else .frameHeaderIsValid

def acceptFrame (frame : MessageDetails) (v : Validator) : Validator :=
  { v with
    validationState := .frameHeaderIsValid
    previousDataFrame :=
      if frame.opcode = .textFrame && !frame.finalFlag then .text
      else if frame.opcode = .binaryFrame && !frame.finalFlag then .binary
      else v.previousDataFrame
    expectedCloseCode := if frame.opcode = .connectionCloseFrame then .reset 2 else v.expectedCloseCode
    currentFrame := frame
    workingState := .processingFrame
    unmasker := if v.unmaskFlag then ⟨frame.maskingKey, 0⟩ else v.unmasker }

def processNewFrame (frame : MessageDetails) (v : Validator) :
    Except WsException (ValidationState × Validator) :=
  if v.workingState ≠ .emptyState then .error .anotherFrameIsProcessing
  else
    let header := validateFrameHeader frame
    if header ≠ .frameHeaderIsValid then .ok (header, { v with validationState := header })
    else
      let order := checkPreviousFrameType frame.opcode v.previousDataFrame
      if order ≠ .frameHeaderIsValid then .ok (order, { v with validationState := order })
      else .ok (.frameHeaderIsValid, v.acceptFrame frame)

def validCloseCode (code : BitVec 16) : Bool :=
  !(code < 1000 || (1011 < code && code < 3000) || 4999 < code || code = 1004 || code = 1005 || code = 1006)

def checkUtf8 (byte : UInt8) (v : Validator) : Validator :=
  let (ok, checker) := v.utf8Checker.processByte byte
  { v with
    utf8Checker := checker
    validationState := if ok then v.validationState else .incorrectUtf8Data }

def processPayloadByte (byte : UInt8) (v : Validator) : Except WsException (UInt8 × Validator) :=
  let (byte, v) :=
    if v.unmaskFlag then
      let (byte, unmasker) := v.unmasker.unmaskByte byte
      (byte, { v with unmasker := unmasker })
    else (byte, v)
  if v.currentFrame.opcode = .textFrame ||
      (v.currentFrame.opcode = .continuationFrame && v.previousDataFrame = .text) then
    .ok (byte, v.checkUtf8 byte)
  else if v.currentFrame.opcode = .connectionCloseFrame then
    if !v.expectedCloseCode.allBytesLoaded then do
      let (loaded, expected) ← v.expectedCloseCode.addByteAndCheckSize byte
      let v := { v with expectedCloseCode := expected }
      if loaded && !validCloseCode (readNumberFromBigEndianBytes 16 expected.loadedData) then
        .ok (byte, { v with validationState := .invalidCloseCode })
      else .ok (byte, v)
    else .ok (byte, v.checkUtf8 byte)
  else .ok (byte, v)

def processBytes (v : Validator) : Str → Except WsException (Str × Validator)
  -- The bytes behind the first invalid one are left as they are.
  | [] => .ok ([], v)
  | byte :: data => do
    let (byte, v) ← v.processPayloadByte byte
    if v.validationState ≠ .payloadPartIsValid then .ok (byte :: data, v)
    else
      let (data, v) ← processBytes v data
      .ok (byte :: data, v)

def processAndUnmaskNextPayloadPart (data : Str) (v : Validator) :
    Except WsException (ValidationState × Str × Validator) :=
  if v.workingState = .emptyState then .error .currentStateIsEmpty
  else if v.validationState.isStillValid then do
    let (data, v) ← processBytes { v with validationState := .payloadPartIsValid } data
    .ok (v.validationState, data, v)
  else .ok (v.validationState, data, v)

def finishFrame (v : Validator) : ValidationState × Validator :=
  let state := if v.validationState.isStillValid then .frameIsValid else v.validationState
  let state := if v.currentFrame.finalFlag && !v.utf8Checker.finalized then .incorrectUtf8Data else state
  (state,
    { v with
      validationState := .initialState
      workingState := .emptyState
      utf8Checker := if v.currentFrame.finalFlag then v.utf8Checker.reset else v.utf8Checker
      previousDataFrame :=
        if v.previousDataFrame ≠ .none && !v.currentFrame.opcode.isControlFrame && v.currentFrame.finalFlag
        then .none else v.previousDataFrame })

def reset (v : Validator) : Validator :=
  { v with
    validationState := .initialState
    workingState := .emptyState
    previousDataFrame := .none
    utf8Checker := v.utf8Checker.reset }

end Validator

end NgkNet.Restinio.WebSocket
