import NgkNet.Restinio.Base64
import NgkNet.Restinio.Http.Messages
import NgkNet.Restinio.Sha1

set_option autoImplicit false

namespace NgkNet.Restinio.WebSocket

open Ascii Reader Http

section Code

def websocketAcceptFieldSuffix : Str := ascii "258EAFA5-E914-47DA-95CA-C5AB0DC85B11"

def secWebsocketAcceptFieldValue (key : Str) : Str :=
  Base64.encode (Sha1Builder.toString (Sha1Builder.makeDigest (key ++ websocketAcceptFieldSuffix)))

def statusSwitchingProtocols : StatusLine := ⟨101, ascii "Switching Protocols"⟩

def upgradeResponseWith (fields : HeaderFields) : Except Str Str :=
  if fields.hasField (ascii "Sec-WebSocket-Accept") then
    let fields :=
      if fields.hasField (ascii "Upgrade") then fields else fields.setFieldById (ascii "Upgrade") (ascii "websocket")
    .ok (createHeaderString { ResponseHeader.ofStatusLine statusSwitchingProtocols .upgrade with fields := fields }
      .skipContentLength)
  else .error (ascii "Sec-WebSocket-Accept field is mandatory for upgrade response")

def upgradeResponse (key : Str) : Except Str Str :=
  upgradeResponseWith
    (HeaderFields.setFieldById [] (ascii "Sec-WebSocket-Accept") (secWebsocketAcceptFieldValue key))

end Code

section Value

theorem secWebsocketAcceptFieldValue_eq {key : Str} (h : key.length % 64 ≠ 20) : secWebsocketAcceptFieldValue key =
    Base64.encode (Sha1.digest (key ++ websocketAcceptFieldSuffix)).bytes := by
  have hlength : (key ++ websocketAcceptFieldSuffix).length = key.length + 36 := List.length_append
  rw [secWebsocketAcceptFieldValue, Sha1Builder.toString_eq, Sha1Builder.state_makeDigest (by omega)]

theorem not_isOws_of_isBase64Char {c : UInt8} (h : Base64.isBase64Char c = true) : isOws c = false := by
  rw [isOws, Bool.or_eq_false_iff, decide_eq_false_iff_not, decide_eq_false_iff_not]
  constructor <;> rintro rfl <;> revert h <;> decide

theorem cleanField_accept (str : Str) : CleanField (ascii "Sec-WebSocket-Accept", Base64.encode str) := by
  have hchars := Base64.isBase64Char_encode str
  refine ⟨?_, ?_, ?_, ?_, ?_⟩
  iterate 3
    · dsimp only
      decide
  · intro hc
    exact absurd (hchars _ hc) (by decide)
  · exact strip_of_no_ows fun c hc => not_isOws_of_isBase64Char (hchars c hc)

end Value

section Results

/-- What the standard asks of the answer to a key. -/
def handshake (key : Str) : Http.Message :=
  ⟨1, 1, statusSwitchingProtocols,
    [(ascii "Connection", ascii "Upgrade"),
      (ascii "Sec-WebSocket-Accept", Base64.encode (Sha1.digest (key ++ websocketAcceptFieldSuffix)).bytes),
      (ascii "Upgrade", ascii "websocket")], []⟩

def upgradeHeader (value : Str) : ResponseHeader :=
  ⟨1, 1, 0, .upgrade, statusSwitchingProtocols,
    [(ascii "Sec-WebSocket-Accept", value), (ascii "Upgrade", ascii "websocket")]⟩

theorem upgradeResponse_eq (key : Str) : upgradeResponse key =
    .ok (createHeaderString (upgradeHeader (secWebsocketAcceptFieldValue key)) .skipContentLength) := rfl

theorem clean_upgradeHeader (str : Str) : (upgradeHeader (Base64.encode str)).Clean where
  major := show 1 < 10 by decide
  minor := show 1 < 10 by decide
  code := show 101 < 1000 by decide
  reason := show code '\r' ∉ ascii "Switching Protocols" by decide
  fields := by
    rw [upgradeHeader, List.forall_mem_cons, List.forall_mem_singleton]
    exact ⟨cleanField_accept str, by decide⟩

theorem upgradeResponse_reads {key : Str} (h : key.length % 64 ≠ 20) :
    ∃ text, upgradeResponse key = .ok text ∧ Reads readMessage text (handshake key) := by
  refine ⟨_, upgradeResponse_eq key, ?_⟩
  rw [secWebsocketAcceptFieldValue_eq h]
  apply reads_last (reads_readHeader (clean_upgradeHeader _) .skipContentLength)
  apply reads_last (reads_ofOption (if_pos (show bodyless 101 by decide)))
  apply reads_last (reads_pure _)
  apply reads_pure

end Results

end NgkNet.Restinio.WebSocket
