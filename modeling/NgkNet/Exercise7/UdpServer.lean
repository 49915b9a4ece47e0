import NgkNet.Base.CString

set_option autoImplicit false

namespace NgkNet.Exercise7

open Bytes CString

inductive Reply where
  | uptime (sent : Option (List UInt8))
  | loadavg (sent : Option (List UInt8))
  | unknownCommand (sent : List UInt8)
  deriving DecidableEq

structure Proc where
  uptime : List UInt8
  loadavg : List UInt8

def sendProc (content buf : List UInt8) : List UInt8 × Option (List UInt8) :=
  -- `fread` of a `/proc` file into `buf`, then `sendto` of `strlen(buf)` bytes; there is no reply to speak of when
  -- `strlen` runs off the array.
  let buf := overwrite buf (content.take 1024)
  (buf, (strlen buf).map (fun n => buf.take n))

def sendU (proc : Proc) (buf : List UInt8) : List UInt8 × Reply :=
  ((sendProc proc.uptime buf).1, .uptime (sendProc proc.uptime buf).2)

def sendL (proc : Proc) (buf : List UInt8) : List UInt8 × Reply :=
  ((sendProc proc.loadavg buf).1, .loadavg (sendProc proc.loadavg buf).2)

def unknownCommand : List UInt8 :=
  [85, 110, 107, 110, 111, 119, 110, 32, 99, 111, 109, 109, 97, 110, 100, 46, 0]

def sendElse (behind : List UInt8) : Reply := .unknownCommand ((unknownCommand ++ behind).take 40)

def isU (c : UInt8) : Bool := c = 85 || c = 117

def isL (c : UInt8) : Bool := c = 76 || c = 108

def getUL (behind : List UInt8) (datagram : List UInt8) (proc : Proc) (buf : List UInt8) :
    List UInt8 × Reply :=
  let buf := overwrite buf (datagram.take 1024)
  if isU (buf.headD 0) then sendU proc buf
  else if isL (buf.headD 0) then sendL proc buf
  else (buf, sendElse behind)

def replies (behind : List UInt8) : List (List UInt8 × Proc) → List UInt8 → List Reply
  | [], _ => []
  | (datagram, proc) :: rest, buf =>
    let next := getUL behind datagram proc buf
    next.2 :: replies behind rest next.1

def initialBuf : List UInt8 := List.replicate 1024 0

end NgkNet.Exercise7
