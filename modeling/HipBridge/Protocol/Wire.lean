import HipBridge.Lib.Rust

/-!
# The wire protocol (`hip-bridge/protocol`)

A frame is a tag byte, a 32-bit little-endian body length and the body; a stream is the list
of bytes not read yet.

* **`Request`**, **`Response`** — what the two sides exchange.
* **`Request.writeTo`**, **`Response.writeTo`** — the bytes handed to the socket. The length
  field is the body length `as u32`, whatever the body length.
* **`Request.readFrom`**, **`Response.readFrom`** — one frame off the front of a stream: the
  value and the bytes left over, an `io::Error`, or a panic.
-/

namespace HipBridge.Protocol

open Lib

/-- An entry of a launch's fixup table: byte offset within the arguments, handle, and offset
within that allocation. -/
abbrev Fixup := UInt32 × UInt64 × UInt64

inductive Request
  | deviceCount
  | setDevice (device : Int32)
  | malloc (size : UInt64)
  | free (handle : UInt64)
  | memcpyH2D (handle offset : UInt64) (data : List UInt8)
  | memcpyD2H (handle offset len : UInt64)
  | getDeviceProperties (device : Int32)
  | loadModule (data : List UInt8)
  | getFunction (module : UInt64) (name : String)
  | launchKernel (function : UInt64) (grid block : UInt32 × UInt32 × UInt32) (sharedMem : UInt32)
      (fixups : List Fixup) (args : List UInt8)
deriving DecidableEq

inductive Response
  | ok (body : List UInt8)
  | err (msg : String)
deriving DecidableEq

/-! ## Writing -/

def Request.opcode : Request → UInt8
  | .deviceCount => 1
  | .setDevice .. => 2
  | .malloc .. => 3
  | .free .. => 4
  | .memcpyH2D .. => 5
  | .memcpyD2H .. => 6
  | .getDeviceProperties .. => 7
  | .loadModule .. => 8
  | .getFunction .. => 9
  | .launchKernel .. => 10

/-- A fixup as the 20 bytes of its table entry. -/
def encodeFixup (fixup : Fixup) : List UInt8 :=
  u32ToLe fixup.1 ++ (u64ToLe fixup.2.1 ++ u64ToLe fixup.2.2)

def Request.encodeBody : Request → List UInt8
  | .deviceCount => []
  | .setDevice device => i32ToLe device
  | .malloc size => u64ToLe size
  | .free handle => u64ToLe handle
  | .memcpyH2D handle offset data =>
    u64ToLe handle ++ (u64ToLe offset ++ (u64ToLe (UInt64.ofNat data.length) ++ data))
  | .memcpyD2H handle offset len => u64ToLe handle ++ (u64ToLe offset ++ u64ToLe len)
  | .getDeviceProperties device => i32ToLe device
  | .loadModule data => data
  | .getFunction module name => u64ToLe module ++ utf8Bytes name
  | .launchKernel function grid block sharedMem fixups args =>
    u64ToLe function ++
      (u32ToLe grid.1 ++ (u32ToLe grid.2.1 ++ (u32ToLe grid.2.2 ++
      (u32ToLe block.1 ++ (u32ToLe block.2.1 ++ (u32ToLe block.2.2 ++
      (u32ToLe sharedMem ++ (u32ToLe (UInt32.ofNat fixups.length) ++
      (fixups.flatMap encodeFixup ++ args)))))))))

/-- A frame: tag, length of the body `as u32`, body. -/
def frame (tag : UInt8) (body : List UInt8) : List UInt8 :=
  tag :: (u32ToLe (UInt32.ofNat body.length) ++ body)

def Request.writeTo (r : Request) : List UInt8 := frame r.opcode r.encodeBody

/-- The status byte of a response. -/
def Response.status : Response → UInt8
  | .ok _ => 0
  | .err _ => 1

/-- The body bytes of a response. -/
def Response.encodeBody : Response → List UInt8
  | .ok body => body
  | .err msg => utf8Bytes msg

def Response.okEmpty : Response := .ok []

def Response.writeTo (s : Response) : List UInt8 := frame s.status s.encodeBody

def Response.intoResult : Response → Except String (List UInt8)
  | .ok body => .ok body
  | .err msg => .error msg

/-! ## Reading -/

def maxBodyLen : Nat := 256 * 1024 * 1024

/-- `read_framed_body`. For a body, which is within the cap before it is asked for, the allocator
is taken to have room. -/
def readFramedBody (s : List UInt8) : Io (List UInt8 × List UInt8) := do
  let (lenBuf, s) ← readExact 4 s
  let len := (u32FromLe lenBuf).toNat
  if maxBodyLen < len then
    invalidData ("frame body length " ++ toString len ++ " exceeds sanity cap " ++
      toString maxBodyLen)
  else
    allocVec roomy 1 len
    readExact len s

/-- The fixup loop of `Request::read_from`, `n` entries from `cursor` on. -/
def readFixups (body : List UInt8) : (n cursor : Nat) → Io (List Fixup)
  | 0, _ => .ok []
  | n + 1, cursor => do
    let off ← u32At body cursor
    let handle ← u64At body (cursor + 4)
    let intra ← u64At body (cursor + 12)
    let fixups ← readFixups body n (cursor + 20)
    return (off, handle, intra) :: fixups

/-- `bad("fixup count overflow")` where a checked operation returned `None`. -/
def orOverflow : Option Nat → Io Nat
  | some n => .ok n
  | none => invalidData "fixup count overflow"

/-- The `match` of `Request::read_from`: what the body of an opcode spells. -/
def decodeBody (opcode : UInt8) (body : List UInt8) : Io Request :=
  match opcode with
  | 1 => .ok .deviceCount
  | 2 =>
    if body.length ≠ 4 then invalidData "SetDevice body must be 4 bytes"
    else do return .setDevice (← i32At body 0)
  | 3 =>
    if body.length ≠ 8 then invalidData "Malloc body must be 8 bytes"
    else do return .malloc (← u64At body 0)
  | 4 =>
    if body.length ≠ 8 then invalidData "Free body must be 8 bytes"
    else do return .free (← u64At body 0)
  | 5 =>
    if body.length < 24 then invalidData "MemcpyH2D body too short"
    else do
      let handle ← u64At body 0
      let offset ← u64At body 8
      let dataLen := (← u64At body 16).toNat
      let expected ← usizeAdd 24 dataLen
      if body.length ≠ expected then
        invalidData "MemcpyH2D declared length does not match body size"
      else
        return .memcpyH2D handle offset (body.drop 24)
  | 6 =>
    if body.length ≠ 24 then invalidData "MemcpyD2H body must be 24 bytes"
    else do return .memcpyD2H (← u64At body 0) (← u64At body 8) (← u64At body 16)
  | 7 =>
    if body.length ≠ 4 then invalidData "GetDeviceProperties body must be 4 bytes"
    else do return .getDeviceProperties (← i32At body 0)
  | 8 => .ok (.loadModule body)
  | 9 =>
    if body.length < 8 then invalidData "GetFunction body too short"
    else do
      let module ← u64At body 0
      match fromUtf8? (body.drop 8) with
      | some name => return .getFunction module name
      | none => invalidData "GetFunction name is not valid UTF-8"
  | 10 =>
    if body.length < 40 then invalidData "LaunchKernel body too short"
    else do
      let function ← u64At body 0
      let gx ← u32At body 8
      let gy ← u32At body 12
      let gz ← u32At body 16
      let bx ← u32At body 20
      let bY ← u32At body 24
      let bz ← u32At body 28
      let sharedMem ← u32At body 32
      let numFixups := (← u32At body 36).toNat
      let tableLen ← orOverflow (checkedMul numFixups 20)
      let fixupsEnd ← orOverflow (checkedAdd 40 tableLen)
      if body.length < fixupsEnd then
        invalidData "LaunchKernel body too short for declared fixup count"
      else
        -- the table stands in a body within the cap, and so there is room for it as well
        allocVec roomy 24 numFixups
        let fixups ← readFixups body numFixups 40
        return .launchKernel function (gx, gy, gz) (bx, bY, bz) sharedMem fixups
          (body.drop fixupsEnd)
  | other => invalidData ("unknown opcode " ++ toString other.toNat)

def Request.readFrom (s : List UInt8) : Io (Request × List UInt8) := do
  let (opcodeBuf, s) ← readExact 1 s
  let (body, s) ← readFramedBody s
  let request ← decodeBody (opcodeBuf.headD 0) body
  return (request, s)

/-- The `match` of `Response::read_from`. -/
def decodeResponse (status : UInt8) (body : List UInt8) : Io Response :=
  match status with
  | 0 => .ok (.ok body)
  | 1 => .ok (.err (fromUtf8Lossy body))
  | other => invalidData ("unknown response status byte " ++ toString other.toNat)

def Response.readFrom (s : List UInt8) : Io (Response × List UInt8) := do
  let (status, s) ← readExact 1 s
  let (body, s) ← readFramedBody s
  let response ← decodeResponse (status.headD 0) body
  return (response, s)

/-- `Request::read_from` until the stream is at its end; `fuel` bounds the number of requests. -/
def readRequests : (fuel : Nat) → List UInt8 → Io (List Request)
  | _, [] => .ok []
  | 0, _ :: _ => .error (.io ⟨.other, "more requests"⟩)
  | fuel + 1, b :: s => do
    let (request, rest) ← Request.readFrom (b :: s)
    let requests ← readRequests fuel rest
    return request :: requests

end HipBridge.Protocol
