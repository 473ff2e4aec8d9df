import HipBridge.Bridge.Calls
import HipBridge.Daemon.ResponseSize
import HipBridge.Lib.FlatMemory
import HipBridge.Stub.AddressSpace
import HipBridge.Unixlib.PeShim

/-!
# The memory calls of `hip-stub`

* **`Session`** — the game's process and the daemon behind its connection, between two calls.
* **`callBridge`** — a round trip with nothing else going on: `callBridge_eq` says what it
  comes to when both frames are within the cap and the stub is `InStep`, and `run_callBridge`
  that the connection gets there step by step.
* **`hipMalloc`**, **`hipFree`**, **`memcpyForward`** — the exported calls, each followed by
  what it comes to in terms of the HIP call it makes.
-/

namespace HipBridge.Stub

open Lib Protocol Daemon
open Unixlib (hipSuccess hipErrorNotSupported hipErrorNoDevice)

def hipMemcpyHostToDevice : Int32 := 1

def hipMemcpyDeviceToHost : Int32 := 2

/-- The game's process (`ADDRESS_SPACE`, `LAST_ERROR`, its connection, and the memory its
pointers point into) and the daemon on the other end. -/
structure Session (D : Type) where
  space : AddressSpace
  lastError : Int32
  connected : Bool
  /-- What the daemon has sent and no call has read yet. -/
  unread : List UInt8
  host : FlatMemory
  daemon : DaemonState D

/-- Before the first call, with the connection up. -/
def Session.new {D : Type} (host : FlatMemory) (device : D) : Session D :=
  ⟨.new, hipSuccess, true, [], host, .new device⟩

/-- The connection is up, and nothing of an earlier response is left on it. -/
def Session.InStep {D : Type} (s : Session D) : Prop := s.connected = true ∧ s.unread = []

/-- A session over the same connection. -/
theorem Session.InStep.of_link {D : Type} {s s' : Session D} (h : s.InStep)
    (hconnected : s'.connected = s.connected) (hunread : s'.unread = s.unread) : s'.InStep :=
  ⟨hconnected.trans h.1, hunread.trans h.2⟩

variable {D : Type} (hip : HipLib D) (s : Session D)

/-- `set_last_error(code)`, as the last thing a call does. -/
def setLastError (code : Int32) : Int32 × Session D := (code, { s with lastError := code })

/-- `call_bridge` and the daemon's turn, with no other client and no failing read or write. The
stub reads on where the last call stopped: a response whose length field cuts it short leaves its
rest for the calls to come. The daemon drops the connection after a request it cannot read, and
when its process ends, and the stub is taken to notice at once, whatever is left to be read. Of a
request that its length field cuts down to one that can be read, as it does with a kernel name of
`2 ^ 32 - 8` bytes, the rest is dropped here; the steps of `Bridge.Connection` follow it too. -/
def callBridge (req : Request) : Except String (List UInt8) × Session D :=
  let lost (s : Session D) (e : IoError) : Except String (List UInt8) × Session D :=
    (.error ("read from hip-bridge-daemon failed: " ++ e.message), { s with connected := false })
  if s.connected then
    match Request.readFrom req.writeTo with
    | .error _ => lost s eofError
    | .ok (req, _) =>
      match handleRequest hip s.daemon req with
      | .error _ => lost s eofError
      | .ok (resp, daemon) =>
        let s := { s with daemon }
        match Response.readFrom (s.unread ++ resp.writeTo) with
        | .ok (resp, unread) => (resp.intoResult, { s with unread })
        | .error (.io e) => lost s e
        | .error _ => lost s eofError
  else (.error "hip-bridge-daemon not connected", s)

/-- `hipMalloc`: the code, what is written through `ptr` if it is not null, and the session
after the call. -/
def hipMalloc (ptrIsNull : Bool) (size : UInt64) : Int32 × Option Ptr × Session D :=
  let failed (s : Session D) : Int32 × Option Ptr × Session D :=
    let written := if ptrIsNull then none else some 0
    let (code, s) := setLastError s hipErrorNoDevice
    (code, written, s)
  match callBridge hip s (.malloc size) with
  | (.ok body, s) =>
    if body.length = 8 then
      let handle := u64FromLe body
      if ptrIsNull then (hipSuccess, none, s)
      else
        let (base, space) := s.space.allocate handle size
        (hipSuccess, some base, { s with space })
    else failed s
  | (.error _, s) => failed s

/-- `hipFree`. The range is gone before the daemon is asked. -/
def hipFree (ptr : Ptr) : Int32 × Session D :=
  if ptr = 0 then (hipSuccess, s)
  else
    match s.space.removeExact ptr with
    | (none, space) => setLastError { s with space } hipErrorNotSupported
    | (some handle, space) =>
      match callBridge hip { s with space } (.free handle) with
      | (.ok _, s) => (hipSuccess, s)
      | (.error _, s) => setLastError s hipErrorNotSupported

def memcpyForward (dst src : Ptr) (size : UInt64) (kind : Int32) : Int32 × Session D :=
  if kind = hipMemcpyHostToDevice then
    match s.space.resolve dst with
    | none => setLastError s hipErrorNotSupported
    | some (handle, offset) =>
      let data := s.host.slice src size.toNat
      match callBridge hip s (.memcpyH2D handle offset data) with
      | (.ok _, s) => (hipSuccess, s)
      | (.error _, s) => setLastError s hipErrorNotSupported
  else if kind = hipMemcpyDeviceToHost then
    match s.space.resolve src with
    | none => setLastError s hipErrorNotSupported
    | some (handle, offset) =>
      match callBridge hip s (.memcpyD2H handle offset size) with
      | (.ok data, s) =>
        if data.length = size.toNat then
          (hipSuccess, { s with host := s.host.overwrite dst data })
        else setLastError s hipErrorNotSupported
      | (.error _, s) => setLastError s hipErrorNotSupported
  else setLastError s hipErrorNotSupported

def hipMemcpy (dst src : Ptr) (size : UInt64) (kind : Int32) : Int32 × Session D :=
  memcpyForward hip s dst src size kind

/-- `hipMemcpyAsync`: executed synchronously, the stream is ignored. -/
def hipMemcpyAsync (dst src : Ptr) (size : UInt64) (kind : Int32) (_stream : Ptr) :
    Int32 × Session D :=
  memcpyForward hip s dst src size kind

/-! ## The round trip -/

section RoundTrip

variable {hip s} {req : Request} {resp : Response} {daemon : DaemonState D}

/-- A round trip whose frames are within the cap comes to serving the request. -/
theorem callBridge_eq (hstep : s.InStep) (hreq : req.encodeBody.length ≤ maxBodyLen)
    (hserve : handleRequest hip s.daemon req = .ok (resp, daemon))
    (hresp : resp.encodeBody.length ≤ maxBodyLen) :
    callBridge hip s req = (resp.intoResult, { s with daemon }) := by
  obtain ⟨hconnected, hunread⟩ := hstep
  have hread := req.readFrom_writeTo [] hreq
  have hanswer := resp.readFrom_writeTo [] hresp
  rw [List.append_nil] at hread hanswer
  simp only [callBridge, hconnected, if_true, hread, hserve, hunread, List.nil_append, hanswer]

/-- Whatever becomes of the response, a request within the cap is served. -/
theorem daemon_callBridge (hconn : s.connected = true) (hreq : req.encodeBody.length ≤ maxBodyLen)
    (hserve : handleRequest hip s.daemon req = .ok (resp, daemon)) :
    (callBridge hip s req).2.daemon = daemon := by
  have hread := req.readFrom_writeTo [] hreq
  rw [List.append_nil] at hread
  simp only [callBridge, hconn, hread, hserve, if_true]
  split <;> rfl

/-- The steps of the connection come to the same answer and the same daemon, and leave nothing
under way for the next call. -/
theorem run_callBridge {T : Type} {link : Bridge.Connection T D} (thread : T)
    (hconn : link.connected = true) (hidle : link.client = .idle)
    (hreading : link.daemonPhase = .reading []) (htoDaemon : link.toDaemon = [])
    (htoClient : link.toClient = []) (hsession : s.InStep) (hsame : s.daemon = link.daemon)
    (hreq : req.encodeBody.length ≤ maxBodyLen)
    (hserve : handleRequest hip s.daemon req = .ok (resp, daemon))
    (hresp : resp.encodeBody.length ≤ maxBodyLen) :
    ∃ acts, run (Bridge.step hip) link acts =
      { link with
        daemon := (callBridge hip s req).2.daemon
        calls := link.calls ++ [(thread, req)]
        returned := link.returned ++ [(thread, req, .answered (callBridge hip s req).1)]
        served := link.served ++ [(req, resp)]
        io := link.io ++ req.writeTo.map .wrote ++ resp.writeTo.map .read } := by
  rw [callBridge_eq hsession hreq hserve hresp]
  exact ⟨_, Bridge.run_answered thread hconn hidle hreading htoDaemon htoClient hreq
    (hsame ▸ hserve) hresp⟩

end RoundTrip

/-! ## What each call comes to -/

section Calls

variable {hip s} (hstep : s.InStep)
include hstep

/-- A message of the daemon about a HIP call that failed fits a frame. -/
theorem callBridge_failed {req : Request} {what : String} {rc : Int32} {daemon : DaemonState D}
    (htexts : ShortTexts hip) (hwhat : (utf8Bytes what).length ≤ 64)
    (hreq : req.encodeBody.length ≤ maxBodyLen)
    (hserve : handleRequest hip s.daemon req = .ok (.err (hip.failed what rc), daemon)) :
    callBridge hip s req = (.error (hip.failed what rc), { s with daemon }) := by
  refine callBridge_eq hstep hreq hserve ?_
  have hfailed := htexts.failed what rc
  have hmax : maxBodyLen = 268435456 := rfl
  simp only [Response.encodeBody]
  omega

omit hstep in
theorem encodeBody_malloc_le (size : UInt64) :
    (Request.malloc size).encodeBody.length ≤ maxBodyLen := by
  rw [length_encodeBody_malloc]
  decide

omit hstep in
theorem encodeBody_free_le (handle : UInt64) :
    (Request.free handle).encodeBody.length ≤ maxBodyLen := by
  rw [length_encodeBody_free]
  decide

theorem hipMalloc_rejected (htexts : ShortTexts hip) (ptrIsNull : Bool) {size : UInt64}
    (hrc : (hip.malloc size s.daemon.device).1 ≠ HipLib.hipSuccess) :
    hipMalloc hip s ptrIsNull size =
      (hipErrorNoDevice, if ptrIsNull then none else some 0,
        { s with
          lastError := hipErrorNoDevice
          daemon := { s.daemon with device := (hip.malloc size s.daemon.device).2.2 } }) := by
  have hserve : handleRequest hip s.daemon (.malloc size) =
      .ok (.err (hip.failed "hipMalloc" (hip.malloc size s.daemon.device).1),
        { s.daemon with device := (hip.malloc size s.daemon.device).2.2 }) := by
    simp only [handleRequest, HipLib.mallocRaw, if_pos hrc]
  rw [hipMalloc, callBridge_failed hstep htexts (by decide) (encodeBody_malloc_le size) hserve]
  rfl

/-- The round trip of an allocation that succeeds. -/
theorem callBridge_malloc {size : UInt64}
    (hrc : (hip.malloc size s.daemon.device).1 = HipLib.hipSuccess) :
    callBridge hip s (.malloc size) =
      (.ok (u64ToLe s.daemon.handles.nextId),
        { s with
          daemon := { s.daemon with
            handles := (s.daemon.handles.insert (hip.malloc size s.daemon.device).2.1).2
            device := (hip.malloc size s.daemon.device).2.2 } }) := by
  have hserve : handleRequest hip s.daemon (.malloc size) =
      .ok (.ok (u64ToLe s.daemon.handles.nextId),
        { s.daemon with
          handles := (s.daemon.handles.insert (hip.malloc size s.daemon.device).2.1).2
          device := (hip.malloc size s.daemon.device).2.2 }) := by
    simp only [handleRequest, HipLib.mallocRaw, if_neg (not_not.mpr hrc)]
    rfl
  have hresp : (Response.ok (u64ToLe s.daemon.handles.nextId)).encodeBody.length ≤ maxBodyLen := by
    rw [Response.encodeBody, length_u64ToLe]
    decide
  exact callBridge_eq hstep (encodeBody_malloc_le size) hserve hresp

theorem hipMalloc_allocated (ptrIsNull : Bool) {size : UInt64}
    (hrc : (hip.malloc size s.daemon.device).1 = HipLib.hipSuccess) :
    hipMalloc hip s ptrIsNull size =
      (hipSuccess, if ptrIsNull then none else some s.space.nextBase,
        { s with
          space := if ptrIsNull then s.space
            else (s.space.allocate s.daemon.handles.nextId size).2
          daemon := { s.daemon with
            handles := (s.daemon.handles.insert (hip.malloc size s.daemon.device).2.1).2
            device := (hip.malloc size s.daemon.device).2.2 } }) := by
  rw [hipMalloc, callBridge_malloc hstep hrc]
  cases ptrIsNull <;> simp [AddressSpace.allocate]

/-- The round trip of a free that succeeds. -/
theorem callBridge_free {handle : UInt64} {block : Ptr}
    (hknown : s.daemon.handles.get handle = some block)
    (hrc : (hip.free block s.daemon.device).1 = HipLib.hipSuccess) :
    callBridge hip s (.free handle) =
      (.ok [], { s with
        daemon := { s.daemon with
          handles := (s.daemon.handles.remove handle).2
          device := (hip.free block s.daemon.device).2 } }) := by
  have hserve := handleRequest_free_known hip hknown
  simp only [HipLib.freeRaw, if_neg (not_not.mpr hrc), emptyOrErr] at hserve
  rw [callBridge_eq hstep (encodeBody_free_le handle) hserve (by decide)]
  rfl

omit hstep in
theorem hipFree_null : hipFree hip s 0 = (hipSuccess, s) := if_pos rfl

omit hstep in
/-- An address that is no base of a live range. -/
theorem hipFree_unknown {ptr : Ptr} (hnull : ptr ≠ 0) (hlookup : s.space.ranges.lookup ptr = none) :
    hipFree hip s ptr = setLastError s hipErrorNotSupported := by
  rw [hipFree, if_neg hnull, AddressSpace.removeExact_unknown hlookup]

section Free

variable {ptr : Ptr} {r : AllocRange} {block : Ptr} (hnull : ptr ≠ 0)
  (hlookup : s.space.ranges.lookup ptr = some r)
  (hknown : s.daemon.handles.get r.handle = some block)
include hnull hlookup hknown

theorem hipFree_freed (hrc : (hip.free block s.daemon.device).1 = HipLib.hipSuccess) :
    hipFree hip s ptr =
      (hipSuccess,
        { s with
          space := (s.space.removeExact ptr).2
          daemon := { s.daemon with
            handles := (s.daemon.handles.remove r.handle).2
            device := (hip.free block s.daemon.device).2 } }) := by
  simp only [hipFree, if_neg hnull, AddressSpace.removeExact, hlookup, Option.map_some]
  rw [callBridge_free (by exact hstep) (by exact hknown) (by exact hrc)]

theorem hipFree_failed (htexts : ShortTexts hip)
    (hrc : (hip.free block s.daemon.device).1 ≠ HipLib.hipSuccess) :
    hipFree hip s ptr =
      (hipErrorNotSupported,
        { s with
          space := (s.space.removeExact ptr).2
          lastError := hipErrorNotSupported
          daemon := { s.daemon with
            handles := (s.daemon.handles.remove r.handle).2
            device := (hip.free block s.daemon.device).2 } }) := by
  have hserve := handleRequest_free_known hip hknown
  simp only [HipLib.freeRaw, if_pos hrc, emptyOrErr] at hserve
  simp only [hipFree, if_neg hnull, AddressSpace.removeExact, hlookup, Option.map_some]
  have hwhat : (utf8Bytes "hipFree").length ≤ 64 := by decide
  rw [callBridge_failed (by exact hstep) htexts hwhat (encodeBody_free_le r.handle)
    (by exact hserve)]
  rfl

end Free

omit hstep in
/-- A copy whose device pointer resolves to nothing, or of another kind. -/
theorem memcpyForward_refused {dst src : Ptr} {size : UInt64} {kind : Int32}
    (hdst : kind = hipMemcpyHostToDevice → s.space.resolve dst = none)
    (hsrc : kind = hipMemcpyDeviceToHost → s.space.resolve src = none) :
    memcpyForward hip s dst src size kind = setLastError s hipErrorNotSupported := by
  rw [memcpyForward]
  split
  case isTrue hkind => rw [hdst hkind]
  case isFalse =>
    split
    case isTrue hkind => rw [hsrc hkind]
    case isFalse => rfl

section Copy

variable {dst src : Ptr} {size handle offset : UInt64} {block : Ptr}
  (hknown : s.daemon.handles.get handle = some block)
include hknown

theorem memcpyForward_toDevice (hresolve : s.space.resolve dst = some (handle, offset))
    (hsize : 24 + size.toNat ≤ maxBodyLen)
    (hrc : (hip.memcpyHostToDevice (ptrAdd block offset) (s.host.slice src size.toNat)
      s.daemon.device).1 = HipLib.hipSuccess) :
    memcpyForward hip s dst src size hipMemcpyHostToDevice =
      (hipSuccess,
        { s with
          daemon := { s.daemon with
            device := (hip.memcpyHostToDevice (ptrAdd block offset) (s.host.slice src size.toNat)
              s.daemon.device).2 } }) := by
  have hserve : handleRequest hip s.daemon (.memcpyH2D handle offset (s.host.slice src size.toNat))
      = .ok (.okEmpty, { s.daemon with
          device := (hip.memcpyHostToDevice (ptrAdd block offset) (s.host.slice src size.toNat)
            s.daemon.device).2 }) := by
    simp only [handleRequest, hknown, HipLib.memcpyH2d, if_neg (not_not.mpr hrc), emptyOrErr]
  have hreq : (Request.memcpyH2D handle offset (s.host.slice src size.toNat)).encodeBody.length
      ≤ maxBodyLen := by
    rw [length_encodeBody_memcpyH2D, FlatMemory.length_slice]
    exact hsize
  rw [memcpyForward, if_pos rfl, hresolve]
  simp only [callBridge_eq hstep hreq hserve (Nat.zero_le _)]
  rfl

theorem memcpyForward_toHost (hbuffer : hip.CanBuffer size s.daemon.device)
    (hresolve : s.space.resolve src = some (handle, offset))
    (hsize : size.toNat ≤ maxBodyLen)
    (hrc : (hip.memcpyDeviceToHost (ptrAdd block offset) size s.daemon.device).1
      = HipLib.hipSuccess) :
    memcpyForward hip s dst src size hipMemcpyDeviceToHost =
      (hipSuccess,
        { s with
          host := s.host.overwrite dst (HipLib.buffer size.toNat
            (hip.memcpyDeviceToHost (ptrAdd block offset) size s.daemon.device).2.1)
          daemon := { s.daemon with
            device := (hip.memcpyDeviceToHost (ptrAdd block offset) size
              s.daemon.device).2.2 } }) := by
  have hserve : handleRequest hip s.daemon (.memcpyD2H handle offset size)
      = .ok (.ok (HipLib.buffer size.toNat
          (hip.memcpyDeviceToHost (ptrAdd block offset) size s.daemon.device).2.1),
        { s.daemon with
          device := (hip.memcpyDeviceToHost (ptrAdd block offset) size
            s.daemon.device).2.2 }) := by
    rw [handleRequest_memcpyD2H_known hknown hbuffer]
    dsimp only
    rw [if_neg (not_not.mpr hrc)]
  have hreq : (Request.memcpyD2H handle offset size).encodeBody.length ≤ maxBodyLen := by
    rw [length_encodeBody_memcpyD2H]
    decide
  have hresp : (Response.ok (HipLib.buffer size.toNat
      (hip.memcpyDeviceToHost (ptrAdd block offset) size s.daemon.device).2.1)).encodeBody.length
      ≤ maxBodyLen := by
    rw [Response.encodeBody, HipLib.length_buffer]
    exact hsize
  have hkind : hipMemcpyDeviceToHost ≠ hipMemcpyHostToDevice := by decide
  rw [memcpyForward, if_neg hkind, if_pos rfl, hresolve]
  simp only [callBridge_eq hstep hreq hserve hresp, Response.intoResult]
  -- the body is as long as was asked for, so the stub takes it
  rw [if_pos (HipLib.length_buffer _ _)]

end Copy

end Calls

end HipBridge.Stub
