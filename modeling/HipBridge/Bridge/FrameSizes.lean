import HipBridge.Daemon.FlatDevice
import HipBridge.Protocol.Canonical
import HipBridge.Stub.Launch

/-!
# The frames the two sides write

The reader of a frame refuses a body above `MAX_BODY_LEN`, and finds its end by a 32-bit length.

* **`FrameReadable`** — the header spells the length of the body, and the reader takes it.
* **`StubCall`** — the exported calls of `hip-stub` that use the bridge, with the request each
  hands to `call_bridge`.
* **`StubCall.Fits`**, **`ResponseFits`** — the conditions that no code checks: a copy, a bundle
  or a kernel name that is not too long.
* **`frames_readable_iff`** — these are exactly the calls and responses with readable frames.
-/

namespace HipBridge.Bridge

open Lib Protocol Daemon Stub
open Unixlib (Dim3)

/-- The header carries the number of body bytes that follow, which is within the cap. -/
def FrameReadable (body : List UInt8) : Prop :=
  (UInt32.ofNat body.length).toNat = body.length ∧ body.length ≤ maxBodyLen

theorem frameReadable_iff {body : List UInt8} : FrameReadable body ↔ body.length ≤ maxBodyLen := by
  refine ⟨And.right, fun hle => ⟨?_, hle⟩⟩
  rw [UInt32.toNat_ofNat', mod_of_le_maxBodyLen hle]

/-- What readable means to the peer: `read_framed_body` returns the whole body, and stops at its
end. -/
theorem frameReadable_iff_read {body : List UInt8} :
    FrameReadable body ↔ ∀ rest, readFramedBody (u32ToLe (UInt32.ofNat body.length) ++
      (body ++ rest)) = .ok (body, rest) := by
  rw [frameReadable_iff]
  constructor
  · exact fun hle rest => readFramedBody_append body rest hle
  · intro hread
    rcases readFramedBody_cases (u32ToLe (UInt32.ofNat body.length) ++ (body ++ []))
      with ⟨body', rest', -, hle, hread'⟩ | ⟨e, herror⟩
    · rw [hread []] at hread'
      cases hread'
      exact hle
    · rw [hread []] at herror
      cases herror

variable {D : Type}

/-- The exported calls that use the bridge. -/
inductive StubCall
  | getDeviceCount
  | setDevice (device : Int32)
  | getDeviceProperties (device : Int32)
  | malloc (size : UInt64)
  | free (ptr : Ptr)
  | memcpy (dst src : Ptr) (size : UInt64) (kind : Int32)
  | registerFatBinary (data : Ptr)
  | registerFunction (fatBin hostFn : Ptr) (deviceName : Option CString)
  | launchKernel (function : Ptr) (gridDim blockDim : Option Dim3) (args : Option Ptr)
      (sharedMem : UInt64)

/-- What `memcpy_forward` hands to `call_bridge`. -/
def memcpyRequest (s : Session D) (dst src : Ptr) (size : UInt64) (kind : Int32) :
    Option Request :=
  if kind = hipMemcpyHostToDevice then
    (s.space.resolve dst).map fun (handle, offset) =>
      .memcpyH2D handle offset (s.host.slice src size.toNat)
  else if kind = hipMemcpyDeviceToHost then
    (s.space.resolve src).map fun (handle, offset) => .memcpyD2H handle offset size
  else none

/-- The request a call hands to `call_bridge`, if it gets that far. -/
def StubCall.request (g : Game D) : StubCall → Option Request
  | .getDeviceCount => some .deviceCount
  | .setDevice device => some (.setDevice device)
  | .getDeviceProperties device => some (.getDeviceProperties device)
  | .malloc size => some (.malloc size)
  | .free ptr => if ptr = 0 then none else (g.space.removeExact ptr).1.map .free
  | .memcpy dst src size kind => memcpyRequest g.toSession dst src size kind
  | .registerFatBinary data => fatBinaryRequest g data
  | .registerFunction fatBin _ deviceName => functionRequest g fatBin deviceName
  | .launchKernel function gridDim blockDim args sharedMem =>
    launchRequest g function gridDim blockDim args sharedMem

/-- The copy to the device and its header, the bundle, or the module and the name, is within
the cap. -/
def StubCall.Fits (g : Game D) : StubCall → Prop
  | .memcpy _ _ size kind => kind = hipMemcpyHostToDevice → 24 + size.toNat ≤ maxBodyLen
  | .registerFatBinary data => ∀ bundlePtr size,
      selectBundle g.memory data = some (some (bundlePtr, size)) → size ≤ maxBodyLen
  | .registerFunction _ _ deviceName => 8 + (utf8Bytes (safeCstr deviceName)).length ≤ maxBodyLen
  | _ => True

/-- The bytes of a copy from the device that is made, or the message of a lookup that fails in
HIP, is within the cap. -/
def ResponseFits (hip : HipLib D) (s : DaemonState D) : Request → Prop
  | .memcpyD2H handle offset len => ∀ ptr, s.handles.get handle = some ptr →
      hip.CanBuffer len s.device →
      (hip.memcpyDeviceToHost (ptrAdd ptr offset) len s.device).1 = HipLib.hipSuccess →
      len.toNat ≤ maxBodyLen
  | .getFunction module name => ∀ ptr (hnul : 0 ∉ utf8Bytes name),
      s.modules.get module = some ptr → hip.sym "hipModuleGetFunction" →
      (hip.moduleGetFunction ptr ⟨utf8Bytes name, hnul⟩ s.device).1 ≠ HipLib.hipSuccess →
      lookupMessageLength hip name
        (hip.moduleGetFunction ptr ⟨utf8Bytes name, hnul⟩ s.device).1 ≤ maxBodyLen
  | _ => True

/-! ## Requests -/

theorem length_launchRequest {g : Game D} {function : Ptr} {gridDim blockDim : Option Dim3}
    {args : Option Ptr} {sharedMem : UInt64} {req : Request}
    (h : launchRequest g function gridDim blockDim args sharedMem = some req) :
    req.encodeBody.length ≤ maxBodyLen := by
  simp only [launchRequest, Option.bind_eq_bind, Option.bind_eq_some_iff] at h
  obtain ⟨handle, -, grid, -, block, -, argPtr, -, h⟩ := h
  split at h
  case isTrue => cases h
  case isFalse =>
    cases h
    -- at most one fixup for every eight of the 4096 bytes
    have hcount := length_scanFrom_le g.space (g.host.slice argPtr maxKernelArgBytes)
      ((g.host.slice argPtr maxKernelArgBytes).length / 8) 0
    rw [encodeBody_launchKernel, List.length_append, List.length_append, length_launchHeader,
      length_flatMap_encodeFixup, FlatMemory.length_slice]
    rw [FlatMemory.length_slice] at hcount
    unfold scanFixups maxKernelArgBytes maxBodyLen at *
    rw [FlatMemory.length_slice]
    omega

theorem request_readable_iff {g : Game D} {c : StubCall} {req : Request}
    (h : c.request g = some req) : FrameReadable req.encodeBody ↔ c.Fits g := by
  rw [frameReadable_iff]
  cases c with
  | getDeviceCount => cases h; exact ⟨fun _ => trivial, fun _ => Nat.zero_le _⟩
  | setDevice =>
    cases h; exact ⟨fun _ => trivial, fun _ => by simp [Request.encodeBody, maxBodyLen]⟩
  | getDeviceProperties =>
    cases h; exact ⟨fun _ => trivial, fun _ => by simp [Request.encodeBody, maxBodyLen]⟩
  | malloc => cases h; exact ⟨fun _ => trivial, fun _ => encodeBody_malloc_le _⟩
  | free ptr =>
    refine ⟨fun _ => trivial, fun _ => ?_⟩
    simp only [StubCall.request] at h
    split at h
    case isTrue => cases h
    case isFalse =>
      obtain ⟨handle, -, rfl⟩ := Option.map_eq_some_iff.mp h
      exact encodeBody_free_le handle
  | memcpy dst src size kind =>
    simp only [StubCall.request, memcpyRequest] at h
    split at h
    case isTrue hkind =>
      obtain ⟨⟨handle, offset⟩, -, rfl⟩ := Option.map_eq_some_iff.mp h
      rw [length_encodeBody_memcpyH2D, FlatMemory.length_slice]
      exact ⟨fun hle _ => hle, fun hfits => hfits hkind⟩
    case isFalse hkind =>
      refine ⟨fun _ hkind' => absurd hkind' hkind, fun _ => ?_⟩
      split at h
      case isTrue =>
        obtain ⟨⟨handle, offset⟩, -, rfl⟩ := Option.map_eq_some_iff.mp h
        rw [length_encodeBody_memcpyD2H]
        decide
      case isFalse => cases h
  | registerFatBinary data =>
    simp only [StubCall.request, fatBinaryRequest] at h
    split at h
    case h_1 bundlePtr size hselect =>
      cases h
      rw [Request.encodeBody, FlatMemory.length_slice]
      constructor
      · intro hle bundlePtr' size' hselect'
        rw [hselect] at hselect'
        cases hselect'
        exact hle
      · exact fun hfits => hfits bundlePtr size hselect
    case h_2 => cases h
  | registerFunction fatBin hostFn deviceName =>
    obtain ⟨module, -, rfl⟩ := Option.map_eq_some_iff.mp h
    rw [Request.encodeBody, List.length_append, length_u64ToLe]
    exact Iff.rfl
  | launchKernel => exact ⟨fun _ => trivial, fun _ => length_launchRequest h⟩

/-! ## Responses -/

theorem response_readable_iff {hip : HipLib D} (htexts : ShortTexts hip) {s s' : DaemonState D}
    {req : Request} {resp : Response} (hreq : req.encodeBody.length ≤ maxBodyLen)
    (hok : handleRequest hip s req = .ok (resp, s')) :
    FrameReadable resp.encodeBody ↔ ResponseFits hip s req := by
  rw [frameReadable_iff]
  cases handleRequest_sized htexts hreq hok with
  | short hlen hcopy hlookup =>
    refine ⟨fun _ => ?_, fun _ => Nat.le_trans hlen (by decide)⟩
    cases req with
    | memcpyD2H handle offset len =>
      exact fun ptr hknown hbuffer hrc =>
        absurd hrc (hcopy handle offset len ptr rfl hknown hbuffer)
    | getFunction module name =>
      exact fun ptr hnul hknown hsym hrc =>
        absurd ⟨hnul, hsym, hrc⟩ (hlookup module name ptr rfl hknown)
    | _ => trivial
  | copied handle offset len ptr hcopy hknown hbuffer hrc hlen =>
    subst hcopy
    rw [hlen]
    constructor
    · exact fun hle _ _ _ _ => hle
    · exact fun hfits => hfits ptr hknown hbuffer hrc
  | named module name ptr hnul hlookup hknown hsym hrc hlen =>
    subst hlookup
    rw [hlen]
    constructor
    · intro hle ptr' hnul' hknown' _ _
      rw [hknown] at hknown'
      cases hknown'
      exact hle
    · exact fun hfits => hfits ptr hnul hknown hsym hrc

/-- A request the daemon reads has a body within the cap. -/
theorem length_of_readFrom {s rest : List UInt8} {r : Request}
    (h : Request.readFrom s = .ok (r, rest)) : r.encodeBody.length ≤ maxBodyLen := by
  have hcases := Request.readFrom_cases s
  rw [h] at hcases
  cases hcases with
  | request _ body _ _ hle hbody =>
    rcases hbody with ⟨hopcode, -⟩ | rfl
    · rw [Request.eq_deviceCount hopcode]
      exact Nat.zero_le _
    · exact hle

/-- **Which frames can be read.** The frame of a call of the stub is readable exactly if its
copy to the device, bundle or kernel name fits; and the frame of a response of the daemon exactly
if the copy from the device that was made, or the message of a lookup that HIP refused, does. -/
theorem frames_readable_iff (hip : HipLib D) (htexts : ShortTexts hip) :
    (∀ (g : Game D) (c : StubCall) req, c.request g = some req →
      (FrameReadable req.encodeBody ↔ c.Fits g)) ∧
    (∀ stream req rest (s : DaemonState D) resp s', Request.readFrom stream = .ok (req, rest) →
      handleRequest hip s req = .ok (resp, s') →
      (FrameReadable resp.encodeBody ↔ ResponseFits hip s req)) :=
  ⟨fun _ _ _ h => request_readable_iff h, fun _ _ _ _ _ _ hread hok =>
    response_readable_iff htexts (length_of_readFrom hread) hok⟩

/-- A game with one range, of 64 bytes, and the daemon that has the block of it. -/
def copyGame : Game FlatDevice :=
  { Game.new (fun _ => 0) FlatDevice.new with
    space := (AddressSpace.new.allocate 1 64).2
    daemon := flatBlock }

theorem request_copyGame (src : Ptr) (size : UInt64) :
    (StubCall.memcpy 0x700000000008 src size hipMemcpyHostToDevice).request copyGame
      = some (.memcpyH2D 1 8 (copyGame.host.slice src size.toNat)) := by
  have hresolve : copyGame.space.resolve 0x700000000008 = some (1, 8) := by decide
  show memcpyRequest copyGame.toSession _ src size _ = _
  rw [memcpyRequest, if_pos rfl, hresolve]
  rfl

/-- A copy of 16 bytes to the range and one of them back, each with the frame that carries the
bytes. -/
theorem frames_readable_iff_copies :
    (FrameReadable (Request.memcpyH2D 1 8 (copyGame.host.slice 0x2000 16)).encodeBody ↔
      (StubCall.memcpy 0x700000000008 0x2000 16 hipMemcpyHostToDevice).Fits copyGame) ∧
    (FrameReadable (Response.ok (HipLib.buffer 16 fun _ => 0)).encodeBody ↔
      ResponseFits flatHip flatBlock (.memcpyD2H 1 0 16)) :=
  ⟨(frames_readable_iff flatHip shortTexts_flatHip).1 copyGame _ _ (request_copyGame 0x2000 16),
    (frames_readable_iff flatHip shortTexts_flatHip).2 ((Request.memcpyD2H 1 0 16).writeTo ++ [])
      (.memcpyD2H 1 0 16) [] flatBlock _ _
      (Request.readFrom_writeTo (.memcpyD2H 1 0 16) [] (by decide))
      (handleRequest_flatBlock 16 (by decide))⟩

/-- A bundle of one code object, of 256 MiB and a byte. -/
def bigBundle : FlatMemory :=
  FlatMemory.overwrite 0x1000
    (offloadBundleMagic ++ (u64ToLe 1 ++ (u64ToLe 0 ++ (u64ToLe 0x10000001 ++ u64ToLe 0))))
    fun _ => 0

/-- A game that holds that bundle and has allocated 256 MiB. -/
def bigGame : Game FlatDevice :=
  { Game.new bigBundle FlatDevice.new with
    toSession := (hipMalloc flatHip (.new bigBundle .new) false 0x10000000).2.2 }

theorem toSession_bigGame :
    bigGame.toSession = (hipMalloc flatHip (.new bigBundle .new) false 0x10000000).2.2 := rfl

theorem space_bigGame : bigGame.space = (AddressSpace.new.allocate 1 0x10000000).2 := by
  rw [toSession_bigGame, hipMalloc_allocated ⟨rfl, rfl⟩ false rfl]
  rfl

theorem selectBundle_bigGame :
    selectBundle bigGame.memory 0x1000 = some (some (0x1000, 0x10000001)) := by
  have hmemory : bigGame.memory = (Game.new bigBundle FlatDevice.new).memory := by
    unfold Game.memory
    rw [toSession_bigGame, hipMalloc_allocated ⟨rfl, rfl⟩ false rfl]
    rfl
  rw [hmemory]
  decide +kernel

/-- A bundle below `SANITY_MAX_SIZE` and a copy of all that was allocated are sent in frames that
the daemon refuses. -/
theorem frames_not_readable :
    (∃ req, (StubCall.registerFatBinary 0x1000).request bigGame = some req ∧
      ¬ FrameReadable req.encodeBody) ∧
    (∃ req, (StubCall.memcpy 0x700000000000 0 0x10000000 hipMemcpyHostToDevice).request bigGame
      = some req ∧ ¬ FrameReadable req.encodeBody) := by
  constructor
  · have hreq : fatBinaryRequest bigGame 0x1000
        = some (.loadModule (bigGame.host.slice 0x1000 0x10000001)) := by
      simp only [fatBinaryRequest, selectBundle_bigGame]
    refine ⟨_, hreq, ?_⟩
    rw [frameReadable_iff, Request.encodeBody, FlatMemory.length_slice]
    decide
  · have hresolve : bigGame.space.resolve 0x700000000000 = some (1, 0) := by
      rw [space_bigGame]
      decide
    have hreq : memcpyRequest bigGame.toSession 0x700000000000 0 0x10000000 hipMemcpyHostToDevice
        = some (.memcpyH2D 1 0 (bigGame.host.slice 0 (0x10000000 : UInt64).toNat)) := by
      rw [memcpyRequest, if_pos rfl, hresolve]
      rfl
    refine ⟨_, hreq, ?_⟩
    rw [frameReadable_iff, length_encodeBody_memcpyH2D, FlatMemory.length_slice]
    decide

end HipBridge.Bridge
