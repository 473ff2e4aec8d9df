import HipBridge.Daemon.Handles
import HipBridge.Daemon.HipSys
import HipBridge.Protocol.Wire

/-!
# Serving a request (`native-daemon/src/main.rs`)

* **`DaemonState`** — the three handle tables and the state of the device behind them.
* **`patchArgs`** — the fixup loop of a launch.
* **`handleRequest`** — the response to a request and the daemon after it, or the end of the
  process.
-/

namespace HipBridge.Daemon

open Lib Protocol

/-- What `main` hands to every `handle_request`: the tables and, behind the `Hip`, the device. -/
structure DaemonState (D : Type) where
  handles : HandleTable Ptr
  modules : HandleTable Ptr
  functions : HandleTable Ptr
  device : D

/-- Right after start-up. -/
def DaemonState.new {D : Type} (device : D) : DaemonState D := ⟨.new, .new, .new, device⟩

/-- `args[offset..offset + bytes.len()].copy_from_slice(bytes)`. -/
def copyFromSlice (args : List UInt8) (offset : Nat) (bytes : List UInt8) : List UInt8 :=
  args.take offset ++ bytes ++ args.drop (offset + bytes.length)

/-- The fixup loop of a launch: the patched arguments, or the message of the fixup it stops
at. -/
def patchArgs (handles : HandleTable Ptr) :
    List Fixup → List UInt8 → Io (Except String (List UInt8))
  | [], args => .ok (.ok args)
  | (offset, handle, intraOffset) :: fixups, args => do
    let stop ← usizeAdd offset.toNat 8
    if args.length < stop then
      return .error ("fixup offset " ++ toString offset.toNat ++ " out of bounds for a " ++
        toString args.length ++ "-byte argument buffer")
    else
      match handles.get handle with
      | some devPtr =>
        let realAddr := devPtr + intraOffset
        patchArgs handles fixups (copyFromSlice args offset.toNat (u64ToLe realAddr))
      | none => return .error ("fixup referenced unknown handle " ++ toString handle.toNat)

variable {D : Type} (hip : HipLib D) (s : DaemonState D)

/-- `format!("unknown handle {handle}")`. -/
def unknownHandle (handle : UInt64) : Response :=
  .err ("unknown handle " ++ toString handle.toNat)

/-- `Ok(()) => Response::ok_empty(), Err(e) => Response::Err(e)`. -/
def emptyOrErr : Except String Unit → Response
  | .ok () => .okEmpty
  | .error e => .err e

/-- `Ok(bytes) => Response::Ok(bytes), Err(e) => Response::Err(e)`. -/
def bytesOrErr : Except String (List UInt8) → Response
  | .ok bytes => .ok bytes
  | .error e => .err e

def handleRequest : Request → Io (Response × DaemonState D)
  | .deviceCount =>
    match hip.deviceCount s.device with
    | (.ok count, device) => .ok (.ok (i32ToLe count), { s with device })
    | (.error e, device) => .ok (.err e, { s with device })
  | .setDevice device =>
    let (result, d) := HipLib.setDevice device s.device
    .ok (emptyOrErr result, { s with device := d })
  | .malloc size =>
    match hip.mallocRaw size s.device with
    | (.ok ptr, device) =>
      -- the id is issued only once there is a block to put behind it
      let (id, handles) := s.handles.insert ptr
      .ok (.ok (u64ToLe id), { s with handles, device })
    | (.error e, device) => .ok (.err e, { s with device })
  | .free handle =>
    -- the entry is gone before the HIP call is made
    match s.handles.remove handle with
    | (some ptr, handles) =>
      let (result, device) := hip.freeRaw ptr s.device
      .ok (emptyOrErr result, { s with handles, device })
    | (none, handles) => .ok (unknownHandle handle, { s with handles })
  | .memcpyH2D handle offset data =>
    match s.handles.get handle with
    | some ptr =>
      let (result, device) := hip.memcpyH2d ptr offset data s.device
      .ok (emptyOrErr result, { s with device })
    | none => .ok (unknownHandle handle, s)
  | .memcpyD2H handle offset len =>
    match s.handles.get handle with
    | some ptr => do
      let (result, device) ← hip.memcpyD2h ptr offset len s.device
      return (bytesOrErr result, { s with device })
    | none => .ok (unknownHandle handle, s)
  | .getDeviceProperties device =>
    let (result, d) := hip.devicePropertiesR0600 device s.device
    .ok (bytesOrErr result, { s with device := d })
  | .loadModule data =>
    match hip.loadModule data s.device with
    | (.ok ptr, device) =>
      let (id, modules) := s.modules.insert ptr
      .ok (.ok (u64ToLe id), { s with modules, device })
    | (.error e, device) => .ok (.err e, { s with device })
  | .getFunction module name =>
    match s.modules.get module with
    | some ptr =>
      match hip.getFunction ptr name s.device with
      | (.ok funcPtr, device) =>
        let (id, functions) := s.functions.insert funcPtr
        .ok (.ok (u64ToLe id), { s with functions, device })
      | (.error e, device) => .ok (.err e, { s with device })
    | none => .ok (.err ("unknown module handle " ++ toString module.toNat), s)
  | .launchKernel function grid block sharedMem fixups args =>
    match s.functions.get function with
    | some funcPtr => do
      -- every fixup is resolved before the one HIP call
      match ← patchArgs s.handles fixups args with
      | .error e => return (.err e, s)
      | .ok args =>
        let (result, device) := hip.launchKernel funcPtr grid block sharedMem args s.device
        return (emptyOrErr result, { s with device })
    | none => .ok (.err ("unknown function handle " ++ toString function.toNat), s)

/-! ## Known and unknown handles -/

variable {hip s} {handle : UInt64} {ptr : Ptr}

/-- A free of a known handle, answered by what `hipFree` returned; the entry is gone. -/
theorem handleRequest_free_known (hip : HipLib D) (hknown : s.handles.get handle = some ptr) :
    handleRequest hip s (.free handle) = .ok (emptyOrErr (hip.freeRaw ptr s.device).1,
      { s with
        handles := (s.handles.remove handle).2
        device := (hip.freeRaw ptr s.device).2 }) := by
  show (match s.handles.remove handle with
    | (some ptr, handles) => _
    | (none, handles) => _) = _
  rw [HandleTable.remove_eq hknown]

theorem handleRequest_free_unknown (hip : HipLib D) (hknown : s.handles.get handle = none) :
    handleRequest hip s (.free handle) = .ok (unknownHandle handle, s) := by
  show (match s.handles.remove handle with
    | (some ptr, handles) => _
    | (none, handles) => _) = _
  rw [HandleTable.remove_unknown hknown]

theorem handleRequest_memcpyH2D_unknown (hip : HipLib D) (hknown : s.handles.get handle = none)
    (offset : UInt64) (data : List UInt8) :
    handleRequest hip s (.memcpyH2D handle offset data) = .ok (unknownHandle handle, s) := by
  show (match s.handles.get handle with
    | some ptr => _
    | none => _) = _
  rw [hknown]

/-- A read from a known handle, answered by what HIP returned. -/
theorem handleRequest_memcpyD2H_known {offset len : UInt64}
    (hknown : s.handles.get handle = some ptr) (hbuffer : hip.CanBuffer len s.device) :
    handleRequest hip s (.memcpyD2H handle offset len) = .ok
      (let (rc, bytes, device) := hip.memcpyDeviceToHost (ptrAdd ptr offset) len s.device
        if rc ≠ HipLib.hipSuccess then
          (.err (hip.failed "hipMemcpy D2H" rc), { s with device })
        else (.ok (HipLib.buffer len.toNat bytes), { s with device })) := by
  simp only [handleRequest, hknown, HipLib.memcpyD2h_buffered hbuffer, Io.ok_bind, Io.pure_eq]
  split <;> rfl

/-- Without a buffer for it, such a read is the end of the process. -/
theorem handleRequest_memcpyD2H_crashes {offset len : UInt64}
    (hknown : s.handles.get handle = some ptr) (hbuffer : ¬ hip.CanBuffer len s.device) :
    ∃ fault, handleRequest hip s (.memcpyD2H handle offset len) = .error fault ∧ fault.Crash := by
  obtain ⟨fault, hfault, hcrash⟩ := HipLib.memcpyD2h_crashes hbuffer ptr offset
  refine ⟨fault, ?_, hcrash⟩
  simp only [handleRequest, hknown, hfault, Io.error_bind]

theorem handleRequest_memcpyD2H_unknown (hip : HipLib D) (hknown : s.handles.get handle = none)
    (offset len : UInt64) :
    handleRequest hip s (.memcpyD2H handle offset len) = .ok (unknownHandle handle, s) := by
  show (match s.handles.get handle with
    | some ptr => _
    | none => _) = _
  rw [hknown]

end HipBridge.Daemon
