import HipBridge.Lib.Simulation
import HipBridge.Unixlib.StickyError

/-!
# What the game sees of the unixlib

* **`PeAnswer`**, **`PeEvent.exec`** — what an export returns and writes, and the process after it.
* **`PeEvent.unix`** — the unix call an export makes, if it comes to one.
* **`UnixHost`**, **`hostStep`** — a process on top of a HIP library that keeps a state of its own:
  the library is called once for every call that a handler issues.
-/

namespace HipBridge.Unixlib

open Lib

/-! ## Answers -/

/-- What an export returns and what it writes through its pointers. What HIP itself writes to
memory it was given is the library's business. -/
structure PeAnswer where
  code : Option Int32 := none
  ptr : Option Ptr := none
  int : Option Int32 := none
  /-- The bit pattern of a `float`. -/
  ms : Option UInt32 := none
  str : Option CString := none
  config : PoppedConfig := .none
deriving DecidableEq

/-- What an export writes through its pointers. -/
def PeCall.writes (w : World) (p : Process) : PeCall → PeAnswer
  | .popCallConfiguration ptrs => { config := (hipPopCallConfiguration p ptrs).out }
  | .getDeviceCount count => { int := (hipGetDeviceCount w p count).out }
  | .driverGetVersion version => { int := (hipDriverGetVersion w p version).out }
  | .runtimeGetVersion version => { int := (hipRuntimeGetVersion w p version).out }
  | .malloc ptr size => { ptr := (hipMalloc w p ptr size).out }
  | .eventCreate event => { ptr := (hipEventCreate w p event).out }
  | .eventCreateWithFlags event flags => { ptr := (hipEventCreateWithFlags w p event flags).out }
  | .streamCreateWithFlags stream flags =>
    { ptr := (hipStreamCreateWithFlags w p stream flags).out }
  | .eventElapsedTime ms start stop => { ms := (hipEventElapsedTime w p ms start stop).out }
  | .importExternalMemory extMem desc => { ptr := (hipImportExternalMemory w p extMem desc).out }
  | .externalMemoryGetMappedBuffer devPtr extMem desc =>
    { ptr := (hipExternalMemoryGetMappedBuffer w p devPtr extMem desc).out }
  | _ => {}

def PeEvent.exec (w : World) (p : Process) : PeEvent → PeAnswer × Process
  | .call c => ({ c.writes w p with code := some (c.exec w p).ret }, (c.exec w p).proc)
  | .registerFatBinary data =>
    let (token, p) := hipRegisterFatBinary w p data
    ({ ptr := some token }, p)
  | .registerFunction fatbinToken hostFn name =>
    ({}, hipRegisterFunction w p fatbinToken hostFn name)
  | .registerVar fatbinToken hostVar name => ({}, hipRegisterVar w p fatbinToken hostVar name)
  | .unregisterFatBinary fatbinToken => ({}, hipUnregisterFatBinary w p fatbinToken)
  | .getErrorString error =>
    let (str, p) := hipGetErrorString w p error
    ({ str }, p)

/-! ## The unix call of an export -/

/-- An opcode with its argument struct. -/
abbrev UnixRequest := (c : HipUnixCall) × c.Args

/-- The unix call an export makes, unless it returns before. -/
def PeCall.unix : PeCall → Option UnixRequest
  | .pushCallConfiguration _ _ _ _ | .popCallConfiguration _ | .getLastError => none
  | .getDeviceCount _ => some ⟨.getDeviceCount, {}⟩
  | .getDevicePropertiesR0600 props device => some ⟨.getDeviceProperties, { props, device }⟩
  | .setDevice device => some ⟨.setDevice, { device }⟩
  | .deviceSynchronize => some ⟨.deviceSynchronize, {}⟩
  | .driverGetVersion _ => some ⟨.driverGetVersion, {}⟩
  | .runtimeGetVersion _ => some ⟨.runtimeGetVersion, {}⟩
  | .malloc _ size => some ⟨.malloc, { size }⟩
  | .free ptr => if ptr = 0 then none else some ⟨.free, { ptr }⟩
  | .memcpy dst src size kind =>
    if hipMemcpyKindSupported kind then some ⟨.memcpy, { dst, src, size, kind }⟩ else none
  | .memcpyAsync dst src size kind stream =>
    if hipMemcpyKindSupported kind then some ⟨.memcpyAsync, { dst, src, size, kind, stream }⟩
    else none
  | .memcpyToSymbol symbol src size offset kind =>
    if hipMemcpyKindSupported kind then some ⟨.memcpyToSymbol, { symbol, src, size, offset, kind }⟩
    else none
  | .memset ptr value size => some ⟨.memset, { ptr, value, size }⟩
  | .memsetAsync ptr value size stream => some ⟨.memsetAsync, { ptr, value, size, stream }⟩
  | .eventCreate _ => some ⟨.eventCreate, { flags := 0 }⟩
  | .eventCreateWithFlags _ flags => some ⟨.eventCreate, { flags }⟩
  | .eventQuery event => some ⟨.eventQuery, { event }⟩
  | .streamCreateWithFlags _ flags => some ⟨.streamCreate, { flags }⟩
  | .streamSynchronize stream => some ⟨.streamSynchronize, { stream }⟩
  | .eventRecord event stream => some ⟨.eventRecord, { event, stream }⟩
  | .eventSynchronize event => some ⟨.eventSynchronize, { event }⟩
  | .eventElapsedTime _ start stop => some ⟨.eventElapsedTime, { start, stop }⟩
  | .importExternalMemory _ handleDesc =>
    handleDesc.bind fun d =>
      if hipExtMemExtractFd (some d) < 0 then none
      else
        some ⟨.importExternalMemory,
          { fd := hipExtMemExtractFd (some d), size := d.size, flags := d.flags }⟩
  | .externalMemoryGetMappedBuffer _ extMem bufferDesc =>
    bufferDesc.map fun d =>
      ⟨.externalMemoryGetMappedBuffer,
        { extMem, offset := d.offset, size := d.size, flags := d.flags }⟩
  | .destroyExternalMemory extMem => some ⟨.destroyExternalMemory, { extMem }⟩
  | .launchKernel function (some grid) (some block) (some args) sharedMem stream =>
    if args = 0 then none
    else
      some ⟨.launchKernel,
        { hostFn := function, grid, block, args, sharedMem := sharedMem.toUInt32, stream }⟩
  | .launchKernel _ _ _ _ _ _ => none

def PeEvent.unix : PeEvent → Option UnixRequest
  | .call c => c.unix
  | .registerFatBinary data => some ⟨.registerFatBinary, { data }⟩
  | .registerFunction fatbinToken hostFn deviceName =>
    some ⟨.registerFunction, { fatbinToken, hostFn, deviceName }⟩
  | .registerVar fatbinToken hostVar deviceName =>
    some ⟨.registerVar, { fatbinToken, hostVar, deviceName }⟩
  | .unregisterFatBinary fatbinToken => some ⟨.unregisterFatBinary, { fatbinToken }⟩
  | .getErrorString error => some ⟨.getErrorString, { error }⟩

/-- The HIP call the handler of an export issues. -/
def PeEvent.issued (w : World) (p : Process) (e : PeEvent) : Option HipCall :=
  e.unix.bind fun u => (unixCall w p.native u.1 u.2).issued

/-! ## On top of a HIP library -/

/-- A HIP library with a state of its own. -/
abbrev HipRuntime (D : Type) := HipCall → D → HipReply × D

/-- A process and the library it calls. -/
structure UnixHost (D : Type) where
  proc : Process
  device : D

variable {D : Type}

/-- What the process meets: the library files of the machine, its own memory, and the library. -/
def UnixHost.world (dlopen : String → Option HipLibrary) (hip : HipRuntime D) (s : UnixHost D)
    (mem : Memory) : World where
  dlopen
  mem
  hip call := (hip call s.device).1

/-- An export is called, with the memory as it is then. -/
def hostStep (dlopen : String → Option HipLibrary) (hip : HipRuntime D) (s : UnixHost D)
    (a : PeEvent × Memory) : PeAnswer × UnixHost D :=
  let w := s.world dlopen hip a.2
  let (answer, proc) := a.1.exec w s.proc
  let device := match a.1.issued w s.proc with
    | some call => (hip call s.device).2
    | none => s.device
  (answer, { proc, device })

end HipBridge.Unixlib
