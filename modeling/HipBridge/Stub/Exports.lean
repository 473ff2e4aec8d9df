import HipBridge.Stub.CallConfig
import HipBridge.Stub.Launch

/-!
# All the exports of `hip-stub`

* **`GameProcess`** — a game with the call-configuration stacks of its threads.
* **`StubExport`**, **`StubExport.exec`** — the exported calls, and what each shows the game and
  leaves behind.
* **`GameStep`** — a call, or the game writing its own memory.

Calls that only set the last error are the one definition `unsupported`. Arguments that are only
logged are left out.
-/

namespace HipBridge.Stub

open Lib Protocol Daemon
open Unixlib (CallConfig Dim3 PopPointers PoppedConfig hipSuccess hipErrorNoDevice
  hipErrorNotSupported writeIf)

/-- What a call shows the game: its `hipError_t`, if it returns one, and what it returns or
writes besides. -/
structure Answer where
  code : Option Int32 := none
  ptr : Option Ptr := none
  int : Option Int32 := none
  /-- Written over the caller's `hipDeviceProp_t`. -/
  props : Option (List UInt8) := none
  /-- The bit pattern of a `float`. -/
  ms : Option UInt32 := none
  config : PoppedConfig := .none
  str : Option CString := none
deriving DecidableEq

section Queries

variable {D : Type} (hip : HipLib D) (s : Session D)

/-! ## Device and runtime queries -/

def hipGetDeviceCount (count : Bool) : Answer × Session D :=
  let failed (s : Session D) : Answer × Session D :=
    let (code, s) := setLastError s hipErrorNoDevice
    ({ code := some code, int := writeIf count 0 }, s)
  match callBridge hip s .deviceCount with
  | (.ok body, s) =>
    if body.length = 4 then
      ({ code := some hipSuccess, int := writeIf count (i32FromLe body) }, s)
    else failed s
  | (.error _, s) => failed s

/-- `HIP_DEVICE_PROP_R0600_SIZE`. -/
def hipDevicePropR0600Size : Nat := 1472

def hipGetDevicePropertiesR0600 (props : Bool) (device : Int32) : Answer × Session D :=
  match callBridge hip s (.getDeviceProperties device) with
  | (.ok body, s) =>
    if body.length = hipDevicePropR0600Size then
      ({ code := some hipSuccess, props := writeIf props body }, s)
    else
      -- a body of another size would not fit the caller's struct
      let (code, s) := setLastError s hipErrorNotSupported
      ({ code := some code }, s)
  | (.error _, s) =>
    let (code, s) := setLastError s hipErrorNoDevice
    ({ code := some code }, s)

def hipSetDevice (device : Int32) : Answer × Session D :=
  match callBridge hip s (.setDevice device) with
  | (.ok _, s) => ({ code := some hipSuccess }, s)
  | (.error _, s) =>
    let (code, s) := setLastError s hipErrorNoDevice
    ({ code := some code }, s)

/-- Nothing is under way that could be waited for. -/
def hipDeviceSynchronize : Answer × Session D := ({ code := some hipSuccess }, s)

def hipDriverGetVersion (version : Bool) : Answer × Session D :=
  ({ code := some hipSuccess, int := writeIf version 0 }, s)

def hipRuntimeGetVersion (version : Bool) : Answer × Session D :=
  ({ code := some hipSuccess, int := writeIf version 0 }, s)

/-- The state is read, and stays. -/
def hipGetLastError : Answer × Session D := ({ code := some s.lastError }, s)

/-- `ERR_STRING`. -/
def errString : CString :=
  .ofLiteral "amdhip64_7 shim: not implemented yet (see docs/linux-support-spec.md §12)" (by decide)

/-- `NO_BRIDGE_STRING`. -/
def noBridgeString : CString :=
  .ofLiteral "amdhip64_7 shim: hip-bridge-daemon not reachable" (by decide)

def hipGetErrorString (error : Int32) : CString :=
  if error = hipErrorNoDevice then noBridgeString else errString

/-! ## Calls that are not there yet -/

/-- `set_last_error(HIP_ERROR_NOT_SUPPORTED)`, with null or `0.0` through an output pointer. -/
def unsupported (ptr : Option Ptr) (ms : Option UInt32) : Answer × Session D :=
  let (code, s) := setLastError s hipErrorNotSupported
  ({ code := some code, ptr, ms }, s)

def hipMemcpyToSymbol : Answer × Session D := unsupported s none none

def hipMemset : Answer × Session D := unsupported s none none

def hipMemsetAsync : Answer × Session D := unsupported s none none

def hipEventCreate (event : Bool) : Answer × Session D := unsupported s (writeIf event 0) none

def hipEventRecord : Answer × Session D := unsupported s none none

def hipEventSynchronize : Answer × Session D := unsupported s none none

def hipEventElapsedTime (ms : Bool) : Answer × Session D := unsupported s none (writeIf ms 0)

def hipImportExternalMemory (extMem : Bool) : Answer × Session D :=
  unsupported s (writeIf extMem 0) none

def hipExternalMemoryGetMappedBuffer (devPtr : Bool) : Answer × Session D :=
  unsupported s (writeIf devPtr 0) none

def hipDestroyExternalMemory : Answer × Session D := unsupported s none none

end Queries

/-! ## The process -/

/-- A game with `CALL_CONFIG_STACK` of each of its threads. -/
structure GameProcess (T D : Type) extends Game D where
  tls : CallConfigStacks T

variable {T D : Type} [DecidableEq T]

/-- Right after the library is loaded. -/
def GameProcess.new (host : FlatMemory) (device : D) : GameProcess T D :=
  ⟨.new host device, fun _ => []⟩

/-- The process after a call that only touches the session. -/
def GameProcess.withSession (p : GameProcess T D) (s : Session D) : GameProcess T D :=
  { p with toGame := { p.toGame with toSession := s } }

/-- A call of the pair has changed the stacks, or failed with a code. -/
def GameProcess.afterConfig (p : GameProcess T D) (code : Int32) (tls : CallConfigStacks T) :
    GameProcess T D :=
  if code = hipSuccess then { p with tls } else p.withSession (setLastError p.toSession code).2

inductive StubExport (T : Type)
  | registerFatBinary (data : Ptr)
  | registerFunction (fatBin hostFn : Ptr) (deviceName : Option CString)
  | registerVar
  | pushCallConfiguration (thread : T) (gridDim blockDim : Option Dim3) (sharedMem : UInt64)
      (stream : Ptr)
  | popCallConfiguration (thread : T) (ptrs : PopPointers)
  | getDeviceCount (count : Bool)
  | getDevicePropertiesR0600 (props : Bool) (device : Int32)
  | setDevice (device : Int32)
  | deviceSynchronize
  | driverGetVersion (version : Bool)
  | runtimeGetVersion (version : Bool)
  | getLastError
  | getErrorString (error : Int32)
  | malloc (ptrIsNull : Bool) (size : UInt64)
  | free (ptr : Ptr)
  | memcpy (dst src : Ptr) (size : UInt64) (kind : Int32)
  | memcpyAsync (dst src : Ptr) (size : UInt64) (kind : Int32) (stream : Ptr)
  | memcpyToSymbol
  | memset
  | memsetAsync
  | launchKernel (function : Ptr) (gridDim blockDim : Option Dim3) (args : Option Ptr)
      (sharedMem : UInt64)
  | eventCreate (event : Bool)
  | eventRecord
  | eventSynchronize
  | eventElapsedTime (ms : Bool)
  | importExternalMemory (extMem : Bool)
  | externalMemoryGetMappedBuffer (devPtr : Bool)
  | destroyExternalMemory

/-- A call of the game: what it shows and the process after it. -/
def StubExport.exec (hip : HipLib D) (p : GameProcess T D) :
    StubExport T → Answer × GameProcess T D
  | .registerFatBinary data =>
    let (id, g) := hipRegisterFatBinary hip p.toGame data
    ({ ptr := some id }, { p with toGame := g })
  | .registerFunction fatBin hostFn deviceName =>
    ({}, { p with toGame := hipRegisterFunction hip p.toGame fatBin hostFn deviceName })
  | .registerVar => ({}, p)
  | .pushCallConfiguration thread gridDim blockDim sharedMem stream =>
    let (code, tls) := hipPushCallConfiguration p.tls thread gridDim blockDim sharedMem stream
    ({ code := some code }, p.afterConfig code tls)
  | .popCallConfiguration thread ptrs =>
    let (code, config, tls) := hipPopCallConfiguration p.tls thread ptrs
    ({ code := some code, config }, p.afterConfig code tls)
  | .getDeviceCount count => onSession (hipGetDeviceCount hip p.toSession count)
  | .getDevicePropertiesR0600 props device =>
    onSession (hipGetDevicePropertiesR0600 hip p.toSession props device)
  | .setDevice device => onSession (hipSetDevice hip p.toSession device)
  | .deviceSynchronize => onSession (hipDeviceSynchronize p.toSession)
  | .driverGetVersion version => onSession (hipDriverGetVersion p.toSession version)
  | .runtimeGetVersion version => onSession (hipRuntimeGetVersion p.toSession version)
  | .getLastError => onSession (hipGetLastError p.toSession)
  | .getErrorString error => ({ str := some (hipGetErrorString error) }, p)
  | .malloc ptrIsNull size =>
    let (code, ptr, s) := hipMalloc hip p.toSession ptrIsNull size
    ({ code := some code, ptr }, p.withSession s)
  | .free ptr => onCode (hipFree hip p.toSession ptr)
  | .memcpy dst src size kind => onCode (hipMemcpy hip p.toSession dst src size kind)
  | .memcpyAsync dst src size kind stream =>
    onCode (hipMemcpyAsync hip p.toSession dst src size kind stream)
  | .memcpyToSymbol => onSession (hipMemcpyToSymbol p.toSession)
  | .memset => onSession (hipMemset p.toSession)
  | .memsetAsync => onSession (hipMemsetAsync p.toSession)
  | .launchKernel function gridDim blockDim args sharedMem =>
    let (code, g) := hipLaunchKernel hip p.toGame function gridDim blockDim args sharedMem
    ({ code := some code }, { p with toGame := g })
  | .eventCreate event => onSession (hipEventCreate p.toSession event)
  | .eventRecord => onSession (hipEventRecord p.toSession)
  | .eventSynchronize => onSession (hipEventSynchronize p.toSession)
  | .eventElapsedTime ms => onSession (hipEventElapsedTime p.toSession ms)
  | .importExternalMemory extMem => onSession (hipImportExternalMemory p.toSession extMem)
  | .externalMemoryGetMappedBuffer devPtr =>
    onSession (hipExternalMemoryGetMappedBuffer p.toSession devPtr)
  | .destroyExternalMemory => onSession (hipDestroyExternalMemory p.toSession)
where
  onSession (r : Answer × Session D) : Answer × GameProcess T D := (r.1, p.withSession r.2)
  onCode (r : Int32 × Session D) : Answer × GameProcess T D :=
    ({ code := some r.1 }, p.withSession r.2)

/-- A call, or a write of the game to its own memory. -/
inductive GameStep (T : Type)
  | call (c : StubExport T)
  | write (dst : Ptr) (data : List UInt8)

def gameStep (hip : HipLib D) (p : GameProcess T D) : GameStep T → Answer × GameProcess T D
  | .call c => c.exec hip p
  | .write dst data => ({}, p.withSession { p.toSession with host := p.host.overwrite dst data })

end HipBridge.Stub
