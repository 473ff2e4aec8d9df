import HipBridge.Unixlib.Native

/-!
# The PE side (`pe_shim.c`)

* **`unixCall`** — `WINE_UNIX_CALL`: the opcode picks the handler from the dispatch table.
* **`mapRet`** — the way nearly every export ends: success if the handler left `0` in `ret`,
  otherwise a fixed error code that is also recorded as the sticky last error.
* **`hip…`** — the exports, one definition each. A pointer parameter that is only written
  through is a `Bool` saying whether the caller passed one; what is written is in `out`.
* **`PeCall.exec`** — all exports that return a `hipError_t` as one step function.
-/

namespace HipBridge.Unixlib

open Lib

/-! ## Dispatch -/

/-- `enum hip_unix_call`. -/
inductive HipUnixCall
  | getDeviceCount | setDevice | driverGetVersion | runtimeGetVersion | getErrorString
  | getDeviceProperties | malloc | free | memcpy | deviceSynchronize | registerFatBinary
  | registerFunction | unregisterFatBinary | launchKernel | importExternalMemory
  | externalMemoryGetMappedBuffer | destroyExternalMemory | eventCreate | eventRecord
  | eventSynchronize | eventQuery | eventElapsedTime | streamCreate | streamSynchronize
  | memset | memsetAsync | registerVar | memcpyToSymbol | memcpyAsync
deriving DecidableEq, Repr

/-- `__wine_unix_call_funcs`, each handler given by the opcode it implements. -/
def wineUnixCallFuncs : List HipUnixCall :=
  [ .getDeviceCount, .setDevice, .driverGetVersion, .runtimeGetVersion, .getErrorString
  , .getDeviceProperties, .malloc, .free, .memcpy, .deviceSynchronize, .registerFatBinary
  , .registerFunction, .unregisterFatBinary, .launchKernel, .importExternalMemory
  , .externalMemoryGetMappedBuffer, .destroyExternalMemory, .eventCreate, .eventRecord
  , .eventSynchronize, .eventQuery, .eventElapsedTime, .streamCreate, .streamSynchronize
  , .memset, .memsetAsync, .registerVar, .memcpyToSymbol, .memcpyAsync ]

/-- The dispatch table is in the order of the opcode enumeration, so every opcode reaches
its own handler. -/
theorem wineUnixCallFuncs_ctorIdx (c : HipUnixCall) : wineUnixCallFuncs[c.ctorIdx]? = some c := by
  cases c <;> rfl

/-- The argument struct of an opcode. -/
abbrev HipUnixCall.Args : HipUnixCall → Type
  | .getDeviceCount => ArgsGetDeviceCount
  | .setDevice => ArgsSetDevice
  | .driverGetVersion => ArgsGetVersion
  | .runtimeGetVersion => ArgsGetVersion
  | .getErrorString => ArgsGetErrorString
  | .getDeviceProperties => ArgsGetDeviceProperties
  | .malloc => ArgsMalloc
  | .free => ArgsFree
  | .memcpy => ArgsMemcpy
  | .deviceSynchronize => ArgsDeviceSynchronize
  | .registerFatBinary => ArgsRegisterFatBinary
  | .registerFunction => ArgsRegisterFunction
  | .unregisterFatBinary => ArgsUnregisterFatBinary
  | .launchKernel => ArgsLaunchKernel
  | .importExternalMemory => ArgsImportExternalMemory
  | .externalMemoryGetMappedBuffer => ArgsExternalMemoryGetMappedBuffer
  | .destroyExternalMemory => ArgsDestroyExternalMemory
  | .eventCreate => ArgsEventCreate
  | .eventRecord => ArgsEventRecord
  | .eventSynchronize => ArgsEvent
  | .eventQuery => ArgsEvent
  | .eventElapsedTime => ArgsEventElapsedTime
  | .streamCreate => ArgsStreamCreate
  | .streamSynchronize => ArgsStreamSynchronize
  | .memset => ArgsMemset
  | .memsetAsync => ArgsMemset
  | .registerVar => ArgsRegisterVar
  | .memcpyToSymbol => ArgsMemcpyToSymbol
  | .memcpyAsync => ArgsMemcpy

def unixCall (w : World) (s : NativeState) : (c : HipUnixCall) → c.Args → UnixResult c.Args
  | .getDeviceCount, a => unixGetDeviceCount w s a
  | .setDevice, a => unixSetDevice w s a
  | .driverGetVersion, a => unixDriverGetVersion w s a
  | .runtimeGetVersion, a => unixRuntimeGetVersion w s a
  | .getErrorString, a => unixGetErrorString w s a
  | .getDeviceProperties, a => unixGetDeviceProperties w s a
  | .malloc, a => unixMalloc w s a
  | .free, a => unixFree w s a
  | .memcpy, a => unixMemcpy w s a
  | .deviceSynchronize, a => unixDeviceSynchronize w s a
  | .registerFatBinary, a => unixRegisterFatBinary w s a
  | .registerFunction, a => unixRegisterFunction w s a
  | .unregisterFatBinary, a => unixUnregisterFatBinary s a
  | .launchKernel, a => unixLaunchKernel w s a
  | .importExternalMemory, a => unixImportExternalMemory w s a
  | .externalMemoryGetMappedBuffer, a => unixExternalMemoryGetMappedBuffer w s a
  | .destroyExternalMemory, a => unixDestroyExternalMemory w s a
  | .eventCreate, a => unixEventCreate w s a
  | .eventRecord, a => unixEventRecord w s a
  | .eventSynchronize, a => unixEventSynchronize w s a
  | .eventQuery, a => unixEventQuery w s a
  | .eventElapsedTime, a => unixEventElapsedTime w s a
  | .streamCreate, a => unixStreamCreate w s a
  | .streamSynchronize, a => unixStreamSynchronize w s a
  | .memset, a => unixMemset w s a
  | .memsetAsync, a => unixMemsetAsync w s a
  | .registerVar, a => unixRegisterVar w s a
  | .memcpyToSymbol, a => unixMemcpyToSymbol w s a
  | .memcpyAsync, a => unixMemcpyAsync w s a

/-! ## The process -/

def hipErrorNoDevice : Int32 := 100

def hipErrorNotSupported : Int32 := 801

abbrev callConfigStackSize : Nat := 16

/-- An element of `call_config_stack`. -/
@[ext]
structure CallConfig where
  grid : Dim3
  block : Dim3
  sharedMem : UInt64
  stream : Ptr
deriving DecidableEq, Repr

/-- The statics of `pe_shim.c`, and the native side they share a process with. -/
structure Process where
  lastError : Int32
  callConfigStack : SlotTable CallConfig callConfigStackSize
  native : NativeState

/-- The process right after the library is loaded. -/
def Process.init (env : Env) : Process where
  lastError := hipSuccess
  callConfigStack := .empty ⟨⟨0, 0, 0⟩, ⟨0, 0, 0⟩, 0, 0⟩
  native := NativeState.init env

/-- What an export returns and leaves behind. `unixRet` is what the handler stored in the
argument struct's `ret`, when a `WINE_UNIX_CALL` was made. -/
structure PeResult (α : Type) where
  ret : Int32
  out : α
  proc : Process
  unixRet : Option Int32 := none

section Exports

variable (w : World) (p : Process)

/-- `WINE_UNIX_CALL(code, &a)`. -/
def wineUnixCall (c : HipUnixCall) (a : c.Args) : c.Args × Process :=
  let r := unixCall w p.native c a
  (r.args, { p with native := r.state })

/-- `return set_last_error(code);` before any unix call is made. -/
def reject {α : Type} (code : Int32) (out : α) : PeResult α :=
  { ret := code, out, proc := { p with lastError := code } }

/-- `return a.ret == HIP_SUCCESS ? HIP_SUCCESS : set_last_error(code);` -/
def mapRet {α : Type} (unixRet code : Int32) (out : α) : PeResult α :=
  if unixRet = hipSuccess then { ret := hipSuccess, out, proc := p, unixRet := some unixRet }
  else { ret := code, out, proc := { p with lastError := code }, unixRet := some unixRet }

/-- `if (param) *param = value;` -/
def writeIf {α : Type} (given : Bool) (value : α) : Option α := if given then some value else none

/-! ## Fat-binary bootstrap -/

def hipRegisterFatBinary (data : Ptr) : Ptr × Process :=
  let (a, p) := wineUnixCall w p .registerFatBinary { data }
  (a.fatbinToken, p)

def hipRegisterFunction (fatbinToken hostFn : Ptr) (deviceName : Option CString) : Process :=
  (wineUnixCall w p .registerFunction { fatbinToken, hostFn, deviceName }).2

def hipRegisterVar (fatbinToken hostVar : Ptr) (deviceName : Option CString) : Process :=
  (wineUnixCall w p .registerVar { fatbinToken, hostVar, deviceName }).2

def hipUnregisterFatBinary (fatbinToken : Ptr) : Process :=
  (wineUnixCall w p .unregisterFatBinary { fatbinToken }).2

/-- What `__hipPopCallConfiguration` writes through its four output pointers. -/
structure PoppedConfig where
  grid : Option Dim3
  block : Option Dim3
  sharedMem : Option UInt64
  stream : Option Ptr
deriving DecidableEq, Repr

/-- Which of its four output pointers a caller of pop passes. -/
structure PopPointers where
  gridDim : Bool
  blockDim : Bool
  sharedMem : Bool
  stream : Bool
deriving DecidableEq, Repr

/-- Nothing is written. -/
def PoppedConfig.none : PoppedConfig := ⟨.none, .none, .none, .none⟩

/-- Writing a configuration through the pointers that were passed. -/
def PopPointers.write (ptrs : PopPointers) (cfg : CallConfig) : PoppedConfig where
  grid := writeIf ptrs.gridDim cfg.grid
  block := writeIf ptrs.blockDim cfg.block
  sharedMem := writeIf ptrs.sharedMem cfg.sharedMem
  stream := writeIf ptrs.stream cfg.stream

/-- `__hipPushCallConfiguration`, under `call_config_lock`. -/
def hipPushCallConfiguration (gridDim blockDim : Option Dim3) (sharedMem : UInt64) (stream : Ptr) :
    PeResult Unit :=
  match gridDim, blockDim with
  | some grid, some block =>
    -- a full stack refuses the configuration and keeps the sixteen it has
    if h : callConfigStackSize ≤ p.callConfigStack.count then reject p hipErrorNotSupported ()
    else
      let stack := p.callConfigStack.push ⟨grid, block, sharedMem, stream⟩ (by omega)
      { ret := hipSuccess, out := (), proc := { p with callConfigStack := stack } }
  | _, _ => reject p hipErrorNotSupported ()

/-- `__hipPopCallConfiguration`, under `call_config_lock`. -/
def hipPopCallConfiguration (ptrs : PopPointers) : PeResult PoppedConfig :=
  if h : p.callConfigStack.count = 0 then reject p hipErrorNotSupported .none
  else
    -- the top of the one stack, whichever thread pushed it
    let cfg := p.callConfigStack.last (by omega)
    { ret := hipSuccess
      out := ptrs.write cfg
      proc := { p with callConfigStack := p.callConfigStack.pop } }

/-! ## Device and runtime queries -/

def hipGetDeviceCount (count : Bool) : PeResult (Option Int32) :=
  let (a, p) := wineUnixCall w p .getDeviceCount {}
  mapRet p a.ret hipErrorNoDevice (writeIf count a.count)

def hipGetDevicePropertiesR0600 (props : Ptr) (device : Int32) : PeResult Unit :=
  let (a, p) := wineUnixCall w p .getDeviceProperties { props, device }
  mapRet p a.ret hipErrorNotSupported ()

def hipSetDevice (device : Int32) : PeResult Unit :=
  let (a, p) := wineUnixCall w p .setDevice { device }
  mapRet p a.ret hipErrorNoDevice ()

def hipDeviceSynchronize : PeResult Unit :=
  let (a, p) := wineUnixCall w p .deviceSynchronize {}
  mapRet p a.ret hipErrorNotSupported ()

/-- Unlike its siblings, this export does not look at `a.ret`. -/
def hipDriverGetVersion (version : Bool) : PeResult (Option Int32) :=
  let (a, p) := wineUnixCall w p .driverGetVersion {}
  { ret := hipSuccess, out := writeIf version a.version, proc := p, unixRet := some a.ret }

/-- Unlike its siblings, this export does not look at `a.ret`. -/
def hipRuntimeGetVersion (version : Bool) : PeResult (Option Int32) :=
  let (a, p) := wineUnixCall w p .runtimeGetVersion {}
  { ret := hipSuccess, out := writeIf version a.version, proc := p, unixRet := some a.ret }

/-- `hip_get_last_error_and_reset` (`last_error.c`): the code returned and the new state. -/
def hipGetLastErrorAndReset (current successCode : Int32) : Int32 × Int32 := (current, successCode)

def hipGetLastError : PeResult Unit :=
  let (ret, state) := hipGetLastErrorAndReset p.lastError hipSuccess
  { ret, out := (), proc := { p with lastError := state } }

def hipGetErrorString (error : Int32) : Option CString × Process :=
  let (a, p) := wineUnixCall w p .getErrorString { error }
  (a.retStr, p)

/-! ## Memory -/

/-- `hip_memcpy_kind_supported` (`memcpy_kind.c`): `HIP_MEMCPY_HOST_TO_HOST` up to
`HIP_MEMCPY_DEFAULT`. -/
def hipMemcpyKindSupported (kind : Int32) : Bool := 0 ≤ kind && kind ≤ 4

def hipMalloc (ptr : Bool) (size : UInt64) : PeResult (Option Ptr) :=
  let (a, p) := wineUnixCall w p .malloc { size }
  mapRet p a.ret hipErrorNoDevice (writeIf ptr a.ptr)

def hipFree (ptr : Ptr) : PeResult Unit :=
  -- freeing null succeeds without a unix call
  if ptr = 0 then { ret := hipSuccess, out := (), proc := p }
  else
    let (a, p) := wineUnixCall w p .free { ptr }
    mapRet p a.ret hipErrorNotSupported ()

def memcpyForward (dst src : Ptr) (size : UInt64) (kind : Int32) : PeResult Unit :=
  if !hipMemcpyKindSupported kind then reject p hipErrorNotSupported ()
  else
    let (a, p) := wineUnixCall w p .memcpy { dst, src, size, kind }
    mapRet p a.ret hipErrorNotSupported ()

def hipMemcpy (dst src : Ptr) (size : UInt64) (kind : Int32) : PeResult Unit :=
  memcpyForward w p dst src size kind

def hipMemcpyAsync (dst src : Ptr) (size : UInt64) (kind : Int32) (stream : Ptr) :
    PeResult Unit :=
  if !hipMemcpyKindSupported kind then reject p hipErrorNotSupported ()
  else
    let (a, p) := wineUnixCall w p .memcpyAsync { dst, src, size, kind, stream }
    mapRet p a.ret hipErrorNotSupported ()

def hipMemcpyToSymbol (symbol src : Ptr) (size offset : UInt64) (kind : Int32) :
    PeResult Unit :=
  if !hipMemcpyKindSupported kind then reject p hipErrorNotSupported ()
  else
    let (a, p) := wineUnixCall w p .memcpyToSymbol { symbol, src, size, offset, kind }
    mapRet p a.ret hipErrorNotSupported ()

def memsetForward (ptr : Ptr) (value : Int32) (size : UInt64) : PeResult Unit :=
  let (a, p) := wineUnixCall w p .memset { ptr, value, size }
  mapRet p a.ret hipErrorNotSupported ()

def hipMemset (ptr : Ptr) (value : Int32) (size : UInt64) : PeResult Unit :=
  memsetForward w p ptr value size

def hipMemsetAsync (ptr : Ptr) (value : Int32) (size : UInt64) (stream : Ptr) : PeResult Unit :=
  let (a, p) := wineUnixCall w p .memsetAsync { ptr, value, size, stream }
  mapRet p a.ret hipErrorNotSupported ()

/-! ## Events and streams -/

def hipEventCreate (event : Bool) : PeResult (Option Ptr) :=
  let (a, p) := wineUnixCall w p .eventCreate { flags := 0 }
  mapRet p a.ret hipErrorNotSupported (writeIf event a.event)

def hipEventCreateWithFlags (event : Bool) (flags : UInt32) : PeResult (Option Ptr) :=
  let (a, p) := wineUnixCall w p .eventCreate { flags }
  mapRet p a.ret hipErrorNotSupported (writeIf event a.event)

def hipEventQuery (event : Ptr) : PeResult Unit :=
  let (a, p) := wineUnixCall w p .eventQuery { event }
  mapRet p a.ret hipErrorNotSupported ()

def hipStreamCreateWithFlags (stream : Bool) (flags : UInt32) : PeResult (Option Ptr) :=
  let (a, p) := wineUnixCall w p .streamCreate { flags }
  mapRet p a.ret hipErrorNotSupported (writeIf stream a.stream)

def hipStreamSynchronize (stream : Ptr) : PeResult Unit :=
  let (a, p) := wineUnixCall w p .streamSynchronize { stream }
  mapRet p a.ret hipErrorNotSupported ()

def hipEventRecord (event stream : Ptr) : PeResult Unit :=
  let (a, p) := wineUnixCall w p .eventRecord { event, stream }
  mapRet p a.ret hipErrorNotSupported ()

def hipEventSynchronize (event : Ptr) : PeResult Unit :=
  let (a, p) := wineUnixCall w p .eventSynchronize { event }
  mapRet p a.ret hipErrorNotSupported ()

def hipEventElapsedTime (ms : Bool) (start stop : Ptr) : PeResult (Option UInt32) :=
  let (a, p) := wineUnixCall w p .eventElapsedTime { start, stop }
  mapRet p a.ret hipErrorNotSupported (writeIf ms a.ms)

/-! ## External memory -/

/-- `struct hip_ext_mem_handle_desc`; the union is its two 64-bit words. -/
structure HipExtMemHandleDesc where
  type : Int32
  handle0 : UInt64
  handle1 : UInt64
  size : UInt64
  flags : UInt32
deriving DecidableEq, Repr

/-- `handle.fd`, the low half of the union's first word. -/
def HipExtMemHandleDesc.fd (d : HipExtMemHandleDesc) : Int32 := d.handle0.toUInt32.toInt32

/-- `handle.win32.handle`. -/
def HipExtMemHandleDesc.win32Handle (d : HipExtMemHandleDesc) : Ptr := d.handle0

/-- `struct hip_ext_mem_buffer_desc`. -/
structure HipExtMemBufferDesc where
  offset : UInt64
  size : UInt64
  flags : UInt32
deriving DecidableEq, Repr

/-- `hip_ext_mem_extract_fd` (`ext_mem.c`). -/
def hipExtMemExtractFd (desc : Option HipExtMemHandleDesc) : Int32 :=
  match desc with
  | none => -1
  | some d =>
    if d.type = extMemTypeOpaqueFd then d.fd
    else if d.type = extMemTypeD3D12Resource then d.win32Handle.toUInt32.toInt32
    else -1

def hipImportExternalMemory (extMem : Bool) (handleDesc : Option HipExtMemHandleDesc) :
    PeResult (Option Ptr) :=
  match handleDesc with
  | none => reject p hipErrorNotSupported (writeIf extMem 0)
  | some d =>
    let fd := hipExtMemExtractFd (some d)
    if fd < 0 then reject p hipErrorNotSupported (writeIf extMem 0)
    else
      let (a, p) := wineUnixCall w p .importExternalMemory { fd, size := d.size, flags := d.flags }
      mapRet p a.ret hipErrorNotSupported (writeIf extMem a.extMem)

def hipExternalMemoryGetMappedBuffer (devPtr : Bool) (extMem : Ptr)
    (bufferDesc : Option HipExtMemBufferDesc) : PeResult (Option Ptr) :=
  match bufferDesc with
  | none => reject p hipErrorNotSupported (writeIf devPtr 0)
  | some d =>
    let (a, p) := wineUnixCall w p .externalMemoryGetMappedBuffer
      { extMem, offset := d.offset, size := d.size, flags := d.flags }
    mapRet p a.ret hipErrorNotSupported (writeIf devPtr a.devPtr)

def hipDestroyExternalMemory (extMem : Ptr) : PeResult Unit :=
  let (a, p) := wineUnixCall w p .destroyExternalMemory { extMem }
  mapRet p a.ret hipErrorNotSupported ()

/-! ## Kernel execution -/

/-- `args` is what the caller's `void **args` points at, if it is not `NULL`. -/
def hipLaunchKernel (function : Ptr) (gridDim blockDim : Option Dim3) (args : Option Ptr)
    (sharedMem : UInt64) (stream : Ptr) : PeResult Unit :=
  match gridDim, blockDim, args with
  | some grid, some block, some args0 =>
    -- only the first argument goes on: the packed argument buffer
    if args0 = 0 then reject p hipErrorNotSupported ()
    else
      let (a, p) := wineUnixCall w p .launchKernel
        { hostFn := function, grid, block, args := args0
          sharedMem := sharedMem.toUInt32, stream }
      mapRet p a.ret hipErrorNotSupported ()
  | _, _, _ => reject p hipErrorNotSupported ()

end Exports

/-! ## All exports that return a `hipError_t` -/

inductive PeCall
  | pushCallConfiguration (gridDim blockDim : Option Dim3) (sharedMem : UInt64) (stream : Ptr)
  | popCallConfiguration (ptrs : PopPointers)
  | getDeviceCount (count : Bool)
  | getDevicePropertiesR0600 (props : Ptr) (device : Int32)
  | setDevice (device : Int32)
  | deviceSynchronize
  | driverGetVersion (version : Bool)
  | runtimeGetVersion (version : Bool)
  | getLastError
  | malloc (ptr : Bool) (size : UInt64)
  | free (ptr : Ptr)
  | memcpy (dst src : Ptr) (size : UInt64) (kind : Int32)
  | memcpyAsync (dst src : Ptr) (size : UInt64) (kind : Int32) (stream : Ptr)
  | memcpyToSymbol (symbol src : Ptr) (size offset : UInt64) (kind : Int32)
  | memset (ptr : Ptr) (value : Int32) (size : UInt64)
  | memsetAsync (ptr : Ptr) (value : Int32) (size : UInt64) (stream : Ptr)
  | eventCreate (event : Bool)
  | eventCreateWithFlags (event : Bool) (flags : UInt32)
  | eventQuery (event : Ptr)
  | streamCreateWithFlags (stream : Bool) (flags : UInt32)
  | streamSynchronize (stream : Ptr)
  | eventRecord (event stream : Ptr)
  | eventSynchronize (event : Ptr)
  | eventElapsedTime (ms : Bool) (start stop : Ptr)
  | importExternalMemory (extMem : Bool) (handleDesc : Option HipExtMemHandleDesc)
  | externalMemoryGetMappedBuffer (devPtr : Bool) (extMem : Ptr)
      (bufferDesc : Option HipExtMemBufferDesc)
  | destroyExternalMemory (extMem : Ptr)
  | launchKernel (function : Ptr) (gridDim blockDim : Option Dim3) (args : Option Ptr)
      (sharedMem : UInt64) (stream : Ptr)

/-- The part of a result every export has. -/
def PeResult.forget {α : Type} (r : PeResult α) : PeResult Unit := { r with out := () }

def PeCall.exec (w : World) (p : Process) : PeCall → PeResult Unit
  | .pushCallConfiguration gridDim blockDim sharedMem stream =>
    hipPushCallConfiguration p gridDim blockDim sharedMem stream
  | .popCallConfiguration ptrs => (hipPopCallConfiguration p ptrs).forget
  | .getDeviceCount count => (hipGetDeviceCount w p count).forget
  | .getDevicePropertiesR0600 props device => hipGetDevicePropertiesR0600 w p props device
  | .setDevice device => hipSetDevice w p device
  | .deviceSynchronize => hipDeviceSynchronize w p
  | .driverGetVersion version => (hipDriverGetVersion w p version).forget
  | .runtimeGetVersion version => (hipRuntimeGetVersion w p version).forget
  | .getLastError => hipGetLastError p
  | .malloc ptr size => (hipMalloc w p ptr size).forget
  | .free ptr => hipFree w p ptr
  | .memcpy dst src size kind => hipMemcpy w p dst src size kind
  | .memcpyAsync dst src size kind stream => hipMemcpyAsync w p dst src size kind stream
  | .memcpyToSymbol symbol src size offset kind => hipMemcpyToSymbol w p symbol src size offset kind
  | .memset ptr value size => hipMemset w p ptr value size
  | .memsetAsync ptr value size stream => hipMemsetAsync w p ptr value size stream
  | .eventCreate event => (hipEventCreate w p event).forget
  | .eventCreateWithFlags event flags => (hipEventCreateWithFlags w p event flags).forget
  | .eventQuery event => hipEventQuery w p event
  | .streamCreateWithFlags stream flags => (hipStreamCreateWithFlags w p stream flags).forget
  | .streamSynchronize stream => hipStreamSynchronize w p stream
  | .eventRecord event stream => hipEventRecord w p event stream
  | .eventSynchronize event => hipEventSynchronize w p event
  | .eventElapsedTime ms start stop => (hipEventElapsedTime w p ms start stop).forget
  | .importExternalMemory extMem desc => (hipImportExternalMemory w p extMem desc).forget
  | .externalMemoryGetMappedBuffer devPtr extMem desc =>
    (hipExternalMemoryGetMappedBuffer w p devPtr extMem desc).forget
  | .destroyExternalMemory extMem => hipDestroyExternalMemory w p extMem
  | .launchKernel function gridDim blockDim args sharedMem stream =>
    hipLaunchKernel w p function gridDim blockDim args sharedMem stream

end HipBridge.Unixlib
