import HipBridge.Unixlib.Registry

/-!
# The native side (`unixlib.h`, `native.c` and its small helper files)

* **`World`** — what the process meets during one unix call: which `dlopen` candidates load
  and what they export, the mapped memory, and the reply of the real HIP library to each
  call. Every theorem quantifies over it, so every outcome is covered.
* **`NativeState`** — the statics of `native.c`, `registry.c` and `alloc_cap.c`, and the two
  environment variables they read and write.
* **`unix…`** — the handlers, one per opcode. A handler returns the argument struct as it
  leaves it, the new state, and the real HIP call it made, if any.

Logging is left out; the two mutexes only make a handler's table access one step.
-/

namespace HipBridge.Unixlib

open Lib

def hipSuccess : Int32 := 0

def hipErrorOutOfMemory : Int32 := 2

/-! ## The argument structs (`unixlib.h`) -/

structure ArgsGetDeviceCount where
  count : Int32 := 0
  ret : Int32 := 0

structure ArgsSetDevice where
  device : Int32
  ret : Int32 := 0

/-- `args_driver_get_version` and `args_runtime_get_version`. -/
structure ArgsGetVersion where
  version : Int32 := 0
  ret : Int32 := 0

structure ArgsGetErrorString where
  error : Int32
  retStr : Option CString := none

structure ArgsGetDeviceProperties where
  props : Ptr
  device : Int32
  ret : Int32 := 0

structure ArgsMalloc where
  ptr : Ptr := 0
  size : UInt64
  ret : Int32 := 0

structure ArgsFree where
  ptr : Ptr
  ret : Int32 := 0

structure ArgsMemcpy where
  dst : Ptr
  src : Ptr
  size : UInt64
  kind : Int32
  stream : Ptr := 0
  ret : Int32 := 0

structure ArgsMemset where
  ptr : Ptr
  value : Int32
  size : UInt64
  stream : Ptr := 0
  ret : Int32 := 0

structure ArgsDeviceSynchronize where
  ret : Int32 := 0

structure ArgsRegisterFatBinary where
  data : Ptr
  fatbinToken : Ptr := 0

structure ArgsRegisterFunction where
  fatbinToken : Ptr
  hostFn : Ptr
  deviceName : Option CString

structure ArgsUnregisterFatBinary where
  fatbinToken : Ptr

structure ArgsRegisterVar where
  fatbinToken : Ptr
  hostVar : Ptr
  deviceName : Option CString

structure ArgsMemcpyToSymbol where
  symbol : Ptr
  src : Ptr
  size : UInt64
  offset : UInt64
  kind : Int32
  ret : Int32 := 0

/-- `struct dim3_value`, and `struct dim3_pe` of `pe_shim.c`. -/
structure Dim3 where
  x : UInt32
  y : UInt32
  z : UInt32
deriving DecidableEq, Repr

structure ArgsLaunchKernel where
  hostFn : Ptr
  grid : Dim3
  block : Dim3
  args : Ptr
  sharedMem : UInt32
  stream : Ptr
  ret : Int32 := 0

structure ArgsImportExternalMemory where
  fd : Int32
  size : UInt64
  flags : UInt32
  extMem : Ptr := 0
  ret : Int32 := 0

structure ArgsExternalMemoryGetMappedBuffer where
  extMem : Ptr
  offset : UInt64
  size : UInt64
  flags : UInt32
  devPtr : Ptr := 0
  ret : Int32 := 0

structure ArgsDestroyExternalMemory where
  extMem : Ptr
  ret : Int32 := 0

structure ArgsEventCreate where
  flags : UInt32
  event : Ptr := 0
  ret : Int32 := 0

structure ArgsEventRecord where
  event : Ptr
  stream : Ptr
  ret : Int32 := 0

/-- `args_event_synchronize` and `args_event_query`. -/
structure ArgsEvent where
  event : Ptr
  ret : Int32 := 0

/-- `ms` is the bit pattern of the `float`. -/
structure ArgsEventElapsedTime where
  start : Ptr
  stop : Ptr
  ms : UInt32 := 0
  ret : Int32 := 0

structure ArgsStreamCreate where
  flags : UInt32
  stream : Ptr := 0
  ret : Int32 := 0

structure ArgsStreamSynchronize where
  stream : Ptr
  ret : Int32 := 0

/-! ## The real HIP library -/

/-- The function pointers `native.c` fills by `dlsym`. -/
inductive HipSym
  | hipMalloc | hipFree | hipMemcpy | hipMemset | hipMemcpyAsync | hipMemsetAsync
  | hipGetErrorString | hipGetDeviceCount | hipSetDevice | hipDriverGetVersion
  | hipRuntimeGetVersion | hipImportExternalMemory | hipExternalMemoryGetMappedBuffer
  | hipDestroyExternalMemory | hipEventCreate | hipEventCreateWithFlags | hipEventRecord
  | hipEventSynchronize | hipEventQuery | hipEventElapsedTime | hipStreamCreateWithFlags
  | hipStreamSynchronize | hipDeviceSynchronize | hipGetDevicePropertiesR0600
  | hipModuleLoadData | hipModuleGetFunction | hipModuleGetGlobal | hipModuleLaunchKernel
deriving DecidableEq, Repr

/-- A loaded `libamdhip64.so`: the symbols `dlsym` finds in it. -/
abbrev HipLibrary := HipSym → Bool

/-- A call into the real HIP library, with its input arguments. -/
inductive HipCall
  | malloc (size : UInt64)
  | free (ptr : Ptr)
  | memcpy (dst src : Ptr) (size : UInt64) (kind : Int32)
  | memset (ptr : Ptr) (value : Int32) (size : UInt64)
  | memcpyAsync (dst src : Ptr) (size : UInt64) (kind : Int32) (stream : Ptr)
  | memsetAsync (ptr : Ptr) (value : Int32) (size : UInt64) (stream : Ptr)
  | getErrorString (error : Int32)
  | getDeviceCount
  | setDevice (device : Int32)
  | driverGetVersion
  | runtimeGetVersion
  | importExternalMemory (type fd : Int32) (size : UInt64) (flags : UInt32)
  | externalMemoryGetMappedBuffer (extMem : Ptr) (offset size : UInt64) (flags : UInt32)
  | destroyExternalMemory (extMem : Ptr)
  | eventCreate
  | eventCreateWithFlags (flags : UInt32)
  | eventRecord (event stream : Ptr)
  | eventSynchronize (event : Ptr)
  | eventQuery (event : Ptr)
  | eventElapsedTime (start stop : Ptr)
  | streamCreateWithFlags (flags : UInt32)
  | streamSynchronize (stream : Ptr)
  | deviceSynchronize
  | getDevicePropertiesR0600 (props : Ptr) (device : Int32)
  | moduleLoadData (bundle : Ptr)
  | moduleGetFunction (module : Ptr) (name : Option CString)
  | moduleGetGlobal (module : Ptr) (name : Option CString)
  | moduleLaunchKernel (function : Ptr) (grid block : Dim3) (sharedMem : UInt32)
      (stream args : Ptr)
deriving DecidableEq

/-- What the real library answers: its `hipError_t`, and what its output parameters hold
afterwards, whichever of them the call has. -/
structure HipReply where
  ret : Int32
  ptr : Ptr := 0
  size : UInt64 := 0
  int : Int32 := 0
  ms : UInt32 := 0
  str : Option CString := none

/-- What the process meets during one unix call. -/
structure World where
  dlopen : String → Option HipLibrary
  mem : Memory
  hip : HipCall → HipReply

/-! ## The statics -/

/-- The environment variables the native side reads. -/
structure Env where
  ldLibraryPath : Option CString
  vramCapBytes : Option CString

structure NativeState where
  env : Env
  hipHandle : Option HipLibrary
  registry : Registry
  allocCap : AllocCap
  vramCapBytes : UInt64
  vramCapRead : Bool

/-- The statics at load time. -/
def NativeState.init (env : Env) : NativeState where
  env := env
  hipHandle := none
  registry := Registry.init
  allocCap := AllocCap.init
  vramCapBytes := 0
  vramCapRead := false

/-- Whether the `p_hip…` pointer of a symbol is non-null. -/
def NativeState.hasSym (s : NativeState) (sym : HipSym) : Bool :=
  match s.hipHandle with
  | some lib => lib sym
  | none => false

/-- What a handler leaves behind. `fault` is an access violation, which ends the process. -/
structure UnixResult (A : Type) where
  args : A
  state : NativeState
  issued : Option HipCall := none
  fault : Bool := false

/-! ## Loading the library -/

def candidates : List String :=
  [ "/opt/rocm-7.2.4/lib/libamdhip64.so.7"
  , "/run/host/opt/rocm-7.2.4/lib/libamdhip64.so.7"
  , "/run/host/opt/rocm/lib/libamdhip64.so.7"
  , "/run/host/opt/rocm/lib/libamdhip64.so.6"
  , "/opt/rocm/lib/libamdhip64.so.7"
  , "/opt/rocm/lib/libamdhip64.so.6"
  , "/run/host/usr/lib/x86_64-linux-gnu/libamdhip64.so.7"
  , "/run/host/usr/lib/x86_64-linux-gnu/libamdhip64.so.6"
  , "/usr/lib/x86_64-linux-gnu/libamdhip64.so.7"
  , "/usr/lib/x86_64-linux-gnu/libamdhip64.so.6"
  , "libamdhip64.so.7", "libamdhip64.so.6", "libamdhip64.so" ]

set_option maxRecDepth 8000 in
/-- The directories put in front of `LD_LIBRARY_PATH`. -/
def rocmLibDirs : CString :=
  .ofLiteral ("/opt/rocm-7.2.4/lib:/run/host/opt/rocm-7.2.4/lib:/run/host/opt/rocm/lib:" ++
    "/opt/rocm/lib:/run/host/usr/lib/x86_64-linux-gnu:/run/host/lib/x86_64-linux-gnu") (by decide)

/-- `char new_ld_path[4096]`. -/
def newLdPathSize : Nat := 4096

/-- The value `ensure_loaded` gives `LD_LIBRARY_PATH`. -/
def newLdPath (existing : Option CString) : CString :=
  match existing with
  | some path =>
    if path.bytes = [] then .snprintfFits newLdPathSize rocmLibDirs
    else .snprintfFits newLdPathSize ((rocmLibDirs.append (.ofLiteral ":" (by decide))).append path)
  | none => .snprintfFits newLdPathSize rocmLibDirs

def ensureLoaded (w : World) (s : NativeState) : Bool × NativeState :=
  match s.hipHandle with
  | some _ => (true, s)
  | none =>
    -- set before the first candidate is tried, and kept if none of them loads
    let s := { s with env.ldLibraryPath := some (newLdPath s.env.ldLibraryPath) }
    match candidates.findSome? w.dlopen with
    | some lib => (true, { s with hipHandle := some lib })
    | none => (false, s)

/-- `ensure_loaded() && p_sym`, and the reply of the real call when both hold. -/
def tryHip (w : World) (s : NativeState) (sym : HipSym) (call : HipCall) :
    Option HipReply × NativeState :=
  let (loaded, s) := ensureLoaded w s
  (if loaded && s.hasSym sym then some (w.hip call) else none, s)

/-! ## The helper files -/

/-- `hip_version_query_apply` (`version_query.c`). -/
def hipVersionQueryApply (haveSymbol : Bool) (realVersion realRet : Int32) : Int32 × Int32 :=
  if !haveSymbol then (0, -1) else (realVersion, realRet)

/-- `hip_forward_ptr_result` (`hip_forward.c`). -/
def hipForwardPtrResult (haveSymbol : Bool) (realPtr : Ptr) (realRet : Int32) : Ptr × Int32 :=
  if !haveSymbol then (0, -1) else (realPtr, realRet)

/-! ## The three shapes of handler

`forwardRet`: `-1` when there is no symbol, else the real code. `forwardVersion` and
`forwardPtr`: the same through the helper files, with a version or a pointer besides. -/

section Shapes

variable {A : Type} (w : World) (s : NativeState) (sym : HipSym) (call : HipCall)

/-- `if (!ensure_loaded() || !p_sym) { a->ret = -1; return; }`, then the real call; `store`
fills the argument struct from the reply. -/
def forwardRet (missing : A) (store : HipReply → A) : UnixResult A :=
  let (reply, s) := tryHip w s sym call
  match reply with
  | some r => { args := store r, state := s, issued := some call }
  | none => { args := missing, state := s }

def forwardVersion (store : Int32 → Int32 → A) : UnixResult A :=
  let (reply, s) := tryHip w s sym call
  let (version, ret) := hipVersionQueryApply reply.isSome
    (reply.elim 0 HipReply.int) (reply.elim (-1) HipReply.ret)
  { args := store version ret, state := s, issued := reply.map fun _ => call }

def forwardPtr (store : Ptr → Int32 → A) : UnixResult A :=
  let (reply, s) := tryHip w s sym call
  let (ptr, ret) := hipForwardPtrResult reply.isSome
    (reply.elim 0 HipReply.ptr) (reply.elim (-1) HipReply.ret)
  { args := store ptr ret, state := s, issued := reply.map fun _ => call }

end Shapes

/-! ## The handlers -/

section Handlers

variable (w : World) (s : NativeState)

def unixGetDeviceCount (a : ArgsGetDeviceCount) : UnixResult ArgsGetDeviceCount :=
  forwardRet w s .hipGetDeviceCount .getDeviceCount { a with ret := -1 }
    fun r => { a with count := r.int, ret := r.ret }

def unixSetDevice (a : ArgsSetDevice) : UnixResult ArgsSetDevice :=
  forwardRet w s .hipSetDevice (.setDevice a.device) { a with ret := -1 }
    fun r => { a with ret := r.ret }

def unixDriverGetVersion (a : ArgsGetVersion) : UnixResult ArgsGetVersion :=
  forwardVersion w s .hipDriverGetVersion .driverGetVersion
    fun version ret => { a with version, ret }

def unixRuntimeGetVersion (a : ArgsGetVersion) : UnixResult ArgsGetVersion :=
  forwardVersion w s .hipRuntimeGetVersion .runtimeGetVersion
    fun version ret => { a with version, ret }

def errorStringFallback : CString :=
  .ofLiteral "amdhip64_7 unixlib: HIP not available" (by decide)

def unixGetErrorString (a : ArgsGetErrorString) : UnixResult ArgsGetErrorString :=
  forwardRet w s .hipGetErrorString (.getErrorString a.error)
    { a with retStr := some errorStringFallback } fun r => { a with retStr := r.str }

def unixGetDeviceProperties (a : ArgsGetDeviceProperties) : UnixResult ArgsGetDeviceProperties :=
  forwardRet w s .hipGetDevicePropertiesR0600 (.getDevicePropertiesR0600 a.props a.device)
    { a with ret := -1 } fun r => { a with ret := r.ret }

/-- `isspace` in the C locale. -/
def isSpace (b : UInt8) : Bool := b == 32 || (9 ≤ b && b ≤ 13)

def isDigit (b : UInt8) : Bool := 48 ≤ b && b ≤ 57

/-- `strtoull(s, NULL, 10)`: blanks, a sign, digits; saturated at `ULLONG_MAX`, and a minus
sign negates modulo `2 ^ 64`. -/
def strtoull (s : CString) : UInt64 :=
  let rest := s.bytes.dropWhile isSpace
  let (negative, digits) := match rest with
    | 45 :: ds => (true, ds)
    | 43 :: ds => (false, ds)
    | ds => (false, ds)
  let n := (digits.takeWhile isDigit).foldl (fun n d => 10 * n + (d.toNat - 48)) 0
  if 2 ^ 64 ≤ n then UInt64.ofNat (2 ^ 64 - 1)
  else if negative then 0 - UInt64.ofNat n else UInt64.ofNat n

def ensureVramCapRead (s : NativeState) : NativeState :=
  if s.vramCapRead then s
  else
    let s := { s with vramCapRead := true }
    match s.env.vramCapBytes with
    | some env => if env.bytes = [] then s else { s with vramCapBytes := strtoull env }
    | none => s

def unixMalloc (a : ArgsMalloc) : UnixResult ArgsMalloc :=
  let (loaded, s) := ensureLoaded w s
  if !loaded || !s.hasSym .hipMalloc then { args := { a with ptr := 0, ret := -1 }, state := s }
  else
    let s := ensureVramCapRead s
    if allocCapWouldExceed (allocCapTotal s.allocCap) a.size s.vramCapBytes then
      -- a refused request never reaches the real library
      { args := { a with ptr := 0, ret := hipErrorOutOfMemory }, state := s }
    else
      let r := w.hip (.malloc a.size)
      -- the result of `alloc_cap_record` is dropped: a block it has no room for is still handed out
      let allocCap :=
        if r.ret = 0 ∧ r.ptr ≠ 0 then (allocCapRecord s.allocCap r.ptr a.size).2 else s.allocCap
      { args := { a with ptr := r.ptr, ret := r.ret }
        state := { s with allocCap }
        issued := some (.malloc a.size) }

def unixFree (a : ArgsFree) : UnixResult ArgsFree :=
  let (loaded, s) := ensureLoaded w s
  if !loaded || !s.hasSym .hipFree then { args := { a with ret := -1 }, state := s }
  else
    let r := w.hip (.free a.ptr)
    -- the record goes only after the block has gone
    let allocCap := if r.ret = 0 then (allocCapRelease s.allocCap a.ptr).2 else s.allocCap
    { args := { a with ret := r.ret }
      state := { s with allocCap }
      issued := some (.free a.ptr) }

def unixMemcpy (a : ArgsMemcpy) : UnixResult ArgsMemcpy :=
  forwardRet w s .hipMemcpy (.memcpy a.dst a.src a.size a.kind) { a with ret := -1 }
    fun r => { a with ret := r.ret }

def unixMemset (a : ArgsMemset) : UnixResult ArgsMemset :=
  forwardRet w s .hipMemset (.memset a.ptr a.value a.size) { a with ret := -1 }
    fun r => { a with ret := r.ret }

def unixMemcpyAsync (a : ArgsMemcpy) : UnixResult ArgsMemcpy :=
  forwardRet w s .hipMemcpyAsync (.memcpyAsync a.dst a.src a.size a.kind a.stream)
    { a with ret := -1 } fun r => { a with ret := r.ret }

def unixMemsetAsync (a : ArgsMemset) : UnixResult ArgsMemset :=
  forwardRet w s .hipMemsetAsync (.memsetAsync a.ptr a.value a.size a.stream)
    { a with ret := -1 } fun r => { a with ret := r.ret }

/-- `find_module`, under `registry_mutex`. -/
def findModule (s : NativeState) (token : Ptr) : Ptr := registryFindModule s.registry token

def findFunction (s : NativeState) (hostFn : Ptr) : Ptr := registryFindFunction s.registry hostFn

def findVar (s : NativeState) (hostVar : Ptr) : Ptr := registryFindVar s.registry hostVar

def unixMemcpyToSymbol (a : ArgsMemcpyToSymbol) : UnixResult ArgsMemcpyToSymbol :=
  let devicePtr := findVar s a.symbol
  -- an unknown symbol fails before the library is loaded
  if devicePtr = 0 then { args := { a with ret := -1 }, state := s }
  else
    forwardRet w s .hipMemcpy (.memcpy (devicePtr + a.offset) a.src a.size a.kind)
      { a with ret := -1 } fun r => { a with ret := r.ret }

def unixDeviceSynchronize (a : ArgsDeviceSynchronize) : UnixResult ArgsDeviceSynchronize :=
  forwardRet w s .hipDeviceSynchronize .deviceSynchronize { a with ret := -1 }
    fun r => { a with ret := r.ret }

def unixRegisterFatBinary (a : ArgsRegisterFatBinary) : UnixResult ArgsRegisterFatBinary :=
  let a := { a with fatbinToken := 0 }
  let (loaded, s) := ensureLoaded w s
  if !loaded || !s.hasSym .hipModuleLoadData then { args := a, state := s }
  else
    match resolveBundlePtr w.mem a.data with
    | none => { args := a, state := s, fault := true }
    | some bundle =>
      if bundle = 0 then { args := a, state := s }
      else
        let call := HipCall.moduleLoadData bundle
        let r := w.hip call
        if r.ret ≠ hipSuccess then { args := a, state := s, issued := some call }
        else
          -- the result of `registry_add_fatbin` is dropped
          { args := { a with fatbinToken := a.data }
            state := { s with registry := (registryAddFatbin s.registry a.data r.ptr).2 }
            issued := some call }

def unixRegisterFunction (a : ArgsRegisterFunction) : UnixResult ArgsRegisterFunction :=
  let module := findModule s a.fatbinToken
  -- `ensure_loaded` is not called here: a known module is one the loaded library made
  if module = 0 || !s.hasSym .hipModuleGetFunction then { args := a, state := s }
  else
    let call := HipCall.moduleGetFunction module a.deviceName
    let r := w.hip call
    if r.ret ≠ hipSuccess then { args := a, state := s, issued := some call }
    else
      -- the result of `registry_add_function` is dropped
      { args := a
        state := { s with
          registry := (registryAddFunction s.registry a.hostFn r.ptr a.deviceName).2 }
        issued := some call }

def unixRegisterVar (a : ArgsRegisterVar) : UnixResult ArgsRegisterVar :=
  let module := findModule s a.fatbinToken
  if module = 0 || !s.hasSym .hipModuleGetGlobal then { args := a, state := s }
  else
    let call := HipCall.moduleGetGlobal module a.deviceName
    let r := w.hip call
    if r.ret ≠ hipSuccess then { args := a, state := s, issued := some call }
    else
      -- the result of `registry_add_var` is dropped
      { args := a
        state := { s with registry := (registryAddVar s.registry a.hostVar r.ptr).2 }
        issued := some call }

def unixUnregisterFatBinary (a : ArgsUnregisterFatBinary) : UnixResult ArgsUnregisterFatBinary :=
  -- nothing is done: module, functions and variables stay registered
  { args := a, state := s }

def unixLaunchKernel (a : ArgsLaunchKernel) : UnixResult ArgsLaunchKernel :=
  let function := findFunction s a.hostFn
  if function = 0 || !s.hasSym .hipModuleLaunchKernel then
    { args := { a with ret := -1 }, state := s }
  else
    let call := HipCall.moduleLaunchKernel function a.grid a.block a.sharedMem a.stream a.args
    { args := { a with ret := (w.hip call).ret }, state := s, issued := some call }

/-- `HIP_EXT_MEM_TYPE_OPAQUE_FD`. -/
def extMemTypeOpaqueFd : Int32 := 1

/-- `HIP_EXT_MEM_TYPE_D3D12_RESOURCE`. -/
def extMemTypeD3D12Resource : Int32 := 5

def unixImportExternalMemory (a : ArgsImportExternalMemory) :
    UnixResult ArgsImportExternalMemory :=
  forwardPtr w s .hipImportExternalMemory
    (.importExternalMemory extMemTypeOpaqueFd a.fd a.size a.flags)
    fun extMem ret => { a with extMem, ret }

def unixExternalMemoryGetMappedBuffer (a : ArgsExternalMemoryGetMappedBuffer) :
    UnixResult ArgsExternalMemoryGetMappedBuffer :=
  forwardPtr w s .hipExternalMemoryGetMappedBuffer
    (.externalMemoryGetMappedBuffer a.extMem a.offset a.size a.flags)
    fun devPtr ret => { a with devPtr, ret }

def unixDestroyExternalMemory (a : ArgsDestroyExternalMemory) :
    UnixResult ArgsDestroyExternalMemory :=
  forwardRet w s .hipDestroyExternalMemory (.destroyExternalMemory a.extMem)
    { a with ret := -1 } fun r => { a with ret := r.ret }

def unixEventCreate (a : ArgsEventCreate) : UnixResult ArgsEventCreate :=
  if a.flags ≠ 0 then
    forwardPtr w s .hipEventCreateWithFlags (.eventCreateWithFlags a.flags)
      fun event ret => { a with event, ret }
  else
    forwardPtr w s .hipEventCreate .eventCreate fun event ret => { a with event, ret }

def unixEventRecord (a : ArgsEventRecord) : UnixResult ArgsEventRecord :=
  forwardRet w s .hipEventRecord (.eventRecord a.event a.stream) { a with ret := -1 }
    fun r => { a with ret := r.ret }

def unixEventSynchronize (a : ArgsEvent) : UnixResult ArgsEvent :=
  forwardRet w s .hipEventSynchronize (.eventSynchronize a.event) { a with ret := -1 }
    fun r => { a with ret := r.ret }

def unixEventQuery (a : ArgsEvent) : UnixResult ArgsEvent :=
  forwardRet w s .hipEventQuery (.eventQuery a.event) { a with ret := -1 }
    fun r => { a with ret := r.ret }

def unixEventElapsedTime (a : ArgsEventElapsedTime) : UnixResult ArgsEventElapsedTime :=
  -- cleared first, so a failed call leaves no stale time
  let a := { a with ms := 0 }
  forwardRet w s .hipEventElapsedTime (.eventElapsedTime a.start a.stop) { a with ret := -1 }
    fun r => { a with ms := r.ms, ret := r.ret }

def unixStreamCreate (a : ArgsStreamCreate) : UnixResult ArgsStreamCreate :=
  forwardPtr w s .hipStreamCreateWithFlags (.streamCreateWithFlags a.flags)
    fun stream ret => { a with stream, ret }

def unixStreamSynchronize (a : ArgsStreamSynchronize) : UnixResult ArgsStreamSynchronize :=
  forwardRet w s .hipStreamSynchronize (.streamSynchronize a.stream) { a with ret := -1 }
    fun r => { a with ret := r.ret }

end Handlers

end HipBridge.Unixlib
