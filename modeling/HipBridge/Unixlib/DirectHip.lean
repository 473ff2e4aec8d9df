import HipBridge.Unixlib.Exports

/-!
# A game that is linked with HIP

What `pe_shim.c` and `native.c` are for, said without the two of them: the game calls the HIP
library itself. Of the shim there is nothing here but the calls a game can make.

* **`bundleAt`**, **`fileDescriptor`** — what a fat binary and an external memory are to HIP.
* **`DirectHip`** — such a game: maps without a limit where the unixlib has tables, and the list of
  its blocks where the unixlib has a running total.
* **`DirectHip.step`** — its calls, each at most one call of the library.

Some of it is the policy of the shim, not HIP's: a call fails with 100 or 801 whatever HIP says; a
kind of copy that HIP does not have is refused; the handle of a D3D12 resource is taken for a file
descriptor; a kernel's arguments are the packed buffer the first of them points at; nothing is done
for `hipFree(NULL)`; an event without flags is an ordinary one; and a game with a cap on its blocks
keeps to it.
-/

namespace HipBridge.Unixlib

open Lib

variable {D : Type}

/-! ## What is handed to HIP -/

/-- A bundle starts at `p`. -/
def StartsBundle (mem : Memory) (p : Ptr) : Prop :=
  mem.read p 24 = some (utf8Bytes "__CLANG_OFFLOAD_BUNDLE__")

instance (mem : Memory) (p : Ptr) : Decidable (StartsBundle mem p) :=
  inferInstanceAs (Decidable (_ = _))

/-- The bundle a fat binary is registered with: the one at the address, or the one the second word
there points at. -/
def bundleAt (mem : Memory) (data : Ptr) : Option Ptr :=
  if StartsBundle mem data then some data
  else (mem.readWord (data + 8)).filter fun inner => inner ≠ 0 ∧ StartsBundle mem inner

/-- The kinds of copy HIP has: within the host, to the device, from it, within it, and the one
that HIP finds out. -/
def copyKinds : List Int32 := [0, 1, 2, 3, 4]

/-- The file descriptor of an external memory: an opaque descriptor, or the handle of a D3D12
resource. -/
def fileDescriptor (d : HipExtMemHandleDesc) : Option Int32 :=
  if d.type = 1 ∨ d.type = 5 then some d.handle0.toUInt32.toInt32 else none

/-- What is written through a pointer, if the game passed one. -/
def through {α : Type} (given : Bool) (x : α) : Option α := if given then some x else none

/-! ## The game -/

/-- A game and its HIP library. -/
structure DirectHip (D : Type) where
  /-- The most its blocks may come to, unless it is `0`. -/
  cap : UInt64
  /-- The blocks that were not freed. -/
  held : List AllocEntry
  /-- What each key was registered as, the last time it was. -/
  modules : Ptr → Option Ptr
  functions : Ptr → Option Ptr
  vars : Ptr → Option Ptr
  /-- The configurations of launches that are not popped yet, most recent first. -/
  pushed : List CallConfig
  lastError : Int32
  device : D

/-- A key is registered, with the object HIP returned for it; `NULL` is none. -/
def register (m : Ptr → Option Ptr) (k x : Ptr) : Ptr → Option Ptr :=
  Function.update m k (if x = 0 then none else some x)

/-- The code a failed call returns. -/
def PeCall.failCode : PeCall → Int32
  | .getDeviceCount _ | .setDevice _ | .malloc _ _ => 100
  | _ => 801

/-- What a call writes when HIP answers `r`, whether it succeeded or not. -/
def PeCall.written (r : HipReply) : PeCall → PeAnswer
  | .getDeviceCount given | .driverGetVersion given | .runtimeGetVersion given =>
    { int := through given r.int }
  | .malloc given _ | .eventCreate given | .eventCreateWithFlags given _
  | .streamCreateWithFlags given _ | .importExternalMemory given _
  | .externalMemoryGetMappedBuffer given _ _ => { ptr := through given r.ptr }
  | .eventElapsedTime given _ _ => { ms := through given r.ms }
  | _ => {}

/-- What a call writes that HIP is not asked for. -/
def PeCall.refused : PeCall → PeAnswer
  | .malloc given _ | .importExternalMemory given _ | .externalMemoryGetMappedBuffer given _ _ =>
    { ptr := through given 0 }
  | _ => {}

/-- The blocks of the game after a call that HIP answers with `r`. -/
def PeCall.holds (r : HipReply) (held : List AllocEntry) : PeCall → List AllocEntry
  | .malloc _ size => if r.ret = 0 ∧ r.ptr ≠ 0 then ⟨r.ptr, size⟩ :: held else held
  | .free ptr => if r.ret = 0 then held.filter (·.ptr ≠ ptr) else held
  | _ => held

/-- What `DLSSNR_VRAM_CAP_BYTES` says; `0` is no cap. -/
def Env.cap (env : Env) : UInt64 :=
  match env.vramCapBytes with
  | some var => if var.bytes = [] then 0 else strtoull var
  | none => 0

namespace DirectHip

def new (cap : UInt64) (device : D) : DirectHip D :=
  ⟨cap, [], fun _ => none, fun _ => none, fun _ => none, [], 0, device⟩

/-- A block of this size would take the game over the cap. -/
def overCap (q : DirectHip D) (size : UInt64) : Bool :=
  q.cap ≠ 0 && q.cap.toNat < (q.held.map (·.size.toNat)).sum + size.toNat

/-- The call of HIP that a call of the game is. -/
def hipCall (q : DirectHip D) : PeCall → Option HipCall
  | .getDeviceCount _ => some .getDeviceCount
  | .getDevicePropertiesR0600 props device => some (.getDevicePropertiesR0600 props device)
  | .setDevice device => some (.setDevice device)
  | .deviceSynchronize => some .deviceSynchronize
  | .driverGetVersion _ => some .driverGetVersion
  | .runtimeGetVersion _ => some .runtimeGetVersion
  | .malloc _ size => if q.overCap size then none else some (.malloc size)
  | .free ptr => some (.free ptr)
  | .memcpy dst src size kind =>
    if kind ∈ copyKinds then some (.memcpy dst src size kind) else none
  | .memcpyAsync dst src size kind stream =>
    if kind ∈ copyKinds then some (.memcpyAsync dst src size kind stream) else none
  | .memcpyToSymbol symbol src size offset kind =>
    if kind ∈ copyKinds then
      (q.vars symbol).map fun base => .memcpy (base + offset) src size kind
    else none
  | .memset ptr value size => some (.memset ptr value size)
  | .memsetAsync ptr value size stream => some (.memsetAsync ptr value size stream)
  | .eventCreate _ => some .eventCreate
  | .eventCreateWithFlags _ flags =>
    some (if flags = 0 then .eventCreate else .eventCreateWithFlags flags)
  | .eventQuery event => some (.eventQuery event)
  | .streamCreateWithFlags _ flags => some (.streamCreateWithFlags flags)
  | .streamSynchronize stream => some (.streamSynchronize stream)
  | .eventRecord event stream => some (.eventRecord event stream)
  | .eventSynchronize event => some (.eventSynchronize event)
  | .eventElapsedTime _ start stop => some (.eventElapsedTime start stop)
  | .importExternalMemory _ desc =>
    desc.bind fun d =>
      ((fileDescriptor d).filter (0 ≤ ·)).map fun fd => .importExternalMemory 1 fd d.size d.flags
  | .externalMemoryGetMappedBuffer _ extMem desc =>
    desc.map fun d => .externalMemoryGetMappedBuffer extMem d.offset d.size d.flags
  | .destroyExternalMemory extMem => some (.destroyExternalMemory extMem)
  | .launchKernel hostFn (some grid) (some block) (some args) sharedMem stream =>
    if args = 0 then none
    else
      (q.functions hostFn).map fun function =>
        .moduleLaunchKernel function grid block sharedMem.toUInt32 stream args
  | .launchKernel _ _ _ _ _ _ | .pushCallConfiguration _ _ _ _ | .popCallConfiguration _
  | .getLastError => none

/-- A call ends, with what it writes. -/
def ends (q : DirectHip D) (c : PeCall) (ok : Bool) (answer : PeAnswer) : PeAnswer × DirectHip D :=
  if ok then ({ answer with code := some 0 }, q)
  else ({ answer with code := some c.failCode }, { q with lastError := c.failCode })

def call (hip : HipRuntime D) (q : DirectHip D) (c : PeCall) : PeAnswer × DirectHip D :=
  match c with
  | .pushCallConfiguration (some grid) (some block) sharedMem stream =>
    { q with pushed := ⟨grid, block, sharedMem, stream⟩ :: q.pushed }.ends c true {}
  | .popCallConfiguration ptrs =>
    match q.pushed with
    | [] => q.ends c false {}
    | last :: pushed =>
      let config := {
        grid := through ptrs.gridDim last.grid
        block := through ptrs.blockDim last.block
        sharedMem := through ptrs.sharedMem last.sharedMem
        stream := through ptrs.stream last.stream }
      { q with pushed }.ends c true { config }
  -- the error is cleared when it is read
  | .getLastError => ({ code := some q.lastError }, { q with lastError := 0 })
  | .free 0 => q.ends c true {}
  | _ =>
    match q.hipCall c with
    | none => q.ends c false c.refused
    | some call =>
      let (r, device) := hip call q.device
      { q with device, held := c.holds r q.held }.ends c (r.ret = 0) (c.written r)

/-- An object is looked up in a module that was loaded, and registered as `add` says. -/
def resolve (hip : HipRuntime D) (q : DirectHip D) (fatbinToken : Ptr) (lookup : Ptr → HipCall)
    (add : DirectHip D → Ptr → DirectHip D) : PeAnswer × DirectHip D :=
  match q.modules fatbinToken with
  | none => ({}, q)
  | some module =>
    let (r, device) := hip (lookup module) q.device
    ({}, if r.ret = 0 then add { q with device } r.ptr else { q with device })

def step (hip : HipRuntime D) (q : DirectHip D) (a : PeEvent × Memory) : PeAnswer × DirectHip D :=
  match a.1 with
  | .call c => q.call hip c
  | .registerFatBinary data =>
    match bundleAt a.2 data with
    | none => ({ ptr := some 0 }, q)
    | some bundle =>
      let (r, device) := hip (.moduleLoadData bundle) q.device
      if r.ret = 0 then
        ({ ptr := some data }, { q with device, modules := register q.modules data r.ptr })
      else ({ ptr := some 0 }, { q with device })
  | .registerFunction fatbinToken hostFn name =>
    q.resolve hip fatbinToken (.moduleGetFunction · name)
      fun q function => { q with functions := register q.functions hostFn function }
  | .registerVar fatbinToken hostVar name =>
    q.resolve hip fatbinToken (.moduleGetGlobal · name)
      fun q base => { q with vars := register q.vars hostVar base }
  | .unregisterFatBinary fatbinToken =>
    ({}, { q with modules := Function.update q.modules fatbinToken none })
  | .getErrorString error =>
    let (r, device) := hip (.getErrorString error) q.device
    ({ str := r.str }, { q with device })

end DirectHip

end HipBridge.Unixlib
