import HipBridge.Lib.Simulation
import HipBridge.Stub.Exports

/-!
# A HIP library in the game's own process

What `hip-stub` and the daemon are for, said without either of them: the game calls a library of its
own process, which keeps the pointers of the device itself. Of `hip-stub` there is nothing here but
the calls a game can make and the texts of `hipGetErrorString`.

* **`bundleAt`** — the bundle of code objects at an address of the game's memory.
* **`LiveBlock`**, **`InProcess`** — a block of device memory as the game sees it, and the library.
* **`InProcess.step`** — its calls, each at most one call of HIP. The address of a new block and the
  id of a new fat binary are choices of the library.
* **`MayPick`** — what it may choose.

Some of it is the policy of `hip-stub`, not HIP's: a call fails with 100 or 801 whatever HIP says;
the last error is kept when it is read; nothing is done for `hipSetDevice` and
`hipDeviceSynchronize`; the versions are 0; what is not forwarded fails with 801. A bundle has
limits; a kernel's arguments are 4096 bytes, and a word of them that lies in a block is taken for
its address; a copy is to the device or from it, on no stream; and a block is forgotten even if HIP
does not free it.
-/

namespace HipBridge.Bridge

open Lib Stub
open Daemon (HipLib)
open Unixlib (CallConfig Dim3 PopPointers)

/-! ## Bundles -/

/-- A line of a bundle's table: where in the bundle its code object lies, and how long the name of
its target is. -/
structure CodeObject where
  offset : UInt64
  size : UInt64
  targetLen : UInt64

/-- One behind its last byte. -/
def CodeObject.stop (c : CodeObject) : Nat := c.offset.toNat + c.size.toNat

section Bundle

variable (host : FlatMemory)

/-- The 64-bit word at an address. -/
def word (p : Ptr) : UInt64 := u64FromLe (host.slice p 8)

/-- A table of `n` lines. Each is three words and the name of the target. -/
def tableFrom : (n : Nat) → Ptr → List CodeObject
  | 0, _ => []
  | n + 1, p =>
    let c : CodeObject := ⟨word host p, word host (p + 8), word host (p + 16)⟩
    c :: tableFrom n (p + 24 + c.targetLen)

/-- As far as the code objects go, and at least to the end of the 32 bytes before the table. -/
def reach (table : List CodeObject) : Nat := (table.map CodeObject.stop).foldr max 32

/-- The bundle that starts at an address, if there is a plausible one: at most 1000 code objects
within 512 MiB, with target names of at most 4096 bytes. -/
def bundleFrom (p : Ptr) : Option (List UInt8) :=
  let count := word host (p + 24)
  let table := tableFrom host count.toNat (p + 32)
  if host.slice p 24 = utf8Bytes "__CLANG_OFFLOAD_BUNDLE__" ∧ count.toNat ≤ 1000 ∧
      ∀ c ∈ table, c.targetLen.toNat ≤ 4096 ∧ c.stop ≤ 512 * 1024 * 1024
  then some (host.slice p (reach table))
  else none

/-- The bundle a fat binary is registered with: the one at the address, or the one the second word
there points at. -/
def bundleAt (data : Ptr) : Option (List UInt8) :=
  match bundleFrom host data with
  | some bundle => some bundle
  | none => bundleFrom host (word host (data + 8))

end Bundle

/-! ## The library -/

/-- How many addresses a block takes up: one, if it has no bytes. -/
def extent (size : UInt64) : Nat := max size.toNat 1

/-- A block of device memory: `base` is the address the game knows it by. -/
structure LiveBlock where
  base : UInt64
  size : UInt64
  devPtr : Ptr
deriving DecidableEq, Repr

namespace LiveBlock

def Holds (b : LiveBlock) (p : Ptr) : Prop :=
  b.base.toNat ≤ p.toNat ∧ p.toNat < b.base.toNat + extent b.size

instance (b : LiveBlock) (p : Ptr) : Decidable (b.Holds p) := inferInstanceAs (Decidable (_ ∧ _))

/-- No address of the block is one of the `size` from `base` on. -/
def Apart (b : LiveBlock) (base size : UInt64) : Prop :=
  b.base.toNat + extent b.size ≤ base.toNat ∨ base.toNat + extent size ≤ b.base.toNat

end LiveBlock

structure InProcess (T D : Type) where
  blocks : List LiveBlock
  /-- The module of each fat binary. An id that was given out has `some none` if HIP has loaded
  nothing for it. -/
  fatbins : UInt64 → Option (Option Ptr)
  functions : UInt64 → Option Ptr
  /-- The configurations each thread has pushed, the last one first. -/
  pushed : T → List CallConfig
  lastError : Int32
  host : FlatMemory
  device : D

variable {T D : Type}

namespace InProcess

def new (host : FlatMemory) (device : D) : InProcess T D :=
  ⟨[], fun _ => none, fun _ => none, fun _ => [], 0, host, device⟩

variable (hip : HipLib D) (q : InProcess T D)

/-- The block an address lies in. -/
def owner (p : Ptr) : Option LiveBlock := q.blocks.find? (decide <| ·.Holds p)

/-- What a kernel should see in place of a word: the address of the device, if it is one of a
block. -/
def realWord (w : UInt64) : UInt64 :=
  match q.owner w with
  | some b => b.devPtr + (w - b.base)
  | none => w

/-- The 512 words of the arguments at `args`, as a kernel should see them. -/
def realArgs (args : Ptr) : List UInt8 :=
  (List.range 512).flatMap fun i => u64ToLe (q.realWord (word q.host (args + UInt64.ofNat (8 * i))))

/-- A call that failed, or was refused. -/
def failed (code : Int32) (answer : Answer) : Answer × InProcess T D :=
  ({ answer with code := some code }, { q with lastError := code })

/-- A call that comes down to one call of HIP, which returned `rc`. -/
def concluded (rc : Int32) (device : D) (code : Int32) (ok err : Answer) :
    Answer × InProcess T D :=
  if rc = 0 then ({ ok with code := some 0 }, { q with device })
  else { q with device }.failed code err

/-- What HIP makes of the bundle at an address. -/
def loadModule (data : Ptr) : Option Ptr × D :=
  match bundleAt q.host data with
  | some bundle =>
    if hip.sym "hipModuleLoadData" then
      let (rc, module, device) := hip.moduleLoadData bundle q.device
      (if rc = 0 then some module else none, device)
    else (none, q.device)
  | none => (none, q.device)

def registerFatBinary (data : Ptr) (id : UInt64) : Answer × InProcess T D :=
  let (module, device) := q.loadModule hip data
  ({ ptr := some id }, { q with device, fatbins := Function.update q.fatbins id (some module) })

def registerFunction (fatBin hostFn : Ptr) (deviceName : Option CString) :
    Answer × InProcess T D :=
  match q.fatbins fatBin, deviceName with
  | some (some module), some name =>
    if hip.sym "hipModuleGetFunction" then
      let (rc, function, device) := hip.moduleGetFunction module name q.device
      let functions :=
        if rc = 0 then Function.update q.functions hostFn (some function) else q.functions
      ({}, { q with device, functions })
    else ({}, q)
  | _, _ => ({}, q)

section Config

variable [DecidableEq T]

def pushConfig (thread : T) (gridDim blockDim : Option Dim3) (sharedMem : UInt64) (stream : Ptr) :
    Answer × InProcess T D :=
  match gridDim, blockDim with
  | some grid, some block =>
    let configs := ⟨grid, block, sharedMem, stream⟩ :: q.pushed thread
    let pushed := Function.update q.pushed thread configs
    ({ code := some 0 }, { q with pushed })
  | _, _ => q.failed 801 {}

/-- The configuration the thread pushed last, through the pointers it passed. -/
def popConfig (thread : T) (ptrs : PopPointers) : Answer × InProcess T D :=
  match q.pushed thread with
  | last :: before =>
    let config := {
      grid := if ptrs.gridDim then some last.grid else none
      block := if ptrs.blockDim then some last.block else none
      sharedMem := if ptrs.sharedMem then some last.sharedMem else none
      stream := if ptrs.stream then some last.stream else none }
    ({ code := some 0, config }, { q with pushed := Function.update q.pushed thread before })
  | [] => q.failed 801 {}

end Config

def getDeviceCount (count : Bool) : Answer × InProcess T D :=
  let (rc, n, device) := hip.getDeviceCount q.device
  q.concluded rc device 100 { int := if count then some n else none }
    { int := if count then some 0 else none }

def getDevicePropertiesR0600 (props : Bool) (device : Int32) : Answer × InProcess T D :=
  if hip.sym "hipGetDevicePropertiesR0600" then
    let (rc, bytes, device) := hip.getDevicePropertiesR0600 device q.device
    let buffer := (List.range 1472).map bytes
    q.concluded rc device 100 { props := if props then some buffer else none } {}
  else q.failed 100 {}

def malloc (ptrIsNull : Bool) (size base : UInt64) : Answer × InProcess T D :=
  let (rc, devPtr, device) := hip.malloc size q.device
  if rc = 0 then
    if ptrIsNull then ({ code := some 0 }, { q with device })
    else
      ({ code := some 0, ptr := some base },
        { q with device, blocks := ⟨base, size, devPtr⟩ :: q.blocks })
  else { q with device }.failed 100 { ptr := if ptrIsNull then none else some 0 }

def free (ptr : Ptr) : Answer × InProcess T D :=
  if ptr = 0 then ({ code := some 0 }, q)
  else
    match q.blocks.find? (·.base = ptr) with
    | some b =>
      let (rc, device) := hip.free b.devPtr q.device
      -- the address means nothing from now on, even if HIP keeps the block
      { q with blocks := q.blocks.filter (·.base ≠ ptr) }.concluded rc device 801 {} {}
    | none => q.failed 801 {}

/-- Kind 1 is a copy to the device, kind 2 one from it. -/
def memcpy (dst src : Ptr) (size : UInt64) (kind : Int32) : Answer × InProcess T D :=
  if kind = 1 then
    match q.owner dst with
    | some b =>
      let (rc, device) := hip.memcpyHostToDevice (b.devPtr + (dst - b.base))
        (q.host.slice src size.toNat) q.device
      q.concluded rc device 801 {} {}
    | none => q.failed 801 {}
  else if kind = 2 then
    match q.owner src with
    | some b =>
      let (rc, bytes, device) := hip.memcpyDeviceToHost (b.devPtr + (src - b.base)) size q.device
      let host :=
        if rc = 0 then q.host.overwrite dst ((List.range size.toNat).map bytes) else q.host
      { q with host }.concluded rc device 801 {} {}
    | none => q.failed 801 {}
  else q.failed 801 {}

def launchKernel (function : Ptr) (gridDim blockDim : Option Dim3) (args : Option Ptr)
    (sharedMem : UInt64) : Answer × InProcess T D :=
  match q.functions function, gridDim, blockDim, args with
  | some kernel, some grid, some block, some args =>
    if args ≠ 0 ∧ hip.sym "hipModuleLaunchKernel" then
      let (rc, device) := hip.moduleLaunchKernel kernel (grid.x, grid.y, grid.z)
        (block.x, block.y, block.z) sharedMem.toUInt32 (q.realArgs args) q.device
      q.concluded rc device 801 {} {}
    else q.failed 801 {}
  | _, _, _, _ => q.failed 801 {}

/-- A call, with what the library picks if it has to. -/
def call [DecidableEq T] (hip : HipLib D) (q : InProcess T D) (pick : UInt64) :
    StubExport T → Answer × InProcess T D
  | .registerFatBinary data => q.registerFatBinary hip data pick
  | .registerFunction fatBin hostFn deviceName => q.registerFunction hip fatBin hostFn deviceName
  | .registerVar => ({}, q)
  | .pushCallConfiguration thread gridDim blockDim sharedMem stream =>
    q.pushConfig thread gridDim blockDim sharedMem stream
  | .popCallConfiguration thread ptrs => q.popConfig thread ptrs
  | .getDeviceCount count => q.getDeviceCount hip count
  | .getDevicePropertiesR0600 props device => q.getDevicePropertiesR0600 hip props device
  | .setDevice _ | .deviceSynchronize => ({ code := some 0 }, q)
  | .driverGetVersion version | .runtimeGetVersion version =>
    ({ code := some 0, int := if version then some 0 else none }, q)
  | .getLastError => ({ code := some q.lastError }, q)
  | .getErrorString error => ({ str := some (hipGetErrorString error) }, q)
  | .malloc ptrIsNull size => q.malloc hip ptrIsNull size pick
  | .free ptr => q.free hip ptr
  | .memcpy dst src size kind | .memcpyAsync dst src size kind _ => q.memcpy hip dst src size kind
  | .launchKernel function gridDim blockDim args sharedMem =>
    q.launchKernel hip function gridDim blockDim args sharedMem
  | .memcpyToSymbol | .memset | .memsetAsync | .eventRecord | .eventSynchronize
  | .destroyExternalMemory => q.failed 801 {}
  | .eventCreate out | .importExternalMemory out | .externalMemoryGetMappedBuffer out =>
    q.failed 801 { ptr := if out then some 0 else none }
  | .eventElapsedTime ms => q.failed 801 { ms := if ms then some 0 else none }

def step [DecidableEq T] (hip : HipLib D) (q : InProcess T D) :
    GameStep T × UInt64 → Answer × InProcess T D
  | (.call c, pick) => q.call hip pick c
  | (.write dst data, _) => ({}, { q with host := q.host.overwrite dst data })

end InProcess

/-- A new block is not at null, ends below `2 ^ 64`, and has no address of another live block; a
new fat binary has an id that was never given out, and is not null. -/
def MayPick (q : InProcess T D) : GameStep T × UInt64 → Prop
  | (.call (.malloc _ size), base) =>
    base ≠ 0 ∧ base.toNat + extent size ≤ 2 ^ 64 ∧ ∀ b ∈ q.blocks, b.Apart base size
  | (.call (.registerFatBinary _), id) => id ≠ 0 ∧ q.fatbins id = none
  | _ => True

end HipBridge.Bridge
