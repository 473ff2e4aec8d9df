import HipBridge.Lib.CString

/-!
# The daemon's HIP bindings (`native-daemon/src/hip_sys.rs`)

* **`HipLib`** — the loaded library: arbitrary functions on an arbitrary device state `D`, the
  codes they return and what they write through their output parameters.
* **`mallocRaw`**, **`freeRaw`**, … — the methods of `Hip`: each makes its call and turns a
  code other than `HIP_SUCCESS` into an error message.
-/

namespace HipBridge.Daemon

open Lib

/-- A 64-bit address moved by an offset, as `(ptr as *mut u8).add(offset)` computes it. -/
def ptrAdd (ptr : Ptr) (offset : UInt64) : Ptr := ptr + offset

/-- The HIP library `Hip::load` opened, and the allocator of the process that calls it; `D` is the
state of both. A buffer the library fills is given by its bytes afterwards, index by index. -/
structure HipLib (D : Type) where
  /-- Whether the allocator serves a request for so many bytes. -/
  canAlloc : (bytes : Nat) → D → Bool
  /-- Whether `dlsym` finds a symbol that is looked up when it is first needed. -/
  sym : String → Bool
  dlerror : String
  errorString : Int32 → String
  malloc : UInt64 → D → Int32 × Ptr × D
  free : Ptr → D → Int32 × D
  memcpyHostToDevice : (dst : Ptr) → List UInt8 → D → Int32 × D
  memcpyDeviceToHost : (src : Ptr) → (len : UInt64) → D → Int32 × (Nat → UInt8) × D
  getDeviceCount : D → Int32 × Int32 × D
  getDevicePropertiesR0600 : (device : Int32) → D → Int32 × (Nat → UInt8) × D
  moduleLoadData : List UInt8 → D → Int32 × Ptr × D
  moduleGetFunction : (module : Ptr) → (name : CString) → D → Int32 × Ptr × D
  moduleLaunchKernel : (function : Ptr) → (grid block : UInt32 × UInt32 × UInt32) →
    (sharedMem : UInt32) → (args : List UInt8) → D → Int32 × D

namespace HipLib

variable {D : Type} (hip : HipLib D)

def hipSuccess : Int32 := 0

/-- `format!("{what} -> {rc} ({})", self.error_string(rc))`. -/
def failed (what : String) (rc : Int32) : String :=
  what ++ " -> " ++ toString rc.toInt ++ " (" ++ hip.errorString rc ++ ")"

/-- `lazy_sym`: the message when `dlsym` fails. -/
def lazySym (name : String) : Except String Unit :=
  if hip.sym name then .ok () else .error ("dlsym(" ++ name ++ ") failed: " ++ hip.dlerror)

/-- `vec![0u8; len]` after the library filled it. -/
def buffer (len : Nat) (bytes : Nat → UInt8) : List UInt8 := (List.range len).map bytes

@[simp] theorem length_buffer (len : Nat) (bytes : Nat → UInt8) :
    (buffer len bytes).length = len := by
  simp [buffer]

def deviceCount (d : D) : Except String Int32 × D :=
  let (rc, count, d) := hip.getDeviceCount d
  if rc ≠ hipSuccess then (.error (hip.failed "hipGetDeviceCount" rc), d) else (.ok count, d)

def mallocRaw (size : UInt64) (d : D) : Except String Ptr × D :=
  let (rc, ptr, d) := hip.malloc size d
  if rc ≠ hipSuccess then (.error (hip.failed "hipMalloc" rc), d) else (.ok ptr, d)

def freeRaw (ptr : Ptr) (d : D) : Except String Unit × D :=
  let (rc, d) := hip.free ptr d
  if rc ≠ hipSuccess then (.error (hip.failed "hipFree" rc), d) else (.ok (), d)

def memcpyH2d (ptr : Ptr) (offset : UInt64) (data : List UInt8) (d : D) :
    Except String Unit × D :=
  let (rc, d) := hip.memcpyHostToDevice (ptrAdd ptr offset) data d
  if rc ≠ hipSuccess then (.error (hip.failed "hipMemcpy H2D" rc), d) else (.ok (), d)

/-- There is a buffer for `len` bytes. -/
def CanBuffer (len : UInt64) (d : D) : Prop := CanAlloc (hip.canAlloc · d) len.toNat

/-- `Hip::memcpy_d2h`. The buffer is allocated before the call, and without it there is none. -/
def memcpyD2h (ptr : Ptr) (offset len : UInt64) (d : D) :
    Io (Except String (List UInt8) × D) := do
  allocVec (hip.canAlloc · d) 1 len.toNat
  let (rc, bytes, d) := hip.memcpyDeviceToHost (ptrAdd ptr offset) len d
  if rc ≠ hipSuccess then return (.error (hip.failed "hipMemcpy D2H" rc), d)
  else return (.ok (buffer len.toNat bytes), d)

variable {hip} in
theorem memcpyD2h_buffered {len : UInt64} {d : D} (h : hip.CanBuffer len d) (ptr : Ptr)
    (offset : UInt64) :
    hip.memcpyD2h ptr offset len d = .ok
      (let (rc, bytes, d) := hip.memcpyDeviceToHost (ptrAdd ptr offset) len d
        if rc ≠ hipSuccess then (.error (hip.failed "hipMemcpy D2H" rc), d)
        else (.ok (buffer len.toNat bytes), d)) := by
  have halloc : allocVec (hip.canAlloc · d) 1 len.toNat = .ok () :=
    allocVec_ok (by rwa [Nat.one_mul])
  rw [memcpyD2h, halloc, Io.ok_bind]
  dsimp only
  split <;> rfl

variable {hip} in
/-- Without a buffer the process ends before HIP is called. -/
theorem memcpyD2h_crashes {len : UInt64} {d : D} (h : ¬ hip.CanBuffer len d) (ptr : Ptr)
    (offset : UInt64) : ∃ fault, hip.memcpyD2h ptr offset len d = .error fault ∧ fault.Crash := by
  have hrefused : ¬ CanAlloc (hip.canAlloc · d) (1 * len.toNat) := by rwa [Nat.one_mul]
  obtain ⟨fault, halloc, hcrash⟩ := allocVec_crashes hrefused
  refine ⟨fault, ?_, hcrash⟩
  rw [memcpyD2h, halloc, Io.error_bind]

/-- `Hip::set_device`, which calls nothing. -/
def setDevice (_device : Int32) (d : D) : Except String Unit × D := (.ok (), d)

/-- `HIP_DEVICE_PROP_R0600_SIZE`. -/
def devicePropR0600Size : Nat := 1472

/-- `Hip::get_device_properties_r0600`. -/
def devicePropertiesR0600 (device : Int32) (d : D) : Except String (List UInt8) × D :=
  match hip.lazySym "hipGetDevicePropertiesR0600" with
  | .error e => (.error e, d)
  | .ok () =>
    let (rc, bytes, d) := hip.getDevicePropertiesR0600 device d
    if rc ≠ hipSuccess then (.error (hip.failed "hipGetDevicePropertiesR0600" rc), d)
    else (.ok (buffer devicePropR0600Size bytes), d)

def loadModule (data : List UInt8) (d : D) : Except String Ptr × D :=
  match hip.lazySym "hipModuleLoadData" with
  | .error e => (.error e, d)
  | .ok () =>
    let (rc, module, d) := hip.moduleLoadData data d
    if rc ≠ hipSuccess then (.error (hip.failed "hipModuleLoadData" rc), d) else (.ok module, d)

/-- `CString::new(name)`. -/
def cstringNew (name : String) : Except String CString :=
  if h : 0 ∈ utf8Bytes name then .error "kernel name contains a NUL byte"
  else .ok ⟨utf8Bytes name, h⟩

def getFunction (module : Ptr) (name : String) (d : D) : Except String Ptr × D :=
  match hip.lazySym "hipModuleGetFunction" with
  | .error e => (.error e, d)
  | .ok () =>
    match cstringNew name with
    | .error e => (.error e, d)
    | .ok cname =>
      let (rc, function, d) := hip.moduleGetFunction module cname d
      if rc ≠ hipSuccess then
        (.error (hip.failed ("hipModuleGetFunction(" ++ name ++ ")") rc), d)
      else (.ok function, d)

def launchKernel (function : Ptr) (grid block : UInt32 × UInt32 × UInt32) (sharedMem : UInt32)
    (args : List UInt8) (d : D) : Except String Unit × D :=
  match hip.lazySym "hipModuleLaunchKernel" with
  | .error e => (.error e, d)
  | .ok () =>
    let (rc, d) := hip.moduleLaunchKernel function grid block sharedMem args d
    if rc ≠ hipSuccess then (.error (hip.failed "hipModuleLaunchKernel" rc), d) else (.ok (), d)

end HipLib

end HipBridge.Daemon
