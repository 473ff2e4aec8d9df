import HipBridge.Unixlib.PeShim

/-!
# Shared handles (`vkd3d-proton-external-memory-fd.patch`, `pe_shim.c`)

The patched `CreateSharedHandle` returns a file descriptor or a Win32 handle in the same
pointer-sized integer; `hipImportExternalMemory` takes the low half of it for a descriptor.

* **`createSharedHandle`** — the branches of the patched function, and which one was taken.
* **`forwardedArgs`** — what `hipImportExternalMemory` hands to the native import.
* **`importExternalMemory_agrees_iff`** — the two agree on every descriptor, and on exactly
  the Win32 handles with bit 31 set.
-/

namespace HipBridge.Unixlib

open Lib

/-- The handle of a shared resource, and the branch it came from. -/
inductive SharedHandle
  | fd (f : Int32)
  | win32 (handle : Ptr)

/-- The `HANDLE` the caller gets: `(HANDLE)(intptr_t)fd`, or the handle itself. -/
def SharedHandle.value : SharedHandle → Ptr
  | .fd f => f.toInt64.toUInt64
  | .win32 handle => handle

/-- The descriptor the handle denotes. -/
def SharedHandle.fd? : SharedHandle → Option Int32
  | .fd f => some f
  | .win32 _ => none

def vkSuccess : Int32 := 0

/-- What `CreateSharedHandle` finds out about a shared resource and its device. -/
structure SharedResource where
  /-- `device->vk_info.KHR_external_memory_fd` -/
  khrExternalMemoryFd : Bool
  /-- whether `vk_procs->vkGetMemoryFdKHR` resolved -/
  vkGetMemoryFdKHR : Bool
  /-- whether `resource->desc.Dimension` is `D3D12_RESOURCE_DIMENSION_BUFFER` -/
  isBuffer : Bool
  /-- `vr` and `fd` -/
  getMemoryFd : Int32 × Int32
  /-- the handle of `D3DKMTShareObjects`, if its status is `STATUS_SUCCESS` -/
  shareObjects : Option Ptr

/-- The part of `d3d12_device_CreateSharedHandle` for a resource with a KMT handle. -/
def createSharedHandle (resource : SharedResource) : Option SharedHandle :=
  if resource.khrExternalMemoryFd && resource.vkGetMemoryFdKHR && resource.isBuffer then
    let (vr, fd) := resource.getMemoryFd
    if vr = vkSuccess then some (.fd fd)
    else resource.shareObjects.map .win32
  else resource.shareObjects.map .win32

/-- The argument struct `hipImportExternalMemory` passes to the native side, if it passes any. -/
def forwardedArgs (d : HipExtMemHandleDesc) : Option ArgsImportExternalMemory :=
  let fd := hipExtMemExtractFd (some d)
  if fd < 0 then none else some { fd, size := d.size, flags := d.flags }

/-- The descriptor that reaches the native import. -/
def forwardedFd (d : HipExtMemHandleDesc) : Option Int32 := (forwardedArgs d).map (·.fd)

/-- `hipImportExternalMemory` makes one unix call, with the forwarded arguments, or none. -/
theorem hipImportExternalMemory_eq (w : World) (p : Process) (extMem : Bool)
    (d : HipExtMemHandleDesc) :
    hipImportExternalMemory w p extMem (some d) =
      match forwardedArgs d with
      | none => reject p hipErrorNotSupported (writeIf extMem 0)
      | some a =>
        let (a, p) := wineUnixCall w p .importExternalMemory a
        mapRet p a.ret hipErrorNotSupported (writeIf extMem a.extMem) := by
  simp only [hipImportExternalMemory, forwardedArgs]
  split
  case isTrue => rfl
  case isFalse => rfl

/-- Narrowing undoes the sign extension of a descriptor. -/
theorem narrow_value_fd (f : Int32) : (SharedHandle.fd f).value.toUInt32.toInt32 = f := by
  apply Int32.toBitVec_inj.mp
  show (f.toBitVec.signExtend 64).setWidth 32 = f.toBitVec
  apply BitVec.eq_of_getLsbD_eq
  intro i hi
  have hwide : i < 64 := by omega
  rw [BitVec.getLsbD_setWidth, BitVec.getLsbD_signExtend, if_pos hi, decide_eq_true hi,
    decide_eq_true hwide, Bool.true_and, Bool.true_and]

/-- The sign bit of a narrowed handle is its bit 31. -/
theorem narrow_neg_iff (handle : Ptr) :
    handle.toUInt32.toInt32 < 0 ↔ 2 ^ 31 ≤ handle.toNat % 2 ^ 32 := by
  have htoInt : handle.toUInt32.toInt32.toInt = handle.toUInt32.toBitVec.toInt := rfl
  have hnat : handle.toUInt32.toBitVec.toNat = handle.toNat % 2 ^ 32 := UInt64.toNat_toUInt32 handle
  rw [Int32.lt_iff_toInt_lt, htoInt, Int32.toInt_zero, BitVec.toInt_neg_iff, hnat]
  omega

theorem forwardedFd_d3d12Resource {d : HipExtMemHandleDesc}
    (htype : d.type = extMemTypeD3D12Resource) :
    forwardedFd d =
      if d.win32Handle.toUInt32.toInt32 < 0 then none else some d.win32Handle.toUInt32.toInt32 := by
  have hfd : hipExtMemExtractFd (some d) = d.win32Handle.toUInt32.toInt32 := by
    simp only [hipExtMemExtractFd, htype]
    rfl
  simp only [forwardedFd, forwardedArgs, hfd]
  split <;> rfl

/-- A descriptor is forwarded as it is. -/
theorem forwardedFd_fd {d : HipExtMemHandleDesc} {f : Int32} (hf : 0 ≤ f)
    (htype : d.type = extMemTypeD3D12Resource)
    (hhandle : d.win32Handle = (SharedHandle.fd f).value) : forwardedFd d = some f := by
  rw [forwardedFd_d3d12Resource htype, hhandle, narrow_value_fd, if_neg (Int32.not_lt.mpr hf)]

/-- A Win32 handle is forwarded as a descriptor unless its bit 31 is set. -/
theorem forwardedFd_win32 {d : HipExtMemHandleDesc} {handle : Ptr}
    (htype : d.type = extMemTypeD3D12Resource) (hhandle : d.win32Handle = handle) :
    forwardedFd d = none ↔ 2 ^ 31 ≤ handle.toNat % 2 ^ 32 := by
  rw [forwardedFd_d3d12Resource htype, hhandle, ← narrow_neg_iff]
  split
  case isTrue h => exact ⟨fun _ => h, fun _ => rfl⟩
  case isFalse h => exact ⟨nofun, fun hneg => absurd hneg h⟩

/-- A handle from the descriptor branch is a descriptor that Vulkan exported. -/
theorem createSharedHandle_fd {resource : SharedResource} {f : Int32}
    (h : createSharedHandle resource = some (.fd f)) : resource.getMemoryFd = (vkSuccess, f) := by
  have hshared : resource.shareObjects.map SharedHandle.win32 ≠ some (.fd f) := by
    cases resource.shareObjects <;> simp
  simp only [createSharedHandle] at h
  split at h
  case isTrue =>
    split at h
    case isTrue hvr =>
      cases h
      rw [← hvr]
    case isFalse => exact absurd h hshared
  case isFalse => exact absurd h hshared

/-- **When producer and consumer agree.** For a `D3D12Resource` descriptor with the handle that
`CreateSharedHandle` returned: the native import gets what `forwardedFd` says, and that is the
descriptor the handle denotes, or nothing where it denotes none, exactly if the handle is not
a Win32 handle with bit 31 clear. -/
theorem importExternalMemory_agrees_iff (resource : SharedResource)
    (hvulkan : resource.getMemoryFd.1 = vkSuccess → 0 ≤ resource.getMemoryFd.2)
    {shared : SharedHandle} (hshared : createSharedHandle resource = some shared)
    (d : HipExtMemHandleDesc) (htype : d.type = extMemTypeD3D12Resource)
    (hhandle : d.win32Handle = shared.value) :
    (∀ w p extMem, hipImportExternalMemory w p extMem (some d) =
      match forwardedArgs d with
      | none => reject p hipErrorNotSupported (writeIf extMem 0)
      | some a =>
        let (a, p) := wineUnixCall w p .importExternalMemory a
        mapRet p a.ret hipErrorNotSupported (writeIf extMem a.extMem)) ∧
    (forwardedFd d = shared.fd? ↔
      ∀ handle, shared = .win32 handle → 2 ^ 31 ≤ handle.toNat % 2 ^ 32) := by
  refine ⟨fun w p extMem => hipImportExternalMemory_eq w p extMem d, ?_⟩
  cases shared with
  | fd f =>
    have hexported := createSharedHandle_fd hshared
    rw [hexported] at hvulkan
    have hforwarded := forwardedFd_fd (hvulkan rfl) htype hhandle
    exact ⟨fun _ => nofun, fun _ => hforwarded⟩
  | win32 handle =>
    have hforwarded := forwardedFd_win32 htype hhandle
    constructor
    · rintro hnone _ ⟨⟩
      exact hforwarded.mp hnone
    · exact fun hbit => hforwarded.mpr (hbit handle rfl)

/-- A buffer that Vulkan exports as descriptor 37. -/
def exportedBuffer : SharedResource := ⟨true, true, true, (0, 37), some 0x44⟩

/-- A texture, which only `D3DKMTShareObjects` shares. -/
def sharedTexture : SharedResource := ⟨true, true, false, (0, 37), some 0x44⟩

/-- The descriptor of a shared resource. -/
def d3d12Desc (handle : Ptr) : HipExtMemHandleDesc := ⟨extMemTypeD3D12Resource, handle, 0, 4096, 1⟩

theorem exportedBuffer_agrees : forwardedFd (d3d12Desc 37) = some 37 :=
  (importExternalMemory_agrees_iff exportedBuffer (by decide) rfl (d3d12Desc 37) rfl rfl).2.mpr
    nofun

/-- The Win32 handle of the texture is imported as descriptor 68. -/
theorem sharedTexture_fabricates :
    createSharedHandle sharedTexture = some (.win32 0x44) ∧
      forwardedFd (d3d12Desc 0x44) = some 68 ∧ (SharedHandle.win32 0x44).fd? = none := by
  refine ⟨rfl, ?_, rfl⟩
  decide

end HipBridge.Unixlib
