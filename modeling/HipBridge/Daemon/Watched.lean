import HipBridge.Daemon.ResponseSize

/-!
# A HIP library that is watched

* **`watched`** — the library, with a record `L` next to the device that every allocation, free
  and copy to the device updates. What the library answers does not depend on the record.
-/

namespace HipBridge.Daemon

open Lib

variable {D L : Type}

/-- The record is updated with what was asked, the code, and for an allocation the block. -/
def watched (hip : HipLib D) (onMalloc : UInt64 → Int32 → Ptr → L → L)
    (onFree : Ptr → Int32 → L → L) (onToDevice : Ptr → List UInt8 → Int32 → L → L) :
    HipLib (D × L) where
  canAlloc bytes d := hip.canAlloc bytes d.1
  sym := hip.sym
  dlerror := hip.dlerror
  errorString := hip.errorString
  malloc size d :=
    let (rc, ptr, device) := hip.malloc size d.1
    (rc, ptr, device, onMalloc size rc ptr d.2)
  free ptr d :=
    let (rc, device) := hip.free ptr d.1
    (rc, device, onFree ptr rc d.2)
  memcpyHostToDevice dst data d :=
    let (rc, device) := hip.memcpyHostToDevice dst data d.1
    (rc, device, onToDevice dst data rc d.2)
  memcpyDeviceToHost src len d :=
    let (rc, bytes, device) := hip.memcpyDeviceToHost src len d.1
    (rc, bytes, device, d.2)
  getDeviceCount d :=
    let (rc, count, device) := hip.getDeviceCount d.1
    (rc, count, device, d.2)
  getDevicePropertiesR0600 ordinal d :=
    let (rc, bytes, device) := hip.getDevicePropertiesR0600 ordinal d.1
    (rc, bytes, device, d.2)
  moduleLoadData data d :=
    let (rc, module, device) := hip.moduleLoadData data d.1
    (rc, module, device, d.2)
  moduleGetFunction module name d :=
    let (rc, function, device) := hip.moduleGetFunction module name d.1
    (rc, function, device, d.2)
  moduleLaunchKernel function grid block sharedMem args d :=
    let (rc, device) := hip.moduleLaunchKernel function grid block sharedMem args d.1
    (rc, device, d.2)

theorem shortTexts_watched {hip : HipLib D} (h : ShortTexts hip)
    (onMalloc : UInt64 → Int32 → Ptr → L → L) (onFree : Ptr → Int32 → L → L)
    (onToDevice : Ptr → List UInt8 → Int32 → L → L) :
    ShortTexts (watched hip onMalloc onFree onToDevice) :=
  ⟨h.errorString, h.dlerror⟩

end HipBridge.Daemon
