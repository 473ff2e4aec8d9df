import HipBridge.Unixlib.PeShim

/-!
# What an export makes of the handler's result

Every export but `hipGetLastError` and the two version queries ends in one of three ways
(**`Ending`**): a unix call whose `ret` goes through `mapRet`, a local rejection, or a local
success. **`exec_ending`** is the one walk over all the exports; what the boundary reports
and what it records as the last error are both read off it.

The two version queries make their unix call and return `HIP_SUCCESS` whatever it stored.
`noFabricatedSuccess_iff` says exactly when that agrees with the native side: when the real
query was made and succeeded.
-/

namespace HipBridge.Unixlib

open Lib

/-! ## How exports end -/

/-- The three ways an export called in `p` ends, the version queries and `hipGetLastError`
apart. -/
inductive Ending (p : Process) : PeResult Unit → Prop
  | mapped (p' : Process) (unixRet code : Int32) (hlast : p'.lastError = p.lastError)
      (hcode : code ≠ hipSuccess) : Ending p (mapRet p' unixRet code ())
  | rejected (code : Int32) (hcode : code ≠ hipSuccess) : Ending p (reject p code ())
  | succeeded (r : PeResult Unit) (hret : r.ret = hipSuccess) (hunix : r.unixRet = none)
      (hlast : r.proc.lastError = p.lastError) : Ending p r

@[simp] theorem lastError_wineUnixCall (w : World) (p : Process) (c : HipUnixCall) (a : c.Args) :
    (wineUnixCall w p c a).2.lastError = p.lastError := rfl

@[simp] theorem forget_mapRet {α : Type} (p : Process) (unixRet code : Int32) (out : α) :
    (mapRet p unixRet code out).forget = mapRet p unixRet code () := by
  unfold mapRet PeResult.forget
  split <;> rfl

@[simp] theorem forget_reject {α : Type} (p : Process) (code : Int32) (out : α) :
    (reject p code out).forget = reject p code () := rfl

theorem hipErrorNoDevice_ne : hipErrorNoDevice ≠ hipSuccess := by decide

theorem hipErrorNotSupported_ne : hipErrorNotSupported ≠ hipSuccess := by decide

/-- A unix call followed by `mapRet`. -/
theorem Ending.unix (w : World) (p : Process) (c : HipUnixCall) (a : c.Args)
    (ret : c.Args → Int32) {code : Int32} (hcode : code ≠ hipSuccess) :
    Ending p (mapRet (wineUnixCall w p c a).2 (ret (wineUnixCall w p c a).1) code ()) :=
  .mapped _ _ code rfl hcode

/-- A local check in front of an export. -/
theorem Ending.guard {p : Process} {b : Bool} {r : PeResult Unit} (h : Ending p r) :
    Ending p (if b then reject p hipErrorNotSupported () else r) := by
  cases b with
  | true => exact .rejected _ hipErrorNotSupported_ne
  | false => exact h

theorem hipPushCallConfiguration_ending (p : Process) (gridDim blockDim : Option Dim3)
    (sharedMem : UInt64) (stream : Ptr) :
    Ending p (hipPushCallConfiguration p gridDim blockDim sharedMem stream) := by
  unfold hipPushCallConfiguration
  split
  · split
    · exact .rejected _ hipErrorNotSupported_ne
    · exact .succeeded _ rfl rfl rfl
  · exact .rejected _ hipErrorNotSupported_ne

theorem hipPopCallConfiguration_ending (p : Process) (ptrs : PopPointers) :
    Ending p (hipPopCallConfiguration p ptrs).forget := by
  unfold hipPopCallConfiguration
  split
  · exact .rejected _ hipErrorNotSupported_ne
  · exact .succeeded _ rfl rfl rfl

theorem hipFree_ending (w : World) (p : Process) (ptr : Ptr) : Ending p (hipFree w p ptr) := by
  unfold hipFree
  split
  · exact .succeeded _ rfl rfl rfl
  · exact Ending.unix w p .free _ ArgsFree.ret hipErrorNotSupported_ne

theorem hipImportExternalMemory_ending (w : World) (p : Process) (extMem : Bool)
    (desc : Option HipExtMemHandleDesc) :
    Ending p (hipImportExternalMemory w p extMem desc).forget := by
  unfold hipImportExternalMemory
  split
  · exact .rejected _ hipErrorNotSupported_ne
  · dsimp only
    split
    · exact .rejected _ hipErrorNotSupported_ne
    · rw [forget_mapRet]
      exact Ending.unix w p .importExternalMemory _ ArgsImportExternalMemory.ret
        hipErrorNotSupported_ne

theorem hipExternalMemoryGetMappedBuffer_ending (w : World) (p : Process) (devPtr : Bool)
    (extMem : Ptr) (desc : Option HipExtMemBufferDesc) :
    Ending p (hipExternalMemoryGetMappedBuffer w p devPtr extMem desc).forget := by
  unfold hipExternalMemoryGetMappedBuffer
  split
  · exact .rejected _ hipErrorNotSupported_ne
  · dsimp only
    rw [forget_mapRet]
    exact Ending.unix w p .externalMemoryGetMappedBuffer _ ArgsExternalMemoryGetMappedBuffer.ret
      hipErrorNotSupported_ne

theorem hipLaunchKernel_ending (w : World) (p : Process) (function : Ptr)
    (gridDim blockDim : Option Dim3) (args : Option Ptr) (sharedMem : UInt64) (stream : Ptr) :
    Ending p (hipLaunchKernel w p function gridDim blockDim args sharedMem stream) := by
  unfold hipLaunchKernel
  split
  · split
    · exact .rejected _ hipErrorNotSupported_ne
    · exact Ending.unix w p .launchKernel _ ArgsLaunchKernel.ret hipErrorNotSupported_ne
  · exact .rejected _ hipErrorNotSupported_ne

/-! ## The version queries -/

/-- The symbol a version query asks for and the real call it stands for. -/
def PeCall.versionQuery : PeCall → Option (HipSym × HipCall)
  | .driverGetVersion _ => some (.hipDriverGetVersion, .driverGetVersion)
  | .runtimeGetVersion _ => some (.hipRuntimeGetVersion, .runtimeGetVersion)
  | _ => none

/-- The walk over the exports: each ends in one of the three ways. -/
theorem exec_ending (w : World) (p : Process) (c : PeCall) (hget : c ≠ .getLastError)
    (hversion : c.versionQuery = none) : Ending p (c.exec w p) := by
  cases c with
  | pushCallConfiguration g b m s => exact hipPushCallConfiguration_ending p g b m s
  | popCallConfiguration ptrs => exact hipPopCallConfiguration_ending p ptrs
  | driverGetVersion version => cases hversion
  | runtimeGetVersion version => cases hversion
  | getLastError => exact absurd rfl hget
  | getDeviceCount count =>
    simp only [PeCall.exec, hipGetDeviceCount, forget_mapRet]
    exact Ending.unix w p .getDeviceCount _ ArgsGetDeviceCount.ret hipErrorNoDevice_ne
  | getDevicePropertiesR0600 props device =>
    exact Ending.unix w p .getDeviceProperties _ ArgsGetDeviceProperties.ret
      hipErrorNotSupported_ne
  | setDevice device => exact Ending.unix w p .setDevice _ ArgsSetDevice.ret hipErrorNoDevice_ne
  | deviceSynchronize =>
    exact Ending.unix w p .deviceSynchronize _ ArgsDeviceSynchronize.ret hipErrorNotSupported_ne
  | malloc ptr size =>
    simp only [PeCall.exec, hipMalloc, forget_mapRet]
    exact Ending.unix w p .malloc _ ArgsMalloc.ret hipErrorNoDevice_ne
  | free ptr => exact hipFree_ending w p ptr
  | memcpy dst src size kind =>
    exact (Ending.unix w p .memcpy _ ArgsMemcpy.ret hipErrorNotSupported_ne).guard
  | memcpyAsync dst src size kind stream =>
    exact (Ending.unix w p .memcpyAsync _ ArgsMemcpy.ret hipErrorNotSupported_ne).guard
  | memcpyToSymbol symbol src size offset kind =>
    exact (Ending.unix w p .memcpyToSymbol _ ArgsMemcpyToSymbol.ret hipErrorNotSupported_ne).guard
  | memset ptr value size =>
    exact Ending.unix w p .memset _ ArgsMemset.ret hipErrorNotSupported_ne
  | memsetAsync ptr value size stream =>
    exact Ending.unix w p .memsetAsync _ ArgsMemset.ret hipErrorNotSupported_ne
  | eventCreate event =>
    simp only [PeCall.exec, hipEventCreate, forget_mapRet]
    exact Ending.unix w p .eventCreate _ ArgsEventCreate.ret hipErrorNotSupported_ne
  | eventCreateWithFlags event flags =>
    simp only [PeCall.exec, hipEventCreateWithFlags, forget_mapRet]
    exact Ending.unix w p .eventCreate _ ArgsEventCreate.ret hipErrorNotSupported_ne
  | eventQuery event =>
    exact Ending.unix w p .eventQuery _ ArgsEvent.ret hipErrorNotSupported_ne
  | streamCreateWithFlags stream flags =>
    simp only [PeCall.exec, hipStreamCreateWithFlags, forget_mapRet]
    exact Ending.unix w p .streamCreate _ ArgsStreamCreate.ret hipErrorNotSupported_ne
  | streamSynchronize stream =>
    exact Ending.unix w p .streamSynchronize _ ArgsStreamSynchronize.ret hipErrorNotSupported_ne
  | eventRecord event stream =>
    exact Ending.unix w p .eventRecord _ ArgsEventRecord.ret hipErrorNotSupported_ne
  | eventSynchronize event =>
    exact Ending.unix w p .eventSynchronize _ ArgsEvent.ret hipErrorNotSupported_ne
  | eventElapsedTime ms start stop =>
    simp only [PeCall.exec, hipEventElapsedTime, forget_mapRet]
    exact Ending.unix w p .eventElapsedTime _ ArgsEventElapsedTime.ret hipErrorNotSupported_ne
  | importExternalMemory extMem desc => exact hipImportExternalMemory_ending w p extMem desc
  | externalMemoryGetMappedBuffer devPtr extMem desc =>
    exact hipExternalMemoryGetMappedBuffer_ending w p devPtr extMem desc
  | destroyExternalMemory extMem =>
    exact Ending.unix w p .destroyExternalMemory _ ArgsDestroyExternalMemory.ret
      hipErrorNotSupported_ne
  | launchKernel f g b a m s => exact hipLaunchKernel_ending w p f g b a m s

/-- The library is loaded or can be loaded, exports `sym`, and the real call succeeds. -/
def RealCallSucceeds (w : World) (s : NativeState) (sym : HipSym) (call : HipCall) : Prop :=
  ∃ lib, (s.hipHandle <|> candidates.findSome? w.dlopen) = some lib ∧ lib sym = true ∧
    (w.hip call).ret = hipSuccess

/-- What `tryHip` answers, in terms of the loaded or loadable library. -/
theorem tryHip_reply (w : World) (s : NativeState) (sym : HipSym) (call : HipCall) :
    (tryHip w s sym call).1 =
      ((s.hipHandle <|> candidates.findSome? w.dlopen).filter (· sym)).map
        fun _ => w.hip call := by
  unfold tryHip ensureLoaded
  cases hh : s.hipHandle with
  | some lib => cases hsym : lib sym <;> simp [NativeState.hasSym, hh, hsym, Option.filter]
  | none =>
    cases hd : candidates.findSome? w.dlopen with
    | some lib => cases hsym : lib sym <;> simp [NativeState.hasSym, hsym, Option.filter]
    | none => simp

/-- A version handler stores `0` exactly when the real query was made and succeeded. -/
theorem forwardVersion_ret (w : World) (s : NativeState) (sym : HipSym) (call : HipCall) :
    (forwardVersion w s sym call fun version ret => ({ version, ret } : ArgsGetVersion)).args.ret
      = hipSuccess ↔ RealCallSucceeds w s sym call := by
  have hreply := tryHip_reply w s sym call
  unfold forwardVersion RealCallSucceeds hipVersionQueryApply
  cases hlib : (s.hipHandle <|> candidates.findSome? w.dlopen) with
  | none =>
    rw [hlib] at hreply
    simp [hreply, hipSuccess]
  | some lib =>
    rw [hlib] at hreply
    cases hsym : lib sym <;> simp [hreply, hsym, hipSuccess, Option.filter]

/-- The version exports return success and pass the handler's `ret` over. -/
theorem exec_versionQuery {c : PeCall} {sym : HipSym} {call : HipCall}
    (h : c.versionQuery = some (sym, call)) (w : World) (p : Process) :
    (c.exec w p).ret = hipSuccess ∧
      (c.exec w p).proc.lastError = p.lastError ∧
      ∃ u, (c.exec w p).unixRet = some u ∧
        (u = hipSuccess ↔ RealCallSucceeds w p.native sym call) := by
  cases c <;> cases h
  case driverGetVersion =>
    exact ⟨rfl, rfl, _, rfl, forwardVersion_ret w p.native _ _⟩
  case runtimeGetVersion =>
    exact ⟨rfl, rfl, _, rfl, forwardVersion_ret w p.native _ _⟩

/-! ## Success is reported exactly when the handler stored success -/

/-- Whenever the export made its unix call, it returns `HIP_SUCCESS` exactly if the handler
left `0` in `ret`. -/
def NoFabricatedSuccess (c : PeCall) (w : World) (p : Process) : Prop :=
  ∀ u, (c.exec w p).unixRet = some u → ((c.exec w p).ret = hipSuccess ↔ u = hipSuccess)

theorem Ending.noFabrication {p : Process} {r : PeResult Unit} (h : Ending p r) (u : Int32)
    (hu : r.unixRet = some u) : r.ret = hipSuccess ↔ u = hipSuccess := by
  cases h with
  | mapped p' unixRet code hlast hcode =>
    unfold mapRet at hu ⊢
    split at hu <;> rename_i hret <;> cases hu
    · -- the handler stored 0, and so the export returns `HIP_SUCCESS`
      rw [if_pos hret]
      exact iff_of_true rfl hret
    · rw [if_neg hret]
      exact iff_of_false hcode hret
  | rejected code hcode => cases hu
  | succeeded r hret hunix hlast => rw [hunix] at hu; cases hu

/-- **The boundary fabricates no success, the version queries apart.** An export's return
value agrees with what the handler stored, except for a version query whose real call was
not made or failed. -/
theorem noFabricatedSuccess_iff (c : PeCall) (w : World) (p : Process) :
    NoFabricatedSuccess c w p ↔
      ∀ sym call, c.versionQuery = some (sym, call) → RealCallSucceeds w p.native sym call := by
  by_cases hget : c = .getLastError
  · -- no unix call is made, so there is nothing to agree with
    subst hget
    constructor
    · intro _ sym call h
      cases h
    · intro _ u hu
      cases hu
  cases hversion : c.versionQuery with
  | none =>
    constructor
    · intro _ sym call h
      cases h
    · intro _ u hu
      exact (exec_ending w p c hget hversion).noFabrication u hu
  | some query =>
    obtain ⟨sym, call⟩ := query
    -- the export returns success, so it is right exactly when the handler stored success
    obtain ⟨hret, -, u, hu, hreal⟩ := exec_versionQuery hversion w p
    constructor
    · intro h sym' call' heq
      cases heq
      exact hreal.mp ((h u hu).mp hret)
    · intro h u' hu'
      rw [hu] at hu'
      cases hu'
      exact iff_of_true hret (hreal.mpr (h sym call rfl))

/-- A process on a machine without ROCm: no `dlopen` candidate loads. -/
def noRocm : World where
  dlopen _ := none
  mem _ := none
  hip _ := { ret := 0 }

/-- Without ROCm the handler of `hipDriverGetVersion` stores `-1`, and the export returns
`HIP_SUCCESS`. -/
theorem hipDriverGetVersion_fabricates :
    ¬ ∀ (c : PeCall) (w : World) (p : Process), NoFabricatedSuccess c w p := by
  intro h
  have hret := h (.driverGetVersion true) noRocm (Process.init ⟨none, none⟩) (-1) rfl
  exact absurd (hret.mp rfl) (by decide)

end HipBridge.Unixlib
