import HipBridge.Daemon.HandleRequest

/-!
# What a request that fails leaves behind

* **`RejectedBeforeHip`** — the requests answered with an error before any HIP call.
* **`FreeFails`** — a free of a known handle whose `hipFree` fails: its entry is already gone.
* **`errorAtomicity_iff`** — a request that is answered with an error leaves the three tables
  as they were unless it is such a free; and one rejected before the HIP call leaves the whole
  state, the device included, as it was.
-/

namespace HipBridge.Daemon

open Lib Protocol

variable {D : Type}

/-- The three tables hold the same values under the same handles. -/
def SameEntries (s s' : DaemonState D) : Prop :=
  s'.handles.get = s.handles.get ∧ s'.modules.get = s.modules.get ∧
    s'.functions.get = s.functions.get

/-- The request is answered with an error before any HIP call: a handle is unknown, a fixup is
bad, a symbol is missing, or a kernel name has a NUL in it. -/
def RejectedBeforeHip (hip : HipLib D) (s : DaemonState D) : Request → Prop
  | .deviceCount => False
  | .setDevice _ => False
  | .malloc _ => False
  | .free handle => s.handles.get handle = none
  | .memcpyH2D handle _ _ => s.handles.get handle = none
  | .memcpyD2H handle _ _ => s.handles.get handle = none
  | .getDeviceProperties _ => hip.sym "hipGetDevicePropertiesR0600" = false
  | .loadModule _ => hip.sym "hipModuleLoadData" = false
  | .getFunction module name =>
    s.modules.get module = none ∨ hip.sym "hipModuleGetFunction" = false ∨ 0 ∈ utf8Bytes name
  | .launchKernel function _ _ _ fixups args =>
    s.functions.get function = none ∨
      (∃ e, patchArgs s.handles fixups args = .ok (.error e)) ∨
      (hip.sym "hipModuleLaunchKernel" = false ∧
        ∃ args', patchArgs s.handles fixups args = .ok (.ok args'))

/-- A free of a known handle whose `hipFree` fails. -/
def FreeFails (hip : HipLib D) (s : DaemonState D) (req : Request) : Prop :=
  ∃ handle ptr, req = .free handle ∧ s.handles.get handle = some ptr ∧
    (hip.free ptr s.device).1 ≠ HipLib.hipSuccess

/-! ## What a request does to the tables -/

theorem SameEntries.refl (s : DaemonState D) (device : D) : SameEntries s { s with device } :=
  ⟨rfl, rfl, rfl⟩

/-- What a request that was answered did to the tables: nothing, an insertion whose handle is
the answer, or the removal of a known handle. -/
inductive TableEffect (hip : HipLib D) (s : DaemonState D) (req : Request) (resp : Response)
    (s' : DaemonState D) : Prop
  | same (hsame : SameEntries s s')
  | inserted (body : List UInt8) (hresp : resp = .ok body)
  | removed (handle : UInt64) (ptr : Ptr) (hreq : req = .free handle)
      (hknown : s.handles.get handle = some ptr)
      (hresp : resp = emptyOrErr (hip.freeRaw ptr s.device).1)
      (hhandles : s'.handles = (s.handles.remove handle).2)

/-- One case a request kind; only `Free` touches its table before its HIP call. -/
theorem handleRequest_effect {hip : HipLib D} {s s' : DaemonState D} {req : Request}
    {resp : Response} (h : handleRequest hip s req = .ok (resp, s')) :
    TableEffect hip s req resp s' := by
  cases req with
  | deviceCount =>
    simp only [handleRequest] at h
    split at h <;> cases h <;> exact .same (SameEntries.refl s _)
  | setDevice device => cases h; exact .same (SameEntries.refl s _)
  | malloc size =>
    simp only [handleRequest] at h
    split at h
    · cases h; exact .inserted _ rfl
    · cases h; exact .same (SameEntries.refl s _)
  | free handle =>
    cases hknown : s.handles.get handle with
    | some ptr =>
      rw [handleRequest_free_known hip hknown] at h
      cases h
      exact .removed handle ptr rfl hknown rfl rfl
    | none =>
      rw [handleRequest_free_unknown hip hknown] at h
      cases h
      exact .same ⟨rfl, rfl, rfl⟩
  | memcpyH2D handle offset data =>
    simp only [handleRequest] at h
    split at h <;> cases h <;> exact .same (SameEntries.refl s _)
  | memcpyD2H handle offset len =>
    simp only [handleRequest] at h
    split at h
    · cases hcopy : hip.memcpyD2h _ offset len s.device with
      | ok result => rw [hcopy] at h; cases h; exact .same (SameEntries.refl s _)
      | error e => rw [hcopy] at h; cases h
    · cases h; exact .same (SameEntries.refl s _)
  | getDeviceProperties device => cases h; exact .same (SameEntries.refl s _)
  | loadModule data =>
    simp only [handleRequest] at h
    split at h
    · cases h; exact .inserted _ rfl
    · cases h; exact .same (SameEntries.refl s _)
  | getFunction module name =>
    simp only [handleRequest] at h
    split at h
    · split at h
      · cases h; exact .inserted _ rfl
      · cases h; exact .same (SameEntries.refl s _)
    · cases h; exact .same (SameEntries.refl s _)
  | launchKernel function grid block sharedMem fixups args =>
    simp only [handleRequest] at h
    split at h
    · cases hpatch : patchArgs s.handles fixups args with
      | ok result =>
        rw [hpatch] at h
        cases result with
        | ok args => cases h; exact .same (SameEntries.refl s _)
        | error e => cases h; exact .same (SameEntries.refl s _)
      | error e => rw [hpatch] at h; cases h
    · cases h; exact .same (SameEntries.refl s _)

theorem emptyOrErr_freeRaw_eq_err {hip : HipLib D} {ptr : Ptr} {d : D} :
    (∃ e, emptyOrErr (hip.freeRaw ptr d).1 = .err e) ↔ (hip.free ptr d).1 ≠ HipLib.hipSuccess := by
  simp only [HipLib.freeRaw]
  split
  case isTrue hrc => simp [hrc, emptyOrErr]
  case isFalse hrc => simp [hrc, emptyOrErr, Response.okEmpty]

theorem rejected_of_eq {hip : HipLib D} {s : DaemonState D} {req : Request} {e : String}
    (h : handleRequest hip s req = .ok (.err e, s)) :
    ∃ e s', handleRequest hip s req = .ok (.err e, s') ∧ SameEntries s s' ∧
      s'.device = s.device :=
  ⟨e, s, h, ⟨rfl, rfl, rfl⟩, rfl⟩

/-- A request rejected before its HIP call changes nothing, the device included. -/
theorem handleRequest_rejected {hip : HipLib D} {s : DaemonState D} {req : Request}
    (h : RejectedBeforeHip hip s req) :
    ∃ e s', handleRequest hip s req = .ok (.err e, s') ∧ SameEntries s s' ∧
      s'.device = s.device := by
  cases req with
  | deviceCount | setDevice | malloc => exact h.elim
  | free handle => exact rejected_of_eq (handleRequest_free_unknown hip h)
  | memcpyH2D handle offset data =>
    exact rejected_of_eq (handleRequest_memcpyH2D_unknown hip h offset data)
  | memcpyD2H handle offset len =>
    exact rejected_of_eq (handleRequest_memcpyD2H_unknown hip h offset len)
  | getDeviceProperties device =>
    have hsym : hip.sym "hipGetDevicePropertiesR0600" = false := h
    apply rejected_of_eq
    simp only [handleRequest, HipLib.devicePropertiesR0600, HipLib.lazySym, hsym]
    rfl
  | loadModule data =>
    have hsym : hip.sym "hipModuleLoadData" = false := h
    apply rejected_of_eq
    simp only [handleRequest, HipLib.loadModule, HipLib.lazySym, hsym]
    rfl
  | getFunction module name =>
    cases hmodule : s.modules.get module with
    | none =>
      apply rejected_of_eq
      simp only [handleRequest, hmodule]
      rfl
    | some ptr =>
      -- a missing symbol and a NUL in the name both end before the lookup in the module
      have hget : ∃ e, hip.getFunction ptr name s.device = (.error e, s.device) := by
        cases hsym : hip.sym "hipModuleGetFunction" with
        | false => simp [HipLib.getFunction, HipLib.lazySym, hsym]
        | true =>
          have hnul : 0 ∈ utf8Bytes name := by
            simpa [RejectedBeforeHip, hmodule, hsym] using h
          simp [HipLib.getFunction, HipLib.lazySym, hsym, HipLib.cstringNew, hnul]
      obtain ⟨e, he⟩ := hget
      apply rejected_of_eq
      simp only [handleRequest, hmodule, he]
      rfl
  | launchKernel function grid block sharedMem fixups args =>
    cases hfunction : s.functions.get function with
    | none =>
      apply rejected_of_eq
      simp only [handleRequest, hfunction]
      rfl
    | some ptr =>
      rcases h with hnone | ⟨e, hpatch⟩ | ⟨hsym, args', hpatch⟩
      · rw [hfunction] at hnone
        cases hnone
      · apply rejected_of_eq
        simp only [handleRequest, hfunction, hpatch]
        rfl
      · apply rejected_of_eq
        simp only [handleRequest, hfunction, hpatch, HipLib.launchKernel, HipLib.lazySym, hsym]
        rfl

/-- **When a failed request leaves the tables alone.** A request answered with an error leaves
the three tables as they were exactly when it is not a free of a known handle whose `hipFree`
fails; and a request rejected before its HIP call leaves the device as it was too. -/
theorem errorAtomicity_iff (hip : HipLib D) (s : DaemonState D) (req : Request) :
    ((∀ e s', handleRequest hip s req = .ok (.err e, s') → SameEntries s s') ↔
      ¬ FreeFails hip s req) ∧
    (RejectedBeforeHip hip s req →
      ∃ e s', handleRequest hip s req = .ok (.err e, s') ∧ SameEntries s s' ∧
        s'.device = s.device) := by
  refine ⟨⟨?_, ?_⟩, handleRequest_rejected⟩
  · -- after a failed free the handle that was known is unknown
    rintro hsame ⟨handle, ptr, rfl, hknown, hrc⟩
    obtain ⟨e, he⟩ := emptyOrErr_freeRaw_eq_err.mpr hrc
    have hreq := handleRequest_free_known hip hknown
    rw [he] at hreq
    have hgone := congrFun (hsame e _ hreq).1 handle
    rw [HandleTable.get_remove, if_pos rfl, hknown] at hgone
    cases hgone
  · intro hfree e s' h
    cases handleRequest_effect h with
    | same hsame => exact hsame
    | inserted body hresp => cases hresp
    | removed handle ptr hreq hknown hresp hhandles =>
      exact absurd ⟨handle, ptr, hreq, hknown, emptyOrErr_freeRaw_eq_err.mp ⟨e, hresp.symm⟩⟩ hfree

/-- A library whose `hipFree` fails, and whose other calls succeed without doing anything. -/
def brokenFree : HipLib Unit where
  canAlloc _ _ := true
  sym _ := true
  dlerror := ""
  errorString _ := "invalid argument"
  malloc _ d := (0, 0x1000, d)
  free _ d := (1, d)
  memcpyHostToDevice _ _ d := (0, d)
  memcpyDeviceToHost _ _ d := (0, fun _ => 0, d)
  getDeviceCount d := (0, 1, d)
  getDevicePropertiesR0600 _ d := (0, fun _ => 0, d)
  moduleLoadData _ d := (0, 0x2000, d)
  moduleGetFunction _ _ d := (0, 0x3000, d)
  moduleLaunchKernel _ _ _ _ _ d := (0, d)

/-- A daemon that has served one `Malloc`. -/
def oneBlock : DaemonState Unit :=
  { DaemonState.new () with handles := (HandleTable.new.insert 0x1000).2 }

theorem handleRequest_malloc_oneBlock (size : UInt64) :
    handleRequest brokenFree (DaemonState.new ()) (.malloc size)
      = .ok (.ok (u64ToLe 1), oneBlock) := rfl

/-- A copy to a handle that was never issued is refused, and a copy to the block that there is
leaves the tables alone. -/
theorem oneBlock_memcpyH2D :
    (∃ e s', handleRequest brokenFree oneBlock (.memcpyH2D 2 0 [7]) = .ok (.err e, s') ∧
      SameEntries oneBlock s' ∧ s'.device = oneBlock.device) ∧
    ∀ e s', handleRequest brokenFree oneBlock (.memcpyH2D 1 0 [7]) = .ok (.err e, s') →
      SameEntries oneBlock s' := by
  have hunknown : oneBlock.handles.get 2 = none := rfl
  refine ⟨(errorAtomicity_iff brokenFree oneBlock (.memcpyH2D 2 0 [7])).2 hunknown,
    (errorAtomicity_iff brokenFree oneBlock (.memcpyH2D 1 0 [7])).1.mpr ?_⟩
  rintro ⟨handle, ptr, hreq, -⟩
  cases hreq

/-- After a `Free` that is answered with an error, handle 1 is unknown. -/
theorem oneBlock_free_forgets :
    ¬ ∀ (hip : HipLib Unit) s req e s', handleRequest hip s req = .ok (.err e, s') →
      SameEntries s s' := by
  intro h
  have hfree := h brokenFree oneBlock (.free 1) _ _ rfl
  have hgone := congrFun hfree.1 1
  revert hgone
  decide

end HipBridge.Daemon
