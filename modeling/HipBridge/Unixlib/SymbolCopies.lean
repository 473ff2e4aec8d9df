import HipBridge.Unixlib.Registration

/-!
# Copies to a device global

`hipModuleGetGlobal` reports the address and the size of a global when `unix_register_var` looks
it up. The table keeps the address; the size goes to the log.

* **`Globals`** — the native side, and beside it every global that found room in the table, with
  its size.
* **`Globals.Inv`** — the table holds the globals without their sizes.
* **`CopyInGlobal`** — a copy to a symbol is refused, or lies within the global of the symbol.
* **`copyInGlobal_iff`** — nothing is checked: a copy that is issued lies within its global only if
  its arguments do.
-/

namespace HipBridge.Unixlib

open Lib

/-- A device global as it was registered: `size` bytes at `base`. -/
structure DeviceGlobal where
  hostVar : Ptr
  base : Ptr
  size : UInt64
deriving DecidableEq

/-- What the table keeps of it. -/
def DeviceGlobal.entry (g : DeviceGlobal) : VarEntry := ⟨g.hostVar, g.base⟩

/-- The global a call puts into the table: the one `hipModuleGetGlobal` reported, if there is
room. -/
def RegisterCall.global (w : World) (s : NativeState) : RegisterCall → Option DeviceGlobal
  | .var fatbinToken hostVar deviceName =>
    (unixRegisterVar w s { fatbinToken, hostVar, deviceName }).issued.bind fun call =>
      if (w.hip call).ret = hipSuccess ∧ s.registry.vars.count < maxVars then
        some ⟨hostVar, (w.hip call).ptr, (w.hip call).size⟩
      else none
  | _ => none

/-- The native side, and the globals that were put into the table since it was loaded. -/
structure Globals where
  native : NativeState
  globals : List DeviceGlobal

namespace Globals

def init (env : Env) : Globals := ⟨NativeState.init env, []⟩

def step (r : Globals) (a : RegisterCall × World) : Globals where
  native := a.1.exec a.2 r.native
  globals := r.globals ++ (a.1.global a.2 r.native).toList

/-- The global registered for a symbol: the first that found room. -/
def globalOf (r : Globals) (symbol : Ptr) : Option DeviceGlobal :=
  r.globals.find? (·.hostVar = symbol)

/-- The table holds the globals without their sizes, and only a loaded library reports any. -/
structure Inv (r : Globals) : Prop where
  live : r.native.registry.vars.live = r.globals.map DeviceGlobal.entry
  loaded : r.globals ≠ [] → r.native.hipHandle.isSome

end Globals

/-! ## What a registration does to the table -/

theorem isSome_hipHandle_ensureLoaded (w : World) {s : NativeState} (h : s.hipHandle.isSome) :
    (ensureLoaded w s).2.hipHandle.isSome := by
  obtain ⟨lib, hlib⟩ := Option.isSome_iff_exists.mp h
  simp [ensureLoaded, hlib]

/-- A library that is loaded stays loaded. -/
theorem RegisterCall.isSome_hipHandle_exec (w : World) {s : NativeState} (c : RegisterCall)
    (h : s.hipHandle.isSome) : (c.exec w s).hipHandle.isSome := by
  cases c with
  | fatBinary data =>
    have hloaded := isSome_hipHandle_ensureLoaded w h
    unfold RegisterCall.exec unixRegisterFatBinary
    dsimp only
    split
    · exact hloaded
    · split
      · exact hloaded
      · split
        · exact hloaded
        · split <;> exact hloaded
  | function fatbinToken hostFn deviceName =>
    unfold RegisterCall.exec unixRegisterFunction
    dsimp only
    split
    · exact h
    · split <;> exact h
  | var fatbinToken hostVar deviceName =>
    unfold RegisterCall.exec unixRegisterVar
    dsimp only
    split
    · exact h
    · split <;> exact h
  | unregister fatbinToken => exact h

/-- Only the registration of a variable touches the table. -/
theorem RegisterCall.vars_exec_of_no_var (w : World) (s : NativeState) (c : RegisterCall)
    (hno : ∀ fatbinToken hostVar deviceName, c ≠ .var fatbinToken hostVar deviceName) :
    (c.exec w s).registry.vars = s.registry.vars := by
  have hadd : ∀ x, (c.add s.registry x).vars = s.registry.vars := by
    intro x
    cases c with
    | fatBinary data => rfl
    | function fatbinToken hostFn deviceName => rfl
    | var fatbinToken hostVar deviceName => exact absurd rfl (hno fatbinToken hostVar deviceName)
    | unregister fatbinToken => rfl
  cases c.effect w s with
  | added x hresolved hregistry => rw [hregistry, hadd]
  | unchanged hresolved hregistry => rw [hregistry]
  | addedNull x hnull hresolved hregistry => rw [hregistry, hadd]

/-- The entries of the table grow by the global the call registers. -/
theorem RegisterCall.live_vars_exec (w : World) (s : NativeState) (c : RegisterCall) :
    (c.exec w s).registry.vars.live
      = s.registry.vars.live ++ (c.global w s).toList.map DeviceGlobal.entry := by
  cases c with
  | fatBinary data =>
    rw [vars_exec_of_no_var w s _ (by simp)]
    simp [RegisterCall.global]
  | function fatbinToken hostFn deviceName =>
    rw [vars_exec_of_no_var w s _ (by simp)]
    simp [RegisterCall.global]
  | unregister fatbinToken =>
    rw [vars_exec_of_no_var w s _ (by simp)]
    simp [RegisterCall.global]
  | var fatbinToken hostVar deviceName =>
    unfold RegisterCall.exec RegisterCall.global unixRegisterVar
    dsimp only
    split
    case isTrue => simp
    case isFalse =>
      split
      case isTrue hfail => simp [hfail]
      case isFalse hok =>
        have hret := not_not.mp hok
        -- the table is asked for room once more, and the answer is dropped
        unfold registryAddVar
        rcases registryAdd_cases s.registry.vars
          ⟨hostVar, (w.hip (.moduleGetGlobal (findModule s fatbinToken) deviceName)).ptr⟩
          with ⟨hfull, hadd⟩ | ⟨hroom, t, hadd, hlive⟩
        · simp [hadd, hfull]
        · simp [hadd, hret, hroom, hlive, DeviceGlobal.entry]

/-- A call that registers a global has a loaded library. -/
theorem RegisterCall.isSome_hipHandle_of_global {w : World} {s : NativeState} {c : RegisterCall}
    {g : DeviceGlobal} (h : c.global w s = some g) : s.hipHandle.isSome := by
  cases c with
  | fatBinary data => cases h
  | function fatbinToken hostFn deviceName => cases h
  | unregister fatbinToken => cases h
  | var fatbinToken hostVar deviceName =>
    unfold RegisterCall.global unixRegisterVar at h
    dsimp only at h
    split at h
    case isTrue => cases h
    case isFalse hsym =>
      unfold NativeState.hasSym at hsym
      cases hlib : s.hipHandle with
      | some lib => rfl
      | none => simp [hlib] at hsym

namespace Globals

theorem inv_init (env : Env) : (init env).Inv where
  live := rfl
  loaded := fun h => absurd rfl h

theorem Inv.step {r : Globals} (h : r.Inv) (a : RegisterCall × World) : (r.step a).Inv where
  live := by
    show (a.1.exec a.2 r.native).registry.vars.live
      = (r.globals ++ (a.1.global a.2 r.native).toList).map DeviceGlobal.entry
    rw [a.1.live_vars_exec a.2 r.native, h.live, List.map_append]
  loaded := by
    intro hne
    apply a.1.isSome_hipHandle_exec a.2
    cases hglobal : a.1.global a.2 r.native with
    | some g => exact a.1.isSome_hipHandle_of_global hglobal
    | none =>
      apply h.loaded
      intro hnil
      exact hne (by simp [Globals.step, hnil, hglobal])

theorem inv_run (env : Env) (calls : List (RegisterCall × World)) :
    (run step (init env) calls).Inv :=
  (always_of_along (P := fun _ _ => True) (fun _ a h _ => h.step a) (inv_init env)
    (along_of_forall (fun _ _ => trivial) calls)).last

/-- The address a symbol looks up is that of its global. -/
theorem Inv.findVar_eq {r : Globals} (h : r.Inv) (symbol : Ptr) :
    findVar r.native symbol = (r.globalOf symbol).elim 0 DeviceGlobal.base := by
  unfold findVar registryFindVar registryFind globalOf
  rw [SlotTable.find?_eq, h.live, List.find?_map]
  have hkey : (fun e : VarEntry => decide (e.hostVar = symbol)) ∘ DeviceGlobal.entry
      = fun g => decide (g.hostVar = symbol) := rfl
  rw [hkey]
  cases r.globals.find? fun g => decide (g.hostVar = symbol) with
  | none => rfl
  | some g => rfl

theorem Inv.loaded_of_globalOf {r : Globals} (h : r.Inv) {symbol : Ptr} {g : DeviceGlobal}
    (hg : r.globalOf symbol = some g) : r.native.hipHandle.isSome :=
  h.loaded (List.ne_nil_of_mem (List.mem_of_find?_eq_some hg))

end Globals

/-! ## The copy -/

/-- The copy is refused, or it is the one copy of `size` bytes to `offset` in the global of the
symbol, and its last byte is a byte of that global. -/
def CopyInGlobal (w : World) (r : Globals) (a : ArgsMemcpyToSymbol) : Prop :=
  let result := unixMemcpyToSymbol w r.native a
  (result.args.ret ≠ hipSuccess ∧ result.issued = none) ∨
  ∃ g, r.globalOf a.symbol = some g ∧
    result.issued = some (.memcpy (g.base + a.offset) a.src a.size a.kind) ∧
    g.base.toNat + a.offset.toNat + a.size.toNat ≤ g.base.toNat + g.size.toNat

/-- Once a global of the symbol is registered, a copy is issued unless the symbol `hipMemcpy` is
missing. -/
theorem unixMemcpyToSymbol_registered {w : World} {r : Globals} (h : r.Inv)
    (a : ArgsMemcpyToSymbol) {g : DeviceGlobal} (hg : r.globalOf a.symbol = some g)
    (hne : g.base ≠ 0) :
    unixMemcpyToSymbol w r.native a =
      if r.native.hasSym .hipMemcpy then
        { args := { a with ret := (w.hip (.memcpy (g.base + a.offset) a.src a.size a.kind)).ret }
          state := r.native
          issued := some (.memcpy (g.base + a.offset) a.src a.size a.kind) }
      else { args := { a with ret := -1 }, state := r.native } := by
  have hfind : findVar r.native a.symbol = g.base := by
    rw [h.findVar_eq, hg]
    rfl
  obtain ⟨lib, hlib⟩ := Option.isSome_iff_exists.mp (h.loaded_of_globalOf hg)
  have hloaded : ensureLoaded w r.native = (true, r.native) := by
    unfold ensureLoaded
    rw [hlib]
  unfold unixMemcpyToSymbol
  rw [hfind]
  simp only [if_neg hne, forwardRet, tryHip, hloaded, Bool.true_and]
  cases r.native.hasSym .hipMemcpy with
  | false => rfl
  | true => rfl

/-- A symbol without a global, or with one at `NULL`, is refused. -/
theorem unixMemcpyToSymbol_unknown {w : World} {r : Globals} (h : r.Inv) (a : ArgsMemcpyToSymbol)
    (hnone : ∀ g, r.globalOf a.symbol = some g → g.base = 0) :
    unixMemcpyToSymbol w r.native a = { args := { a with ret := -1 }, state := r.native } := by
  have hfind : findVar r.native a.symbol = 0 := by
    rw [h.findVar_eq]
    cases hg : r.globalOf a.symbol with
    | none => rfl
    | some g => exact hnone g hg
  unfold unixMemcpyToSymbol
  rw [if_pos hfind]

/-- **The size of a global is forgotten.** After any registrations, a copy to a symbol is refused
or stays inside the global of the symbol exactly when there is no such global (or it is at
`NULL`), or no `hipMemcpy`, or the offset and the size do not pass the end of the global. -/
theorem copyInGlobal_iff (env : Env) (calls : List (RegisterCall × World)) (w : World)
    (a : ArgsMemcpyToSymbol) :
    let r := run Globals.step (Globals.init env) calls
    CopyInGlobal w r a ↔
      ∀ g, r.globalOf a.symbol = some g → g.base ≠ 0 → r.native.hasSym .hipMemcpy = true →
        a.offset.toNat + a.size.toNat ≤ g.size.toNat := by
  intro r
  have h : r.Inv := Globals.inv_run env calls
  have hret : (-1 : Int32) ≠ hipSuccess := by decide
  unfold CopyInGlobal
  constructor
  · intro hcopy g hg hne hsym
    rw [unixMemcpyToSymbol_registered h a hg hne, if_pos hsym] at hcopy
    rcases hcopy with ⟨-, hnone⟩ | ⟨g', hg', -, hle⟩
    · cases hnone
    · rw [hg] at hg'
      cases hg'
      omega
  · intro hfits
    by_cases hknown : ∃ g, r.globalOf a.symbol = some g ∧ g.base ≠ 0
    · obtain ⟨g, hg, hne⟩ := hknown
      rw [unixMemcpyToSymbol_registered h a hg hne]
      split
      case isTrue hsym =>
        have hle := hfits g hg hne hsym
        exact Or.inr ⟨g, hg, rfl, by omega⟩
      case isFalse => exact Or.inl ⟨hret, rfl⟩
    · have hnone : ∀ g, r.globalOf a.symbol = some g → g.base = 0 := by
        intro g hg
        by_contra hne
        exact hknown ⟨g, hg, hne⟩
      rw [unixMemcpyToSymbol_unknown h a hnone]
      exact Or.inl ⟨hret, rfl⟩

/-- A process with ROCm in which every lookup of a global reports 512 bytes at `0x8000`. -/
def globalWorld : World :=
  { bundleWorld 0x8000 with hip := fun _ => { ret := hipSuccess, ptr := 0x8000, size := 512 } }

/-- A bundle and one variable of it. -/
def oneGlobal : List (RegisterCall × World) :=
  [ (.fatBinary 0x1000, globalWorld)
  , (.var 0x1000 0x2000 none, globalWorld) ]

/-- 512 bytes are copied to the second byte of a global of 512 bytes. -/
theorem copy_past_global :
    ¬ ∀ env calls w a, CopyInGlobal w (run Globals.step (Globals.init env) calls) a := by
  intro hall
  have hcopy := hall ⟨none, none⟩ oneGlobal globalWorld
    { symbol := 0x2000, src := 0x3000, size := 512, offset := 1, kind := 1 }
  rcases hcopy with ⟨-, hnone⟩ | ⟨g, hg, -, hle⟩
  · revert hnone
    decide +kernel
  · have hsize : (run Globals.step (Globals.init ⟨none, none⟩) oneGlobal).globalOf 0x2000
        = some ⟨0x2000, 0x8000, 512⟩ := by decide +kernel
    cases hsize.symm.trans hg
    revert hle
    decide

end HipBridge.Unixlib
