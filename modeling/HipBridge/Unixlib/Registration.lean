import HipBridge.Lib.Run
import HipBridge.Unixlib.Native
import Mathlib.Logic.Function.Basic

/-!
# What a registered key looks up

Runs of the four registration handlers of `native.c`, each call meeting a `World` of its own.
Beside the native state a run keeps **`Latest`**: what each key was last successfully
registered as, which is what a map with overwriting insertion would hold.

* **`Faithful`** — every key looks up what it was last registered as.
* **`tracks_registryAdd_iff`** — one add keeps one table faithful exactly when it meets
  `Keeps`: a key that has an entry keeps its value, a new one finds room.
* **`faithful_iff_keeps`** — a run is faithful throughout exactly when every successful
  registration of it meets `Keeps`.
-/

namespace HipBridge.Unixlib

open Lib

/-! ## One table -/

section Table

variable {α : Type*} {n : Nat} {t : SlotTable α n} {key val : α → Ptr}

/-- Every key looks up the value recorded as its latest. -/
def Tracks (t : SlotTable α n) (key val : α → Ptr) (latest : Ptr → Option Ptr) : Prop :=
  ∀ k x, latest k = some x → registryFind t key val k = x

/-- Adding `x` for `k` is seen by later lookups of `k`: an entry that is there already has the
same value, and otherwise there is room for a new one (or nothing to see). -/
def Keeps (t : SlotTable α n) (key val : α → Ptr) (k x : Ptr) : Prop :=
  if Registered t key k then registryFind t key val k = x else t.count < n ∨ x = 0

/-- An add changes no lookup of another key that has a recorded value. -/
theorem tracks_registryAdd_of_ne {latest : Ptr → Option Ptr} (h : Tracks t key val latest)
    (e : α) {k x : Ptr} (hk : key e ≠ k) (hx : latest k = some x) :
    registryFind (registryAdd t e).2 key val k = x := by
  have hold := h k x hx
  rw [registryFind_registryAdd]
  split
  case isTrue => exact hold
  case isFalse hreg =>
    -- `k` had no entry, so what it looked up before was `NULL`, and it still is
    rw [if_neg fun hnew => hk hnew.1, ← hold, registryFind_of_not_registered val hreg]

/-- **The exact effect of an add.** The new value is looked up from now on if and only if the
add meets `Keeps`; the other keys are never disturbed. -/
theorem tracks_registryAdd_iff {latest : Ptr → Option Ptr} (h : Tracks t key val latest)
    (e : α) :
    Tracks (registryAdd t e).2 key val (Function.update latest (key e) (some (val e))) ↔
      Keeps t key val (key e) (val e) := by
  have hkey : registryFind (registryAdd t e).2 key val (key e) = val e ↔
      Keeps t key val (key e) (val e) := by
    rw [registryFind_registryAdd, Keeps]
    split
    case isTrue => rfl
    case isFalse =>
      by_cases hroom : t.count < n
      · simp [hroom]
      · simp [hroom, eq_comm]
  rw [← hkey]
  constructor
  · intro htracks
    exact htracks (key e) (val e) (by simp)
  · intro hnew k x hx
    by_cases hk : key e = k
    · subst hk
      rw [Function.update_self] at hx
      rw [hnew, Option.some.inj hx]
    · rw [Function.update_of_ne (Ne.symm hk)] at hx
      exact tracks_registryAdd_of_ne h e hk hx

end Table

/-! ## The four calls -/

/-- A registration call of the PE side. -/
inductive RegisterCall
  | fatBinary (data : Ptr)
  | function (fatbinToken hostFn : Ptr) (deviceName : Option CString)
  | var (fatbinToken hostVar : Ptr) (deviceName : Option CString)
  | unregister (fatbinToken : Ptr)

def RegisterCall.exec (w : World) (s : NativeState) : RegisterCall → NativeState
  | .fatBinary data => (unixRegisterFatBinary w s { data }).state
  | .function fatbinToken hostFn deviceName =>
    (unixRegisterFunction w s { fatbinToken, hostFn, deviceName }).state
  | .var fatbinToken hostVar deviceName =>
    (unixRegisterVar w s { fatbinToken, hostVar, deviceName }).state
  | .unregister fatbinToken => (unixUnregisterFatBinary s { fatbinToken }).state

/-- The object of the HIP call a handler issued, if that call succeeded. -/
def resolvedObject {A : Type} (w : World) (r : UnixResult A) : Option Ptr :=
  r.issued.bind fun call => if (w.hip call).ret = hipSuccess then some (w.hip call).ptr else none

/-- The object the call registers its key as: the module of a token that is returned
non-`NULL`, the kernel of a `host_fn`, the device address of a `host_var`. -/
def RegisterCall.resolved (w : World) (s : NativeState) : RegisterCall → Option Ptr
  | .fatBinary data =>
    let r := unixRegisterFatBinary w s { data }
    if r.args.fatbinToken = 0 then none else resolvedObject w r
  | .function fatbinToken hostFn deviceName =>
    resolvedObject w (unixRegisterFunction w s { fatbinToken, hostFn, deviceName })
  | .var fatbinToken hostVar deviceName =>
    resolvedObject w (unixRegisterVar w s { fatbinToken, hostVar, deviceName })
  | .unregister _ => none

/-- The add the call makes when its HIP call returned `x`. -/
def RegisterCall.add (r : Registry) (x : Ptr) : RegisterCall → Registry
  | .fatBinary data => (registryAddFatbin r data x).2
  | .function _ hostFn deviceName => (registryAddFunction r hostFn x deviceName).2
  | .var _ hostVar _ => (registryAddVar r hostVar x).2
  | .unregister _ => r

@[simp] theorem registry_ensureLoaded (w : World) (s : NativeState) :
    (ensureLoaded w s).2.registry = s.registry := by
  unfold ensureLoaded
  split
  · rfl
  · split <;> rfl

/-- What a handler did to the tables: it registered an object and added it, or it registered
nothing. In that case it left the tables alone, except that a bundle loaded at `NULL` gets an
entry although its token, `NULL`, says that it did not. -/
inductive Effect (w : World) (s : NativeState) (c : RegisterCall) : Prop
  | added (x : Ptr) (hresolved : c.resolved w s = some x)
      (hregistry : (c.exec w s).registry = c.add s.registry x)
  | unchanged (hresolved : c.resolved w s = none) (hregistry : (c.exec w s).registry = s.registry)
  | addedNull (x : Ptr) (hnull : c = .fatBinary 0) (hresolved : c.resolved w s = none)
      (hregistry : (c.exec w s).registry = c.add s.registry x)

theorem unixRegisterFatBinary_cases (w : World) (s : NativeState) (data : Ptr) :
    (∃ x, resolvedObject w (unixRegisterFatBinary w s { data }) = some x ∧
      (unixRegisterFatBinary w s { data }).args.fatbinToken = data ∧
      (unixRegisterFatBinary w s { data }).state.registry
        = (registryAddFatbin s.registry data x).2) ∨
    ((unixRegisterFatBinary w s { data }).args.fatbinToken = 0 ∧
      (unixRegisterFatBinary w s { data }).state.registry = s.registry) := by
  have hloaded := registry_ensureLoaded w s
  unfold unixRegisterFatBinary
  dsimp only
  split
  · exact Or.inr ⟨rfl, hloaded⟩
  · split
    · exact Or.inr ⟨rfl, hloaded⟩
    · split
      · exact Or.inr ⟨rfl, hloaded⟩
      · split
        case isTrue => exact Or.inr ⟨rfl, hloaded⟩
        case isFalse hok =>
          refine Or.inl ⟨_, ?_, rfl, by rw [hloaded]⟩
          simp [resolvedObject, not_not.mp hok]

theorem unixRegisterFunction_cases (w : World) (s : NativeState) (a : ArgsRegisterFunction) :
    (∃ x, resolvedObject w (unixRegisterFunction w s a) = some x ∧
      (unixRegisterFunction w s a).state.registry
        = (registryAddFunction s.registry a.hostFn x a.deviceName).2) ∨
    (resolvedObject w (unixRegisterFunction w s a) = none ∧
      (unixRegisterFunction w s a).state.registry = s.registry) := by
  unfold unixRegisterFunction
  dsimp only
  split
  · exact Or.inr ⟨rfl, rfl⟩
  · split
    case isTrue hfail => exact Or.inr ⟨by simp [resolvedObject, hfail], rfl⟩
    case isFalse hok => exact Or.inl ⟨_, by simp [resolvedObject, not_not.mp hok], rfl⟩

theorem unixRegisterVar_cases (w : World) (s : NativeState) (a : ArgsRegisterVar) :
    (∃ x, resolvedObject w (unixRegisterVar w s a) = some x ∧
      (unixRegisterVar w s a).state.registry = (registryAddVar s.registry a.hostVar x).2) ∨
    (resolvedObject w (unixRegisterVar w s a) = none ∧
      (unixRegisterVar w s a).state.registry = s.registry) := by
  unfold unixRegisterVar
  dsimp only
  split
  · exact Or.inr ⟨rfl, rfl⟩
  · split
    case isTrue hfail => exact Or.inr ⟨by simp [resolvedObject, hfail], rfl⟩
    case isFalse hok => exact Or.inl ⟨_, by simp [resolvedObject, not_not.mp hok], rfl⟩

theorem RegisterCall.effect (w : World) (s : NativeState) (c : RegisterCall) : Effect w s c := by
  cases c with
  | fatBinary data =>
    rcases unixRegisterFatBinary_cases w s data with ⟨x, hx, htoken, hadd⟩ | ⟨htoken, hsame⟩
    · -- a bundle at `NULL` is added, but its token reads as a failure
      by_cases hdata : data = 0
      · subst hdata
        exact .addedNull x rfl (if_pos htoken) hadd
      · exact .added x ((if_neg (by rwa [htoken])).trans hx) hadd
    · exact .unchanged (if_pos htoken) hsame
  | function fatbinToken hostFn deviceName =>
    rcases unixRegisterFunction_cases w s ⟨fatbinToken, hostFn, deviceName⟩ with
      ⟨x, hx, hadd⟩ | ⟨hnone, hsame⟩
    · exact .added x hx hadd
    · exact .unchanged hnone hsame
  | var fatbinToken hostVar deviceName =>
    rcases unixRegisterVar_cases w s ⟨fatbinToken, hostVar, deviceName⟩ with
      ⟨x, hx, hadd⟩ | ⟨hnone, hsame⟩
    · exact .added x hx hadd
    · exact .unchanged hnone hsame
  | unregister fatbinToken => exact .unchanged rfl rfl

/-! ## Runs -/

/-- What each key was last registered as. -/
structure Latest where
  modules : Ptr → Option Ptr
  functions : Ptr → Option Ptr
  vars : Ptr → Option Ptr

/-- Record that a call registered its key as `x`. -/
def RegisterCall.record (latest : Latest) (x : Ptr) : RegisterCall → Latest
  | .fatBinary data => { latest with modules := Function.update latest.modules data (some x) }
  | .function _ hostFn _ =>
    { latest with functions := Function.update latest.functions hostFn (some x) }
  | .var _ hostVar _ => { latest with vars := Function.update latest.vars hostVar (some x) }
  | .unregister _ => latest

/-- The native side, and what it has been asked to remember. -/
structure Registrations where
  native : NativeState
  latest : Latest

def Registrations.init (env : Env) : Registrations where
  native := NativeState.init env
  latest := ⟨fun _ => none, fun _ => none, fun _ => none⟩

def Registrations.step (r : Registrations) (a : RegisterCall × World) : Registrations where
  native := a.1.exec a.2 r.native
  latest := match a.1.resolved a.2 r.native with
    | some x => a.1.record r.latest x
    | none => r.latest

/-- Every key looks up what it was last registered as. -/
structure Faithful (r : Registrations) : Prop where
  modules : ∀ k x, r.latest.modules k = some x → findModule r.native k = x
  functions : ∀ k x, r.latest.functions k = some x → findFunction r.native k = x
  vars : ∀ k x, r.latest.vars k = some x → findVar r.native k = x

/-- A registration of `x` that its table can show: see `Keeps`. -/
def RegisterCall.KeepsObject (r : Registry) (x : Ptr) : RegisterCall → Prop
  | .fatBinary data => Keeps r.fatbins FatbinEntry.token FatbinEntry.module data x
  | .function _ hostFn _ =>
    Keeps r.functions FunctionEntry.hostFn FunctionEntry.function hostFn x
  | .var _ hostVar _ => Keeps r.vars VarEntry.hostVar VarEntry.devicePtr hostVar x
  | .unregister _ => True

/-- The call registers nothing, or an object its table can show. -/
def KeepsRegistration (r : Registrations) (a : RegisterCall × World) : Prop :=
  ∀ x, a.1.resolved a.2 r.native = some x → a.1.KeepsObject r.native.registry x

/-- The invariant: lookups are faithful, and the `NULL` token is never one of them. -/
structure Faithful.Inv (r : Registrations) : Prop extends Faithful r where
  nullToken : r.latest.modules 0 = none

/-- A registration that succeeds is seen by later lookups exactly when it meets `KeepsObject`. -/
theorem faithful_step_added {r : Registrations} (h : Faithful r) {w : World} {c : RegisterCall}
    {x : Ptr} (hresolved : c.resolved w r.native = some x)
    (hregistry : (c.exec w r.native).registry = c.add r.native.registry x) :
    Faithful (r.step (c, w)) ↔ c.KeepsObject r.native.registry x := by
  have hlatest : (r.step (c, w)).latest = c.record r.latest x := by
    simp [Registrations.step, hresolved]
  have hnative : (r.step (c, w)).native.registry = c.add r.native.registry x := hregistry
  have hfaithful : Faithful (r.step (c, w)) ↔
      Tracks (c.add r.native.registry x).fatbins FatbinEntry.token FatbinEntry.module
        (c.record r.latest x).modules ∧
      Tracks (c.add r.native.registry x).functions FunctionEntry.hostFn FunctionEntry.function
        (c.record r.latest x).functions ∧
      Tracks (c.add r.native.registry x).vars VarEntry.hostVar VarEntry.devicePtr
        (c.record r.latest x).vars := by
    rw [← hlatest, ← hnative]
    exact ⟨fun h => ⟨h.modules, h.functions, h.vars⟩, fun h => ⟨h.1, h.2.1, h.2.2⟩⟩
  have hmodules : Tracks r.native.registry.fatbins FatbinEntry.token FatbinEntry.module
    r.latest.modules := h.modules
  have hfunctions : Tracks r.native.registry.functions FunctionEntry.hostFn
    FunctionEntry.function r.latest.functions := h.functions
  have hvars : Tracks r.native.registry.vars VarEntry.hostVar VarEntry.devicePtr
    r.latest.vars := h.vars
  rw [hfaithful]
  -- each call adds to one table and records in one map; the other two are carried over
  cases c with
  | fatBinary data =>
    exact (and_iff_left ⟨hfunctions, hvars⟩).trans
      (tracks_registryAdd_iff hmodules ⟨data, x⟩)
  | function fatbinToken hostFn deviceName =>
    exact ((and_iff_right hmodules).trans (and_iff_left hvars)).trans
      (tracks_registryAdd_iff hfunctions ⟨hostFn, x, _⟩)
  | var fatbinToken hostVar deviceName =>
    exact ((and_iff_right hmodules).trans (and_iff_right hfunctions)).trans
      (tracks_registryAdd_iff hvars ⟨hostVar, x⟩)
  | unregister fatbinToken => cases hresolved

/-- `NULL` is never a token that was returned for a loaded bundle. -/
theorem resolved_fatBinary_null (w : World) (s : NativeState) :
    (RegisterCall.fatBinary 0).resolved w s = none := by
  have htoken : (unixRegisterFatBinary w s { data := 0 }).args.fatbinToken = 0 := by
    rcases unixRegisterFatBinary_cases w s 0 with ⟨_, _, htoken, _⟩ | ⟨htoken, _⟩ <;> exact htoken
  simp [RegisterCall.resolved, htoken]

/-- A bundle loaded at `NULL` adds an entry no key looks for. -/
theorem faithful_step_addedNull {r : Registrations} (h : Faithful.Inv r) {w : World} {x : Ptr}
    (hregistry : ((RegisterCall.fatBinary 0).exec w r.native).registry
      = (RegisterCall.fatBinary 0).add r.native.registry x) :
    Faithful (r.step (.fatBinary 0, w)) := by
  have hnative : (r.step (.fatBinary 0, w)).native.registry
      = (RegisterCall.fatBinary 0).add r.native.registry x := hregistry
  have hlatest : (r.step (.fatBinary 0, w)).latest = r.latest := by
    simp [Registrations.step, resolved_fatBinary_null]
  constructor
  · intro k y hy
    rw [hlatest] at hy
    -- the new entry has key `NULL`, which no successful registration has
    have hk : (0 : Ptr) ≠ k := by
      rintro rfl
      rw [h.nullToken] at hy
      cases hy
    rw [findModule, hnative]
    exact tracks_registryAdd_of_ne (t := r.native.registry.fatbins) h.modules ⟨0, x⟩ hk hy
  · intro k y hy
    rw [findFunction, hnative]
    exact h.functions k y (hlatest ▸ hy)
  · intro k y hy
    rw [findVar, hnative]
    exact h.vars k y (hlatest ▸ hy)

/-- One call keeps the lookups faithful exactly when it meets `KeepsRegistration`. -/
theorem faithful_step_iff {r : Registrations} (h : Faithful.Inv r) (a : RegisterCall × World) :
    Faithful (r.step a) ↔ KeepsRegistration r a := by
  obtain ⟨c, w⟩ := a
  cases c.effect w r.native with
  | added x hresolved hregistry =>
    rw [faithful_step_added h.toFaithful hresolved hregistry]
    simp [KeepsRegistration, hresolved]
  | unchanged hresolved hregistry =>
    refine iff_of_true ?_ fun x hx => by simp [hresolved] at hx
    have hlatest : (r.step (c, w)).latest = r.latest := by simp [Registrations.step, hresolved]
    have hnative : (r.step (c, w)).native.registry = r.native.registry := hregistry
    constructor <;> simp only [findModule, findFunction, findVar, hlatest, hnative]
    · exact h.modules
    · exact h.functions
    · exact h.vars
  | addedNull x hnull hresolved hregistry =>
    subst hnull
    exact iff_of_true (faithful_step_addedNull h hregistry) fun x hx => by simp [hresolved] at hx

theorem nullToken_step {r : Registrations} (h : r.latest.modules 0 = none)
    (a : RegisterCall × World) : (r.step a).latest.modules 0 = none := by
  obtain ⟨c, w⟩ := a
  simp only [Registrations.step]
  split
  case h_2 => exact h
  case h_1 x hx =>
    cases c with
    | fatBinary data =>
      have hdata : data ≠ 0 := by
        rintro rfl
        rw [resolved_fatBinary_null] at hx
        cases hx
      simpa [RegisterCall.record, Function.update_of_ne hdata.symm] using h
    | function | var | unregister => exact h

/-- A faithful state launches the kernel a `host_fn` was last registered as. -/
theorem launch_of_faithful {r : Registrations} (h : Faithful r) (w : World)
    (a : ArgsLaunchKernel) {x : Ptr} (hx : r.latest.functions a.hostFn = some x)
    (hne : x ≠ 0) (hsym : r.native.hasSym .hipModuleLaunchKernel = true) :
    (unixLaunchKernel w r.native a).issued
      = some (.moduleLaunchKernel x a.grid a.block a.sharedMem a.stream a.args) := by
  simp [unixLaunchKernel, h.functions _ _ hx, hne, hsym]

/-- A faithful state copies to the device address a `host_var` was last registered as. -/
theorem memcpyToSymbol_of_faithful {r : Registrations} (h : Faithful r) (w : World)
    (a : ArgsMemcpyToSymbol) {x : Ptr} (hx : r.latest.vars a.symbol = some x) (hne : x ≠ 0)
    (hsym : r.native.hasSym .hipMemcpy = true) :
    (unixMemcpyToSymbol w r.native a).issued
      = some (.memcpy (x + a.offset) a.src a.size a.kind) := by
  have hloaded : ensureLoaded w r.native = (true, r.native) := by
    unfold ensureLoaded
    unfold NativeState.hasSym at hsym
    cases hlib : r.native.hipHandle with
    | some lib => rfl
    | none => simp [hlib] at hsym
  simp [unixMemcpyToSymbol, h.vars _ _ hx, hne, forwardRet, tryHip, hloaded, hsym]

/-- **When registrations are looked up faithfully.** In every run from load, the lookups are
faithful in every state exactly when each call that registers an object for a key finds either
no entry of the key and room for one, or an entry with that same object. In a faithful state
a kernel launch and a copy to a symbol use the object their key was last registered as. -/
theorem faithful_iff_keeps (env : Env) (calls : List (RegisterCall × World)) :
    (Always Registrations.step Faithful (Registrations.init env) calls ↔
      Along Registrations.step KeepsRegistration (Registrations.init env) calls) ∧
    ∀ r, Faithful r → ∀ w : World,
      (∀ (a : ArgsLaunchKernel) x, r.latest.functions a.hostFn = some x → x ≠ 0 →
        r.native.hasSym .hipModuleLaunchKernel = true →
        (unixLaunchKernel w r.native a).issued
          = some (.moduleLaunchKernel x a.grid a.block a.sharedMem a.stream a.args)) ∧
      (∀ (a : ArgsMemcpyToSymbol) x, r.latest.vars a.symbol = some x → x ≠ 0 →
        r.native.hasSym .hipMemcpy = true →
        (unixMemcpyToSymbol w r.native a).issued
          = some (.memcpy (x + a.offset) a.src a.size a.kind)) := by
  refine ⟨?_, fun r h w => ⟨fun a x => launch_of_faithful h w a,
    fun a x => memcpyToSymbol_of_faithful h w a⟩⟩
  have hinit : Faithful.Inv (Registrations.init env) :=
    { modules := fun k x hx => by cases hx
      functions := fun k x hx => by cases hx
      vars := fun k x hx => by cases hx
      nullToken := rfl }
  refine always_iff_along (I := Faithful.Inv) (E := fun _ _ => True) (fun r h => h.toFaithful)
    (fun r a h _ hkeeps => ?_) (fun r a h _ hkeeps hfaithful => ?_) hinit
    (along_of_forall (fun _ _ => trivial) calls)
  · exact { toFaithful := (faithful_step_iff h a).mpr hkeeps
            nullToken := nullToken_step h.nullToken a }
  · exact hkeeps ((faithful_step_iff h a).mp hfaithful)

/-- A process with ROCm, a bundle at `0x1000` and HIP calls that return the object `x`. -/
def bundleWorld (x : Ptr) : World where
  dlopen := fun _ => some fun _ => true
  mem := fun p => if 0x1000 ≤ p then offloadBundleMagic[(p - 0x1000).toNat]? else none
  hip := fun _ => { ret := hipSuccess, ptr := x }

/-- A bundle unloaded and loaded again at the same address. -/
def reload : List (RegisterCall × World) :=
  [ (.fatBinary 0x1000, bundleWorld 1)
  , (.unregister 0x1000, bundleWorld 1)
  , (.fatBinary 0x1000, bundleWorld 2) ]

/-- After `reload`, the token still looks up the module of the first load. -/
theorem reload_not_faithful :
    ¬ ∀ env calls, Always Registrations.step Faithful (Registrations.init env) calls := by
  intro h
  have hlast : Faithful (run Registrations.step (Registrations.init ⟨none, none⟩) reload) :=
    (h ⟨none, none⟩ reload).last
  have hfind := hlast.modules 0x1000 2 (by decide +kernel)
  revert hfind
  decide +kernel

end HipBridge.Unixlib
