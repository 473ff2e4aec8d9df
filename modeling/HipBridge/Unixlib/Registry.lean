import HipBridge.Lib.CString
import HipBridge.Unixlib.AllocCap

/-!
# The registration tables (`registry.c`)

Three fixed arrays scanned from the front: fat-binary token to module, `host_fn` to kernel
(with its name), `host_var` to device global.

The three add and the three find functions of the source are one piece of code at three
entry types: **`registryAdd`** appends unless the table is full, **`registryFind`** returns
the value of the first entry with the key. `registryFind_registryAdd` says what an add does
to every later lookup.
-/

namespace HipBridge.Unixlib

open Lib

/-! ## Recognising a bundle -/

/-- `"__CLANG_OFFLOAD_BUNDLE__"`, without its NUL. -/
def offloadBundleMagic : List UInt8 := utf8Bytes "__CLANG_OFFLOAD_BUNDLE__"

/-- `resolve_bundle_ptr`: `data` itself, or the pointer a wrapper struct holds at offset 8,
whichever points at the magic; `NULL` if neither does. The outer `none` is an access fault. -/
def resolveBundlePtr (mem : Memory) (data : Ptr) : Option Ptr := do
  let head ← mem.read data offloadBundleMagic.length
  if head = offloadBundleMagic then
    return data
  let inner ← mem.readWord (data + 8)
  if inner = 0 then
    return 0
  let head ← mem.read inner offloadBundleMagic.length
  if head = offloadBundleMagic then
    return inner
  return 0

/-! ## The tables -/

abbrev maxFatbins : Nat := 16

abbrev maxFunctions : Nat := 256

abbrev maxFunctionName : Nat := 127

abbrev maxVars : Nat := 32

/-- `struct fatbin_entry`. -/
structure FatbinEntry where
  token : Ptr
  module : Ptr
deriving DecidableEq, Repr

/-- `struct function_entry`; `name` is the whole buffer, bytes after the NUL included. -/
structure FunctionEntry where
  hostFn : Ptr
  function : Ptr
  name : Vector UInt8 (maxFunctionName + 1)
deriving DecidableEq, Repr

/-- `struct var_entry`. -/
structure VarEntry where
  hostVar : Ptr
  devicePtr : Ptr
deriving DecidableEq, Repr

/-- The statics of `registry.c`. -/
structure Registry where
  fatbins : SlotTable FatbinEntry maxFatbins
  functions : SlotTable FunctionEntry maxFunctions
  vars : SlotTable VarEntry maxVars
deriving DecidableEq

/-- The statics at load time. -/
def Registry.init : Registry where
  fatbins := .empty ⟨0, 0⟩
  functions := .empty ⟨0, 0, Vector.replicate _ 0⟩
  vars := .empty ⟨0, 0⟩

def registryReset (s : Registry) : Registry where
  fatbins := s.fatbins.clear
  functions := s.functions.clear
  vars := s.vars.clear

/-! ## Adding and finding, at any entry type -/

section Table

variable {α : Type*} {n : Nat}

/-- The body of the `registry_add_*` functions: refuse when full, else append. -/
def registryAdd (t : SlotTable α n) (e : α) : Int32 × SlotTable α n :=
  if h : n ≤ t.count then (0, t) else (1, t.push e (by omega))

/-- The body of the `registry_find_*` functions: the value of the first entry with the key. -/
def registryFind (t : SlotTable α n) (key val : α → Ptr) (k : Ptr) : Ptr :=
  match t.find? (key · = k) with
  | some e => val e
  | none => 0

/-- A key is registered when some entry in use has it. -/
def Registered (t : SlotTable α n) (key : α → Ptr) (k : Ptr) : Prop := ∃ e ∈ t.live, key e = k

instance (t : SlotTable α n) (key : α → Ptr) (k : Ptr) : Decidable (Registered t key k) :=
  inferInstanceAs (Decidable (∃ e ∈ t.live, key e = k))

theorem registryAdd_cases (t : SlotTable α n) (e : α) :
    (t.count = n ∧ registryAdd t e = (0, t)) ∨
    (t.count < n ∧ ∃ t', registryAdd t e = (1, t') ∧ t'.live = t.live ++ [e]) := by
  have hle := t.count_le
  unfold registryAdd
  split
  case isTrue h => exact Or.inl ⟨by omega, rfl⟩
  case isFalse h => exact Or.inr ⟨by omega, _, rfl, by simp⟩

theorem registryFind_of_not_registered {t : SlotTable α n} {key : α → Ptr} {k : Ptr}
    (val : α → Ptr) (h : ¬ Registered t key k) : registryFind t key val k = 0 := by
  have hnone : t.live.find? (key · = k) = none := by
    rw [List.find?_eq_none]
    intro e he
    simpa using fun hk => h ⟨e, he, hk⟩
  rw [registryFind, SlotTable.find?_eq, hnone]

/-- What one more entry does to every lookup: a registered key keeps its first value, the
new key gets the new value if there was room for it. -/
theorem registryFind_registryAdd (t : SlotTable α n) (key val : α → Ptr) (e : α) (k : Ptr) :
    registryFind (registryAdd t e).2 key val k =
      if Registered t key k then registryFind t key val k
      else if key e = k ∧ t.count < n then val e else 0 := by
  rcases registryAdd_cases t e with ⟨hfull, hadd⟩ | ⟨hroom, t', hadd, hlive⟩
  · rw [hadd]
    split
    case isTrue => rfl
    case isFalse hreg =>
      rw [if_neg (by omega)]
      exact registryFind_of_not_registered val hreg
  · rw [hadd]
    simp only [registryFind, SlotTable.find?_eq, hlive, List.find?_append]
    by_cases hreg : Registered t key k
    · obtain ⟨e', he', hk⟩ := hreg
      have hsome : (t.live.find? (key · = k)).isSome := by
        rw [List.find?_isSome]
        exact ⟨e', he', by simpa using hk⟩
      obtain ⟨e₀, he₀⟩ := Option.isSome_iff_exists.mp hsome
      rw [if_pos ⟨e', he', hk⟩, he₀]
      rfl
    · have hnone : t.live.find? (key · = k) = none := by
        rw [List.find?_eq_none]
        intro e' he'
        simpa using fun hk => hreg ⟨e', he', hk⟩
      rw [if_neg hreg, hnone, Option.none_or]
      by_cases hk : key e = k <;> simp [hk, hroom]

/-- Registered keys stay registered, and only the new key is added. -/
theorem registered_registryAdd (t : SlotTable α n) (key : α → Ptr) (e : α) (k : Ptr) :
    Registered (registryAdd t e).2 key k ↔
      Registered t key k ∨ (key e = k ∧ t.count < n) := by
  rcases registryAdd_cases t e with ⟨hfull, hadd⟩ | ⟨hroom, t', hadd, hlive⟩
  · simp [hadd, hfull]
  · simp [hadd, Registered, hlive, hroom, or_and_right, exists_or]

end Table

/-! ## The functions of the source -/

def registryAddFatbin (s : Registry) (token module : Ptr) : Int32 × Registry :=
  let r := registryAdd s.fatbins ⟨token, module⟩
  (r.1, { s with fatbins := r.2 })

def registryFindModule (s : Registry) (token : Ptr) : Ptr :=
  registryFind s.fatbins FatbinEntry.token FatbinEntry.module token

/-- The copy loop of `registry_add_function`, from index `i` of `name` on. The bytes of
`buf` after the NUL it writes are not touched. -/
def copyName (buf : Vector UInt8 (maxFunctionName + 1)) :
    (i : Nat) → List UInt8 → Vector UInt8 (maxFunctionName + 1)
  | i, [] => buf.setIfInBounds i 0
  | i, c :: cs =>
    if i < maxFunctionName then copyName (buf.setIfInBounds i c) (i + 1) cs
    else buf.setIfInBounds i 0

/-- The name buffer the next function entry starts from: whatever its slot still holds. -/
def Registry.nextNameBuffer (s : Registry) : Vector UInt8 (maxFunctionName + 1) :=
  match s.functions.slots[s.functions.count]? with
  | some old => old.name
  | none => Vector.replicate _ 0

/-- `registry_add_function`; a `NULL` name is stored as the empty string. -/
def registryAddFunction (s : Registry) (hostFn function : Ptr) (name : Option CString) :
    Int32 × Registry :=
  let buf := match name with
    | some name => copyName s.nextNameBuffer 0 name.bytes
    | none => s.nextNameBuffer.setIfInBounds 0 0
  let r := registryAdd s.functions ⟨hostFn, function, buf⟩
  (r.1, { s with functions := r.2 })

def registryFindFunction (s : Registry) (hostFn : Ptr) : Ptr :=
  registryFind s.functions FunctionEntry.hostFn FunctionEntry.function hostFn

/-- `registry_find_function_name`: the buffer the returned pointer points at. -/
def registryFindFunctionName (s : Registry) (hostFn : Ptr) :
    Option (Vector UInt8 (maxFunctionName + 1)) :=
  (s.functions.find? (·.hostFn = hostFn)).map (·.name)

def registryAddVar (s : Registry) (hostVar devicePtr : Ptr) : Int32 × Registry :=
  let r := registryAdd s.vars ⟨hostVar, devicePtr⟩
  (r.1, { s with vars := r.2 })

def registryFindVar (s : Registry) (hostVar : Ptr) : Ptr :=
  registryFind s.vars VarEntry.hostVar VarEntry.devicePtr hostVar

end HipBridge.Unixlib
