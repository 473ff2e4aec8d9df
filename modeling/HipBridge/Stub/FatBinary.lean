import HipBridge.Stub.Memory

/-!
# Fat binaries in `hip-stub`

* **`offloadBundleTotalSize`** — how many bytes the bundle at a pointer takes up, from its
  header and the metadata of its entries.
* **`selectBundle`** — the bundle pointer `__hipRegisterFatBinary` settles on.
* **`Game`** — a session with the two registries of the module calls.
* **`hipRegisterFatBinary`**, **`hipRegisterFunction`** — the exported calls; what they hand to
  `call_bridge` is a definition of its own.
-/

namespace HipBridge.Stub

open Lib Protocol Daemon

/-- `OFFLOAD_BUNDLE_MAGIC`. -/
def offloadBundleMagic : List UInt8 := utf8Bytes "__CLANG_OFFLOAD_BUNDLE__"

def sanityMaxBundles : Nat := 1000

def sanityMaxSize : Nat := 512 * 1024 * 1024

/-- `offset.saturating_add(size)`. -/
def saturatingAdd (offset size : UInt64) : Nat := min (offset.toNat + size.toNat) usizeMax

/-- The loop of `offload_bundle_total_size`, `n` entries from `cursor` on. The outer `none` is
an access fault. -/
def bundleExtent (mem : Memory) (data : Ptr) : (n cursor total : Nat) → Option (Option Nat)
  | 0, _, total => some (some total)
  | n + 1, cursor, total => do
    let offset ← mem.readWord (data + UInt64.ofNat cursor)
    let size ← mem.readWord (data + UInt64.ofNat (cursor + 8))
    let tripleLen ← mem.readWord (data + UInt64.ofNat (cursor + 16))
    if 4096 < tripleLen.toNat then return none
    let total := max total (saturatingAdd offset size)
    if sanityMaxSize < total then return none
    bundleExtent mem data n (cursor + (24 + tripleLen.toNat)) total

/-- `offload_bundle_total_size`. -/
def offloadBundleTotalSize (mem : Memory) (data : Ptr) : Option (Option Nat) := do
  let magic ← mem.read data offloadBundleMagic.length
  if magic ≠ offloadBundleMagic then return none
  let numBundles ← mem.readWord (data + UInt64.ofNat offloadBundleMagic.length)
  let cursor := offloadBundleMagic.length + 8
  if sanityMaxBundles < numBundles.toNat then return none
  bundleExtent mem data numBundles.toNat cursor cursor

/-- The first of `data` and the pointer a wrapper struct holds at offset 8 that parses as a
bundle, with the bundle's size. -/
def selectBundle (mem : Memory) (data : Ptr) : Option (Option (Ptr × Nat)) := do
  match ← offloadBundleTotalSize mem data with
  | some size => return some (data, size)
  | none =>
    let inner ← mem.readWord (data + 8)
    match ← offloadBundleTotalSize mem inner with
    | some size => return some (inner, size)
    | none => return none

/-- A session with `NEXT_FATBIN_ID`, `fatbin_registry` (modules by fat binary) and
`function_registry` (functions by host stub). -/
structure Game (D : Type) extends Session D where
  nextFatbinId : UInt64
  fatbins : AList fun _ : UInt64 => UInt64
  functions : AList fun _ : UInt64 => UInt64

variable {D : Type} (hip : HipLib D) (g : Game D)

/-- Before the first call. -/
def Game.new (host : FlatMemory) (device : D) : Game D := ⟨.new host device, 1, ∅, ∅⟩

/-- The game's memory, all of which is mapped here. -/
def Game.memory : Memory := fun p => some (g.host p)

/-- What `__hipRegisterFatBinary` hands to `call_bridge`: the whole bundle, if there is one. -/
def fatBinaryRequest (data : Ptr) : Option Request :=
  match selectBundle g.memory data with
  | some (some (bundlePtr, size)) => some (.loadModule (g.host.slice bundlePtr size))
  | _ => none

/-- `__hipRegisterFatBinary`. The id is returned whether or not a module is loaded. -/
def hipRegisterFatBinary (data : Ptr) : Ptr × Game D :=
  let id := g.nextFatbinId
  let g := { g with nextFatbinId := g.nextFatbinId + 1 }
  match fatBinaryRequest g data with
  | none => (id, g)
  | some req =>
    match callBridge hip g.toSession req with
    | (.ok body, s) =>
      if body.length = 8 then
        (id, { g with toSession := s, fatbins := g.fatbins.insert id (u64FromLe body) })
      else (id, { g with toSession := s })
    | (.error _, s) => (id, { g with toSession := s })

/-- `safe_cstr`. -/
def safeCstr : Option CString → String
  | none => "<null>"
  | some name => fromUtf8Lossy name.bytes

/-- What `__hipRegisterFunction` hands to `call_bridge`, if the fat binary has a module. -/
def functionRequest (fatBin : Ptr) (deviceName : Option CString) : Option Request :=
  (g.fatbins.lookup fatBin).map fun module => .getFunction module (safeCstr deviceName)

/-- `__hipRegisterFunction`; the parameters that are only logged are left out. -/
def hipRegisterFunction (fatBin hostFn : Ptr) (deviceName : Option CString) : Game D :=
  match functionRequest g fatBin deviceName with
  | none => g
  | some req =>
    match callBridge hip g.toSession req with
    | (.ok body, s) =>
      if body.length = 8 then
        { g with toSession := s, functions := g.functions.insert hostFn (u64FromLe body) }
      else { g with toSession := s }
    | (.error _, s) => { g with toSession := s }

/-! ## What the size says -/

/-- The loop returns a total of at most `SANITY_MAX_SIZE`. Induction on the entries. -/
theorem bundleExtent_le {mem : Memory} {data : Ptr} {n cursor total size : Nat}
    (htotal : total ≤ sanityMaxSize)
    (h : bundleExtent mem data n cursor total = some (some size)) : size ≤ sanityMaxSize := by
  induction n generalizing cursor total with
  | zero =>
    cases h
    exact htotal
  | succ n ih =>
    simp only [bundleExtent, Option.bind_eq_bind, Option.bind_eq_some_iff] at h
    obtain ⟨offset, -, entrySize, -, tripleLen, -, h⟩ := h
    split at h
    case isTrue => cases h
    case isFalse =>
      split at h
      case isTrue => cases h
      case isFalse hle => exact ih (Nat.le_of_not_lt hle) h

/-- A size that is returned is within the limit. -/
theorem offloadBundleTotalSize_le {mem : Memory} {data : Ptr} {size : Nat}
    (h : offloadBundleTotalSize mem data = some (some size)) : size ≤ sanityMaxSize := by
  simp only [offloadBundleTotalSize, Option.bind_eq_bind, Option.bind_eq_some_iff] at h
  obtain ⟨magic, -, h⟩ := h
  split at h
  case isTrue => cases h
  case isFalse =>
    obtain ⟨numBundles, -, h⟩ := Option.bind_eq_some_iff.mp h
    split at h
    case isTrue => cases h
    case isFalse => exact bundleExtent_le (by decide) h

end HipBridge.Stub
