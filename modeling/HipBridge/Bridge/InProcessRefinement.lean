import HipBridge.Bridge.InProcess
import HipBridge.Bridge.KernelArgs
import HipBridge.Stub.BundleSize

/-!
# The socket bridge is a HIP library in the game's own process

The handles of the daemon, the addresses `hip-stub` makes up for them and the frames in between do
not show: a game is answered as by the library of `Bridge.InProcess`.

* **`fatBinaryRequest_eq`** — `hip-stub` finds the bundle that library finds.
* **`SpaceBridged`** — the ranges of the stub and the daemon's table of handles are the library's
  blocks; `SpaceBridged.owner` says that they agree on every address.
* **`Bridged`** — a process and its daemon, taken together, are the library.
* **`step_bridged`** — every export answers as the library does, for a choice it may make.
* **`bridge_refines_inProcess`** — so does every run.
-/

namespace HipBridge.Bridge

open Lib Protocol Daemon Stub
open Unixlib (CallConfig Dim3 PopPointers PoppedConfig hipSuccess hipErrorNoDevice
  hipErrorNotSupported writeIf)

variable {T D : Type}

/-! ## Bundles -/

/-- A line of the table, as the stub reads it. -/
def CodeObject.entry (c : CodeObject) : BundleEntry := ⟨c.offset, c.size, c.targetLen⟩

/-- Induction on the lines. -/
theorem readEntries_mapped (host : FlatMemory) (data : Ptr) (n cursor : Nat) :
    readEntries host.mapped data n cursor
      = some ((tableFrom host n (data + UInt64.ofNat cursor)).map CodeObject.entry) := by
  induction n generalizing cursor with
  | zero => rfl
  | succ n ih =>
    have hsize : data + UInt64.ofNat (cursor + 8) = data + UInt64.ofNat cursor + 8 := by
      rw [UInt64.ofNat_add, ← UInt64.add_assoc]
      rfl
    have htriple : data + UInt64.ofNat (cursor + 16) = data + UInt64.ofNat cursor + 16 := by
      rw [UInt64.ofNat_add, ← UInt64.add_assoc]
      rfl
    have hentry : readEntry host.mapped data cursor = some
        ⟨word host (data + UInt64.ofNat cursor), word host (data + UInt64.ofNat cursor + 8),
          word host (data + UInt64.ofNat cursor + 16)⟩ := by
      simp only [readEntry, FlatMemory.readWord_mapped, hsize, htriple]
      rfl
    have hnext : ∀ c : UInt64, data + UInt64.ofNat (cursor + (24 + c.toNat))
        = data + UInt64.ofNat cursor + 24 + c := by
      intro c
      rw [UInt64.ofNat_add, UInt64.ofNat_add, UInt64.ofNat_toNat, ← UInt64.add_assoc,
        ← UInt64.add_assoc]
      rfl
    simp only [readEntries, hentry, Option.bind_eq_bind, Option.bind_some, BundleEntry.length, ih,
      hnext]
    rfl

/-- The greatest end of an entry is how far the code objects go. -/
theorem reach_eq (table : List CodeObject) :
    reach table = max headerLen (greatestStop (table.map CodeObject.entry)) := by
  have hheader : headerLen = 32 := by decide
  rw [hheader]
  induction table with
  | nil => rfl
  | cons c table ih =>
    have hcons : reach (c :: table) = max c.stop (reach table) := rfl
    have hgreatest : greatestStop ((c :: table).map CodeObject.entry)
        = max c.stop (greatestStop (table.map CodeObject.entry)) := rfl
    rw [hcons, hgreatest, ih]
    omega

/-- The stub's size of what is at an address: it takes a bundle for one where the library does, and
all of it. -/
theorem offloadBundleTotalSize_mapped (host : FlatMemory) (p : Ptr) :
    ∃ size, offloadBundleTotalSize host.mapped p = some size ∧
      bundleFrom host p = size.map (host.slice p) := by
  have hmagicLen : offloadBundleMagic.length = 24 := by decide
  have hheader : headerLen = 32 := by decide
  have hmaxSize : sanityMaxSize = 512 * 1024 * 1024 := by decide
  have hmaxCount : sanityMaxBundles = 1000 := rfl
  have hsane : ∀ c : CodeObject,
      c.targetLen.toNat ≤ 4096 ∧ c.stop ≤ 512 * 1024 * 1024 ↔ c.entry.Sane := by
    intro c
    rw [← hmaxSize]
    exact Iff.rfl
  have hentries := readEntries_mapped host p (word host (p + 24)).toNat headerLen
  have hword : u64FromLe (host.slice (p + UInt64.ofNat 24) 8) = word host (p + 24) := rfl
  simp only [offloadBundleTotalSize_eq, FlatMemory.read_mapped, FlatMemory.readWord_mapped,
    Option.bind_some, hmagicLen, hword, bundleFrom, hsane]
  by_cases hmagic : host.slice p 24 = offloadBundleMagic
  case neg =>
    refine ⟨none, if_neg hmagic, if_neg fun h => hmagic h.1⟩
  case pos =>
    rw [if_pos hmagic]
    by_cases hcount : (word host (p + 24)).toNat ≤ 1000
    case neg => exact ⟨none, if_pos (by omega), if_neg fun h => hcount h.2.1⟩
    case pos =>
      rw [if_neg (by omega)]
      have htable : p + UInt64.ofNat headerLen = p + 32 := by
        rw [hheader]
        rfl
      rw [htable] at hentries
      by_cases hall : ∀ c ∈ tableFrom host (word host (p + 24)).toNat (p + 32), c.entry.Sane
      case pos =>
        refine ⟨some (reach (tableFrom host (word host (p + 24)).toNat (p + 32))), ?_,
          if_pos ⟨hmagic, hcount, hall⟩⟩
        refine (bundleExtent_eq_some_iff headerLen_le).mpr ⟨_, hentries, ?_, reach_eq _⟩
        intro e he
        obtain ⟨c, hc, rfl⟩ := List.mem_map.mp he
        exact hall c hc
      case neg =>
        refine ⟨none, ?_, if_neg fun h => hall h.2.2⟩
        obtain ⟨c, hc, hbad⟩ : ∃ c ∈ tableFrom host (word host (p + 24)).toNat (p + 32),
            ¬ c.entry.Sane := by
          by_contra hnone
          exact hall fun c hc => by_contra fun hbad => hnone ⟨c, hc, hbad⟩
        exact bundleExtent_refused headerLen_le (Nat.le_refl _) hentries
          ⟨_, List.mem_map_of_mem hc, hbad⟩

/-- The stub hands over the bundle that is there, whole. -/
theorem fatBinaryRequest_eq (g : Game D) (data : Ptr) :
    fatBinaryRequest g data = (bundleAt g.host data).map .loadModule := by
  have hmemory : g.memory = g.host.mapped := rfl
  obtain ⟨size, hsize, hbundle⟩ := offloadBundleTotalSize_mapped g.host data
  obtain ⟨inner, hinner, hwrapped⟩ := offloadBundleTotalSize_mapped g.host (word g.host (data + 8))
  have hword : u64FromLe (g.host.slice (data + 8) 8) = word g.host (data + 8) := rfl
  simp only [fatBinaryRequest, selectBundle, bundleAt, hmemory, hsize, hbundle, hwrapped,
    FlatMemory.readWord_mapped, hword, hinner, Option.bind_eq_bind, Option.bind_some]
  cases size with
  | some size => rfl
  | none => cases inner <;> rfl

/-! ## The relation -/

/-- What the stub has a handle for, by the daemon's table. -/
def Behind (t : HandleTable Ptr) (handle : Option UInt64) (ptr : Option Ptr) : Prop :=
  Option.Rel (fun handle ptr => t.get handle = some ptr) handle ptr

/-- A registry of the stub and the daemon's table behind it are a registry of pointers; `n` more
ids can be issued. -/
structure TableBridged (n : Nat) (t : HandleTable Ptr) (registry : AList fun _ : UInt64 => UInt64)
    (direct : UInt64 → Option Ptr) : Prop where
  behind : ∀ key, Behind t (registry.lookup key) (direct key)
  ids : t.IdsLeft n

/-- The stub's ids of fat binaries, of which `n` more can be given out. -/
structure FatbinsBridged (n : Nat) (t : HandleTable Ptr)
    (registry : AList fun _ : UInt64 => UInt64) (next : UInt64)
    (fatbins : UInt64 → Option (Option Ptr)) : Prop where
  table : TableBridged n t registry fun id => (fatbins id).join
  issued : ∀ id, (fatbins id).isSome → id.toNat < next.toNat
  nonnull : next ≠ 0
  room : next.toNat + n < 2 ^ 64

/-- An address space of handles and the daemon's table are a list of blocks; `n` more handles can
be issued. -/
structure SpaceBridged (n : Nat) (t : HandleTable Ptr) (space : AddressSpace)
    (blocks : List LiveBlock) : Prop where
  inv : space.Inv
  nonnull : space.nextBase ≠ 0
  live : ∀ b ∈ blocks, ∃ r, space.ranges.lookup b.base = some r ∧ r.size = b.size ∧
    t.get r.handle = some b.devPtr
  backed : ∀ base r, space.ranges.lookup base = some r → ∃ b ∈ blocks, b.base = base
  /-- No two ranges have one handle, so a free takes only its own block out of the table. -/
  distinct : ∀ base base' r r', space.ranges.lookup base = some r →
    space.ranges.lookup base' = some r' → r.handle = r'.handle → base = base'
  ids : t.IdsLeft n

/-- A process and its daemon are the library `q`, for `n` more steps. -/
structure Bridged (n : Nat) (p : GameProcess T D) (q : InProcess T D) : Prop where
  inStep : p.InStep
  lastError : p.lastError = q.lastError
  host : p.host = q.host
  pushed : p.tls = q.pushed
  device : p.daemon.device = q.device
  space : SpaceBridged n p.daemon.handles p.space q.blocks
  fatbins : FatbinsBridged n p.daemon.modules p.fatbins p.nextFatbinId q.fatbins
  functions : TableBridged n p.daemon.functions p.functions q.functions

section Relation

variable {n : Nat} {t : HandleTable Ptr} {registry : AList fun _ : UInt64 => UInt64}

/-! ### Registries -/

/-- With ids for more steps there are ids for fewer. -/
theorem TableBridged.fewer {direct : UInt64 → Option Ptr}
    (h : TableBridged (n + 1) t registry direct) : TableBridged n t registry direct :=
  ⟨h.behind, h.ids.fewer⟩

/-- A new pointer, registered under the id it is given. -/
theorem TableBridged.insert {direct : UInt64 → Option Ptr}
    (h : TableBridged (n + 1) t registry direct) (key : UInt64) (ptr : Ptr) :
    TableBridged n (t.insert ptr).2 (registry.insert key t.nextId)
      (Function.update direct key (some ptr)) := by
  refine ⟨fun key' => ?_, h.ids.insert ptr⟩
  by_cases hkey : key' = key
  · rw [hkey, AList.lookup_insert, Function.update_self]
    exact .some (by rw [HandleTable.get_insert, if_pos rfl])
  · rw [AList.lookup_insert_ne hkey, Function.update_of_ne hkey]
    have hold := h.behind key'
    unfold Behind at hold ⊢
    generalize registry.lookup key' = handle, direct key' = found at hold
    cases hold with
    | none => exact .none
    | some hget => exact .some (h.ids.get_insert_of_get ptr hget)

variable {next : UInt64} {fatbins : UInt64 → Option (Option Ptr)}

/-- The same for the ids of fat binaries. -/
theorem FatbinsBridged.fewer (h : FatbinsBridged (n + 1) t registry next fatbins) :
    FatbinsBridged n t registry next fatbins :=
  ⟨h.table.fewer, h.issued, h.nonnull, by have := h.room; omega⟩

/-- The next id is not one that was given out. -/
theorem FatbinsBridged.fresh (h : FatbinsBridged n t registry next fatbins) :
    next ≠ 0 ∧ fatbins next = none := by
  refine ⟨h.nonnull, ?_⟩
  by_contra hsome
  exact absurd (h.issued next (Option.isSome_iff_ne_none.mpr hsome)) (Nat.lt_irrefl _)

/-- The next id is not the last one. -/
theorem FatbinsBridged.toNat_next (h : FatbinsBridged (n + 1) t registry next fatbins) :
    (next + 1).toNat = next.toNat + 1 := by
  have hroom := h.room
  rw [UInt64.toNat_add]
  simp only [UInt64.reduceToNat]
  omega

/-- The one behind it is not null. -/
theorem FatbinsBridged.nonnull_next (h : FatbinsBridged (n + 1) t registry next fatbins) :
    next + 1 ≠ 0 := by
  intro hzero
  have hnext := h.toNat_next
  rw [hzero] at hnext
  exact absurd hnext (Nat.succ_ne_zero _).symm

/-- The ids that were given out, with the next one. -/
theorem FatbinsBridged.issued_next (h : FatbinsBridged (n + 1) t registry next fatbins)
    (module : Option Ptr) (id : UInt64)
    (hid : (Function.update fatbins next (some module) id).isSome) :
    id.toNat < (next + 1).toNat := by
  rw [h.toNat_next]
  by_cases hnext : id = next
  · rw [hnext]
    exact Nat.lt_succ_self _
  · rw [Function.update_of_ne hnext] at hid
    exact Nat.lt_succ_of_lt (h.issued id hid)

/-- A fat binary with a module. -/
theorem FatbinsBridged.loaded (h : FatbinsBridged (n + 1) t registry next fatbins) (module : Ptr) :
    FatbinsBridged n (t.insert module).2 (registry.insert next t.nextId) (next + 1)
      (Function.update fatbins next (some (some module))) := by
  have hjoin : (fun id => (Function.update fatbins next (some (some module)) id).join)
      = Function.update (fun id => (fatbins id).join) next (some module) := by
    funext id
    by_cases hid : id = next
    · rw [hid, Function.update_self, Function.update_self]
      rfl
    · rw [Function.update_of_ne hid, Function.update_of_ne hid]
  refine ⟨?_, h.issued_next (some module), h.nonnull_next, ?_⟩
  · rw [hjoin]
    exact h.table.insert next module
  · have hroom := h.room
    rw [h.toNat_next]
    omega

/-- A fat binary without one. -/
theorem FatbinsBridged.unloaded (h : FatbinsBridged (n + 1) t registry next fatbins) :
    FatbinsBridged n t registry (next + 1) (Function.update fatbins next (some none)) := by
  have hjoin : (fun id => (Function.update fatbins next (some none) id).join)
      = fun id => (fatbins id).join := by
    funext id
    by_cases hid : id = next
    · rw [hid, Function.update_self, h.fresh.2]
      rfl
    · rw [Function.update_of_ne hid]
  refine ⟨?_, h.issued_next none, h.nonnull_next, ?_⟩
  · rw [hjoin]
    exact h.table.fewer
  · have hroom := h.room
    rw [h.toNat_next]
    omega

/-! ### Blocks -/

variable {space : AddressSpace} {blocks : List LiveBlock}

/-- The same for the handles of blocks. -/
theorem SpaceBridged.fewer (h : SpaceBridged (n + 1) t space blocks) :
    SpaceBridged n t space blocks :=
  ⟨h.inv, h.nonnull, h.live, h.backed, h.distinct, h.ids.fewer⟩

/-- The block of a live range. -/
theorem SpaceBridged.block_of_lookup (h : SpaceBridged n t space blocks) {base : UInt64}
    {r : AllocRange} (hlookup : space.ranges.lookup base = some r) :
    ∃ b ∈ blocks, b.base = base ∧ r.size = b.size ∧ t.get r.handle = some b.devPtr := by
  obtain ⟨b, hmem, hbase⟩ := h.backed base r hlookup
  obtain ⟨r', hlookup', hsize, hget⟩ := h.live b hmem
  rw [hbase, hlookup] at hlookup'
  cases hlookup'
  exact ⟨b, hmem, hbase, hsize, hget⟩

/-- The address of a block is resolved to its handle, and the offset in it. -/
theorem SpaceBridged.resolve_of_holds (h : SpaceBridged n t space blocks)
    {b : LiveBlock} {w : UInt64} (hmem : b ∈ blocks) (hholds : b.Holds w) :
    ∃ handle, space.resolve w = some (handle, w - b.base) ∧ t.get handle = some b.devPtr := by
  obtain ⟨r, hlookup, hsize, hget⟩ := h.live b hmem
  obtain ⟨hle, hlt⟩ := hholds
  have hoffset : (w - b.base).toNat = w.toNat - b.base.toNat :=
    UInt64.toNat_sub_of_le _ _ (UInt64.le_iff_toNat_le.mpr hle)
  have hat : space.At w b.base r (w - b.base) := by
    refine ⟨hlookup, by omega, ?_⟩
    unfold extent at hlt
    rw [hsize]
    omega
  exact ⟨r.handle, h.inv.resolve_eq_some_iff.mpr ⟨b.base, r, hat, rfl⟩, hget⟩

/-- What is resolved is the address of a block. -/
theorem SpaceBridged.holds_of_resolve (h : SpaceBridged n t space blocks) {w handle k : UInt64}
    (hresolve : space.resolve w = some (handle, k)) : ∃ b ∈ blocks, b.Holds w := by
  obtain ⟨base, r, ⟨hlookup, hsum, hlt⟩, -⟩ := AddressSpace.at_of_resolve hresolve
  obtain ⟨b, hmem, hbase, hsize, -⟩ := h.block_of_lookup hlookup
  rw [hsize] at hlt
  rw [← hbase] at hsum
  refine ⟨b, hmem, by omega, ?_⟩
  unfold extent
  omega

/-- **What an address stands for.** The same on both sides: nothing, or the same offset of the same
block. -/
theorem SpaceBridged.owner (h : SpaceBridged n t space blocks) (w : UInt64) :
    (space.resolve w = none ∧ blocks.find? (decide <| ·.Holds w) = none) ∨
      ∃ handle b, space.resolve w = some (handle, w - b.base) ∧
        blocks.find? (decide <| ·.Holds w) = some b ∧ t.get handle = some b.devPtr := by
  cases hfind : blocks.find? (decide <| ·.Holds w) with
  | none =>
    -- a range that holds the address would be backed by a block that does
    have hnone : space.resolve w = none := by
      by_contra hsome
      obtain ⟨⟨handle, k⟩, hresolve⟩ := Option.ne_none_iff_exists'.mp hsome
      obtain ⟨b, hmem, hholds⟩ := h.holds_of_resolve hresolve
      exact List.find?_eq_none.mp hfind b hmem (decide_eq_true hholds)
    exact Or.inl ⟨hnone, rfl⟩
  | some b =>
    have hholds : b.Holds w := by simpa using List.find?_some hfind
    obtain ⟨handle, hresolve, hget⟩ :=
      h.resolve_of_holds (List.mem_of_find?_eq_some hfind) hholds
    exact Or.inr ⟨handle, b, hresolve, rfl, hget⟩

/-- Where a live range starts, a block does. -/
theorem SpaceBridged.find_base (h : SpaceBridged n t space blocks) {ptr : Ptr} {r : AllocRange}
    (hlookup : space.ranges.lookup ptr = some r) :
    ∃ b, blocks.find? (·.base = ptr) = some b ∧ t.get r.handle = some b.devPtr := by
  obtain ⟨b, hmem, hbase, -, -⟩ := h.block_of_lookup hlookup
  obtain ⟨found, hfind⟩ : ∃ found, blocks.find? (·.base = ptr) = some found :=
    Option.isSome_iff_exists.mp (List.find?_isSome.mpr ⟨b, hmem, decide_eq_true hbase⟩)
  obtain ⟨r', hlookup', -, hget⟩ := h.live found (List.mem_of_find?_eq_some hfind)
  have hfound : found.base = ptr := by simpa using List.find?_some hfind
  rw [hfound, hlookup] at hlookup'
  cases hlookup'
  exact ⟨found, hfind, hget⟩

/-- Where none starts, no block does. -/
theorem SpaceBridged.find_base_none (h : SpaceBridged n t space blocks) {ptr : Ptr}
    (hlookup : space.ranges.lookup ptr = none) : blocks.find? (·.base = ptr) = none := by
  refine List.find?_eq_none.mpr fun b hmem hbase => ?_
  obtain ⟨r, hlookup', -, -⟩ := h.live b hmem
  rw [of_decide_eq_true hbase, hlookup] at hlookup'
  cases hlookup'

/-- The next base is one that may be picked. -/
theorem SpaceBridged.mayPick (h : SpaceBridged n t space blocks) {size : UInt64}
    (hroom : space.nextBase.toNat + AddressSpace.reservedNat size < 2 ^ 64) :
    space.nextBase ≠ 0 ∧ space.nextBase.toNat + extent size ≤ 2 ^ 64 ∧
      ∀ b ∈ blocks, b.Apart space.nextBase size := by
  have hreserved := AddressSpace.reservedNat_ge size
  refine ⟨h.nonnull, ?_, fun b hmem => Or.inl ?_⟩
  · unfold extent
    omega
  · obtain ⟨r, hlookup, hsize, -⟩ := h.live b hmem
    have hbelow := h.inv.below b.base r hlookup
    have hpad := AddressSpace.reservedNat_ge r.size
    unfold extent
    rw [hsize] at hpad hbelow
    omega

/-- A block the stub keeps no range for is only issued an id. -/
theorem SpaceBridged.insert (h : SpaceBridged (n + 1) t space blocks) (devPtr : Ptr) :
    SpaceBridged n (t.insert devPtr).2 space blocks := by
  refine ⟨h.inv, h.nonnull, fun b hmem => ?_, h.backed, h.distinct, h.ids.insert devPtr⟩
  obtain ⟨r, hlookup, hsize, hget⟩ := h.live b hmem
  exact ⟨r, hlookup, hsize, h.ids.get_insert_of_get devPtr hget⟩

/-- A block gets its range, at the next base. -/
theorem SpaceBridged.allocate (h : SpaceBridged (n + 1) t space blocks) {size : UInt64}
    (hroom : space.nextBase.toNat + AddressSpace.reservedNat size < 2 ^ 64) (devPtr : Ptr) :
    SpaceBridged n (t.insert devPtr).2 (space.allocate t.nextId size).2
      (⟨space.nextBase, size, devPtr⟩ :: blocks) := by
  have hnew : ∀ base r, space.ranges.lookup base = some r → base ≠ space.nextBase := by
    intro base r hlookup hbase
    have hbelow := h.inv.below base r hlookup
    have hpad := AddressSpace.reservedNat_min r.size
    rw [hbase] at hbelow
    omega
  refine ⟨h.inv.allocate hroom, ?_, fun b hmem => ?_, fun base r hlookup => ?_,
    fun base base' r r' hr hr' hhandle => ?_, h.ids.insert devPtr⟩
  -- the base behind the new range is above it, and so is not null
  · intro hzero
    have hnext := @AddressSpace.toNat_nextBase_allocate space t.nextId size hroom
    have hpad := AddressSpace.reservedNat_min size
    rw [hzero] at hnext
    simp only [UInt64.reduceToNat] at hnext
    omega
  · rcases List.mem_cons.mp hmem with rfl | hmem
    · refine ⟨⟨t.nextId, size⟩, ?_, rfl, ?_⟩
      · rw [AddressSpace.lookup_allocate, if_pos rfl]
      · rw [HandleTable.get_insert, if_pos rfl]
    · obtain ⟨r, hlookup, hsize, hget⟩ := (h.insert devPtr).live b hmem
      refine ⟨r, ?_, hsize, hget⟩
      rw [AddressSpace.lookup_allocate, if_neg (hnew b.base r hlookup), hlookup]
  · rw [AddressSpace.lookup_allocate] at hlookup
    split at hlookup
    case isTrue hbase => exact ⟨_, List.mem_cons_self, hbase.symm⟩
    case isFalse =>
      obtain ⟨b, hmem, hbase⟩ := h.backed base r hlookup
      exact ⟨b, List.mem_cons_of_mem _ hmem, hbase⟩
  · -- the new handle is no old range's
    have hother : ∀ base r, space.ranges.lookup base = some r → r.handle ≠ t.nextId := by
      intro base r hlookup hself
      obtain ⟨b, -, -, -, hget⟩ := h.block_of_lookup hlookup
      rw [hself, h.ids.get_nextId] at hget
      cases hget
    rw [AddressSpace.lookup_allocate] at hr hr'
    split at hr <;> split at hr'
    case isTrue.isTrue hbase hbase' => rw [hbase, hbase']
    case isTrue.isFalse =>
      cases hr
      exact absurd hhandle.symm (hother base' r' hr')
    case isFalse.isTrue =>
      cases hr'
      exact absurd hhandle (hother base r hr)
    case isFalse.isFalse => exact h.distinct base base' r r' hr hr' hhandle

/-- A range goes, its handle with it, and the block that starts there. -/
theorem SpaceBridged.removeExact (h : SpaceBridged n t space blocks) {ptr : Ptr} {r : AllocRange}
    (hlookup : space.ranges.lookup ptr = some r) :
    SpaceBridged n (t.remove r.handle).2 (space.removeExact ptr).2
      (blocks.filter (·.base ≠ ptr)) := by
  have hrest : ∀ {base r'}, (space.removeExact ptr).2.ranges.lookup base = some r' →
      base ≠ ptr ∧ space.ranges.lookup base = some r' := by
    intro base r' hr
    rw [AddressSpace.lookup_removeExact] at hr
    split at hr
    case isTrue => cases hr
    case isFalse hbase => exact ⟨hbase, hr⟩
  refine ⟨h.inv.removeExact ptr, h.nonnull, fun b hmem => ?_, fun base r' hr => ?_,
    fun base base' r r' hr hr' => h.distinct base base' r r' (hrest hr).2 (hrest hr').2,
    h.ids.remove r.handle⟩
  · obtain ⟨hmem, hbase⟩ := List.mem_filter.mp hmem
    have hne : b.base ≠ ptr := of_decide_eq_true hbase
    obtain ⟨r', hlookup', hsize, hget⟩ := h.live b hmem
    have hother : r'.handle ≠ r.handle := fun hself =>
      hne (h.distinct b.base ptr r' r hlookup' hlookup hself)
    refine ⟨r', ?_, hsize, ?_⟩
    · rw [AddressSpace.lookup_removeExact, if_neg hne, hlookup']
    · rw [HandleTable.get_remove, if_neg hother, hget]
  · obtain ⟨hne, hr⟩ := hrest hr
    obtain ⟨b, hmem, hbase⟩ := h.backed base r' hr
    exact ⟨b, List.mem_filter.mpr ⟨hmem, decide_eq_true (hbase ▸ hne)⟩, hbase⟩

end Relation

/-! ## Arguments -/

section Arguments

variable {n : Nat} {t : HandleTable Ptr} {space : AddressSpace} {q : InProcess T D}

/-- A word is patched to what a kernel should see: its offset in the device's block, or itself. -/
theorem SpaceBridged.translateWord_eq (h : SpaceBridged n t space q.blocks) (w : UInt64) :
    translateWord space t w = q.realWord w := by
  unfold translateWord InProcess.realWord InProcess.owner
  rcases h.owner w with ⟨hresolve, hfind⟩ | ⟨handle, b, hresolve, hfind, hget⟩
  · rw [hresolve, hfind]
  · simp only [hresolve, hfind, hget]

/-- The arguments are translated word by word. -/
theorem realArgs_eq {args : Ptr} {words : List UInt64}
    (hwords : q.host.slice args maxKernelArgBytes = bytesOf words) (hlen : words.length = 512) :
    q.realArgs args = bytesOf (words.map q.realWord) := by
  -- word `i` of the struct, as the kernel's side reads it, is word `i` of the list
  have hword : ∀ i (hi : i < words.length),
      word q.host (args + UInt64.ofNat (8 * i)) = words[i] := by
    intro i hi
    have hat := wordAt_bytesOf hi []
    rw [List.nil_append, List.length_nil, Nat.zero_add, ← hwords, wordAt,
      FlatMemory.take_drop_slice (by unfold maxKernelArgBytes; omega)] at hat
    exact hat
  have hmap : (List.range 512).map (fun i => word q.host (args + UInt64.ofNat (8 * i)))
      = words := by
    refine List.ext_getElem (by simp [hlen]) fun i hi hi' => ?_
    rw [List.getElem_map, List.getElem_range, hword i hi']
  conv_rhs => rw [← hmap]
  rw [InProcess.realArgs, bytesOf, List.map_map, List.flatMap_map]
  rfl

/-- The daemon's patching of what the stub scanned makes the arguments a kernel should see. -/
theorem SpaceBridged.patchArgs_scanned (h : SpaceBridged n t space q.blocks) (args : Ptr) :
    patchArgs t (scanFixups space (q.host.slice args maxKernelArgBytes))
      (q.host.slice args maxKernelArgBytes) = .ok (.ok (q.realArgs args)) := by
  obtain ⟨words, hlen, hwords⟩ := @exists_bytesOf 512 (q.host.slice args maxKernelArgBytes)
    FlatMemory.length_slice
  have hpatching := patchArgs_scanFixups space t (by rw [hlen]; decide : 8 * words.length < _)
  have htranslate : words.map (translateWord space t) = words.map q.realWord :=
    List.map_congr_left fun w _ => h.translateWord_eq w
  rw [realArgs_eq hwords hlen, ← htranslate, hwords]
  generalize patchArgs t (scanFixups space (bytesOf words)) (bytesOf words) = result
    at hpatching
  cases hpatching with
  | translated => rfl
  | unknown w handle k _ hresolve hunknown =>
    -- every handle of the stub is known to the daemon
    rcases h.owner w with ⟨hnone, -⟩ | ⟨handle', b, hsome, -, hget⟩
    · rw [hresolve] at hnone
      cases hnone
    · rw [hresolve] at hsome
      cases hsome
      rw [hunknown] at hget
      cases hget

end Arguments

/-! ## Calls -/

/-- Two calls answer alike, and leave the one bridged to the other. -/
def Alike (n : Nat) (r : Answer × GameProcess T D) (r' : Answer × InProcess T D) : Prop :=
  r.1 = r'.1 ∧ Bridged n r.2 r'.2

section Calls

variable {hip : HipLib D} {n : Nat} {p : GameProcess T D} {q : InProcess T D}

/-- With ids for more steps there are ids for fewer. -/
theorem Bridged.fewer (h : Bridged (n + 1) p q) : Bridged n p q :=
  ⟨h.inStep, h.lastError, h.host, h.pushed, h.device, h.space.fewer, h.fatbins.fewer,
    h.functions.fewer⟩

/-- A call that fails with a code, and does nothing else. -/
theorem Bridged.failed (h : Bridged n p q) (code : Int32) (answer : Answer) :
    Alike n ({ answer with code := some code }, p.withSession (setLastError p.toSession code).2)
      (q.failed code answer) :=
  ⟨rfl, h.inStep.of_link rfl rfl, rfl, h.host, h.pushed, h.device, h.space, h.fatbins,
    h.functions⟩

/-- The daemon's device, after a call of HIP. -/
def withDevice (p : GameProcess T D) (device : D) : GameProcess T D :=
  p.withSession { p.toSession with daemon := { p.daemon with device } }

/-- HIP was called on both sides, with the same device left. -/
theorem Bridged.withDevice (h : Bridged n p q) (device : D) :
    Bridged n (withDevice p device) { q with device } :=
  ⟨h.inStep.of_link rfl rfl, h.lastError, h.host, h.pushed, rfl, h.space, h.fatbins, h.functions⟩

/-- A call of HIP has returned, and the stub has set the last error if that was a failure. -/
theorem Bridged.concluded (h : Bridged n p q) (rc : Int32) (device : D) (code : Int32)
    (ok err : Answer) :
    Alike n
      (if rc = 0 then ({ ok with code := some hipSuccess }, HipBridge.Bridge.withDevice p device)
        else ({ err with code := some code },
          (HipBridge.Bridge.withDevice p device).withSession
            (setLastError (HipBridge.Bridge.withDevice p device).toSession code).2))
      (q.concluded rc device code ok err) := by
  unfold InProcess.concluded
  split
  case isTrue => exact ⟨rfl, h.withDevice device⟩
  case isFalse => exact (h.withDevice device).failed code err

/-- A round trip of which both frames are within the cap. -/
theorem callBridge_served (htexts : ShortTexts hip) {s : Session D} {req : Request}
    {resp : Response} {daemon : DaemonState D} (hstep : s.InStep)
    (hreq : req.encodeBody.length ≤ maxBodyLen)
    (hserve : handleRequest hip s.daemon req = .ok (resp, daemon))
    (hfits : ResponseFits hip s.daemon req) :
    callBridge hip s req = (resp.intoResult, { s with daemon }) :=
  callBridge_eq hstep hreq hserve
    (frameReadable_iff.mp ((response_readable_iff htexts hreq hserve).mpr hfits))

/-- A range goes, with its handle and its block. -/
theorem Bridged.removed (h : Bridged n p q) {ptr : Ptr} {r : AllocRange}
    (hlookup : p.space.ranges.lookup ptr = some r) :
    Bridged n (p.withSession { p.toSession with
        space := (p.space.removeExact ptr).2
        daemon := { p.daemon with handles := (p.daemon.handles.remove r.handle).2 } })
      { q with blocks := q.blocks.filter (·.base ≠ ptr) } :=
  ⟨h.inStep.of_link rfl rfl, h.lastError, h.host, h.pushed, h.device,
    h.space.removeExact hlookup, h.fatbins, h.functions⟩

variable [DecidableEq T]

/-- A push. -/
theorem pushConfig_alike (h : Bridged n p q) (thread : T) (gridDim blockDim : Option Dim3)
    (sharedMem : UInt64) (stream : Ptr) (pick : UInt64) :
    Alike n ((StubExport.pushCallConfiguration thread gridDim blockDim sharedMem stream).exec hip p)
      (q.call hip pick (.pushCallConfiguration thread gridDim blockDim sharedMem stream)) := by
  simp only [StubExport.exec, InProcess.call, InProcess.pushConfig, Stub.hipPushCallConfiguration,
    h.pushed]
  cases gridDim with
  | none => exact h.failed hipErrorNotSupported {}
  | some grid =>
    cases blockDim with
    | none => exact h.failed hipErrorNotSupported {}
    | some block =>
      exact ⟨rfl, h.inStep, h.lastError, h.host, rfl, h.device, h.space, h.fatbins, h.functions⟩

/-- A pop, which takes what its own thread pushed last. -/
theorem popConfig_alike (h : Bridged n p q) (thread : T) (ptrs : PopPointers) (pick : UInt64) :
    Alike n ((StubExport.popCallConfiguration thread ptrs).exec hip p)
      (q.call hip pick (.popCallConfiguration thread ptrs)) := by
  simp only [StubExport.exec, InProcess.call, InProcess.popConfig, Stub.hipPopCallConfiguration,
    h.pushed]
  cases q.pushed thread with
  | nil => exact h.failed hipErrorNotSupported {}
  | cons last before =>
    exact ⟨rfl, h.inStep, h.lastError, h.host, rfl, h.device, h.space, h.fatbins, h.functions⟩

/-- A launch that is refused before anything is sent. -/
theorem launchKernel_refused (h : Bridged n p q) {function : Ptr} {gridDim blockDim : Option Dim3}
    {args : Option Ptr} {sharedMem : UInt64}
    (hrequest : launchRequest p.toGame function gridDim blockDim args sharedMem = none) :
    Alike n ((StubExport.launchKernel function gridDim blockDim args sharedMem).exec hip p)
      (q.failed hipErrorNotSupported {}) := by
  simp only [StubExport.exec, hipLaunchKernel, hrequest]
  exact h.failed hipErrorNotSupported {}

variable (htexts : ShortTexts hip)
include htexts

/-- A count of the devices. -/
theorem getDeviceCount_alike (h : Bridged n p q) (count : Bool) (pick : UInt64) :
    Alike n ((StubExport.getDeviceCount count).exec hip p)
      (q.call hip pick (.getDeviceCount count)) := by
  rcases hresult : hip.getDeviceCount q.device with ⟨rc, c, device⟩
  have hserve : handleRequest hip p.daemon .deviceCount
      = .ok (if rc = 0 then .ok (i32ToLe c) else .err (hip.failed "hipGetDeviceCount" rc),
        { p.daemon with device }) := by
    simp only [handleRequest, HipLib.deviceCount, HipLib.hipSuccess, h.device, hresult]
    by_cases hrc : rc = 0
    · simp only [hrc, ne_eq, not_true, if_true, if_false]
    · simp only [hrc, ne_eq, not_false_iff, if_true, if_false]
  have hbridge := callBridge_served htexts h.inStep (Nat.zero_le _) hserve trivial
  have hconcluded := h.concluded rc device hipErrorNoDevice { int := writeIf count c }
    { int := writeIf count 0 }
  show Alike n (StubExport.exec.onSession p (hipGetDeviceCount hip p.toSession count))
    (q.getDeviceCount hip count)
  simp only [StubExport.exec.onSession, hipGetDeviceCount, hbridge, InProcess.getDeviceCount,
    hresult]
  by_cases hrc : rc = 0
  · rw [if_pos hrc] at hconcluded ⊢
    simp only [Response.intoResult, if_pos (length_i32ToLe c), i32FromLe_i32ToLe]
    exact hconcluded
  · rw [if_neg hrc] at hconcluded ⊢
    exact hconcluded

/-- The properties of a device, as many bytes as the struct has. -/
theorem getDeviceProperties_alike (h : Bridged n p q) (props : Bool) (device : Int32)
    (pick : UInt64) :
    Alike n ((StubExport.getDevicePropertiesR0600 props device).exec hip p)
      (q.call hip pick (.getDevicePropertiesR0600 props device)) := by
  have hreq : (Request.getDeviceProperties device).encodeBody.length ≤ maxBodyLen := by
    rw [Request.encodeBody, length_i32ToLe]
    decide
  show Alike n
    (StubExport.exec.onSession p (hipGetDevicePropertiesR0600 hip p.toSession props device))
    (q.getDevicePropertiesR0600 hip props device)
  simp only [StubExport.exec.onSession, hipGetDevicePropertiesR0600,
    InProcess.getDevicePropertiesR0600]
  by_cases hsym : hip.sym "hipGetDevicePropertiesR0600"
  case neg =>
    have hserve : handleRequest hip p.daemon (.getDeviceProperties device) = .ok
        (.err ("dlsym(hipGetDevicePropertiesR0600) failed: " ++ hip.dlerror), p.daemon) := by
      simp only [handleRequest, HipLib.devicePropertiesR0600, HipLib.lazySym, if_neg hsym]
      rfl
    rw [callBridge_served htexts h.inStep hreq hserve trivial, if_neg hsym]
    exact h.failed hipErrorNoDevice {}
  case pos =>
    rcases hresult : hip.getDevicePropertiesR0600 device q.device with ⟨rc, bytes, d⟩
    have hserve : handleRequest hip p.daemon (.getDeviceProperties device)
        = .ok (if rc = 0 then .ok (HipLib.buffer HipLib.devicePropR0600Size bytes)
          else .err (hip.failed "hipGetDevicePropertiesR0600" rc),
          { p.daemon with device := d }) := by
      simp only [handleRequest, HipLib.devicePropertiesR0600, HipLib.lazySym, if_pos hsym,
        HipLib.hipSuccess, h.device, hresult]
      by_cases hrc : rc = 0
      · simp only [hrc, ne_eq, not_true, if_true, if_false, bytesOrErr]
      · simp only [hrc, ne_eq, not_false_iff, if_true, if_false, bytesOrErr]
    have hbuffer : HipLib.buffer HipLib.devicePropR0600Size bytes
        = (List.range 1472).map bytes := rfl
    have hlen : ((List.range 1472).map bytes).length = hipDevicePropR0600Size := by
      rw [List.length_map, List.length_range, hipDevicePropR0600Size]
    have hconcluded := h.concluded rc d hipErrorNoDevice
      { props := writeIf props ((List.range 1472).map bytes) } {}
    rw [hbuffer] at hserve
    rw [callBridge_served htexts h.inStep hreq hserve trivial, if_pos hsym]
    simp only [hresult]
    -- the body is as long as the caller's struct, whatever it says
    generalize (List.range 1472).map bytes = body at hlen hconcluded ⊢
    by_cases hrc : rc = 0
    · rw [if_pos hrc] at hconcluded ⊢
      simp only [Response.intoResult, if_pos hlen]
      exact hconcluded
    · rw [if_neg hrc] at hconcluded ⊢
      exact hconcluded

/-- A choice of device, which the daemon accepts without a call of HIP. -/
theorem setDevice_alike (h : Bridged n p q) (device : Int32) (pick : UInt64) :
    Alike n ((StubExport.setDevice device).exec hip p) (q.call hip pick (.setDevice device)) := by
  have hserve : handleRequest hip p.daemon (.setDevice device)
      = .ok (.okEmpty, { p.daemon with device := q.device }) := by
    rw [← h.device]
    rfl
  have hbridge := callBridge_served htexts h.inStep
    (by rw [Request.encodeBody, length_i32ToLe]; decide) hserve trivial
  show Alike n (StubExport.exec.onSession p (hipSetDevice hip p.toSession device))
    ({ code := some 0 }, q)
  simp only [StubExport.exec.onSession, hipSetDevice, hbridge]
  exact ⟨rfl, h.withDevice q.device⟩

/-- A block that HIP has allocated is issued a handle, and a range if the game asked for one. -/
theorem malloc_alike (h : Bridged (n + 1) p q) (ptrIsNull : Bool) (size : UInt64)
    (hroom : p.space.nextBase.toNat + AddressSpace.reservedNat size < 2 ^ 64) :
    Alike n ((StubExport.malloc ptrIsNull size).exec hip p)
      (q.call hip p.space.nextBase (.malloc ptrIsNull size)) := by
  simp only [StubExport.exec, InProcess.call, InProcess.malloc, ← h.device]
  by_cases hrc : (hip.malloc size p.daemon.device).1 = HipLib.hipSuccess
  · have hzero : (hip.malloc size p.daemon.device).1 = 0 := hrc
    rw [hipMalloc_allocated h.inStep ptrIsNull hrc, if_pos hzero]
    cases ptrIsNull with
    | true =>
      exact ⟨rfl, h.inStep.of_link rfl rfl, h.lastError, h.host, h.pushed, rfl, h.space.insert _,
        h.fatbins.fewer, h.functions.fewer⟩
    | false =>
      simp only [Bool.false_eq_true, if_false, GameProcess.withSession]
      exact ⟨rfl, h.inStep.of_link rfl rfl, h.lastError, h.host, h.pushed, rfl,
        h.space.allocate hroom _, h.fatbins.fewer, h.functions.fewer⟩
  · have hfailed : ¬ (hip.malloc size p.daemon.device).1 = 0 := hrc
    rw [hipMalloc_rejected h.inStep htexts ptrIsNull hrc, if_neg hfailed]
    exact (h.fewer.withDevice _).failed hipErrorNoDevice
      { ptr := if ptrIsNull then none else some 0 }

/-- A free. The block is forgotten whatever HIP says to it. -/
theorem free_alike (h : Bridged n p q) (ptr : Ptr) (pick : UInt64) :
    Alike n ((StubExport.free ptr).exec hip p) (q.call hip pick (.free ptr)) := by
  show Alike n (StubExport.exec.onCode p (hipFree hip p.toSession ptr)) (q.free hip ptr)
  simp only [StubExport.exec.onCode, InProcess.free]
  split
  case isTrue hnull =>
    rw [hnull, hipFree_null]
    exact ⟨rfl, h⟩
  case isFalse hnull =>
    cases hlookup : p.space.ranges.lookup ptr with
    | none =>
      rw [hipFree_unknown hnull hlookup, h.space.find_base_none hlookup]
      exact h.failed hipErrorNotSupported {}
    | some r =>
      obtain ⟨b, hfind, hget⟩ := h.space.find_base hlookup
      rcases hresult : hip.free b.devPtr q.device with ⟨rc, device⟩
      -- the range has gone, on both sides, before HIP says anything
      have hconcluded := (h.removed hlookup).concluded rc device hipErrorNotSupported {} {}
      rw [hfind]
      simp only [hresult]
      by_cases hrc : rc = 0
      · have hsuccess : (hip.free b.devPtr p.daemon.device).1 = HipLib.hipSuccess := by
          rw [h.device, hresult, hrc]
          rfl
        rw [hipFree_freed h.inStep hnull hlookup hget hsuccess, h.device, hresult]
        rw [if_pos hrc] at hconcluded
        exact hconcluded
      · have hfailure : (hip.free b.devPtr p.daemon.device).1 ≠ HipLib.hipSuccess := by
          rw [h.device, hresult]
          exact hrc
        rw [hipFree_failed h.inStep hnull hlookup hget htexts hfailure, h.device, hresult]
        rw [if_neg hrc] at hconcluded
        exact hconcluded

/-- A copy to the device. -/
theorem toDevice_alike (h : Bridged n p q) (dst src : Ptr) (size : UInt64) (pick : UInt64)
    (hfits : 24 + size.toNat ≤ maxBodyLen) :
    Alike n ((StubExport.memcpy dst src size hipMemcpyHostToDevice).exec hip p)
      (q.call hip pick (.memcpy dst src size hipMemcpyHostToDevice)) := by
  have hone : hipMemcpyHostToDevice = 1 := rfl
  show Alike n (StubExport.exec.onCode p (memcpyForward hip p.toSession dst src size _))
    (q.memcpy hip dst src size _)
  simp only [StubExport.exec.onCode, memcpyForward, InProcess.memcpy, InProcess.owner, hone,
    if_true]
  -- `dst` is in no block on either side, or at the same offset of the same block
  rcases h.space.owner dst with ⟨hresolve, hfind⟩ | ⟨handle, b, hresolve, hfind, hget⟩
  · rw [hresolve, hfind]
    exact h.failed hipErrorNotSupported {}
  · rcases hresult : hip.memcpyHostToDevice (b.devPtr + (dst - b.base))
      (q.host.slice src size.toNat) q.device with ⟨rc, device⟩
    have hserve : handleRequest hip p.daemon
        (.memcpyH2D handle (dst - b.base) (p.host.slice src size.toNat))
        = .ok (if rc = 0 then .okEmpty else .err (hip.failed "hipMemcpy H2D" rc),
          { p.daemon with device }) := by
      simp only [handleRequest, hget, HipLib.memcpyH2d, ptrAdd, HipLib.hipSuccess, h.host,
        h.device, hresult]
      by_cases hrc : rc = 0
      · simp only [hrc, ne_eq, not_true, if_true, if_false, emptyOrErr]
      · simp only [hrc, ne_eq, not_false_iff, if_true, if_false, emptyOrErr]
    have hreq : (Request.memcpyH2D handle (dst - b.base)
        (p.host.slice src size.toNat)).encodeBody.length ≤ maxBodyLen := by
      rw [length_encodeBody_memcpyH2D, FlatMemory.length_slice]
      exact hfits
    have hbridge := callBridge_served htexts h.inStep hreq hserve trivial
    have hconcluded := h.concluded rc device hipErrorNotSupported {} {}
    simp only [hresolve, hfind, hbridge, hresult]
    by_cases hrc : rc = 0
    · rw [if_pos hrc] at hconcluded ⊢
      exact hconcluded
    · rw [if_neg hrc] at hconcluded ⊢
      exact hconcluded

/-- A copy from the device, which writes the game's memory if HIP has made it. -/
theorem toHost_alike (h : Bridged n p q) (dst src : Ptr) (size : UInt64) (pick : UInt64)
    (hsize : size.toNat ≤ maxBodyLen) (hbuffer : hip.CanBuffer size p.daemon.device) :
    Alike n ((StubExport.memcpy dst src size hipMemcpyDeviceToHost).exec hip p)
      (q.call hip pick (.memcpy dst src size hipMemcpyDeviceToHost)) := by
  have htwo : hipMemcpyDeviceToHost = 2 := rfl
  have hone : (2 : Int32) ≠ 1 := by decide
  show Alike n (StubExport.exec.onCode p (memcpyForward hip p.toSession dst src size _))
    (q.memcpy hip dst src size _)
  simp only [StubExport.exec.onCode, memcpyForward, InProcess.memcpy, InProcess.owner, htwo,
    if_neg hone, if_true]
  rcases h.space.owner src with ⟨hresolve, hfind⟩ | ⟨handle, b, hresolve, hfind, hget⟩
  · rw [hresolve, hfind]
    exact h.failed hipErrorNotSupported {}
  · rcases hresult : hip.memcpyDeviceToHost (b.devPtr + (src - b.base)) size q.device
      with ⟨rc, bytes, device⟩
    have hserve : handleRequest hip p.daemon (.memcpyD2H handle (src - b.base) size)
        = .ok (if rc = 0 then .ok (HipLib.buffer size.toNat bytes)
          else .err (hip.failed "hipMemcpy D2H" rc), { p.daemon with device }) := by
      rw [handleRequest_memcpyD2H_known hget hbuffer]
      simp only [ptrAdd, HipLib.hipSuccess, h.device, hresult]
      by_cases hrc : rc = 0
      · simp only [hrc, ne_eq, not_true, if_true, if_false]
      · simp only [hrc, ne_eq, not_false_iff, if_true, if_false]
    have hreq : (Request.memcpyD2H handle (src - b.base) size).encodeBody.length
        ≤ maxBodyLen := by
      rw [length_encodeBody_memcpyD2H]
      decide
    have hbridge := callBridge_served htexts h.inStep hreq hserve fun _ _ _ _ => hsize
    simp only [hresolve, hfind, hbridge, hresult]
    by_cases hrc : rc = 0
    · simp only [if_pos hrc, Response.intoResult, if_pos (HipLib.length_buffer _ _),
        InProcess.concluded]
      exact ⟨rfl, h.inStep.of_link rfl rfl, h.lastError, by rw [h.host]; rfl, h.pushed, rfl,
        h.space, h.fatbins, h.functions⟩
    · have hconcluded := h.concluded rc device hipErrorNotSupported {} {}
      rw [if_neg hrc] at hconcluded
      simp only [if_neg hrc]
      exact hconcluded

/-- A copy that fits a frame, and that the daemon has a buffer for. -/
theorem memcpy_alike (h : Bridged n p q) (dst src : Ptr) (size : UInt64) (kind : Int32)
    (pick : UInt64) (htoDevice : kind = hipMemcpyHostToDevice → 24 + size.toNat ≤ maxBodyLen)
    (htoHost : kind = hipMemcpyDeviceToHost →
      size.toNat ≤ maxBodyLen ∧ hip.CanBuffer size p.daemon.device) :
    Alike n ((StubExport.memcpy dst src size kind).exec hip p)
      (q.call hip pick (.memcpy dst src size kind)) := by
  by_cases hkind : kind = hipMemcpyHostToDevice
  case pos =>
    rw [hkind]
    exact toDevice_alike htexts h dst src size pick (htoDevice hkind)
  case neg =>
    by_cases hkind' : kind = hipMemcpyDeviceToHost
    case pos =>
      obtain ⟨hsize, hbuffer⟩ := htoHost hkind'
      rw [hkind']
      exact toHost_alike htexts h dst src size pick hsize hbuffer
    case neg =>
      have hone : kind ≠ 1 := hkind
      have htwo : kind ≠ 2 := hkind'
      show Alike n (StubExport.exec.onCode p (memcpyForward hip p.toSession dst src size kind))
        (q.memcpy hip dst src size kind)
      simp only [StubExport.exec.onCode, memcpyForward, if_neg hkind, if_neg hkind',
        InProcess.memcpy, if_neg hone, if_neg htwo]
      exact h.failed hipErrorNotSupported {}

/-- A fat binary, whose bundle fits a frame. The id is given out even if no module is loaded. -/
theorem registerFatBinary_alike (h : Bridged (n + 1) p q) (data : Ptr)
    (hfits : ∀ bundle, bundleAt p.host data = some bundle → bundle.length ≤ maxBodyLen) :
    Alike n ((StubExport.registerFatBinary data).exec hip p)
      (q.call hip p.nextFatbinId (.registerFatBinary data)) := by
  have hrequest := fatBinaryRequest_eq
    { p.toGame with nextFatbinId := p.nextFatbinId + 1 } data
  simp only [StubExport.exec, InProcess.call, InProcess.registerFatBinary, InProcess.loadModule,
    hipRegisterFatBinary, hrequest, ← h.host]
  cases hfound : bundleAt p.host data with
  | none =>
    exact ⟨rfl, h.inStep.of_link rfl rfl, h.lastError, rfl, h.pushed, h.device, h.space.fewer,
      h.fatbins.unloaded, h.functions.fewer⟩
  | some bundle =>
    have hreq : (Request.loadModule bundle).encodeBody.length ≤ maxBodyLen := hfits bundle hfound
    by_cases hsym : hip.sym "hipModuleLoadData"
    case neg =>
      have hserve : handleRequest hip p.daemon (.loadModule bundle) = .ok
          (.err ("dlsym(hipModuleLoadData) failed: " ++ hip.dlerror), p.daemon) := by
        simp only [handleRequest, HipLib.loadModule, HipLib.lazySym, if_neg hsym]
        rfl
      have hbridge := callBridge_served htexts h.inStep hreq hserve trivial
      simp only [Option.map_some, hbridge, Response.intoResult, if_neg hsym]
      exact ⟨rfl, h.inStep.of_link rfl rfl, h.lastError, rfl, h.pushed, h.device, h.space.fewer,
        h.fatbins.unloaded, h.functions.fewer⟩
    case pos =>
      rcases hresult : hip.moduleLoadData bundle q.device with ⟨rc, module, device⟩
      by_cases hrc : rc = 0
      case pos =>
        have hserve : handleRequest hip p.daemon (.loadModule bundle)
            = .ok (.ok (u64ToLe p.daemon.modules.nextId),
              { p.daemon with modules := (p.daemon.modules.insert module).2, device }) := by
          simp only [handleRequest, HipLib.loadModule, HipLib.lazySym, if_pos hsym,
            HipLib.hipSuccess, h.device, hresult, hrc, ne_eq, not_true, if_false]
          rfl
        have hbridge := callBridge_served htexts h.inStep hreq hserve trivial
        simp only [Option.map_some, hbridge, hresult, Response.intoResult, length_u64ToLe, if_true,
          u64FromLe_u64ToLe, if_pos hsym, if_pos hrc]
        exact ⟨rfl, h.inStep.of_link rfl rfl, h.lastError, rfl, h.pushed, rfl, h.space.fewer,
          h.fatbins.loaded module, h.functions.fewer⟩
      case neg =>
        have hserve : handleRequest hip p.daemon (.loadModule bundle)
            = .ok (.err (hip.failed "hipModuleLoadData" rc), { p.daemon with device }) := by
          simp only [handleRequest, HipLib.loadModule, HipLib.lazySym, if_pos hsym,
            HipLib.hipSuccess, h.device, hresult, hrc, ne_eq, not_false_iff, if_true]
        have hbridge := callBridge_served htexts h.inStep hreq hserve trivial
        simp only [Option.map_some, hbridge, hresult, Response.intoResult, if_pos hsym,
          if_neg hrc]
        exact ⟨rfl, h.inStep.of_link rfl rfl, h.lastError, rfl, h.pushed, rfl, h.space.fewer,
          h.fatbins.unloaded, h.functions.fewer⟩

omit htexts [DecidableEq T] in
/-- The name of a kernel gets through as it is, if it is UTF-8. -/
theorem cstringNew_safeCstr {name : CString} {text : String} (htext : name.bytes = utf8Bytes text) :
    safeCstr (some name) = text ∧ HipLib.cstringNew text = .ok name := by
  obtain ⟨bytes, hnul⟩ := name
  obtain rfl : bytes = utf8Bytes text := htext
  refine ⟨fromUtf8Lossy_utf8Bytes text, ?_⟩
  rw [HipLib.cstringNew, dif_neg hnul]

/-- A kernel of a module that was loaded. -/
theorem kernelOf_alike (h : Bridged (n + 1) p q) {fatBin hostFn module : Ptr} {handle : UInt64}
    {name : CString} {text : String} (hlookup : p.fatbins.lookup fatBin = some handle)
    (hmodule : q.fatbins fatBin = some (some module))
    (hget : p.daemon.modules.get handle = some module) (htext : name.bytes = utf8Bytes text)
    (hfits : name.bytes.length + shortText ≤ maxBodyLen) (pick : UInt64) :
    Alike n ((StubExport.registerFunction fatBin hostFn (some name)).exec hip p)
      (q.call hip pick (.registerFunction fatBin hostFn (some name))) := by
  obtain ⟨hname, hcstring⟩ := cstringNew_safeCstr htext
  rw [htext] at hfits
  have hreq : (Request.getFunction handle text).encodeBody.length ≤ maxBodyLen := by
    rw [Request.encodeBody, List.length_append, length_u64ToLe]
    unfold shortText at hfits
    omega
  -- the response may repeat the name in its message
  have hmessage : ResponseFits hip p.daemon (.getFunction handle text) := by
    intro ptr hnul _ _ _
    have herror := htexts.errorString (hip.moduleGetFunction ptr ⟨utf8Bytes text, hnul⟩
      p.daemon.device).1
    have hrc := length_utf8Bytes_int32_le (hip.moduleGetFunction ptr ⟨utf8Bytes text, hnul⟩
      p.daemon.device).1
    unfold lookupMessageLength
    unfold shortText at hfits
    omega
  simp only [StubExport.exec, InProcess.call, InProcess.registerFunction, hipRegisterFunction,
    functionRequest, hname, hlookup, hmodule]
  by_cases hsym : hip.sym "hipModuleGetFunction"
  case neg =>
    have hserve : handleRequest hip p.daemon (.getFunction handle text) = .ok
        (.err ("dlsym(hipModuleGetFunction) failed: " ++ hip.dlerror), p.daemon) := by
      simp only [handleRequest, hget, HipLib.getFunction, HipLib.lazySym, if_neg hsym]
      rfl
    have hbridge := callBridge_served htexts h.inStep hreq hserve hmessage
    simp only [Option.map_some, hbridge, Response.intoResult, if_neg hsym]
    exact ⟨rfl, h.fewer⟩
  case pos =>
    rcases hresult : hip.moduleGetFunction module name q.device with ⟨rc, function, device⟩
    by_cases hrc : rc = 0
    case pos =>
      have hserve : handleRequest hip p.daemon (.getFunction handle text)
          = .ok (.ok (u64ToLe p.daemon.functions.nextId),
            { p.daemon with functions := (p.daemon.functions.insert function).2, device }) := by
        simp only [handleRequest, hget, HipLib.getFunction, HipLib.lazySym, if_pos hsym,
          hcstring, HipLib.hipSuccess, h.device, hresult, hrc, ne_eq, not_true, if_false]
        rfl
      have hbridge := callBridge_served htexts h.inStep hreq hserve hmessage
      simp only [Option.map_some, hbridge, hresult, Response.intoResult, length_u64ToLe, if_true,
        u64FromLe_u64ToLe, if_pos hsym, if_pos hrc]
      exact ⟨rfl, h.inStep.of_link rfl rfl, h.lastError, h.host, h.pushed, rfl, h.space.fewer,
        h.fatbins.fewer, h.functions.insert hostFn function⟩
    case neg =>
      have hserve : handleRequest hip p.daemon (.getFunction handle text)
          = .ok (.err (hip.failed ("hipModuleGetFunction(" ++ text ++ ")") rc),
            { p.daemon with device }) := by
        simp only [handleRequest, hget, HipLib.getFunction, HipLib.lazySym, if_pos hsym,
          hcstring, HipLib.hipSuccess, h.device, hresult, hrc, ne_eq, not_false_iff, if_true]
      have hbridge := callBridge_served htexts h.inStep hreq hserve hmessage
      simp only [Option.map_some, hbridge, hresult, Response.intoResult, if_pos hsym, if_neg hrc]
      exact ⟨rfl, h.fewer.withDevice device⟩

/-- A kernel of a fat binary, if that has a module. -/
theorem registerFunction_alike (h : Bridged (n + 1) p q) (fatBin hostFn : Ptr) {name : CString}
    {text : String} (htext : name.bytes = utf8Bytes text)
    (hfits : name.bytes.length + shortText ≤ maxBodyLen) (pick : UInt64) :
    Alike n ((StubExport.registerFunction fatBin hostFn (some name)).exec hip p)
      (q.call hip pick (.registerFunction fatBin hostFn (some name))) := by
  have hbehind := h.fatbins.table.behind fatBin
  unfold Behind at hbehind
  generalize hlookup : p.fatbins.lookup fatBin = found, hdirect : (q.fatbins fatBin).join = found'
    at hbehind
  cases hbehind with
  | @some handle module hget =>
    exact kernelOf_alike htexts h hlookup (Option.join_eq_some_iff.mp hdirect) hget htext hfits pick
  | none =>
    simp only [StubExport.exec, InProcess.call, InProcess.registerFunction, hipRegisterFunction,
      functionRequest, hlookup, Option.map_none]
    -- a fat binary that was not given out, or one without a module
    rcases hmodule : q.fatbins fatBin with _ | _ | module
    case none => exact ⟨rfl, h.fewer⟩
    case some.none => exact ⟨rfl, h.fewer⟩
    case some.some =>
      rw [hmodule] at hdirect
      cases hdirect

/-- A launch that is sent: the fixups of the stub make the daemon's arguments those a kernel should
see. -/
theorem launchSent_alike (h : Bridged n p q) {function argPtr kernel : Ptr} {handle : UInt64}
    {grid block : Dim3} {sharedMem : UInt64} (hlookup : p.functions.lookup function = some handle)
    (hdirect : q.functions function = some kernel)
    (hget : p.daemon.functions.get handle = some kernel) (hargs : argPtr ≠ 0) (pick : UInt64) :
    Alike n
      ((StubExport.launchKernel function (some grid) (some block) (some argPtr) sharedMem).exec
        hip p)
      (q.call hip pick
        (.launchKernel function (some grid) (some block) (some argPtr) sharedMem)) := by
  have hrequest := @launchRequest_eq D p.toGame function argPtr grid block sharedMem handle hlookup
    hargs
  have hpatch := h.space.patchArgs_scanned argPtr
  have hserve := @handleRequest_launch_patched D hip p.daemon handle (grid.x, grid.y, grid.z)
    (block.x, block.y, block.z) sharedMem.toUInt32 _ _ _ kernel hget hpatch
  rw [← h.host] at hserve
  simp only [StubExport.exec, hipLaunchKernel, hrequest, InProcess.call, InProcess.launchKernel,
    hdirect, ne_eq, hargs, not_false_iff, true_and]
  by_cases hsym : hip.sym "hipModuleLaunchKernel"
  case neg =>
    simp only [launchWith, HipLib.launchKernel, HipLib.lazySym, if_neg hsym, emptyOrErr] at hserve
    rw [callBridge_served htexts h.inStep (length_launchRequest hrequest) hserve trivial,
      if_neg hsym]
    exact h.failed hipErrorNotSupported {}
  case pos =>
    rcases hresult : hip.moduleLaunchKernel kernel (grid.x, grid.y, grid.z)
      (block.x, block.y, block.z) sharedMem.toUInt32 (q.realArgs argPtr) q.device with ⟨rc, device⟩
    have hconcluded := h.concluded rc device hipErrorNotSupported {} {}
    simp only [launchWith, HipLib.launchKernel, HipLib.lazySym, if_pos hsym, h.device, hresult,
      HipLib.hipSuccess] at hserve
    rw [if_pos hsym]
    simp only [hresult]
    by_cases hrc : rc = 0
    case pos =>
      simp only [hrc, ne_eq, not_true, if_false, emptyOrErr] at hserve
      rw [callBridge_served htexts h.inStep (length_launchRequest hrequest) hserve trivial]
      rw [if_pos hrc] at hconcluded
      exact hconcluded
    case neg =>
      simp only [hrc, ne_eq, not_false_iff, if_true, emptyOrErr] at hserve
      rw [callBridge_served htexts h.inStep (length_launchRequest hrequest) hserve trivial]
      rw [if_neg hrc] at hconcluded
      exact hconcluded

/-- A launch. Without a kernel, its dimensions or its arguments nothing is sent. -/
theorem launchKernel_alike (h : Bridged n p q) (function : Ptr) (gridDim blockDim : Option Dim3)
    (args : Option Ptr) (sharedMem pick : UInt64) :
    Alike n ((StubExport.launchKernel function gridDim blockDim args sharedMem).exec hip p)
      (q.call hip pick (.launchKernel function gridDim blockDim args sharedMem)) := by
  show Alike n _ (q.launchKernel hip function gridDim blockDim args sharedMem)
  have hbehind := h.functions.behind function
  unfold Behind at hbehind
  generalize hlookup : p.functions.lookup function = found, hdirect : q.functions function = found'
    at hbehind
  cases hbehind with
  | none =>
    simp only [InProcess.launchKernel, hdirect]
    exact launchKernel_refused h (by simp only [launchRequest, hlookup]; rfl)
  | @some handle kernel hget =>
    cases gridDim with
    | none =>
      simp only [InProcess.launchKernel, hdirect]
      exact launchKernel_refused h (by simp only [launchRequest, hlookup]; rfl)
    | some grid =>
      cases blockDim with
      | none =>
        simp only [InProcess.launchKernel, hdirect]
        exact launchKernel_refused h (by simp only [launchRequest, hlookup]; rfl)
      | some block =>
        cases args with
        | none =>
          simp only [InProcess.launchKernel, hdirect]
          exact launchKernel_refused h (by simp only [launchRequest, hlookup]; rfl)
        | some argPtr =>
          by_cases hargs : argPtr = 0
          case neg => exact launchSent_alike htexts h hlookup hdirect hget hargs pick
          case pos =>
            rw [hargs]
            simp only [InProcess.launchKernel, hdirect, ne_eq, not_true, false_and, if_false]
            exact launchKernel_refused h (by
              simp only [launchRequest, hlookup, Option.bind_eq_bind, Option.bind_some, if_true])

end Calls

/-! ## Runs -/

/-- What no code checks: that a new range ends below `2 ^ 64`, that a copy or a bundle fits a frame
and the daemon has a buffer for a copy, and that the name of a kernel is UTF-8 and fits a frame. -/
def Fits (hip : HipLib D) (p : GameProcess T D) : GameStep T → Prop
  | .call (.malloc _ size) => p.space.nextBase.toNat + AddressSpace.reservedNat size < 2 ^ 64
  | .call (.memcpy _ _ size kind) | .call (.memcpyAsync _ _ size kind _) =>
    (kind = hipMemcpyHostToDevice → 24 + size.toNat ≤ maxBodyLen) ∧
      (kind = hipMemcpyDeviceToHost →
        size.toNat ≤ maxBodyLen ∧ hip.CanBuffer size p.daemon.device)
  | .call (.registerFatBinary data) =>
    ∀ bundle, bundleAt p.host data = some bundle → bundle.length ≤ maxBodyLen
  | .call (.registerFunction _ _ deviceName) => ∃ name text, deviceName = some name ∧
    name.bytes = utf8Bytes text ∧ name.bytes.length + shortText ≤ maxBodyLen
  | _ => True

/-- Right after start-up. -/
theorem bridged_new {n : Nat} (hn : n < 2 ^ 64 - 1) (host : FlatMemory) (device : D) :
    Bridged n (.new host device : GameProcess T D) (.new host device) where
  inStep := ⟨rfl, rfl⟩
  lastError := rfl
  host := rfl
  pushed := rfl
  device := rfl
  space := ⟨AddressSpace.inv_new, (by decide : (0x700000000000 : UInt64) ≠ 0), nofun, nofun, nofun,
    HandleTable.idsLeft_new hn⟩
  fatbins := by
    refine ⟨⟨fun _ => .none, HandleTable.idsLeft_new hn⟩, nofun, (by decide : (1 : UInt64) ≠ 0),
      ?_⟩
    show 1 + n < 2 ^ 64
    omega
  functions := ⟨fun _ => .none, HandleTable.idsLeft_new hn⟩

variable [DecidableEq T]

/-- **A step.** One case an export. The choices are the stub's: its next base, its next id. -/
theorem step_bridged {hip : HipLib D} (htexts : ShortTexts hip) {n : Nat} {p : GameProcess T D}
    {q : InProcess T D} (h : Bridged (n + 1) p q) (a : GameStep T) (hfits : Fits hip p a) :
    ∃ pick, MayPick q (a, pick) ∧ Alike n (gameStep hip p a) (q.step hip (a, pick)) := by
  cases a with
  | write dst data =>
    exact ⟨0, trivial, rfl, h.inStep.of_link rfl rfl, h.lastError,
      congrArg (FlatMemory.overwrite dst data) h.host, h.pushed, h.device, h.space.fewer,
      h.fatbins.fewer, h.functions.fewer⟩
  | call c =>
    cases c with
    | registerFatBinary data =>
      exact ⟨p.nextFatbinId, h.fatbins.fresh, registerFatBinary_alike htexts h data hfits⟩
    | registerFunction fatBin hostFn deviceName =>
      obtain ⟨name, text, rfl, htext, hlen⟩ := hfits
      exact ⟨0, trivial, registerFunction_alike htexts h fatBin hostFn htext hlen 0⟩
    | registerVar => exact ⟨0, trivial, rfl, h.fewer⟩
    | pushCallConfiguration thread gridDim blockDim sharedMem stream =>
      exact ⟨0, trivial,
        @pushConfig_alike T D hip n p q _ h.fewer thread gridDim blockDim sharedMem stream 0⟩
    | popCallConfiguration thread ptrs =>
      exact ⟨0, trivial, @popConfig_alike T D hip n p q _ h.fewer thread ptrs 0⟩
    | getDeviceCount count => exact ⟨0, trivial, getDeviceCount_alike htexts h.fewer count 0⟩
    | getDevicePropertiesR0600 props device =>
      exact ⟨0, trivial, getDeviceProperties_alike htexts h.fewer props device 0⟩
    | setDevice device => exact ⟨0, trivial, setDevice_alike htexts h.fewer device 0⟩
    | deviceSynchronize => exact ⟨0, trivial, rfl, h.fewer⟩
    | driverGetVersion version => exact ⟨0, trivial, rfl, h.fewer⟩
    | runtimeGetVersion version => exact ⟨0, trivial, rfl, h.fewer⟩
    | getErrorString error => exact ⟨0, trivial, rfl, h.fewer⟩
    | getLastError =>
      refine ⟨0, trivial, ?_, h.fewer⟩
      show ({ code := some p.lastError } : Answer) = { code := some q.lastError }
      rw [h.lastError]
    | malloc ptrIsNull size =>
      exact ⟨p.space.nextBase, h.space.mayPick hfits, malloc_alike htexts h ptrIsNull size hfits⟩
    | free ptr => exact ⟨0, trivial, free_alike htexts h.fewer ptr 0⟩
    | memcpy dst src size kind =>
      exact ⟨0, trivial, memcpy_alike htexts h.fewer dst src size kind 0 hfits.1 hfits.2⟩
    | memcpyAsync dst src size kind stream =>
      exact ⟨0, trivial, memcpy_alike htexts h.fewer dst src size kind 0 hfits.1 hfits.2⟩
    | launchKernel function gridDim blockDim args sharedMem =>
      exact ⟨0, trivial,
        launchKernel_alike htexts h.fewer function gridDim blockDim args sharedMem 0⟩
    | memcpyToSymbol | memset | memsetAsync | eventRecord | eventSynchronize
    | destroyExternalMemory => exact ⟨0, trivial, h.fewer.failed hipErrorNotSupported {}⟩
    | eventCreate out | importExternalMemory out | externalMemoryGetMappedBuffer out =>
      exact ⟨0, trivial, h.fewer.failed hipErrorNotSupported { ptr := writeIf out 0 }⟩
    | eventElapsedTime ms =>
      exact ⟨0, trivial, h.fewer.failed hipErrorNotSupported { ms := writeIf ms 0 }⟩

/-- **The handles, the made-up addresses and the wire do not show.** In every run of fewer than
`2 ^ 64 - 1` steps that fit, each export of `hip-stub` answers as the library in the game's own
process, for some choice of the addresses of its blocks, which share no byte while they live, and of
ids for its fat binaries, which are never given out twice; and the device, the game's memory and the
last error end up the same. -/
theorem bridge_refines_inProcess (hip : HipLib D) (htexts : ShortTexts hip) (host : FlatMemory)
    (device : D) (steps : List (GameStep T)) (hsteps : steps.length < 2 ^ 64 - 1)
    (hfits : Along (after (gameStep hip)) (Fits hip) (GameProcess.new host device) steps) :
    ∃ picks : List UInt64, picks.length = steps.length ∧
      Along (after (InProcess.step hip)) MayPick (InProcess.new host device) (steps.zip picks) ∧
      answers (gameStep hip) (GameProcess.new host device) steps
        = answers (InProcess.step hip) (InProcess.new host device) (steps.zip picks) ∧
      let p := run (after (gameStep hip)) (GameProcess.new host device) steps
      let q := run (after (InProcess.step hip)) (InProcess.new host device) (steps.zip picks)
      p.daemon.device = q.device ∧ p.host = q.host ∧ p.lastError = q.lastError := by
  have hcost : 0 + (steps.map fun _ => 1).sum = steps.length := by simp
  have hstart : Bridged (0 + (steps.map fun _ => 1).sum) (.new host device : GameProcess T D)
      (.new host device) := bridged_new (by omega) host device
  obtain ⟨picks, hlen, hpicks, hanswers, hend⟩ := lockstep_choosing (fun _ => 1)
    (fun _ _ _ a h hfits => step_bridged htexts h a hfits) hstart hfits
  exact ⟨picks, hlen, hpicks, hanswers, hend.device, hend.host, hend.lastError⟩

/-- A bundle of no code objects and a kernel of it, launched with an argument struct that starts
with the address of byte 8 of a block. -/
def launchSteps : List (GameStep Unit) :=
  [ .write 0x1000 (offloadBundleMagic ++ u64ToLe 0)
  , .call (.registerFatBinary 0x1000)
  , .call (.registerFunction 1 0x5000 (some (.ofLiteral "k_swin" (by decide))))
  , .call (.malloc false 16)
  , .write 0x2000 (u64ToLe 0x700000000008)
  , .call (.launchKernel 0x5000 (some ⟨1, 1, 1⟩) (some ⟨64, 1, 1⟩) (some 0x2000) 0)
  , .call (.memcpy 0x3000 0x700000000000 16 hipMemcpyDeviceToHost)
  , .call .getLastError ]

/-- That run, on the flat device. -/
theorem bridge_refines_inProcess_launch :
    ∃ picks : List UInt64, picks.length = launchSteps.length ∧
      Along (after (InProcess.step flatHip)) MayPick
        (InProcess.new (fun _ => 0) FlatDevice.new) (launchSteps.zip picks) ∧
      answers (gameStep flatHip) (GameProcess.new (fun _ => 0) FlatDevice.new) launchSteps
        = answers (InProcess.step flatHip) (InProcess.new (fun _ => 0) FlatDevice.new)
          (launchSteps.zip picks) ∧
      let p := run (after (gameStep flatHip)) (GameProcess.new (fun _ => 0) FlatDevice.new)
        launchSteps
      let q := run (after (InProcess.step flatHip)) (InProcess.new (fun _ => 0) FlatDevice.new)
        (launchSteps.zip picks)
      p.daemon.device = q.device ∧ p.host = q.host ∧ p.lastError = q.lastError := by
  refine bridge_refines_inProcess flatHip shortTexts_flatHip (fun _ => 0) FlatDevice.new launchSteps
    (by decide) ⟨trivial, ?_, ?_, ?_, trivial, trivial, ⟨nofun, fun _ => ⟨by decide, ?_⟩⟩, trivial,
      trivial⟩
  · intro bundle hbundle
    have hfound : (bundleAt (FlatMemory.overwrite 0x1000 (offloadBundleMagic ++ u64ToLe 0)
        fun _ => 0) 0x1000).map List.length = some 32 := by
      decide +kernel
    have hlen := (congrArg (Option.map List.length) hbundle).symm.trans hfound
    rw [Option.map_some, Option.some.injEq] at hlen
    rw [hlen]
    decide
  · exact ⟨_, "k_swin", rfl, rfl, by decide⟩
  · show AddressSpace.new.nextBase.toNat + AddressSpace.reservedNat 16 < 2 ^ 64
    decide
  · exact canBuffer_flatHip (by decide)

end HipBridge.Bridge
