import HipBridge.Bridge.FrameSizes
import HipBridge.Daemon.HandleClient
import HipBridge.Stub.AddressRuns

/-!
# What a launched kernel gets to see

* **`Translated`** — a buffer with the real address in place of every fake one, and every other
  word as it was.
* **`PatchedInside`** — a buffer of the same length that differs only under the fixups, all of
  which lie inside.
* **`handleRequest_launch`** — any launch is refused without a HIP call or made with such a
  buffer.
* **`launch_translates`** — `hipLaunchKernel` launches with the translated buffer.
-/

namespace HipBridge.Bridge

open Lib Protocol Daemon Stub
open Unixlib (Dim3)

variable {D : Type}

/-- Word by word: an address at offset `k` of a live range becomes the address at offset `k` of
the device block, and a word outside all live ranges stays. -/
def Translated (space : AddressSpace) (handles : HandleTable Ptr) (args patched : List UInt8) :
    Prop :=
  patched.length = args.length ∧ ∀ i, 8 * i + 8 ≤ args.length →
    (∀ base r k devPtr, space.At (wordAt args (8 * i)) base r k →
      handles.get r.handle = some devPtr → wordAt patched (8 * i) = devPtr + k) ∧
    ((∀ base r k, ¬ space.At (wordAt args (8 * i)) base r k) →
      wordAt patched (8 * i) = wordAt args (8 * i))

/-- Each fixup lies inside the arguments, and the other bytes are as they were. -/
def PatchedInside (fixups : List Fixup) (args patched : List UInt8) : Prop :=
  patched.length = args.length ∧ (∀ f ∈ fixups, f.1.toNat + 8 ≤ args.length) ∧
    ∀ i, (∀ f ∈ fixups, i < f.1.toNat ∨ f.1.toNat + 8 ≤ i) → patched[i]? = args[i]?

/-! ## Any launch -/

theorem length_copyFromSlice {args bytes : List UInt8} {offset : Nat}
    (h : offset + bytes.length ≤ args.length) :
    (copyFromSlice args offset bytes).length = args.length := by
  rw [copyFromSlice, List.length_append, List.length_append, List.length_take, List.length_drop]
  omega

/-- A byte in front of or behind the bytes that are written. -/
theorem getElem?_copyFromSlice {args bytes : List UInt8} {offset i : Nat}
    (h : offset + bytes.length ≤ args.length) (hi : i < offset ∨ offset + bytes.length ≤ i) :
    (copyFromSlice args offset bytes)[i]? = args[i]? := by
  have htake : (args.take offset).length = offset := by
    rw [List.length_take]
    omega
  unfold copyFromSlice
  rcases hi with hbefore | hbehind
  · rw [List.append_assoc, List.getElem?_append_left (by omega), List.getElem?_take_of_lt hbefore]
  · have hlen : (args.take offset ++ bytes).length = offset + bytes.length := by
      rw [List.length_append, htake]
    rw [List.getElem?_append_right (by omega), hlen, List.getElem?_drop]
    congr 1
    omega

/-- Patching writes under the fixups alone. Induction on the table. -/
theorem patchArgs_inside {handles : HandleTable Ptr} {fixups : List Fixup}
    {args patched : List UInt8} (h : patchArgs handles fixups args = .ok (.ok patched)) :
    PatchedInside fixups args patched := by
  induction fixups generalizing args with
  | nil =>
    cases h
    exact ⟨rfl, nofun, fun _ _ => rfl⟩
  | cons fixup fixups ih =>
    obtain ⟨offset, handle, intraOffset⟩ := fixup
    have hoffset : offset.toNat < 2 ^ 32 := offset.toNat_lt
    have hadd : usizeAdd offset.toNat 8 = .ok (offset.toNat + 8) :=
      usizeAdd_ok (by unfold usizeMax; omega)
    simp only [patchArgs, hadd, Io.ok_bind] at h
    split at h
    case isTrue => cases h
    case isFalse hinside =>
      split at h
      case h_2 => cases h
      case h_1 devPtr _ =>
        have hword : (u64ToLe (devPtr + intraOffset)).length = 8 := length_u64ToLe _
        have hfits : offset.toNat + (u64ToLe (devPtr + intraOffset)).length ≤ args.length := by
          omega
        obtain ⟨hlen, hin, hout⟩ := ih h
        rw [length_copyFromSlice hfits] at hlen hin
        refine ⟨hlen, ?_, fun i hi => ?_⟩
        · intro f hf
          rcases List.mem_cons.mp hf with rfl | hf
          · show offset.toNat + 8 ≤ args.length
            omega
          · exact hin f hf
        · rw [hout i fun f hf => hi f (List.mem_cons_of_mem _ hf)]
          apply getElem?_copyFromSlice hfits
          rw [hword]
          exact hi _ List.mem_cons_self

/-- The response and the daemon after `hipModuleLaunchKernel` was called with these arguments. -/
def launchWith (hip : HipLib D) (s : DaemonState D) (funcPtr : Ptr)
    (grid block : UInt32 × UInt32 × UInt32) (sharedMem : UInt32) (args : List UInt8) :
    Response × DaemonState D :=
  let (result, device) := hip.launchKernel funcPtr grid block sharedMem args s.device
  (emptyOrErr result, { s with device })

/-- A launch with arguments that could be patched. -/
theorem handleRequest_launch_patched (hip : HipLib D) {s : DaemonState D}
    {function : UInt64} (grid block : UInt32 × UInt32 × UInt32) (sharedMem : UInt32)
    {fixups : List Fixup} {args patched : List UInt8} {funcPtr : Ptr}
    (hfunction : s.functions.get function = some funcPtr)
    (hpatch : patchArgs s.handles fixups args = .ok (.ok patched)) :
    handleRequest hip s (.launchKernel function grid block sharedMem fixups args)
      = .ok (launchWith hip s funcPtr grid block sharedMem patched) := by
  simp only [handleRequest, hfunction, hpatch]
  rfl

/-- Every launch is refused, whatever the library, or handed to it with patched arguments. -/
theorem handleRequest_launch (s : DaemonState D) (function : UInt64)
    (grid block : UInt32 × UInt32 × UInt32) (sharedMem : UInt32) (fixups : List Fixup)
    (args : List UInt8) :
    (∃ e, ∀ hip : HipLib D, handleRequest hip s
      (.launchKernel function grid block sharedMem fixups args) = .ok (.err e, s)) ∨
    ∃ funcPtr patched, PatchedInside fixups args patched ∧ ∀ hip : HipLib D, handleRequest hip s
      (.launchKernel function grid block sharedMem fixups args)
        = .ok (launchWith hip s funcPtr grid block sharedMem patched) := by
  cases hfunction : s.functions.get function with
  | none =>
    refine Or.inl ⟨"unknown function handle " ++ toString function.toNat, fun hip => ?_⟩
    simp only [handleRequest, hfunction]
  | some funcPtr =>
    obtain ⟨result, hpatch⟩ := patchArgs_returns s fixups args
    cases result with
    | error e =>
      refine Or.inl ⟨e, fun hip => ?_⟩
      simp only [handleRequest, hfunction, hpatch]
      rfl
    | ok patched =>
      exact Or.inr ⟨funcPtr, patched, patchArgs_inside hpatch, fun hip =>
        handleRequest_launch_patched hip grid block sharedMem hfunction hpatch⟩

/-! ## A launch of the stub -/

/-- A word at offset `k` of a live range. -/
theorem translateWord_at {space : AddressSpace} (h : space.Inv) {handles : HandleTable Ptr}
    {w base k devPtr : UInt64} {r : AllocRange} (hat : space.At w base r k)
    (hknown : handles.get r.handle = some devPtr) : translateWord space handles w = devPtr + k := by
  have hresolve : space.resolve w = some (r.handle, k) :=
    h.resolve_eq_some_iff.mpr ⟨base, r, hat, rfl⟩
  simp only [translateWord, hresolve, hknown]

/-- A word outside all live ranges. -/
theorem translateWord_outside {space : AddressSpace} (h : space.Inv) (handles : HandleTable Ptr)
    {w : UInt64} (houtside : ∀ base r k, ¬ space.At w base r k) :
    translateWord space handles w = w := by
  have hresolve : space.resolve w = none := h.resolve_eq_none_iff.mpr houtside
  simp only [translateWord, hresolve]

/-- Where live ranges lie apart, translating the words translates the buffer. -/
theorem translated_map {space : AddressSpace} (h : space.Inv) (handles : HandleTable Ptr)
    (words : List UInt64) :
    Translated space handles (bytesOf words)
      (bytesOf (words.map (translateWord space handles))) := by
  refine ⟨by simp, fun i hi => ?_⟩
  rw [length_bytesOf] at hi
  have hlt : i < words.length := by omega
  have hword : wordAt (bytesOf words) (8 * i) = words[i] := by
    have hw := wordAt_bytesOf hlt []
    rwa [List.nil_append, List.length_nil, Nat.zero_add] at hw
  have hword' : wordAt (bytesOf (words.map (translateWord space handles))) (8 * i)
      = translateWord space handles words[i] := by
    have hlt' : i < (words.map (translateWord space handles)).length := by rwa [List.length_map]
    have hw := wordAt_bytesOf hlt' []
    rwa [List.nil_append, List.length_nil, Nat.zero_add, List.getElem_map] at hw
  rw [hword, hword']
  exact ⟨fun base r k devPtr hat hknown => translateWord_at h hat hknown,
    fun houtside => translateWord_outside h handles houtside⟩

/-- What the scan found in a buffer of words is patched into the translated buffer. -/
theorem patchArgs_translated {space : AddressSpace} (h : space.Inv) {handles : HandleTable Ptr}
    (hknown : ∀ base r, space.ranges.lookup base = some r → (handles.get r.handle).isSome)
    {args : List UInt8} (hlen : args.length = maxKernelArgBytes) :
    ∃ patched, Translated space handles args patched ∧
      patchArgs handles (scanFixups space args) args = .ok (.ok patched) := by
  obtain ⟨words, hwords, rfl⟩ := @exists_bytesOf 512 args (by rw [hlen, maxKernelArgBytes])
  refine ⟨_, translated_map h handles words, ?_⟩
  have hpatching := patchArgs_scanFixups space handles
    (by rw [hwords]; decide : 8 * words.length < _)
  generalize patchArgs handles (scanFixups space (bytesOf words)) (bytesOf words) = result
    at hpatching
  cases hpatching with
  | translated => rfl
  | unknown w handle k _ hresolve hunknown =>
    obtain ⟨base, r, ⟨hlookup, -⟩, rfl⟩ := AddressSpace.at_of_resolve hresolve
    have hlive := hknown base r hlookup
    rw [hunknown] at hlive
    cases hlive

section Launch

variable {g : Game D} {function argPtr : Ptr} {grid block : Dim3} {sharedMem handle : UInt64}
  {funcPtr : Ptr}

/-- A launch with all its pointers set. -/
theorem launchRequest_eq (hfunction : g.functions.lookup function = some handle)
    (hargs : argPtr ≠ 0) :
    launchRequest g function (some grid) (some block) (some argPtr) sharedMem
      = some (.launchKernel handle (grid.x, grid.y, grid.z) (block.x, block.y, block.z)
          sharedMem.toUInt32 (scanFixups g.space (g.host.slice argPtr maxKernelArgBytes))
          (g.host.slice argPtr maxKernelArgBytes)) := by
  simp only [launchRequest, hfunction, Option.bind_eq_bind, Option.bind_some, if_neg hargs]
  rfl

/-- The device after a launch is the device after the daemon served its request. -/
theorem daemon_hipLaunchKernel {hip : HipLib D} {req : Request} {resp : Response}
    {daemon : DaemonState D} (hconn : g.connected = true)
    (hreq : launchRequest g function (some grid) (some block) (some argPtr) sharedMem = some req)
    (hserve : handleRequest hip g.daemon req = .ok (resp, daemon)) :
    (hipLaunchKernel hip g function (some grid) (some block) (some argPtr) sharedMem).2.daemon
      = daemon := by
  have hbridge := daemon_callBridge hconn (length_launchRequest hreq) hserve
  rw [← hbridge, hipLaunchKernel, hreq]
  simp only
  split
  case h_1 heq => rw [heq]
  case h_2 heq => rw [heq]; rfl

end Launch

/-- **The arguments of a launch are translated.** As long as the addresses given out stay below
`2 ^ 64` and the daemon knows the handle of every live range, the request of `hipLaunchKernel` is
read as it was written, and the launch is made with the translated buffer. And whatever request
for a launch arrives, the daemon refuses it without a HIP call, or makes the launch with a buffer
that differs from the arguments only inside, under the fixups. -/
theorem launch_translates (hip : HipLib D) :
    (∀ (ops : List SpaceOp) (g : Game D) (function argPtr : Ptr) (grid block : Dim3)
      (sharedMem handle : UInt64) (funcPtr : Ptr), Along spaceStep Room .new ops →
      g.space = run spaceStep .new ops →
      (∀ base r, g.space.ranges.lookup base = some r → (g.daemon.handles.get r.handle).isSome) →
      g.connected = true → g.functions.lookup function = some handle →
      g.daemon.functions.get handle = some funcPtr → argPtr ≠ 0 →
      ∃ req patched,
        launchRequest g function (some grid) (some block) (some argPtr) sharedMem = some req ∧
        (∀ rest, Request.readFrom (req.writeTo ++ rest) = .ok (req, rest)) ∧
        Translated g.space g.daemon.handles (g.host.slice argPtr maxKernelArgBytes) patched ∧
        handleRequest hip g.daemon req = .ok (launchWith hip g.daemon funcPtr
          (grid.x, grid.y, grid.z) (block.x, block.y, block.z) sharedMem.toUInt32 patched) ∧
        (hipLaunchKernel hip g function (some grid) (some block) (some argPtr) sharedMem).2.daemon
          = (launchWith hip g.daemon funcPtr (grid.x, grid.y, grid.z) (block.x, block.y, block.z)
              sharedMem.toUInt32 patched).2) ∧
    (∀ (s : DaemonState D) function grid block sharedMem fixups args,
      (∃ e, ∀ hip : HipLib D, handleRequest hip s
        (.launchKernel function grid block sharedMem fixups args) = .ok (.err e, s)) ∨
      ∃ funcPtr patched, PatchedInside fixups args patched ∧
        ∀ hip : HipLib D, handleRequest hip s
          (.launchKernel function grid block sharedMem fixups args)
            = .ok (launchWith hip s funcPtr grid block sharedMem patched)) := by
  refine ⟨?_, handleRequest_launch⟩
  intro ops g function argPtr grid block sharedMem handle funcPtr hroom hspace hknown hconn
    hfunction hfuncPtr hargs
  have hinv : g.space.Inv := hspace ▸ inv_run hroom
  have hlen : (g.host.slice argPtr maxKernelArgBytes).length = maxKernelArgBytes :=
    FlatMemory.length_slice
  obtain ⟨patched, htranslated, hpatch⟩ := patchArgs_translated hinv hknown hlen
  have hreq := @launchRequest_eq D g function argPtr grid block sharedMem handle hfunction hargs
  have hserve := handleRequest_launch_patched hip (grid.x, grid.y, grid.z)
    (block.x, block.y, block.z) sharedMem.toUInt32 hfuncPtr hpatch
  exact ⟨_, patched, hreq, fun rest => Request.readFrom_writeTo _ rest (length_launchRequest hreq),
    htranslated, hserve, daemon_hipLaunchKernel hconn hreq hserve⟩

/-- A game with one range of 16 bytes and one function, whose argument struct at `0x2000` starts
with the address of the range's byte 8. -/
def launchGame : Game FlatDevice :=
  { Game.new (FlatMemory.overwrite 0x2000 (u64ToLe 0x700000000008) fun _ => 0) FlatDevice.new with
    space := (AddressSpace.new.allocate 1 16).2
    functions := AList.insert 0x5000 1 ∅
    daemon := { DaemonState.new FlatDevice.new with
      handles := (HandleTable.new.insert 0x10000).2
      functions := (HandleTable.new.insert 0x3000).2 } }

theorem launchGame_translates :
    ∃ req patched,
      launchRequest launchGame 0x5000 (some ⟨1, 1, 1⟩) (some ⟨64, 1, 1⟩) (some 0x2000) 0
        = some req ∧
      (∀ rest, Request.readFrom (req.writeTo ++ rest) = .ok (req, rest)) ∧
      Translated launchGame.space launchGame.daemon.handles
        (launchGame.host.slice 0x2000 maxKernelArgBytes) patched ∧
      handleRequest flatHip launchGame.daemon req = .ok (launchWith flatHip launchGame.daemon 0x3000
        (1, 1, 1) (64, 1, 1) 0 patched) ∧
      (hipLaunchKernel flatHip launchGame 0x5000 (some ⟨1, 1, 1⟩) (some ⟨64, 1, 1⟩) (some 0x2000)
        0).2.daemon
        = (launchWith flatHip launchGame.daemon 0x3000 (1, 1, 1) (64, 1, 1) 0 patched).2 := by
  have hroom : Along spaceStep Room .new [.allocate 1 16] := ⟨by decide, trivial⟩
  refine (launch_translates flatHip).1 [.allocate 1 16] launchGame 0x5000 0x2000 ⟨1, 1, 1⟩
    ⟨64, 1, 1⟩ 0 1 0x3000 hroom rfl ?_ rfl rfl rfl (by decide)
  intro base r hlookup
  have hlive := (AddressSpace.lookup_allocate .new 1 16 base).symm.trans hlookup
  split at hlive
  case isTrue => cases hlive; rfl
  case isFalse => cases hlive

/-! ## Addresses that were given out twice -/

/-- A range of 1 GiB stays live while others, of 1 GiB with their padding, come and go, until the
next base is `4096` bytes into the first. The last range is put there. -/
def wrappedOps : List SpaceOp :=
  .allocate 1 0x40000000 ::
    (recycle 2 0x3FFFF000 0x700040001000 0x3FFFFFFFF ++ [.allocate 3 16])

/-- The first range is never met on the way. -/
theorem nthBase_ne_first (i : Nat) :
    nthBase 0x700040001000 0x3FFFF000 i ≠ 0x700000000000 := by
  intro heq
  have hnat := congrArg UInt64.toNat heq
  have hreserved : AddressSpace.reserved 0x3FFFF000 = 0x40000000 := by decide
  rw [nthBase, hreserved, UInt64.toNat_add, UInt64.toNat_mul, UInt64.toNat_ofNat'] at hnat
  simp only [UInt64.reduceToNat] at hnat
  -- the two bases differ by 4096 modulo 1 GiB
  omega

theorem run_wrappedOps : run spaceStep .new wrappedOps =
    (AddressSpace.allocate
      ⟨0x700000001000, AList.insert 0x700000000000 ⟨1, 0x40000000⟩ ∅⟩ 3 16).2 := by
  have hnext : (spaceStep .new (.allocate 1 0x40000000)).nextBase = 0x700040001000 := by decide
  have hfree : ∀ i < 0x3FFFFFFFF, (spaceStep .new (.allocate 1 0x40000000)).ranges.lookup
      (nthBase 0x700040001000 0x3FFFF000 i) = none := by
    intro i hi
    have hother := AddressSpace.lookup_allocate .new 1 0x40000000
      (nthBase 0x700040001000 0x3FFFF000 i)
    exact hother.trans (if_neg (nthBase_ne_first i))
  have hbase : nthBase 0x700040001000 0x3FFFF000 0x3FFFFFFFF = 0x700000001000 := by decide
  have hrecycled := run_recycle 2 hnext hfree
  rw [hbase] at hrecycled
  rw [wrappedOps, run_cons, run_append, hrecycled]
  rfl

/-- Blocks for the two ranges that stay live. -/
def wrappedHandles : HandleTable Ptr := ⟨4, AList.insert 1 0x10000 (AList.insert 3 0x20000 ∅)⟩

/-- An argument struct that starts with the address the two ranges share. -/
def wrappedArgs : List UInt8 := bytesOf (0x700000001000 :: List.replicate 511 0)

theorem length_wrappedArgs : wrappedArgs.length = maxKernelArgBytes := by
  rw [wrappedArgs, length_bytesOf, List.length_cons, List.length_replicate, maxKernelArgBytes]

/-- No buffer has the address in both blocks in the place of an address that is in both ranges. -/
theorem wrapped_not_translated :
    (∀ base r, (run spaceStep .new wrappedOps).ranges.lookup base = some r →
      (wrappedHandles.get r.handle).isSome) ∧
    wrappedArgs.length = maxKernelArgBytes ∧
    ¬ ∃ patched, Translated (run spaceStep .new wrappedOps) wrappedHandles wrappedArgs patched := by
  rw [run_wrappedOps]
  refine ⟨?_, ?_, ?_⟩
  · intro base r hlookup
    rw [AddressSpace.lookup_allocate] at hlookup
    split at hlookup
    case isTrue => cases hlookup; rfl
    case isFalse =>
      by_cases hfirst : base = 0x700000000000
      · rw [hfirst] at hlookup
        cases hlookup
        rfl
      · have hnone :
            (AList.insert 0x700000000000 ⟨1, 0x40000000⟩ ∅ : BTreeMap AllocRange).lookup base
              = none := AList.lookup_insert_ne hfirst
        rw [hnone] at hlookup
        cases hlookup
  · exact length_wrappedArgs
  · rintro ⟨patched, -, hwords⟩
    have hfirst : wordAt wrappedArgs (8 * 0) = 0x700000001000 := by
      have hword := @wordAt_append [] (bytesOf (List.replicate 511 0)) 0x700000001000 0 rfl
      rwa [List.nil_append, ← bytesOf_cons] at hword
    obtain ⟨hshared, -⟩ := hwords 0 (by rw [length_wrappedArgs]; decide)
    rw [hfirst] at hshared
    have hone := hshared 0x700000000000 ⟨1, 0x40000000⟩ 4096 0x10000
      ⟨by decide, by decide, by decide⟩ rfl
    have htwo := hshared 0x700000001000 ⟨3, 16⟩ 0 0x20000 ⟨by decide, by decide, by decide⟩ rfl
    rw [hone] at htwo
    exact absurd htwo (by decide)

end HipBridge.Bridge
