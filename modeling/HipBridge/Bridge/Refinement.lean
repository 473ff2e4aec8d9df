import HipBridge.Bridge.DeviceMemory
import HipBridge.Daemon.FlatDevice

/-!
# The bridge refines device memory

* **`Traced.Inv`** — address ranges, handle table and blocks are in step.
* **`Traced.Inv.copied`**, **`Traced.Inv.afterMalloc`**, **`Traced.Inv.afterFree`** — the calls
  keep it.
* **`refines_deviceMemory`** — every call of a run that is promised what `Promise` says is
  correct.
* **`freeNull_succeeds`** — the one free outside every allocation that is not refused.
-/

namespace HipBridge.Bridge

open Lib Daemon Stub
open Protocol (maxBodyLen)
open Unixlib (hipSuccess)

variable {D : Type}

/-! ## The invariant -/

/-- A range and the block behind it: of one size, with the block under the handle of the range in
the daemon's table. -/
def Backed (s : Traced D) (r : AllocRange) (block : Block) : Prop :=
  block.size = r.size ∧ s.session.daemon.handles.get r.handle = some block.addr ∧
    r.handle.toNat < s.session.daemon.handles.nextId.toNat

/-- Address ranges, handle table and blocks are in step. -/
structure Traced.Inv (s : Traced D) (mem : D → FlatMemory) : Prop where
  inStep : s.session.InStep
  space : s.session.space.Inv
  /-- Every handle was issued together with at least 8192 addresses. -/
  issued : 1 ≤ s.session.daemon.handles.nextId.toNat ∧
    (s.session.daemon.handles.nextId.toNat - 1) * 8192 + 0x700000000000
      ≤ s.session.space.nextBase.toNat
  ofRange : ∀ base r, s.session.space.ranges.lookup base = some r →
    ∃ block, s.live.lookup base = some block ∧ Backed s r block
  ofBlock : ∀ base block, s.live.lookup base = some block →
    ∃ r, s.session.space.ranges.lookup base = some r ∧ Backed s r block
  nonNull : ∀ base r, s.session.space.ranges.lookup base = some r → base ≠ 0
  ownHandle : ∀ base r base' r', s.session.space.ranges.lookup base = some r →
    s.session.space.ranges.lookup base' = some r' → r.handle = r'.handle → base = base'
  fits : ∀ base block, s.live.lookup base = some block →
    block.addr.toNat + block.size.toNat ≤ 2 ^ 64
  apart : ∀ base block base' block', s.live.lookup base = some block →
    s.live.lookup base' = some block' → base ≠ base' → block.Disjoint block'
  written : ∀ base block, s.live.lookup base = some block → ∀ i < block.size.toNat, ∀ b,
    s.written (block.addr + UInt64.ofNat i) = some b →
    mem s.device (block.addr + UInt64.ofNat i) = b

/-- At the start there are no ranges and no blocks. -/
theorem Traced.inv_new (mem : D → FlatMemory) (host : FlatMemory) (device : D) :
    (Traced.new host device).Inv mem where
  inStep := ⟨rfl, rfl⟩
  space := AddressSpace.inv_new
  issued := by
    have hid : (Traced.new host device).session.daemon.handles.nextId = 1 := rfl
    have hbase : (Traced.new host device).session.space.nextBase = 0x700000000000 := rfl
    rw [hid, hbase]
    decide
  ofRange := fun base r h => by cases h
  ofBlock := fun base block h => by cases h
  nonNull := fun base r h => by cases h
  ownHandle := fun base r base' r' h => by cases h
  fits := fun base block h => by cases h
  apart := fun base block base' block' h => by cases h
  written := fun base block h => by cases h

section Lookups

variable {mem : D → FlatMemory} {s : Traced D} (h : s.Inv mem)
include h

/-- The allocation an address is in, seen from the two sides. -/
theorem Traced.Inv.at_iff {p base : Ptr} {block : Block} {k : UInt64} :
    s.At p base block k ↔ ∃ r, s.session.space.At p base r k ∧ Backed s r block ∧
      s.live.lookup base = some block := by
  constructor
  · rintro ⟨hlive, hsum, hlt⟩
    obtain ⟨r, hr, hbacked⟩ := h.ofBlock base block hlive
    exact ⟨r, ⟨hr, hsum, hbacked.1 ▸ hlt⟩, hbacked, hlive⟩
  · rintro ⟨r, ⟨hr, hsum, hlt⟩, hbacked, hlive⟩
    exact ⟨hlive, hsum, hbacked.1 ▸ hlt⟩

/-- An address inside an allocation resolves to the handle of its block. -/
theorem Traced.Inv.resolve_of_at {p base : Ptr} {block : Block} {k : UInt64}
    (hat : s.At p base block k) : ∃ handle, s.session.space.resolve p = some (handle, k) ∧
      s.session.daemon.handles.get handle = some block.addr := by
  obtain ⟨r, hr, hbacked, -⟩ := h.at_iff.mp hat
  exact ⟨r.handle, h.space.resolve_eq_some_iff.mpr ⟨base, r, hr, rfl⟩, hbacked.2.1⟩

/-- An address outside every allocation resolves to nothing. -/
theorem Traced.Inv.resolve_of_outside {p : Ptr} (houtside : s.Outside p) :
    s.session.space.resolve p = none := by
  refine h.space.resolve_eq_none_iff.mpr fun base r k hr => ?_
  obtain ⟨block, hlive, hbacked⟩ := h.ofRange base r hr.1
  exact houtside base block k (h.at_iff.mpr ⟨r, hr, hbacked, hlive⟩)

/-- Where no allocation starts, no range does. -/
theorem Traced.Inv.lookup_range_none {p : Ptr} (hlive : s.live.lookup p = none) :
    s.session.space.ranges.lookup p = none := by
  cases hr : s.session.space.ranges.lookup p with
  | none => rfl
  | some r =>
    obtain ⟨block, hblock, -⟩ := h.ofRange p r hr
    rw [hlive] at hblock
    cases hblock

/-- The next handle is not the last one. -/
theorem Traced.Inv.toNat_nextId_succ : (s.session.daemon.handles.nextId + 1).toNat
    = s.session.daemon.handles.nextId.toNat + 1 := by
  have hissued := h.issued.2
  have hbase := s.session.space.nextBase.toNat_lt
  rw [UInt64.toNat_add]
  exact Nat.mod_eq_of_lt (by simp only [UInt64.reduceToNat]; omega)

end Lookups

/-! ## Copies -/

section Copies

variable {hip : HipLib D} {mem : D → FlatMemory} {s s' : Traced D} {dst src : Ptr}
  {size handle k : UInt64} {addr : Ptr}

/-- A call that leaves ranges, handles and allocations as they were. -/
theorem Traced.Inv.of_same (h : s.Inv mem) (hstep : s'.session.InStep)
    (hspace : s'.session.space = s.session.space)
    (hhandles : s'.session.daemon.handles = s.session.daemon.handles) (hlive : s'.live = s.live)
    (hwritten : ∀ base block, s.live.lookup base = some block → ∀ i < block.size.toNat, ∀ b,
      s'.written (block.addr + UInt64.ofNat i) = some b →
      mem s'.device (block.addr + UInt64.ofNat i) = b) : s'.Inv mem where
  inStep := hstep
  space := hspace ▸ h.space
  issued := by
    rw [hhandles, hspace]
    exact h.issued
  ofRange := by
    unfold Backed
    rw [hspace, hhandles, hlive]
    exact h.ofRange
  ofBlock := by
    unfold Backed
    rw [hspace, hhandles, hlive]
    exact h.ofBlock
  nonNull := by
    rw [hspace]
    exact h.nonNull
  ownHandle := by
    rw [hspace]
    exact h.ownHandle
  fits := by
    rw [hlive]
    exact h.fits
  apart := by
    rw [hlive]
    exact h.apart
  written := by
    rw [hlive]
    exact hwritten

/-- What was recorded is what was written, wherever it was so before. -/
theorem record_sound {w : Written} {bytes : FlatMemory} {data : List UInt8} {a p : Ptr} {b : UInt8}
    (h : ∀ b, w a = some b → bytes a = b) (hb : record p data w a = some b) :
    FlatMemory.overwrite p data bytes a = b := by
  unfold record at hb
  split at hb
  case isTrue hlt =>
    rw [FlatMemory.overwrite, List.getD_eq_getElem?_getD, List.getElem?_eq_getElem hlt]
    exact Option.some.inj hb
  case isFalse hge =>
    rw [FlatMemory.overwrite_outside (by omega)]
    exact h b hb

/-- The session after a copy to the device: the bytes are at the device, and recorded. -/
def copiedToDevice (hip : HipLib D) (s : Traced D) (addr : Ptr) (k : UInt64) (data : List UInt8) :
    Traced D :=
  { s with session := { s.session with daemon := { s.session.daemon with
      device := ((hip.memcpyHostToDevice (addr + k) data s.device).2,
        record (addr + k) data s.written) } } }

/-- A copy to an address that resolves is made, if it fits a frame. -/
theorem step_toDevice (hcopies : FlatCopies hip mem) (hstep : s.session.InStep)
    (hresolve : s.session.space.resolve dst = some (handle, k))
    (hknown : s.session.daemon.handles.get handle = some addr)
    (hsize : 24 + size.toNat ≤ maxBodyLen) :
    (DeviceCall.memcpy dst src size hipMemcpyHostToDevice).code hip s = hipSuccess ∧
    (DeviceCall.memcpy dst src size hipMemcpyHostToDevice).step hip s =
      copiedToDevice hip s addr k (s.session.host.slice src size.toNat) := by
  have hrc := (hcopies.toDevice (addr + k) (s.session.host.slice src size.toNat) s.device).1
  have hforward := @memcpyForward_toDevice _ (shadowed hip) _ hstep dst src _ _ _ _ hknown hresolve
    hsize hrc
  refine ⟨congrArg Prod.fst hforward, ?_⟩
  -- the copy succeeds, so the shadow takes it down
  have hrecord : ((shadowed hip).memcpyHostToDevice (addr + k)
      (s.session.host.slice src size.toNat) s.session.daemon.device).2
      = ((hip.memcpyHostToDevice (addr + k) (s.session.host.slice src size.toNat) s.device).2,
        record (addr + k) (s.session.host.slice src size.toNat) s.written) :=
    Prod.ext rfl (if_pos hrc)
  simp only [DeviceCall.step, hforward, copiedToDevice]
  rw [← hrecord]
  rfl

/-- A copy to the device keeps the invariant, even if it runs past the end of its block. -/
theorem Traced.Inv.copied (h : s.Inv mem) (hcopies : FlatCopies hip mem) (addr : Ptr)
    (k : UInt64) (data : List UInt8) : (copiedToDevice hip s addr k data).Inv mem := by
  refine h.of_same h.inStep rfl rfl rfl fun base block hlive i hi b hb => ?_
  show mem (hip.memcpyHostToDevice (addr + k) data s.device).2 _ = b
  rw [(hcopies.toDevice (addr + k) data s.device).2]
  exact record_sound (h.written base block hlive i hi) hb

/-- A byte of another block is no byte of the range. -/
theorem Block.Disjoint.le_sub_toNat {block block' : Block} (h : block.Disjoint block')
    (hfits : block.addr.toNat + block.size.toNat ≤ 2 ^ 64)
    (hfits' : block'.addr.toNat + block'.size.toNat ≤ 2 ^ 64) {n i : Nat}
    (hk : k.toNat + n ≤ block.size.toNat) (hi : i < block'.size.toNat) :
    n ≤ (block'.addr + UInt64.ofNat i - (block.addr + k)).toNat := by
  rcases Nat.eq_zero_or_pos n with rfl | hpos
  · exact Nat.zero_le _
  -- neither block wraps round, so the sums are those of natural numbers
  have hp : (block.addr + k).toNat = block.addr.toNat + k.toNat := by
    rw [UInt64.toNat_add, Nat.mod_eq_of_lt (by omega)]
  have ha : (block'.addr + UInt64.ofNat i).toNat = block'.addr.toNat + i := by
    have hnum : (UInt64.ofNat i).toNat = i := by
      rw [UInt64.toNat_ofNat', Nat.mod_eq_of_lt (by omega)]
    rw [UInt64.toNat_add, hnum, Nat.mod_eq_of_lt (by omega)]
  refine FlatMemory.le_sub_toNat (by omega) ?_
  unfold Block.Disjoint at h
  omega

/-- A copy inside a block writes its bytes and no other block's. -/
theorem Traced.Inv.writtenTo (h : s.Inv mem) (hcopies : FlatCopies hip mem) {base : Ptr}
    {block : Block} (hlive : s.live.lookup base = some block) {data : List UInt8}
    (hrange : k.toNat + data.length ≤ block.size.toNat) :
    WrittenTo mem s (copiedToDevice hip s block.addr k data) base block k data where
  bytes := (hcopies.toDevice (block.addr + k) data s.device).2
  others := by
    intro base' block' hne hlive' i hi
    show mem (hip.memcpyHostToDevice (block.addr + k) data s.device).2 _ = _
    rw [(hcopies.toDevice (block.addr + k) data s.device).2]
    exact FlatMemory.overwrite_outside ((h.apart base block base' block' hlive hlive'
      (Ne.symm hne)).le_sub_toNat (h.fits base block hlive) (h.fits base' block' hlive') hrange hi)
  live := rfl
  space := rfl
  handles := rfl

/-- The session after a copy to the host. -/
def copiedToHost (hip : HipLib D) (s : Traced D) (addr : Ptr) (k : UInt64) (dst : Ptr)
    (size : UInt64) : Traced D :=
  { s with session := { s.session with
      host := s.session.host.overwrite dst (HipLib.buffer size.toNat
        (hip.memcpyDeviceToHost (addr + k) size s.device).2.1)
      daemon := { s.session.daemon with
        device := ((hip.memcpyDeviceToHost (addr + k) size s.device).2.2, s.written) } } }

/-- A copy from an address that resolves is made, if its response fits a frame. -/
theorem step_toHost (hcopies : FlatCopies hip mem) (hstep : s.session.InStep)
    (hresolve : s.session.space.resolve src = some (handle, k))
    (hknown : s.session.daemon.handles.get handle = some addr)
    (hsize : size.toNat ≤ maxBodyLen) :
    (DeviceCall.memcpy dst src size hipMemcpyDeviceToHost).code hip s = hipSuccess ∧
    (DeviceCall.memcpy dst src size hipMemcpyDeviceToHost).step hip s =
      copiedToHost hip s addr k dst size := by
  have hrc := (hcopies.toHost (addr + k) size s.device).1
  have hforward := @memcpyForward_toHost _ (shadowed hip) _ hstep dst src _ _ _ _ hknown
    (hcopies.buffered size s.device hsize) hresolve hsize hrc
  refine ⟨congrArg Prod.fst hforward, ?_⟩
  simp only [DeviceCall.step, hforward]
  rfl

/-- A copy to the host changes nothing but the host. -/
theorem Traced.Inv.copiedHost (h : s.Inv mem) (hcopies : FlatCopies hip mem) (addr : Ptr)
    (k : UInt64) (dst : Ptr) (size : UInt64) : (copiedToHost hip s addr k dst size).Inv mem := by
  refine h.of_same h.inStep rfl rfl rfl fun base block hlive i hi b hb => ?_
  show mem (hip.memcpyDeviceToHost (addr + k) size s.device).2.2 _ = b
  rw [(hcopies.toHost (addr + k) size s.device).2.2]
  exact h.written base block hlive i hi b hb

/-- A copy from a block reads its bytes, which are the ones last copied there. -/
theorem Traced.Inv.readFrom (h : s.Inv mem) (hcopies : FlatCopies hip mem) {base : Ptr}
    {block : Block} (hlive : s.live.lookup base = some block)
    (hrange : k.toNat + size.toNat ≤ block.size.toNat) :
    ReadFrom mem s (copiedToHost hip s block.addr k dst size) block k dst size where
  host := by
    have hbytes : HipLib.buffer size.toNat
        (hip.memcpyDeviceToHost (block.addr + k) size s.device).2.1
        = (mem s.device).slice (block.addr + k) size.toNat := by
      refine List.map_congr_left fun i hi => ?_
      exact (hcopies.toHost (block.addr + k) size s.device).2.1 i (List.mem_range.mp hi)
    rw [← hbytes]
    rfl
  written := by
    intro i hi b hb
    -- byte `i` of the copy is byte `k + i` of the block
    have hoffset : block.addr + k + UInt64.ofNat i = block.addr + UInt64.ofNat (k.toNat + i) := by
      rw [UInt64.add_assoc, UInt64.ofNat_add, UInt64.ofNat_toNat]
    rw [FlatMemory.getElem?_slice hi]
    rw [hoffset] at hb ⊢
    exact congrArg some (h.written base block hlive (k.toNat + i) (by omega) b hb)
  unchanged := ⟨(hcopies.toHost (block.addr + k) size s.device).2.2, rfl, rfl, rfl⟩

/-- A copy that is refused changes nothing but the last error. -/
theorem step_refused {kind : Int32}
    (hdst : kind = hipMemcpyHostToDevice → s.session.space.resolve dst = none)
    (hsrc : kind = hipMemcpyDeviceToHost → s.session.space.resolve src = none) :
    (DeviceCall.memcpy dst src size kind).code hip s ≠ hipSuccess ∧
    (DeviceCall.memcpy dst src size kind).step hip s =
      { s with session := { s.session with lastError := Unixlib.hipErrorNotSupported } } := by
  have hforward := @memcpyForward_refused _ (shadowed hip) _ dst src size kind hdst hsrc
  have hcode := congrArg Prod.fst hforward
  have hne : Unixlib.hipErrorNotSupported ≠ hipSuccess := by decide
  refine ⟨fun hsuccess => hne (hcode.symm.trans hsuccess), ?_⟩
  simp only [DeviceCall.step, hforward]
  rfl

end Copies

/-! ## Allocations and frees -/

section Allocations

variable {hip : HipLib D} {mem : D → FlatMemory} {s : Traced D}

/-- After an allocation that succeeds. -/
def afterMalloc (hip : HipLib D) (s : Traced D) (size : UInt64) : Traced D where
  session := { s.session with
    space := (s.session.space.allocate s.session.daemon.handles.nextId size).2
    daemon := { s.session.daemon with
      handles := (s.session.daemon.handles.insert (hip.malloc size s.device).2.1).2
      device := ((hip.malloc size s.device).2.2,
        forget (hip.malloc size s.device).2.1 size s.written) } }
  live := s.live.insert s.session.space.nextBase ⟨(hip.malloc size s.device).2.1, size⟩

/-- An allocation that HIP makes returns the next base. -/
theorem step_malloc {size : UInt64} (hstep : s.session.InStep)
    (hrc : (hip.malloc size s.device).1 = HipLib.hipSuccess) :
    (DeviceCall.malloc size).code hip s = hipSuccess ∧
    (hipMalloc (shadowed hip) s.session false size).2.1 = some s.session.space.nextBase ∧
    (DeviceCall.malloc size).step hip s = afterMalloc hip s size := by
  have hmalloc := @hipMalloc_allocated _ (shadowed hip) _ hstep false size hrc
  refine ⟨congrArg Prod.fst hmalloc, congrArg (fun r => r.2.1) hmalloc, ?_⟩
  -- the allocation succeeds, so the shadow knows nothing of the new bytes
  have hforget : ((shadowed hip).malloc size s.session.daemon.device).2.2
      = ((hip.malloc size s.device).2.2, forget (hip.malloc size s.device).2.1 size s.written) :=
    Prod.ext rfl (if_pos hrc)
  simp only [DeviceCall.step, hmalloc, afterMalloc]
  rw [← hforget]
  rfl

/-- The new block starts at the next base. -/
theorem lookup_live_allocated (size : UInt64) (base : Ptr) :
    (afterMalloc hip s size).live.lookup base =
      if base = s.session.space.nextBase then some ⟨(hip.malloc size s.device).2.1, size⟩
      else s.live.lookup base := by
  by_cases hbase : base = s.session.space.nextBase
  · subst hbase
    simp [afterMalloc]
  · simp [afterMalloc, hbase]

/-- So does the new range. -/
theorem lookup_range_allocated (size : UInt64) (base : Ptr) :
    (afterMalloc hip s size).session.space.ranges.lookup base =
      if base = s.session.space.nextBase then some ⟨s.session.daemon.handles.nextId, size⟩
      else s.session.space.ranges.lookup base :=
  AddressSpace.lookup_allocate _ _ _ _

/-- The next handle is nobody's. -/
theorem Traced.Inv.handle_ne_nextId (h : s.Inv mem) {base : Ptr} {r : AllocRange}
    (hr : s.session.space.ranges.lookup base = some r) :
    r.handle ≠ s.session.daemon.handles.nextId := by
  intro heq
  obtain ⟨-, -, -, -, hlt⟩ := h.ofRange base r hr
  rw [heq] at hlt
  exact Nat.lt_irrefl _ hlt

/-- What was in front of an allocation is still there behind it. -/
theorem Traced.Inv.backed_allocated (h : s.Inv mem) (size : UInt64) {r : AllocRange} {block : Block}
    (hbacked : Backed s r block) : Backed (afterMalloc hip s size) r block := by
  obtain ⟨hsize, hknown, hlt⟩ := hbacked
  refine ⟨hsize, ?_, ?_⟩
  · show (s.session.daemon.handles.insert _).2.get _ = _
    rw [HandleTable.get_insert, if_neg]
    · exact hknown
    · rintro heq
      rw [heq] at hlt
      exact Nat.lt_irrefl _ hlt
  · show r.handle.toNat < (s.session.daemon.handles.nextId + 1).toNat
    rw [h.toNat_nextId_succ]
    omega

/-- The new range is backed by the new block, under the handle the daemon issued. -/
theorem Traced.Inv.backed_new (h : s.Inv mem) (size : UInt64) :
    Backed (afterMalloc hip s size) ⟨s.session.daemon.handles.nextId, size⟩
      ⟨(hip.malloc size s.device).2.1, size⟩ := by
  refine ⟨rfl, ?_, ?_⟩
  · show (s.session.daemon.handles.insert _).2.get _ = _
    rw [HandleTable.get_insert, if_pos rfl]
  · show s.session.daemon.handles.nextId.toNat < (s.session.daemon.handles.nextId + 1).toNat
    rw [h.toNat_nextId_succ]
    omega

/-- A byte that was recorded and not forgotten is no byte of the new block. -/
theorem forget_sound {ptr a : Ptr} {size : UInt64} {w : Written} {b : UInt8}
    (hb : forget ptr size w a = some b) : ¬ (a - ptr).toNat < size.toNat ∧ w a = some b := by
  unfold forget at hb
  split at hb
  case isTrue => cases hb
  case isFalse hge => exact ⟨hge, hb⟩

/-- An allocation that is promised its block and its addresses keeps the invariant. -/
theorem Traced.Inv.afterMalloc (h : s.Inv mem) {size : UInt64}
    (hpromise : Promise hip mem s (.malloc size)) : (afterMalloc hip s size).Inv mem := by
  obtain ⟨-, hfits, hothers, hroom⟩ := hpromise
  have hnextBase := @AddressSpace.toNat_nextBase_allocate s.session.space
    s.session.daemon.handles.nextId size hroom
  exact {
    inStep := h.inStep.of_link (by dsimp only [Bridge.afterMalloc])
      (by dsimp only [Bridge.afterMalloc])
    space := h.space.allocate hroom
    issued := by
      show 1 ≤ (s.session.daemon.handles.nextId + 1).toNat ∧
        ((s.session.daemon.handles.nextId + 1).toNat - 1) * 8192 + 0x700000000000
          ≤ (s.session.space.allocate s.session.daemon.handles.nextId size).2.nextBase.toNat
      have hissued := h.issued
      have hpad := AddressSpace.reservedNat_min size
      rw [h.toNat_nextId_succ, hnextBase]
      omega
    ofRange := by
      intro base r hr
      rw [lookup_range_allocated] at hr
      simp only [lookup_live_allocated]
      split at hr
      case isTrue hbase =>
        cases hr
        exact ⟨_, if_pos hbase, h.backed_new size⟩
      case isFalse hbase =>
        obtain ⟨block, hlive, hbacked⟩ := h.ofRange base r hr
        exact ⟨block, (if_neg hbase).trans hlive, h.backed_allocated size hbacked⟩
    ofBlock := by
      intro base block hlive
      rw [lookup_live_allocated] at hlive
      simp only [lookup_range_allocated]
      split at hlive
      case isTrue hbase =>
        cases hlive
        exact ⟨_, if_pos hbase, h.backed_new size⟩
      case isFalse hbase =>
        obtain ⟨r, hr, hbacked⟩ := h.ofBlock base block hlive
        exact ⟨r, (if_neg hbase).trans hr, h.backed_allocated size hbacked⟩
    nonNull := by
      intro base r hr
      rw [lookup_range_allocated] at hr
      split at hr
      case isTrue hbase =>
        -- bases start far above 0
        rintro rfl
        have hissued := h.issued.2
        rw [← hbase] at hissued
        simp at hissued
      case isFalse => exact h.nonNull base r hr
    ownHandle := by
      intro base r base' r' hr hr' heq
      rw [lookup_range_allocated] at hr hr'
      split at hr <;> split at hr'
      case isTrue.isTrue hbase hbase' => rw [hbase, hbase']
      case isTrue.isFalse =>
        -- the new handle is nobody's else
        cases hr
        exact absurd heq.symm (h.handle_ne_nextId hr')
      case isFalse.isTrue =>
        cases hr'
        exact absurd heq (h.handle_ne_nextId hr)
      case isFalse.isFalse => exact h.ownHandle base r base' r' hr hr' heq
    fits := by
      intro base block hlive
      rw [lookup_live_allocated] at hlive
      split at hlive
      case isTrue =>
        cases hlive
        exact hfits
      case isFalse => exact h.fits base block hlive
    apart := by
      intro base block base' block' hlive hlive' hne
      rw [lookup_live_allocated] at hlive hlive'
      split at hlive <;> split at hlive'
      case isTrue.isTrue hbase hbase' => exact absurd (hbase.trans hbase'.symm) hne
      case isTrue.isFalse =>
        -- the library promises that the new block is disjoint from the old ones
        cases hlive
        exact (hothers base' block' hlive').1.symm
      case isFalse.isTrue =>
        cases hlive'
        exact (hothers base block hlive).1
      case isFalse.isFalse => exact h.apart base block base' block' hlive hlive' hne
    written := by
      intro base block hlive i hi b hb
      obtain ⟨hold, hb⟩ := forget_sound hb
      rw [lookup_live_allocated] at hlive
      split at hlive
      case isTrue =>
        -- no byte of the new block is recorded
        cases hlive
        change i < size.toNat at hi
        have hsize := size.toNat_lt
        rw [FlatMemory.sub_toNat_of_offset (by omega)] at hold
        exact absurd hi hold
      case isFalse =>
        have hsame := (hothers base block hlive).2 i hi
        exact hsame.trans (h.written base block hlive i hi b hb) }

/-- After a free that succeeds. -/
def afterFree (hip : HipLib D) (s : Traced D) (ptr : Ptr) (r : AllocRange) (block : Block) :
    Traced D where
  session := { s.session with
    space := (s.session.space.removeExact ptr).2
    daemon := { s.session.daemon with
      handles := (s.session.daemon.handles.remove r.handle).2
      device := ((hip.free block.addr s.device).2, s.written) } }
  live := s.live.erase ptr

/-- A free of a live range that HIP agrees to takes the range, the handle and the block away. -/
theorem step_free (h : s.Inv mem) {ptr : Ptr} {r : AllocRange} {block : Block}
    (hr : s.session.space.ranges.lookup ptr = some r) (hbacked : Backed s r block)
    (hrc : (hip.free block.addr s.device).1 = HipLib.hipSuccess) :
    (DeviceCall.free ptr).code hip s = hipSuccess ∧
    (DeviceCall.free ptr).step hip s = afterFree hip s ptr r block := by
  have hfree := @hipFree_freed _ (shadowed hip) _ h.inStep ptr r block.addr (h.nonNull ptr r hr) hr
    hbacked.2.1 hrc
  refine ⟨congrArg Prod.fst hfree, ?_⟩
  simp only [DeviceCall.step, hfree, afterFree]
  rfl

/-- The block at `ptr` is gone. -/
theorem lookup_live_freed {ptr : Ptr} {r : AllocRange} {block : Block} (base : Ptr) :
    (afterFree hip s ptr r block).live.lookup base =
      if base = ptr then none else s.live.lookup base := by
  by_cases hbase : base = ptr
  · subst hbase
    simp [afterFree]
  · simp [afterFree, hbase]

/-- So is its range. -/
theorem lookup_range_freed {ptr : Ptr} {r : AllocRange} {block : Block} (base : Ptr) :
    (afterFree hip s ptr r block).session.space.ranges.lookup base =
      if base = ptr then none else s.session.space.ranges.lookup base :=
  AddressSpace.lookup_removeExact _ _ _

/-- The other allocations keep their handles. -/
theorem Traced.Inv.backed_freed (h : s.Inv mem) {ptr base : Ptr} {r r' : AllocRange}
    {block block' : Block} (hr : s.session.space.ranges.lookup ptr = some r)
    (hr' : s.session.space.ranges.lookup base = some r') (hne : base ≠ ptr)
    (hbacked : Backed s r' block') : Backed (afterFree hip s ptr r block) r' block' := by
  obtain ⟨hsize, hknown, hlt⟩ := hbacked
  refine ⟨hsize, ?_, hlt⟩
  show (s.session.daemon.handles.remove r.handle).2.get r'.handle = _
  rw [HandleTable.get_remove, if_neg fun heq => hne (h.ownHandle base r' ptr r hr' hr heq)]
  exact hknown

/-- A free that leaves the other blocks alone keeps the invariant. -/
theorem Traced.Inv.afterFree (h : s.Inv mem) {ptr : Ptr} {r : AllocRange} {block : Block}
    (hr : s.session.space.ranges.lookup ptr = some r)
    (hothers : ∀ base' block', base' ≠ ptr → s.live.lookup base' = some block' →
      SameBytes mem block' s.device (hip.free block.addr s.device).2) :
    (afterFree hip s ptr r block).Inv mem := by
  -- what is still live was live before, at another base
  have hrange : ∀ {base r'}, (Bridge.afterFree hip s ptr r block).session.space.ranges.lookup base
      = some r' → base ≠ ptr ∧ s.session.space.ranges.lookup base = some r' := by
    intro base r' hr'
    rw [lookup_range_freed] at hr'
    split at hr'
    case isTrue => cases hr'
    case isFalse hne => exact ⟨hne, hr'⟩
  have hlive : ∀ {base block'}, (Bridge.afterFree hip s ptr r block).live.lookup base
      = some block' → base ≠ ptr ∧ s.live.lookup base = some block' := by
    intro base block' hblock
    rw [lookup_live_freed] at hblock
    split at hblock
    case isTrue => cases hblock
    case isFalse hne => exact ⟨hne, hblock⟩
  exact {
    inStep := h.inStep.of_link (by dsimp only [Bridge.afterFree]) (by dsimp only [Bridge.afterFree])
    space := h.space.removeExact ptr
    issued := by
      dsimp only [Bridge.afterFree]
      exact h.issued
    ofRange := by
      intro base r' hr'
      obtain ⟨hne, hr'⟩ := hrange hr'
      obtain ⟨block', hblock, hbacked⟩ := h.ofRange base r' hr'
      simp only [lookup_live_freed]
      exact ⟨block', (if_neg hne).trans hblock, h.backed_freed hr hr' hne hbacked⟩
    ofBlock := by
      intro base block' hblock
      obtain ⟨hne, hblock⟩ := hlive hblock
      obtain ⟨r', hr', hbacked⟩ := h.ofBlock base block' hblock
      simp only [lookup_range_freed]
      exact ⟨r', (if_neg hne).trans hr', h.backed_freed hr hr' hne hbacked⟩
    nonNull := fun base r' hr' => h.nonNull base r' (hrange hr').2
    ownHandle := fun base r' base' r'' hr' hr'' =>
      h.ownHandle base r' base' r'' (hrange hr').2 (hrange hr'').2
    fits := fun base block' hblock => h.fits base block' (hlive hblock).2
    apart := fun base block' base' block'' hblock hblock' =>
      h.apart base block' base' block'' (hlive hblock).2 (hlive hblock').2
    written := by
      intro base block' hblock i hi b hb
      obtain ⟨hne, hblock⟩ := hlive hblock
      exact (hothers base block' hne hblock i hi).trans (h.written base block' hblock i hi b hb) }

end Allocations

/-! ## Runs -/

section Runs

variable {hip : HipLib D} {mem : D → FlatMemory} {s : Traced D}

/-- A copy of either direction. Inside a live allocation it is made in the block behind it; at an
address outside of all it is refused; the invariant is kept even where it runs past an end. -/
theorem copy_correct (hcopies : FlatCopies hip mem) (h : s.Inv mem) {dst src : Ptr} {size : UInt64}
    {kind : Int32} (hpromise : Promise hip mem s (.memcpy dst src size kind)) :
    ((DeviceCall.memcpy dst src size kind).step hip s).Inv mem ∧
      Correct hip mem s (.memcpy dst src size kind) := by
  have hkinds : hipMemcpyDeviceToHost ≠ hipMemcpyHostToDevice := by decide
  have hrefused : ∀ {s' : Traced D}, s' = { s with session := { s.session with
      lastError := Unixlib.hipErrorNotSupported } } → s'.Inv mem ∧ Unchanged mem s s' := by
    rintro s' rfl
    exact ⟨h.of_same h.inStep rfl rfl rfl h.written, rfl, rfl, rfl, rfl⟩
  rcases hpromise with ⟨rfl, hsize⟩ | ⟨rfl, hsize⟩
  · -- to the device: the invariant, a copy inside an allocation, one outside all of them
    refine ⟨?_, fun _ => ⟨fun base block k hat hrange => ?_, fun houtside => ?_⟩,
      fun hkind => absurd hkind.symm hkinds⟩
    · cases hresolve : s.session.space.resolve dst with
      | none =>
        exact (hrefused (step_refused (fun _ => hresolve) fun hkind =>
          absurd hkind.symm hkinds).2).1
      | some found =>
        obtain ⟨handle, k⟩ := found
        obtain ⟨base, r, hat, rfl⟩ := h.space.resolve_eq_some_iff.mp hresolve
        obtain ⟨block, -, hbacked⟩ := h.ofRange base r hat.1
        rw [(step_toDevice hcopies h.inStep hresolve hbacked.2.1 hsize).2]
        exact h.copied hcopies _ _ _
    · obtain ⟨handle, hresolve, hknown⟩ := h.resolve_of_at hat
      obtain ⟨hcode, hstep⟩ := @step_toDevice D hip mem s dst src size handle k block.addr hcopies
        h.inStep hresolve hknown hsize
      refine ⟨hcode, ?_⟩
      rw [hstep]
      exact h.writtenTo hcopies hat.1 (by rw [FlatMemory.length_slice]; exact hrange)
    · obtain ⟨hcode, hstep⟩ := @step_refused D hip s dst src size hipMemcpyHostToDevice
        (fun _ => h.resolve_of_outside houtside) fun hkind => absurd hkind.symm hkinds
      exact ⟨hcode, (hrefused hstep).2⟩
  · -- to the host, the same three
    refine ⟨?_, fun hkind => absurd hkind hkinds,
      fun _ => ⟨fun base block k hat hrange => ?_, fun houtside => ?_⟩⟩
    · cases hresolve : s.session.space.resolve src with
      | none =>
        exact (hrefused (step_refused (fun hkind => absurd hkind hkinds) fun _ => hresolve).2).1
      | some found =>
        obtain ⟨handle, k⟩ := found
        obtain ⟨base, r, hat, rfl⟩ := h.space.resolve_eq_some_iff.mp hresolve
        obtain ⟨block, -, hbacked⟩ := h.ofRange base r hat.1
        rw [(step_toHost hcopies h.inStep hresolve hbacked.2.1 hsize).2]
        exact h.copiedHost hcopies _ _ _ _
    · obtain ⟨handle, hresolve, hknown⟩ := h.resolve_of_at hat
      obtain ⟨hcode, hstep⟩ := @step_toHost D hip mem s dst src size handle k block.addr hcopies
        h.inStep hresolve hknown hsize
      refine ⟨hcode, ?_⟩
      rw [hstep]
      exact h.readFrom hcopies hat.1 hrange
    · obtain ⟨hcode, hstep⟩ := @step_refused D hip s dst src size hipMemcpyDeviceToHost
        (fun hkind => absurd hkind hkinds) fun _ => h.resolve_of_outside houtside
      exact ⟨hcode, (hrefused hstep).2⟩

/-- The base of the next range is outside every allocation. -/
theorem Traced.Inv.outside_nextBase (h : s.Inv mem) : s.Outside s.session.space.nextBase := by
  intro base block k hat
  obtain ⟨r, ⟨hr, hsum, hlt⟩, -, -⟩ := h.at_iff.mp hat
  have hbelow := h.space.below base r hr
  have hpad := AddressSpace.reservedNat_ge r.size
  omega

/-- An allocation that is promised its block. Its address was in no allocation before. -/
theorem malloc_correct (h : s.Inv mem) {size : UInt64}
    (hpromise : Promise hip mem s (.malloc size)) :
    ((DeviceCall.malloc size).step hip s).Inv mem ∧ Correct hip mem s (.malloc size) := by
  obtain ⟨hcode, hptr, hstep⟩ := step_malloc h.inStep hpromise.1
  refine ⟨hstep ▸ h.afterMalloc hpromise, hcode, _, hptr, h.outside_nextBase, ?_⟩
  rw [hstep]
  rfl

/-- A free of a live base, of the null pointer, or of anything else. -/
theorem free_correct (h : s.Inv mem) {ptr : Ptr} (hpromise : Promise hip mem s (.free ptr)) :
    ((DeviceCall.free ptr).step hip s).Inv mem ∧ Correct hip mem s (.free ptr) := by
  cases hlive : s.live.lookup ptr with
  | some block =>
    -- a live base: HIP is promised to free its block and to leave the others alone
    obtain ⟨r, hr, hbacked⟩ := h.ofBlock ptr block hlive
    obtain ⟨hrc, hothers⟩ := hpromise block hlive
    obtain ⟨hcode, hstep⟩ := step_free h hr hbacked hrc
    refine ⟨hstep ▸ h.afterFree hr hothers, fun _ _ => ⟨hcode, ?_⟩, fun hnone => ?_⟩
    · rw [hstep]
      rfl
    · rw [hlive] at hnone
      cases hnone
  | none =>
    have hsame : s.live.erase ptr = s.live := BTreeMap.erase_eq_self hlive
    by_cases hnull : ptr = 0
    · -- the null pointer: success, and nothing is done
      subst hnull
      have hstep : (DeviceCall.free 0).step hip s = s := by
        simp only [DeviceCall.step, hipFree_null, if_true, hsame]
      rw [hstep]
      refine ⟨h, fun block hblock => ?_, fun _ => ⟨?_, ⟨by rw [hstep], by rw [hstep],
        by rw [hstep], by rw [hstep]⟩⟩⟩
      · rw [hlive] at hblock
        cases hblock
      · simp [DeviceCall.code, hipFree_null]
    · -- any other address without a range is refused before the daemon hears of it
      have hfree :=
        @hipFree_unknown _ (shadowed hip) s.session ptr hnull (h.lookup_range_none hlive)
      have hcode : (DeviceCall.free ptr).code hip s = Unixlib.hipErrorNotSupported :=
        congrArg Prod.fst hfree
      have hne : Unixlib.hipErrorNotSupported ≠ hipSuccess := by decide
      have hstep : (DeviceCall.free ptr).step hip s = { s with session := { s.session with
          lastError := Unixlib.hipErrorNotSupported } } := by
        simp only [DeviceCall.step, hfree, setLastError, if_neg hne]
      refine ⟨?_, fun block hblock => ?_, fun _ => ⟨?_, ?_⟩⟩
      · rw [hstep]
        exact h.of_same h.inStep rfl rfl rfl h.written
      · rw [hlive] at hblock
        cases hblock
      · rw [hcode]
        exact iff_of_true hne hnull
      · rw [hstep]
        exact ⟨rfl, rfl, rfl, rfl⟩

/-- **The bridge refines device memory.** In every run whose calls are promised blocks of their
own, successful HIP calls, addresses and frames within the cap, every call is correct: copies
inside a live allocation reach exactly the bytes asked for in the block behind it and read what
was last copied there; and copies and frees of anything else are refused and change nothing, but
for `hipFree(NULL)`, which succeeds and changes nothing. -/
theorem refines_deviceMemory (hip : HipLib D) (mem : D → FlatMemory) (hcopies : FlatCopies hip mem)
    (host : FlatMemory) (device : D) (calls : List DeviceCall)
    (hpromise : Along (DeviceCall.step hip) (Promise hip mem) (Traced.new host device) calls) :
    Along (DeviceCall.step hip) (Correct hip mem) (Traced.new host device) calls := by
  have hcall : ∀ (s : Traced D) call, s.Inv mem → Promise hip mem s call →
      (call.step hip s).Inv mem ∧ Correct hip mem s call := by
    intro s call h hp
    cases call with
    | malloc size => exact malloc_correct h hp
    | free ptr => exact free_correct h hp
    | memcpy dst src size kind => exact copy_correct hcopies h hp
  exact along_of_inv (I := fun s => s.Inv mem) (fun s call h hp => (hcall s call h hp).1)
    (fun s call h hp => (hcall s call h hp).2) (Traced.inv_new mem host device) hpromise

end Runs

/-- The flat device is a flat memory, with a buffer for whatever a frame can hold. -/
theorem flatCopies_flatHip : FlatCopies flatHip FlatDevice.bytes where
  toDevice _ _ _ := ⟨rfl, rfl⟩
  toHost _ _ _ := ⟨rfl, fun _ _ => rfl, rfl⟩
  buffered _ _ hle := canBuffer_flatHip (Nat.le_trans hle (by decide))

/-- An allocation, a copy to its bytes 8 to 11, a copy of them back, a free of an address inside
it, a free. -/
def roundTripCalls : List DeviceCall :=
  [.malloc 64, .memcpy 0x700000000008 0x1000 4 1, .memcpy 0x2000 0x700000000008 4 2,
    .free 0x700000000010, .free 0x700000000000]

/-- Every call of that run is promised what it needs, the free inside the allocation included. -/
theorem roundTripCalls_correct :
    Along (DeviceCall.step flatHip) (Correct flatHip FlatDevice.bytes)
      (Traced.new (fun _ => 7) .new) roundTripCalls := by
  refine refines_deviceMemory flatHip FlatDevice.bytes flatCopies_flatHip (fun _ => 7) .new
    roundTripCalls ⟨?_, ?_, ?_, ?_, ?_, trivial⟩
  · exact ⟨rfl, by decide +kernel, fun base block hlive => (by cases hlive), by decide +kernel⟩
  · exact Or.inl ⟨rfl, by decide⟩
  · exact Or.inr ⟨rfl, by decide⟩
  · exact fun block _ => ⟨rfl, fun base' block' _ _ i _ => rfl⟩
  · exact fun block _ => ⟨rfl, fun base' block' _ _ i _ => rfl⟩

/-- `hipFree(NULL)` is a free of an address outside every allocation, and returns
`HIP_SUCCESS`. -/
theorem freeNull_succeeds :
    ¬ ∀ (hip : HipLib FlatDevice) (mem : FlatDevice → FlatMemory) (host : FlatMemory)
        (device : FlatDevice) (calls : List DeviceCall), FlatCopies hip mem →
      Along (DeviceCall.step hip) (Promise hip mem) (Traced.new host device) calls →
      Along (DeviceCall.step hip) (fun s call => ∀ ptr, call = .free ptr → s.Outside ptr →
        call.code hip s ≠ hipSuccess) (Traced.new host device) calls := by
  intro h
  have hfree := h flatHip FlatDevice.bytes (fun _ => 0) .new [.free 0] flatCopies_flatHip
    ⟨fun block _ => ⟨rfl, fun base' block' _ _ i _ => rfl⟩, trivial⟩
  exact hfree.1 0 rfl (fun base block k hat => by cases hat.1) rfl

end HipBridge.Bridge
