import HipBridge.Daemon.ErrorAtomicity
import HipBridge.Daemon.FlatDevice
import HipBridge.Daemon.Watched
import HipBridge.Lib.Run
import HipBridge.Stub.Memory

/-!
# The client, the daemon and the allocator agree on what is allocated

* **`tracked`** — a HIP library that also remembers the blocks allocated and not freed.
* **`Agree`** — the ranges of the game's process carry the handles of the daemon's table, each
  once, and the table holds the blocks allocated and not freed, each once.
* **`Keeps`** — the condition on a call: no block is allocated whose handle is dropped, and no
  range is given up whose block is not freed.
* **`agreement_iff`** — a run of `hipMalloc` and `hipFree` calls agrees after every call
  exactly when every call meets the condition.
-/

namespace HipBridge.Bridge

open Lib Daemon Stub

variable {D : Type}

/-- The library, with the list of the blocks allocated and not freed next to the device. -/
def tracked (hip : HipLib D) : HipLib (D × List Ptr) :=
  watched hip (fun _ rc ptr blocks => if rc = HipLib.hipSuccess then ptr :: blocks else blocks)
    (fun ptr rc blocks => if rc = HipLib.hipSuccess then blocks.erase ptr else blocks)
    (fun _ _ _ blocks => blocks)

/-- The blocks allocated and not freed. -/
def outstanding (s : Session (D × List Ptr)) : List Ptr := s.daemon.device.2

/-- The handles stored in `AddressSpace.ranges`. -/
def rangeHandles (space : AddressSpace) : List UInt64 :=
  space.ranges.entries.map fun range => range.2.handle

/-- The ids live in a handle table. -/
def liveIds (t : HandleTable Ptr) : List UInt64 := t.entries.entries.map Sigma.fst

/-- The values of a handle table. -/
def liveBlocks (t : HandleTable Ptr) : List Ptr := t.entries.entries.map Sigma.snd

/-- The two tables and the allocator agree. The ids of a table are all different, so each id is
the handle of exactly one range. -/
structure Agree (s : Session (D × List Ptr)) : Prop where
  handles : (rangeHandles s.space).Perm (liveIds s.daemon.handles)
  blocks : (liveBlocks s.daemon.handles).Perm (outstanding s)

inductive MemoryCall
  | malloc (ptrIsNull : Bool) (size : UInt64)
  | free (ptr : Ptr)
deriving DecidableEq

/-- The session after a call. -/
def MemoryCall.exec (hip : HipLib D) (s : Session D) : MemoryCall → Session D
  | .malloc ptrIsNull size => (hipMalloc hip s ptrIsNull size).2.2
  | .free ptr => (hipFree hip s ptr).2

/-- An allocation that succeeds has an output pointer to put the range in, and a base and a
handle that are not in use; and the block of a range that is freed can be freed. -/
def Keeps (hip : HipLib D) (s : Session (D × List Ptr)) : MemoryCall → Prop
  | .malloc ptrIsNull size =>
    (hip.malloc size s.daemon.device.1).1 = HipLib.hipSuccess →
      ptrIsNull = false ∧ s.space.ranges.lookup s.space.nextBase = none ∧
        s.daemon.handles.get s.daemon.handles.nextId = none
  | .free ptr => ∀ r block, ptr ≠ 0 → s.space.ranges.lookup ptr = some r →
      s.daemon.handles.get r.handle = some block →
      (hip.free block s.daemon.device.1).1 = HipLib.hipSuccess

/-! ## One call -/

section Steps

variable {hip : HipLib D} {s s' : Session (D × List Ptr)}

theorem mem_rangeHandles {space : AddressSpace} {ptr : Ptr} {r : AllocRange}
    (h : space.ranges.lookup ptr = some r) : r.handle ∈ rangeHandles space :=
  List.mem_map_of_mem (f := fun range : Sigma fun _ : UInt64 => AllocRange => range.2.handle)
    (AList.mem_lookup_iff.mp h)

/-- Under agreement the handle of a range is live. -/
theorem Agree.known (h : Agree s) {ptr : Ptr} {r : AllocRange}
    (hlookup : s.space.ranges.lookup ptr = some r) :
    ∃ block, s.daemon.handles.get r.handle = some block := by
  have hlive : r.handle ∈ liveIds s.daemon.handles :=
    h.handles.subset (mem_rangeHandles hlookup)
  exact Option.isSome_iff_exists.mp (AList.lookup_isSome.mpr (AList.mem_keys.mpr hlive))

/-- A call that changes neither table nor the blocks. -/
theorem Agree.of_same (h : Agree s) (hranges : s'.space.ranges = s.space.ranges)
    (hhandles : s'.daemon.handles = s.daemon.handles) (hblocks : outstanding s' = outstanding s) :
    Agree s' where
  handles := by rw [rangeHandles, hranges, hhandles]; exact h.handles
  blocks := by rw [hhandles, hblocks]; exact h.blocks

/-- A new range, a new id and a new block. -/
theorem Agree.allocated (h : Agree s) {block : Ptr} {size : UInt64}
    (hbase : s.space.ranges.lookup s.space.nextBase = none)
    (hid : s.daemon.handles.get s.daemon.handles.nextId = none)
    (hspace : s'.space = (s.space.allocate s.daemon.handles.nextId size).2)
    (hhandles : s'.daemon.handles = (s.daemon.handles.insert block).2)
    (hblocks : outstanding s' = block :: outstanding s) : Agree s' where
  handles := by
    rw [rangeHandles, liveIds, hspace, hhandles, AddressSpace.allocate,
      BTreeMap.entries_insert_new _ hbase]
    show (s.daemon.handles.nextId :: rangeHandles s.space).Perm
      ((s.daemon.handles.entries.insert s.daemon.handles.nextId block).entries.map Sigma.fst)
    rw [BTreeMap.entries_insert_new _ hid]
    exact h.handles.cons _
  blocks := by
    rw [liveBlocks, hhandles, hblocks]
    show ((s.daemon.handles.entries.insert s.daemon.handles.nextId block).entries.map
      Sigma.snd).Perm _
    rw [BTreeMap.entries_insert_new _ hid]
    exact h.blocks.cons _

/-- One range, its id and its block less. -/
theorem Agree.freed (h : Agree s) {ptr block : Ptr} {r : AllocRange}
    (hlookup : s.space.ranges.lookup ptr = some r)
    (hknown : s.daemon.handles.get r.handle = some block)
    (hspace : s'.space = (s.space.removeExact ptr).2)
    (hhandles : s'.daemon.handles = (s.daemon.handles.remove r.handle).2)
    (hblocks : outstanding s' = (outstanding s).erase block) : Agree s' := by
  have hranges : (rangeHandles s.space).Perm (r.handle :: rangeHandles s'.space) := by
    rw [hspace]
    exact (BTreeMap.entries_perm_erase hlookup).map _
  have hids : (liveIds s.daemon.handles).Perm (r.handle :: liveIds s'.daemon.handles) := by
    rw [hhandles]
    exact (BTreeMap.entries_perm_erase hknown).map _
  have hvalues : (liveBlocks s.daemon.handles).Perm (block :: liveBlocks s'.daemon.handles) := by
    rw [hhandles]
    exact (BTreeMap.entries_perm_erase hknown).map _
  have hmem : block ∈ outstanding s :=
    h.blocks.subset (hvalues.symm.subset List.mem_cons_self)
  constructor
  · exact ((hranges.symm.trans h.handles).trans hids).cons_inv
  · rw [hblocks]
    exact ((hvalues.symm.trans h.blocks).trans (List.perm_cons_erase hmem)).cons_inv

/-- As many ranges as ids, and as many ids as blocks. -/
theorem Agree.lengths (h : Agree s) :
    s.space.ranges.entries.length = (outstanding s).length ∧
      s.daemon.handles.entries.entries.length = (outstanding s).length := by
  have hhandles := h.handles.length_eq
  have hblocks := h.blocks.length_eq
  simp only [rangeHandles, liveIds, liveBlocks, List.length_map] at hhandles hblocks
  exact ⟨hhandles.trans hblocks, hblocks⟩

theorem shortTexts_tracked (h : ShortTexts hip) : ShortTexts (tracked hip) :=
  shortTexts_watched h _ _ _

/-- An allocation keeps the agreement exactly when it fails, or finds room for all it adds. -/
theorem agree_malloc_iff (htexts : ShortTexts hip) (hstep : s.InStep) (h : Agree s)
    (ptrIsNull : Bool) (size : UInt64) :
    (MemoryCall.exec (tracked hip) s (.malloc ptrIsNull size)).InStep ∧
      (Agree (MemoryCall.exec (tracked hip) s (.malloc ptrIsNull size)) ↔
        Keeps hip s (.malloc ptrIsNull size)) := by
  by_cases hrc : (hip.malloc size s.daemon.device.1).1 = HipLib.hipSuccess
  · have hblocks : ((tracked hip).malloc size s.daemon.device).2.2.2
        = (hip.malloc size s.daemon.device.1).2.1 :: outstanding s := if_pos hrc
    rw [MemoryCall.exec, hipMalloc_allocated hstep ptrIsNull (by exact hrc)]
    refine ⟨hstep, fun hagree _ => ?_, fun hkeeps => ?_⟩
    · -- one block more, so there is one range and one id more
      obtain ⟨hranges, hids⟩ := hagree.lengths
      obtain ⟨hranges', hids'⟩ := h.lengths
      simp only [outstanding, hblocks, List.length_cons] at hranges hids hranges' hids'
      have hbase : ptrIsNull = false := by
        cases ptrIsNull with
        | false => rfl
        | true =>
          simp only [if_true] at hranges
          omega
      subst hbase
      refine ⟨rfl, ?_, ?_⟩
      · cases hlive : s.space.ranges.lookup s.space.nextBase with
        | none => rfl
        | some r =>
          have hlen := BTreeMap.length_entries_insert_live
            (⟨s.daemon.handles.nextId, size⟩ : AllocRange) hlive
          simp only [AddressSpace.allocate, Bool.false_eq_true, if_false] at hranges
          omega
      · cases hlive : s.daemon.handles.get s.daemon.handles.nextId with
        | none => rfl
        | some block =>
          have hlen := BTreeMap.length_entries_insert_live
            (hip.malloc size s.daemon.device.1).2.1 hlive
          have hinsert : (s.daemon.handles.entries.insert s.daemon.handles.nextId
              (hip.malloc size s.daemon.device.1).2.1).entries.length
              = s.daemon.device.2.length + 1 := hids
          omega
    · obtain ⟨rfl, hbase, hid⟩ := hkeeps hrc
      exact h.allocated hbase hid rfl rfl hblocks
  · have hblocks : ((tracked hip).malloc size s.daemon.device).2.2.2 = outstanding s := if_neg hrc
    rw [MemoryCall.exec, hipMalloc_rejected hstep (shortTexts_tracked htexts) ptrIsNull
      (by exact hrc)]
    exact ⟨hstep, fun _ hsucceeds => absurd hsucceeds hrc, fun _ => h.of_same rfl rfl hblocks⟩

/-- A free keeps the agreement exactly when it is of nothing, or the block is freed. -/
theorem agree_free_iff (htexts : ShortTexts hip) (hstep : s.InStep) (h : Agree s)
    (ptr : Ptr) :
    (MemoryCall.exec (tracked hip) s (.free ptr)).InStep ∧
      (Agree (MemoryCall.exec (tracked hip) s (.free ptr)) ↔ Keeps hip s (.free ptr)) := by
  rw [MemoryCall.exec]
  by_cases hnull : ptr = 0
  · subst hnull
    rw [hipFree_null]
    exact ⟨hstep, iff_of_true h fun _ _ hne => absurd rfl hne⟩
  cases hlookup : s.space.ranges.lookup ptr with
  | none =>
    rw [hipFree_unknown hnull hlookup]
    refine ⟨hstep, iff_of_true (h.of_same rfl rfl rfl) fun r block _ hlookup' => ?_⟩
    rw [hlookup] at hlookup'
    cases hlookup'
  | some r =>
    obtain ⟨block, hknown⟩ := h.known hlookup
    have hkeeps : Keeps hip s (.free ptr) ↔
        (hip.free block s.daemon.device.1).1 = HipLib.hipSuccess := by
      refine ⟨fun hkeeps => hkeeps r block hnull hlookup hknown, fun hrc r' block' _ hr hb => ?_⟩
      rw [hlookup] at hr
      cases hr
      rw [hknown] at hb
      cases hb
      exact hrc
    by_cases hrc : (hip.free block s.daemon.device.1).1 = HipLib.hipSuccess
    · have hblocks : ((tracked hip).free block s.daemon.device).2.2
          = (outstanding s).erase block := if_pos hrc
      rw [hipFree_freed hstep hnull hlookup hknown (by exact hrc)]
      exact ⟨hstep, iff_of_true (h.freed hlookup hknown rfl rfl hblocks) (hkeeps.mpr hrc)⟩
    · have hblocks : ((tracked hip).free block s.daemon.device).2.2 = outstanding s := if_neg hrc
      rw [hipFree_failed hstep hnull hlookup hknown (shortTexts_tracked htexts) (by exact hrc)]
      refine ⟨hstep, iff_of_false (fun hagree => ?_) fun hk => hrc (hkeeps.mp hk)⟩
      -- the block stays, so there is a range less than there are blocks
      have hafter := hagree.lengths.1
      have hbefore := h.lengths.1
      have hrange := (BTreeMap.entries_perm_erase hlookup).length_eq
      simp only [outstanding, hblocks, List.length_cons] at hafter hbefore hrange
      simp only [AddressSpace.removeExact] at hafter
      omega

end Steps

/-- **When the client, the daemon and the allocator agree.** After every call of a run exactly
when every allocation that succeeds finds room for all it adds, and every free of a live base
frees its block. -/
theorem agreement_iff (hip : HipLib D) (htexts : ShortTexts hip) (host : FlatMemory) (device : D)
    (calls : List MemoryCall) :
    Always (MemoryCall.exec (tracked hip)) Agree (Session.new host (device, [])) calls ↔
      Along (MemoryCall.exec (tracked hip)) (Keeps hip) (Session.new host (device, [])) calls := by
  have hexec : ∀ (s : Session (D × List Ptr)) call, s.InStep ∧ Agree s →
      (MemoryCall.exec (tracked hip) s call).InStep ∧
        (Agree (MemoryCall.exec (tracked hip) s call) ↔ Keeps hip s call) := by
    rintro s call ⟨hstep, hagree⟩
    cases call with
    | malloc ptrIsNull size => exact agree_malloc_iff htexts hstep hagree ptrIsNull size
    | free ptr => exact agree_free_iff htexts hstep hagree ptr
  refine always_iff_along (I := fun s => s.InStep ∧ Agree s) (E := fun _ _ => True)
    (fun s h => h.2) (fun s call h _ hkeeps => ?_) (fun s call h _ hbreaks => ?_)
    ⟨⟨rfl, rfl⟩, .nil, .nil⟩ (along_of_forall (fun _ _ => trivial) calls)
  · exact ⟨(hexec s call h).1, (hexec s call h).2.mpr hkeeps⟩
  · exact fun hagree => hbreaks ((hexec s call h).2.mp hagree)

/-- Two allocations, a free of an address inside the first, a free of the first. -/
def twoBlocks : List MemoryCall :=
  [.malloc false 4096, .malloc false 16, .free 0x700000000010, .free 0x700000000000]

theorem twoBlocks_agree :
    Always (MemoryCall.exec (tracked flatHip)) Agree (Session.new (fun _ => 0) (.new, []))
      twoBlocks := by
  refine (agreement_iff flatHip shortTexts_flatHip (fun _ => 0) .new twoBlocks).mpr
    ⟨fun _ => ?_, fun _ => ?_, fun r block _ _ _ => rfl, fun r block _ _ _ => rfl, trivial⟩
  · exact ⟨rfl, by decide +kernel, by decide +kernel⟩
  · exact ⟨rfl, by decide +kernel, by decide +kernel⟩

/-- A block is allocated and its `hipFree` fails: the range and the id are gone, the block is
not. -/
theorem failedFree_not_agree :
    ¬ ∀ (hip : HipLib Unit) (host : FlatMemory) (calls : List MemoryCall), ShortTexts hip →
      Always (MemoryCall.exec (tracked hip)) Agree (Session.new host ((), [])) calls := by
  intro h
  have htext : (utf8Bytes "invalid argument").length ≤ 65536 := by decide
  have hagree := h brokenFree (fun _ => 0) [.malloc false 4096, .free 0x700000000000]
    ⟨fun _ => htext, Nat.zero_le _⟩
  have hlength := hagree.last.blocks.length_eq
  revert hlength
  decide +kernel

end HipBridge.Bridge
