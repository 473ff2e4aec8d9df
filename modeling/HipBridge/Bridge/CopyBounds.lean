import HipBridge.Bridge.FrameSizes
import HipBridge.Stub.AddressRuns

/-!
# Copies and the size of the allocation

The daemon keeps no sizes: that a copy ends inside its allocation could only be checked by
`hip-stub`, which recorded the size in the range the device pointer resolves in.

* **`memcpySent`** — the request that leaves the process, and `memcpyForward_not_sent` that a
  call without one is refused.
* **`InsideAllocation`** — the bytes a request names are bytes of the allocation.
* **`RunsPast`** — the copy starts in a range and ends behind its recorded size.
* **`copyInside_iff`** — nothing else than the first byte is checked: the copy stays inside
  exactly when it is not sent at all or does not run past.
-/

namespace HipBridge.Bridge

open Lib Protocol Daemon Stub
open Unixlib (hipSuccess hipErrorNotSupported)

variable {D : Type}

/-- The device pointer of a copy. -/
def devicePtr (dst src : Ptr) (kind : Int32) : Ptr :=
  if kind = hipMemcpyHostToDevice then dst else src

/-- The request of a copy that leaves the process: `call_bridge` sends none without a
connection. -/
def memcpySent (s : Session D) (dst src : Ptr) (size : UInt64) (kind : Int32) : Option Request :=
  if s.connected then memcpyRequest s dst src size kind else none

/-- The handle, the offset and the length a copy request names. -/
def copyExtent : Request → Option (UInt64 × UInt64 × Nat)
  | .memcpyH2D handle offset data => some (handle, offset, data.length)
  | .memcpyD2H handle offset len => some (handle, offset, len.toNat)
  | _ => none

/-- `handle` stands for the allocation that has `p` at `offset`, and the `len` bytes from there on
are within the size recorded for it. -/
def InsideAllocation (space : AddressSpace) (p handle offset : UInt64) (len : Nat) : Prop :=
  ∃ r, space.ranges.lookup (p - offset) = some r ∧ r.handle = handle ∧
    offset.toNat + len ≤ r.size.toNat

/-- The range that holds `p`, the one with the greatest base not above it, ends before `size`
bytes from `p` on do. -/
def RunsPast (space : AddressSpace) (p size : UInt64) : Prop :=
  ∃ base r, space.ranges.floor? p = some (base, r) ∧ p - base < max r.size 1 ∧
    r.size.toNat < (p - base).toNat + size.toNat

/-- What is sent stays inside, and a copy that would not is refused by both entry points. -/
def CopyInside (hip : HipLib D) (s : Session D) (dst src : Ptr) (size : UInt64) (kind : Int32) :
    Prop :=
  (∀ req handle offset len, memcpySent s dst src size kind = some req →
    copyExtent req = some (handle, offset, len) →
    InsideAllocation s.space (devicePtr dst src kind) handle offset len) ∧
  (RunsPast s.space (devicePtr dst src kind) size →
    memcpySent s dst src size kind = none ∧
    hipMemcpy hip s dst src size kind = setLastError s hipErrorNotSupported ∧
    ∀ stream, hipMemcpyAsync hip s dst src size kind stream = setLastError s hipErrorNotSupported)

/-! ## What is sent -/

/-- A copy in one of the two directions sends the range its device pointer resolves in, the offset
and its size. -/
theorem memcpySent_iff {s : Session D} {dst src : Ptr} {size : UInt64} {kind : Int32}
    {handle offset : UInt64} {len : Nat} :
    (∃ req, memcpySent s dst src size kind = some req ∧
        copyExtent req = some (handle, offset, len)) ↔
      s.connected = true ∧ (kind = hipMemcpyHostToDevice ∨ kind = hipMemcpyDeviceToHost) ∧
        s.space.resolve (devicePtr dst src kind) = some (handle, offset) ∧ len = size.toNat := by
  have hkinds : hipMemcpyDeviceToHost ≠ hipMemcpyHostToDevice := by decide
  unfold memcpySent memcpyRequest devicePtr
  cases s.connected with
  | false => simp
  | true =>
    by_cases hto : kind = hipMemcpyHostToDevice
    · cases hresolve : s.space.resolve dst with
      | none => simp [hto, hresolve]
      | some found =>
        obtain ⟨handle', offset'⟩ := found
        simp [hto, hresolve, copyExtent, eq_comm, and_assoc]
    · by_cases hfrom : kind = hipMemcpyDeviceToHost
      · cases hresolve : s.space.resolve src with
        | none => simp [hfrom, hkinds, hresolve]
        | some found =>
          obtain ⟨handle', offset'⟩ := found
          simp [hfrom, hkinds, hresolve, copyExtent, eq_comm, and_assoc]
      · simp [hto, hfrom]

/-- A call that sends nothing is refused. -/
theorem memcpyForward_not_sent (hip : HipLib D) {s : Session D} {dst src : Ptr} {size : UInt64}
    {kind : Int32} (hsent : memcpySent s dst src size kind = none) :
    memcpyForward hip s dst src size kind = setLastError s hipErrorNotSupported := by
  unfold memcpySent memcpyRequest at hsent
  unfold memcpyForward
  cases hconn : s.connected with
  | false =>
    -- without a connection `call_bridge` fails before it touches the session
    have hlost : ∀ req, callBridge hip s req = (.error "hip-bridge-daemon not connected", s) := by
      intro req
      simp [callBridge, hconn]
    split
    · cases s.space.resolve dst <;> simp [hlost]
    · split
      · cases s.space.resolve src <;> simp [hlost]
      · rfl
  | true =>
    simp only [hconn, if_true] at hsent
    split at hsent
    case isTrue hto =>
      rw [if_pos hto, Option.map_eq_none_iff.mp hsent]
    case isFalse hto =>
      rw [if_neg hto]
      split at hsent
      case isTrue hfrom => rw [if_pos hfrom, Option.map_eq_none_iff.mp hsent]
      case isFalse hfrom => rw [if_neg hfrom]

/-! ## When a copy stays inside -/

/-- The range a pointer resolves in is the one that has it at the offset. -/
theorem insideAllocation_iff {space : AddressSpace} {p size handle offset : UInt64}
    (hresolve : space.resolve p = some (handle, offset)) :
    InsideAllocation space p handle offset size.toNat ↔ ¬ RunsPast space p size := by
  obtain ⟨base, r, hfloor, hlt, rfl, rfl⟩ := AddressSpace.resolve_eq_some_iff_floor.mp hresolve
  have hlookup := (BTreeMap.floor?_eq_some_iff.mp hfloor).1
  have hbase : p - (p - base) = base := by
    rw [UInt64.sub_eq_add_neg p (p - base), UInt64.neg_sub, UInt64.add_comm, UInt64.sub_add_cancel]
  unfold InsideAllocation RunsPast
  rw [hbase]
  constructor
  · intro hinside hpast
    obtain ⟨r', hlookup', -, hle⟩ := hinside
    obtain ⟨base', r'', hfloor', -, hgt⟩ := hpast
    rw [hfloor] at hfloor'
    rw [hlookup] at hlookup'
    cases hfloor'
    cases hlookup'
    omega
  · intro hnot
    refine ⟨r, hlookup, rfl, ?_⟩
    by_contra hgt
    exact hnot ⟨base, r, hfloor, hlt, by omega⟩

/-- **Only the first byte of a copy is checked.** A copy stays inside its allocation exactly when
there is no connection, its kind is another one, or the range its device pointer is in does not
end before the copy does. -/
theorem copyInside_iff (hip : HipLib D) (s : Session D) (dst src : Ptr) (size : UInt64)
    (kind : Int32) :
    CopyInside hip s dst src size kind ↔
      (s.connected = true → kind = hipMemcpyHostToDevice ∨ kind = hipMemcpyDeviceToHost →
        ¬ RunsPast s.space (devicePtr dst src kind) size) := by
  unfold CopyInside
  constructor
  · intro h hconn hkind hpast
    obtain ⟨hinside, hrefused⟩ := h
    obtain ⟨base, r, hfloor, hlt, -⟩ := id hpast
    have hresolve := AddressSpace.resolve_eq_some_iff_floor.mpr ⟨base, r, hfloor, hlt, rfl, rfl⟩
    obtain ⟨req, hsent, -⟩ := memcpySent_iff.mpr ⟨hconn, hkind, hresolve, rfl⟩
    rw [(hrefused hpast).1] at hsent
    cases hsent
  · intro h
    constructor
    · intro req handle offset len hsent hextent
      obtain ⟨hconn, hkind, hresolve, rfl⟩ := memcpySent_iff.mp ⟨req, hsent, hextent⟩
      exact (insideAllocation_iff hresolve).mpr (h hconn hkind)
    · intro hpast
      have hnone : memcpySent s dst src size kind = none := by
        unfold memcpySent memcpyRequest
        split
        case isTrue hconn =>
          have hkind : ¬ (kind = hipMemcpyHostToDevice ∨ kind = hipMemcpyDeviceToHost) :=
            fun hkind => h hconn hkind hpast
          rw [not_or] at hkind
          rw [if_neg hkind.1, if_neg hkind.2]
        case isFalse => rfl
      have hforward := memcpyForward_not_sent hip hnone
      exact ⟨hnone, hforward, fun _ => hforward⟩

/-- A game that has allocated sixteen bytes. -/
def shortGame : Session FlatDevice := (hipMalloc flatHip (.new (fun _ => 7) .new) false 16).2.2

theorem shortGame_eq :
    shortGame = { Session.new (fun _ => 7) FlatDevice.new with
      space := (AddressSpace.new.allocate 1 16).2
      daemon := { DaemonState.new FlatDevice.new with
        handles := (HandleTable.new.insert 0x10000).2
        device := ⟨0x10010, fun _ => 0⟩ } } := by
  rw [shortGame, hipMalloc_allocated ⟨rfl, rfl⟩ false rfl]
  rfl

/-- Seventeen bytes are copied into an allocation of sixteen: the request is sent, the copy
succeeds, and the byte behind the allocation has changed. -/
theorem copy_runs_past :
    (∃ ops, shortGame.space = run spaceStep .new ops) ∧
    (hipMemcpy flatHip shortGame 0x700000000000 0 17 hipMemcpyHostToDevice).1 = hipSuccess ∧
    (hipMemcpy flatHip shortGame 0x700000000000 0 17 hipMemcpyHostToDevice).2.daemon.device.bytes
      0x10010 = 7 ∧
    ¬ CopyInside flatHip shortGame 0x700000000000 0 17 hipMemcpyHostToDevice := by
  have hresolve : shortGame.space.resolve 0x700000000000 = some (1, 0) := by
    rw [shortGame_eq]
    decide
  have hknown : shortGame.daemon.handles.get 1 = some 0x10000 := by
    rw [shortGame_eq]
    rfl
  have hstep : shortGame.InStep := by
    rw [shortGame_eq]
    exact ⟨rfl, rfl⟩
  have hcopy := @memcpyForward_toDevice FlatDevice flatHip shortGame hstep
    0x700000000000 0 17 1 0 0x10000 hknown hresolve (by decide) rfl
  have hspace : shortGame.space = run spaceStep .new [.allocate 1 16] := by
    rw [shortGame_eq]
    rfl
  refine ⟨⟨_, hspace⟩, ?_, ?_, ?_⟩
  · rw [hipMemcpy, hcopy]
  · rw [hipMemcpy, hcopy, shortGame_eq]
    decide
  · intro hinside
    obtain ⟨req, hsent, hextent⟩ := (@memcpySent_iff FlatDevice shortGame 0x700000000000 0 17
      hipMemcpyHostToDevice 1 0 17).mpr ⟨hstep.1, Or.inl rfl, hresolve, rfl⟩
    obtain ⟨r, hlookup, -, hle⟩ := hinside.1 req 1 0 17 hsent hextent
    have hrange : shortGame.space.ranges.lookup ((0x700000000000 : Ptr) - 0) = some ⟨1, 16⟩ := by
      rw [shortGame_eq]
      decide
    have hr := hrange.symm.trans hlookup
    cases hr
    exact absurd hle (by decide)

end HipBridge.Bridge
