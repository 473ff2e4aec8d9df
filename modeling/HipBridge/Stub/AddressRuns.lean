import HipBridge.Lib.Run
import HipBridge.Stub.AddressSpace

/-!
# Runs of the fake address space

The operations that change an `AddressSpace`, in any order and with any arguments.

* **`SpaceOp`**, **`spaceStep`** — the operations.
* **`Room`** — the addresses given out so far stay below `2 ^ 64`. Such runs keep `Inv`
  (`inv_run`).
* **`run_recycle`** — without room: a range that is given out and taken back over and over moves
  the next base on, round the end of the address space.
-/

namespace HipBridge.Stub

open Lib

inductive SpaceOp
  | allocate (handle size : UInt64)
  | removeExact (ptr : UInt64)

def spaceStep (space : AddressSpace) : SpaceOp → AddressSpace
  | .allocate handle size => (space.allocate handle size).2
  | .removeExact ptr => (space.removeExact ptr).2

/-- The next base and the addresses reserved from it on stay below `2 ^ 64`. -/
def Room (space : AddressSpace) : SpaceOp → Prop
  | .allocate _ size => space.nextBase.toNat + AddressSpace.reservedNat size < 2 ^ 64
  | .removeExact _ => True

instance (space : AddressSpace) : ∀ op, Decidable (Room space op)
  | .allocate _ _ => inferInstanceAs (Decidable (_ < _))
  | .removeExact _ => inferInstanceAs (Decidable True)

theorem inv_spaceStep {space : AddressSpace} {op : SpaceOp} (h : space.Inv)
    (hroom : Room space op) : (spaceStep space op).Inv := by
  cases op with
  | allocate handle size => exact h.allocate hroom
  | removeExact ptr => exact h.removeExact ptr

/-- Every address space that is reached with room keeps its ranges apart. -/
theorem inv_run {ops : List SpaceOp} (hroom : Along spaceStep Room .new ops) :
    (run spaceStep .new ops).Inv :=
  (always_of_along (fun _ _ => inv_spaceStep) AddressSpace.inv_new hroom).last

/-! ## Round the end of the address space -/

/-- A range of `size` bytes is given out and taken back `n` times, the first time at `base`. -/
def recycle (handle size : UInt64) : (base : UInt64) → (n : Nat) → List SpaceOp
  | _, 0 => []
  | base, n + 1 =>
    .allocate handle size :: .removeExact base ::
      recycle handle size (base + AddressSpace.reserved size) n

theorem spaceStep_removeExact_allocate {space : AddressSpace} (handle size : UInt64)
    (hfree : space.ranges.lookup space.nextBase = none) :
    spaceStep (spaceStep space (.allocate handle size)) (.removeExact space.nextBase)
      = { space with nextBase := space.nextBase + AddressSpace.reserved size } := by
  simp only [spaceStep, AddressSpace.allocate, AddressSpace.removeExact,
    BTreeMap.erase_insert_new _ hfree]

/-- The base of the `i`th range, counted from `base`. -/
def nthBase (base size : UInt64) (i : Nat) : UInt64 :=
  base + UInt64.ofNat i * AddressSpace.reserved size

theorem nthBase_zero (base size : UInt64) : nthBase base size 0 = base := by
  show base + 0 * AddressSpace.reserved size = base
  rw [UInt64.zero_mul, UInt64.add_zero]

/-- The ranges after the first are counted from the base behind it. -/
theorem nthBase_succ (base size : UInt64) (i : Nat) :
    nthBase (base + AddressSpace.reserved size) size i = nthBase base size (i + 1) := by
  unfold nthBase
  rw [UInt64.ofNat_add, UInt64.add_mul, UInt64.add_assoc,
    UInt64.add_comm (AddressSpace.reserved size)]
  show _ = base + (_ + 1 * AddressSpace.reserved size)
  rw [UInt64.one_mul]

/-- Only the next base moves, if it never meets a live range. Induction on the number of
ranges. -/
theorem run_recycle {space : AddressSpace} (handle : UInt64) {size base : UInt64} {n : Nat}
    (hbase : space.nextBase = base)
    (hfree : ∀ i < n, space.ranges.lookup (nthBase base size i) = none) :
    run spaceStep space (recycle handle size base n)
      = { space with nextBase := nthBase base size n } := by
  induction n generalizing space base with
  | zero =>
    rw [nthBase_zero, ← hbase]
    rfl
  | succ n ih =>
    subst hbase
    have hfirst := hfree 0 (Nat.succ_pos n)
    rw [nthBase_zero] at hfirst
    rw [recycle, run_cons, run_cons, spaceStep_removeExact_allocate handle size hfirst,
      ← nthBase_succ]
    refine @ih { space with nextBase := space.nextBase + AddressSpace.reserved size } _ rfl ?_
    intro i hi
    rw [nthBase_succ]
    exact hfree (i + 1) (Nat.succ_lt_succ hi)

end HipBridge.Stub
