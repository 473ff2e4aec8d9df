import Mathlib.Data.List.Find
import HipBridge.Stub.AddressRuns

/-!
# The fake address space as its callers see it

What a caller can tell about an `AddressSpace`: the bases it was ever given, and the ranges among
them that it has not given back.

* **`Ledger`** — the address space beside the caller's own record, which is a plain list.
  **`search`** is the naive way to resolve an address: scan the whole list.
* **`LedgerInv`** — the map holds exactly the ranges of the list, which lie one behind the other.
  `inv_ledgerStep` keeps it through every operation that has room.
* **`totalReserved`** — the addresses a run reserves. Below `2 ^ 64` every operation of the run
  has room (`inv_ledgerRun`).
-/

namespace HipBridge.Stub

open Lib

/-! ## The caller's record -/

/-- A range that was given out at `base`. -/
structure HeldRange where
  base : UInt64
  range : AllocRange
deriving DecidableEq

namespace HeldRange

/-- One behind the last address of the range; a range without bytes has one address. -/
def stop (h : HeldRange) : Nat := h.base.toNat + max h.range.size.toNat 1

def Covers (h : HeldRange) (p : UInt64) : Prop := h.base.toNat ≤ p.toNat ∧ p.toNat < h.stop

instance (h : HeldRange) (p : UInt64) : Decidable (h.Covers p) :=
  inferInstanceAs (Decidable (_ ∧ _))

end HeldRange

/-- The address is looked for in every range that is held. -/
def search (held : List HeldRange) (p : UInt64) : Option (UInt64 × UInt64) :=
  (held.find? fun h => h.Covers p).map fun h => (h.range.handle, p - h.base)

/-- The address space, and beside it every base it returned and the ranges not given back. -/
structure Ledger where
  space : AddressSpace
  given : List UInt64
  held : List HeldRange

def Ledger.new : Ledger := ⟨.new, [], []⟩

def ledgerStep (s : Ledger) : SpaceOp → Ledger
  | .allocate handle size =>
    let (base, space) := s.space.allocate handle size
    { space, given := s.given ++ [base], held := s.held ++ [⟨base, handle, size⟩] }
  | .removeExact ptr =>
    { s with
      space := (s.space.removeExact ptr).2
      held := s.held.filter fun h => h.base ≠ ptr }

theorem space_ledgerStep (s : Ledger) (op : SpaceOp) :
    (ledgerStep s op).space = spaceStep s.space op := by
  cases op with
  | allocate handle size => rfl
  | removeExact ptr => rfl

/-- The addresses that the allocations of a run reserve, in exact numbers. -/
def totalReserved : List SpaceOp → Nat
  | [] => 0
  | .allocate _ size :: ops => AddressSpace.reservedNat size + totalReserved ops
  | .removeExact _ :: ops => totalReserved ops

/-! ## The map holds what the caller holds -/

/-- The map and the caller's list hold the same ranges, in the order of their bases and a page
apart, and the next base is above every base that was given out. -/
structure LedgerInv (s : Ledger) : Prop where
  inv : s.space.Inv
  lookup_iff : ∀ h : HeldRange, s.space.ranges.lookup h.base = some h.range ↔ h ∈ s.held
  apart : s.held.Pairwise fun a b => a.stop + 4096 ≤ b.base.toNat
  below : ∀ base ∈ s.given, base.toNat < s.space.nextBase.toNat
  fresh : s.given.Nodup

theorem ledgerInv_new : LedgerInv .new where
  inv := AddressSpace.inv_new
  lookup_iff := by
    intro h
    constructor
    · intro hlookup
      cases hlookup
    · intro hmem
      cases hmem
  apart := List.Pairwise.nil
  below := fun base hmem => by cases hmem
  fresh := List.nodup_nil

/-- A range that is held ends a page below the next base. -/
theorem LedgerInv.stop_le {s : Ledger} (h : LedgerInv s) {held : HeldRange} (hmem : held ∈ s.held) :
    held.stop + 4096 ≤ s.space.nextBase.toNat := by
  have hbelow := h.inv.below held.base held.range ((h.lookup_iff held).mpr hmem)
  have hpad := AddressSpace.reservedNat_ge held.range.size
  unfold HeldRange.stop
  omega

theorem LedgerInv.allocate {s : Ledger} (h : LedgerInv s) {handle size : UInt64}
    (hroom : s.space.nextBase.toNat + AddressSpace.reservedNat size < 2 ^ 64) :
    LedgerInv (ledgerStep s (.allocate handle size)) := by
  have hnext := @AddressSpace.toNat_nextBase_allocate s.space handle size hroom
  have hmin := AddressSpace.reservedNat_min size
  -- the next base is the base of no range yet
  have hfree : s.space.ranges.lookup s.space.nextBase = none := by
    cases hlookup : s.space.ranges.lookup s.space.nextBase with
    | none => rfl
    | some r =>
      have hbelow := h.inv.below s.space.nextBase r hlookup
      have hpos := AddressSpace.reservedNat_min r.size
      omega
  constructor
  case inv => exact h.inv.allocate hroom
  case lookup_iff =>
    intro held
    show (s.space.allocate handle size).2.ranges.lookup held.base = some held.range
      ↔ held ∈ s.held ++ [⟨s.space.nextBase, handle, size⟩]
    rw [AddressSpace.lookup_allocate, List.mem_append, List.mem_singleton, ← h.lookup_iff]
    split
    case isTrue hbase =>
      obtain ⟨base, range⟩ := held
      subst hbase
      rw [hfree]
      simp [eq_comm]
    case isFalse hbase =>
      refine ⟨Or.inl, fun hor => hor.elim id fun hnew => ?_⟩
      exact absurd (congrArg HeldRange.base hnew) hbase
  case apart =>
    refine List.pairwise_append.mpr ⟨h.apart, List.pairwise_singleton _ _, ?_⟩
    intro a ha b hb
    rw [List.mem_singleton.mp hb]
    exact h.stop_le ha
  case below =>
    intro base hmem
    show base.toNat < (s.space.allocate handle size).2.nextBase.toNat
    rw [hnext]
    rcases List.mem_append.mp hmem with hold | hnew
    · have hlt := h.below base hold
      omega
    · rw [List.mem_singleton.mp hnew]
      show s.space.nextBase.toNat < _
      omega
  case fresh =>
    refine List.nodup_append.mpr ⟨h.fresh, List.nodup_singleton _, ?_⟩
    intro base hold base' hnew heq
    have hlt := h.below base hold
    rw [heq, List.mem_singleton.mp hnew] at hlt
    exact Nat.lt_irrefl _ hlt

theorem LedgerInv.removeExact {s : Ledger} (h : LedgerInv s) (ptr : UInt64) :
    LedgerInv (ledgerStep s (.removeExact ptr)) where
  inv := h.inv.removeExact ptr
  lookup_iff := by
    intro held
    show (s.space.removeExact ptr).2.ranges.lookup held.base = some held.range
      ↔ held ∈ s.held.filter fun held => held.base ≠ ptr
    rw [AddressSpace.lookup_removeExact, List.mem_filter, ← h.lookup_iff]
    by_cases hbase : held.base = ptr <;> simp [hbase]
  apart := h.apart.filter _
  below := h.below
  fresh := h.fresh

theorem inv_ledgerStep {s : Ledger} {op : SpaceOp} (h : LedgerInv s) (hroom : Room s.space op) :
    LedgerInv (ledgerStep s op) := by
  cases op with
  | allocate handle size => exact h.allocate hroom
  | removeExact ptr => exact h.removeExact ptr

/-! ## Runs that stay below the end of the address space -/

/-- What a run reserves fits above the next base: so does its first operation, and what is left of
the run behind it. -/
theorem room_of_totalReserved {s : Ledger} {op : SpaceOp} {ops : List SpaceOp}
    (hroom : s.space.nextBase.toNat + totalReserved (op :: ops) < 2 ^ 64) :
    Room s.space op ∧
      (ledgerStep s op).space.nextBase.toNat + totalReserved ops < 2 ^ 64 := by
  cases op with
  | allocate handle size =>
    unfold totalReserved at hroom
    have hfirst : s.space.nextBase.toNat + AddressSpace.reservedNat size < 2 ^ 64 := by omega
    refine ⟨hfirst, ?_⟩
    rw [space_ledgerStep, spaceStep, AddressSpace.toNat_nextBase_allocate hfirst]
    omega
  | removeExact ptr => exact ⟨trivial, hroom⟩

/-- Induction on the run: what is still to be reserved fits above the next base. -/
theorem inv_ledgerRun {s : Ledger} (h : LedgerInv s) {ops : List SpaceOp}
    (hroom : s.space.nextBase.toNat + totalReserved ops < 2 ^ 64) :
    LedgerInv (run ledgerStep s ops) := by
  induction ops generalizing s with
  | nil => exact h
  | cons op ops ih =>
    obtain ⟨hfirst, hrest⟩ := room_of_totalReserved hroom
    rw [run_cons]
    exact ih (inv_ledgerStep h hfirst) hrest

theorem ledgerInv_of_totalReserved {ops : List SpaceOp}
    (hroom : 0x0000700000000000 + totalReserved ops < 2 ^ 64) :
    LedgerInv (run ledgerStep .new ops) := by
  have hbase : Ledger.new.space.nextBase.toNat = 0x0000700000000000 := by decide
  apply inv_ledgerRun ledgerInv_new
  rw [hbase]
  exact hroom

/-! ## Resolving against the caller's list -/

theorem LedgerInv.at_iff {s : Ledger} (h : LedgerInv s) (p : UInt64) (held : HeldRange)
    (k : UInt64) :
    s.space.At p held.base held.range k ↔ held ∈ s.held ∧ held.Covers p ∧ k = p - held.base := by
  unfold AddressSpace.At HeldRange.Covers HeldRange.stop
  rw [h.lookup_iff]
  refine and_congr_right fun _ => ?_
  constructor
  · intro hat
    have hle : held.base ≤ p := UInt64.le_iff_toNat_le.mpr (by omega)
    refine ⟨by omega, UInt64.toNat_inj.mp ?_⟩
    rw [UInt64.toNat_sub_of_le _ _ hle]
    omega
  · intro hat
    obtain ⟨⟨hle, hlt⟩, rfl⟩ := hat
    rw [UInt64.toNat_sub_of_le _ _ (UInt64.le_iff_toNat_le.mpr hle)]
    omega

/-- The lookup of the greatest base not above the address agrees with the scan. -/
theorem LedgerInv.resolve_eq_search {s : Ledger} (h : LedgerInv s) (p : UInt64) :
    s.space.resolve p = search s.held p := by
  unfold search
  cases hfind : s.held.find? fun held => held.Covers p with
  | none =>
    apply h.inv.resolve_eq_none_iff.mpr
    intro base r k hat
    obtain ⟨hmem, hcovers, -⟩ := (h.at_iff p ⟨base, r⟩ k).mp hat
    have hnot := List.find?_eq_none.mp hfind _ hmem
    exact hnot (decide_eq_true hcovers)
  | some held =>
    apply h.inv.resolve_eq_some_iff.mpr
    have hmem := List.mem_of_find?_eq_some hfind
    have hcovers := List.find?_some hfind
    rw [decide_eq_true_eq] at hcovers
    exact ⟨held.base, held.range, (h.at_iff p held _).mpr ⟨hmem, hcovers, rfl⟩, rfl⟩

theorem LedgerInv.resolve_of_covers {s : Ledger} (h : LedgerInv s) {held : HeldRange}
    (hmem : held ∈ s.held) {p : UInt64} (hcovers : held.Covers p) :
    s.space.resolve p = some (held.range.handle, p - held.base) := by
  apply h.inv.resolve_eq_some_iff.mpr
  exact ⟨held.base, held.range, (h.at_iff p held _).mpr ⟨hmem, hcovers, rfl⟩, rfl⟩

theorem LedgerInv.resolve_of_not_covers {s : Ledger} (h : LedgerInv s) {p : UInt64}
    (hnone : ∀ held ∈ s.held, ¬ held.Covers p) : s.space.resolve p = none := by
  apply h.inv.resolve_eq_none_iff.mpr
  intro base r k hat
  obtain ⟨hmem, hcovers, -⟩ := (h.at_iff p ⟨base, r⟩ k).mp hat
  exact hnone _ hmem hcovers

/-- The page behind a range belongs to no range. -/
theorem LedgerInv.unmapped_behind {s : Ledger} (h : LedgerInv s) {held : HeldRange}
    (hmem : held ∈ s.held) {p : UInt64} (hge : held.stop ≤ p.toNat)
    (hlt : p.toNat < held.stop + 4096) : s.space.resolve p = none := by
  apply h.resolve_of_not_covers
  intro other hother hcovers
  have hlookup := (h.lookup_iff held).mpr hmem
  have hlookup' := (h.lookup_iff other).mpr hother
  have hpad := AddressSpace.reservedNat_ge held.range.size
  have hpad' := AddressSpace.reservedNat_ge other.range.size
  unfold HeldRange.stop at hge hlt
  unfold HeldRange.Covers HeldRange.stop at hcovers
  rcases Nat.lt_trichotomy held.base.toNat other.base.toNat with hbase | hbase | hbase
  · have hapart := h.inv.apart _ _ _ _ hlookup hlookup' hbase
    omega
  · rw [UInt64.toNat_inj.mp hbase, hlookup'] at hlookup
    have hsize : other.range.size = held.range.size := by rw [Option.some.inj hlookup]
    rw [hsize] at hcovers
    omega
  · have hapart := h.inv.apart _ _ _ _ hlookup' hlookup hbase
    omega

/-! ## Taking a range back -/

theorem LedgerInv.removeExact_eq_some_iff {s : Ledger} (h : LedgerInv s) (p handle : UInt64) :
    (s.space.removeExact p).1 = some handle
      ↔ ∃ held ∈ s.held, held.base = p ∧ held.range.handle = handle := by
  show (s.space.ranges.lookup p).map AllocRange.handle = some handle ↔ _
  rw [Option.map_eq_some_iff]
  constructor
  · intro hlookup
    obtain ⟨r, hr, hhandle⟩ := hlookup
    exact ⟨⟨p, r⟩, (h.lookup_iff ⟨p, r⟩).mp hr, rfl, hhandle⟩
  · intro hheld
    obtain ⟨held, hmem, rfl, hhandle⟩ := hheld
    exact ⟨held.range, (h.lookup_iff held).mpr hmem, hhandle⟩

/-- Only addresses of the range that is taken back resolve differently afterwards. -/
theorem LedgerInv.resolve_removeExact {s : Ledger} (h : LedgerInv s) (p q : UInt64)
    (hq : ∀ held ∈ s.held, held.base = p → ¬ held.Covers q) :
    (s.space.removeExact p).2.resolve q = s.space.resolve q := by
  have hafter := (h.removeExact p).resolve_eq_search q
  have hstep : (ledgerStep s (.removeExact p)).space = (s.space.removeExact p).2 := rfl
  rw [← hstep, hafter, h.resolve_eq_search q]
  have hfind : (s.held.filter fun held => held.base ≠ p).find? (fun held => held.Covers q)
      = s.held.find? fun held => held.Covers q := by
    rw [List.find?_filter]
    apply List.find?_congr
    intro held hmem
    by_cases hbase : held.base = p
    · simp [hbase, hq held hmem hbase]
    · simp [hbase]
  unfold search
  show ((s.held.filter fun held => held.base ≠ p).find? fun held => held.Covers q).map _ = _
  rw [hfind]

/-- **The fake address space is exact.** As long as the addresses a run reserves stay below
`2 ^ 64`: no base is given out twice; the ranges that are held lie in the order they were given
out, with a page that belongs to none behind each; an address resolves as the scan of all of them
says, to the range that covers it if there is one; and exactly the bases that are held can be taken
back, which no address outside the range notices. -/
theorem addressSpace_exact (ops : List SpaceOp)
    (hroom : 0x0000700000000000 + totalReserved ops < 2 ^ 64) :
    let s := run ledgerStep .new ops
    s.given.Nodup ∧
    s.held.Pairwise (fun a b => a.stop + 4096 ≤ b.base.toNat) ∧
    (∀ held ∈ s.held, ∀ p : UInt64, held.stop ≤ p.toNat → p.toNat < held.stop + 4096 →
      s.space.resolve p = none) ∧
    (∀ p, s.space.resolve p = search s.held p) ∧
    (∀ held ∈ s.held, ∀ p, held.Covers p →
      s.space.resolve p = some (held.range.handle, p - held.base)) ∧
    (∀ p, (∀ held ∈ s.held, ¬ held.Covers p) → s.space.resolve p = none) ∧
    (∀ p handle, (s.space.removeExact p).1 = some handle ↔
      ∃ held ∈ s.held, held.base = p ∧ held.range.handle = handle) ∧
    (∀ p q, (∀ held ∈ s.held, held.base = p → ¬ held.Covers q) →
      (s.space.removeExact p).2.resolve q = s.space.resolve q) := by
  intro s
  have h : LedgerInv s := ledgerInv_of_totalReserved hroom
  refine ⟨h.fresh, h.apart, ?_, h.resolve_eq_search, ?_, ?_, h.removeExact_eq_some_iff, ?_⟩
  · intro held hmem p hge hlt
    exact h.unmapped_behind hmem hge hlt
  · intro held hmem p hcovers
    exact h.resolve_of_covers hmem hcovers
  · intro p hnone
    exact h.resolve_of_not_covers hnone
  · intro p q hq
    exact h.resolve_removeExact p q hq

/-- A range without bytes behind the hole of one that was taken back. -/
theorem addressSpace_exact_zero_size :
    let s := run ledgerStep .new
      [.allocate 1 100, .removeExact 0x0000700000000000, .allocate 3 0]
    s.given.Nodup ∧ s.space.resolve 0x0000700000002000 = some (3, 0) :=
  have hexact := addressSpace_exact
    [.allocate 1 100, .removeExact 0x0000700000000000, .allocate 3 0] (by decide)
  ⟨hexact.1, hexact.2.2.2.2.1 ⟨0x0000700000002000, 3, 0⟩ (by decide) _ (by decide)⟩

end HipBridge.Stub
