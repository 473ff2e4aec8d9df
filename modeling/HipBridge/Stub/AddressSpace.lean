import HipBridge.Lib.BTreeMap
import HipBridge.Lib.CString

/-!
# The fake address space of `hip-stub`

A device pointer of the game is an address in a range this process made up for a handle.

* **`allocate`**, **`resolve`**, **`removeExact`** — the operations of `AddressSpace`. The
  crate is built in release mode, so the address arithmetic wraps.
* **`Inv`** — live ranges lie apart, and below the next base. `allocate` keeps it as long as
  the addresses given out so far stay below `2 ^ 64`.
* **`resolve_eq_some_iff`** — under `Inv`, looking only at the greatest base not above an
  address finds the one range that owns it.
-/

namespace HipBridge.Stub

open Lib

structure AllocRange where
  handle : UInt64
  size : UInt64
deriving DecidableEq, Repr

structure AddressSpace where
  nextBase : UInt64
  ranges : BTreeMap AllocRange

namespace AddressSpace

def new : AddressSpace := ⟨0x0000700000000000, ∅⟩

def nextMultipleOf (x m : UInt64) : UInt64 := if x % m = 0 then x else x + (m - x % m)

/-- The addresses a range of `size` bytes takes up, padding included. -/
def reserved (size : UInt64) : UInt64 := nextMultipleOf (max size 1) 4096 + 4096

def allocate (s : AddressSpace) (handle size : UInt64) : UInt64 × AddressSpace :=
  (s.nextBase,
    { nextBase := s.nextBase + reserved size
      ranges := s.ranges.insert s.nextBase ⟨handle, size⟩ })

def resolve (s : AddressSpace) (ptr : UInt64) : Option (UInt64 × UInt64) :=
  match s.ranges.floor? ptr with
  | none => none
  | some (base, r) =>
    let offset := ptr - base
    if offset < max r.size 1 then some (r.handle, offset) else none

def removeExact (s : AddressSpace) (ptr : UInt64) : Option UInt64 × AddressSpace :=
  ((s.ranges.lookup ptr).map AllocRange.handle, { s with ranges := s.ranges.erase ptr })

/-! ## The address arithmetic in exact numbers -/

/-- `reserved` without wrap-around. -/
def reservedNat (size : UInt64) : Nat := (max size.toNat 1 + 4095) / 4096 * 4096 + 4096

theorem toNat_max (x y : UInt64) : (max x y).toNat = max x.toNat y.toNat := by
  rw [UInt64.max_def]
  split
  case isTrue hle => rw [Nat.max_eq_right (UInt64.le_iff_toNat_le.mp hle)]
  case isFalse hle =>
    have hlt : ¬ x.toNat ≤ y.toNat := fun h => hle (UInt64.le_iff_toNat_le.mpr h)
    rw [Nat.max_eq_left (by omega)]

theorem reservedNat_ge (size : UInt64) : max size.toNat 1 + 4096 ≤ reservedNat size := by
  unfold reservedNat
  omega

theorem reservedNat_min (size : UInt64) : 8192 ≤ reservedNat size := by
  unfold reservedNat
  omega

theorem toNat_reserved {size : UInt64} (h : reservedNat size < 2 ^ 64) :
    (reserved size).toNat = reservedNat size := by
  have hmax : (max size 1).toNat = max size.toNat 1 := toNat_max size 1
  have hmod : (max size 1 % 4096).toNat = max size.toNat 1 % 4096 := by
    rw [UInt64.toNat_mod, hmax]
    rfl
  unfold reservedNat at h ⊢
  unfold reserved nextMultipleOf
  split
  case isTrue hzero =>
    have hzero' : max size.toNat 1 % 4096 = 0 := by
      rw [← hmod, hzero]
      rfl
    rw [UInt64.toNat_add, hmax]
    simp only [UInt64.reduceToNat]
    omega
  case isFalse hne =>
    have hne' : max size.toNat 1 % 4096 ≠ 0 := fun hzero => hne (UInt64.toNat_inj.mp (by
      rw [hmod, hzero]
      rfl))
    have hsub : (4096 - max size 1 % 4096 : UInt64).toNat = 4096 - max size.toNat 1 % 4096 := by
      rw [UInt64.toNat_sub_of_le, hmod]
      · rfl
      · rw [UInt64.le_iff_toNat_le, hmod]
        simp only [UInt64.reduceToNat]
        omega
    rw [UInt64.toNat_add, UInt64.toNat_add, hsub, hmax]
    simp only [UInt64.reduceToNat]
    omega

/-! ## Live ranges -/

/-- Live ranges, with their padding, lie apart and below the next base. -/
structure Inv (s : AddressSpace) : Prop where
  below : ∀ base r, s.ranges.lookup base = some r →
    base.toNat + reservedNat r.size ≤ s.nextBase.toNat
  apart : ∀ base r base' r', s.ranges.lookup base = some r → s.ranges.lookup base' = some r' →
    base.toNat < base'.toNat → base.toNat + reservedNat r.size ≤ base'.toNat

theorem inv_new : new.Inv where
  below := fun base r h => by cases h
  apart := fun base r base' r' h => by cases h

theorem toNat_nextBase_allocate {s : AddressSpace} {handle size : UInt64}
    (hroom : s.nextBase.toNat + reservedNat size < 2 ^ 64) :
    (s.allocate handle size).2.nextBase.toNat = s.nextBase.toNat + reservedNat size := by
  have hsize := @toNat_reserved size (by omega)
  rw [allocate, UInt64.toNat_add, hsize, Nat.mod_eq_of_lt hroom]

theorem lookup_allocate (s : AddressSpace) (handle size base : UInt64) :
    (s.allocate handle size).2.ranges.lookup base =
      if base = s.nextBase then some ⟨handle, size⟩ else s.ranges.lookup base := by
  by_cases hbase : base = s.nextBase
  · subst hbase
    simp [allocate]
  · simp [allocate, hbase]

theorem lookup_removeExact (s : AddressSpace) (ptr base : UInt64) :
    (s.removeExact ptr).2.ranges.lookup base =
      if base = ptr then none else s.ranges.lookup base := by
  by_cases hbase : base = ptr
  · subst hbase
    simp [removeExact]
  · simp [removeExact, hbase]

theorem removeExact_unknown {s : AddressSpace} {ptr : UInt64} (h : s.ranges.lookup ptr = none) :
    s.removeExact ptr = (none, s) := by
  simp only [removeExact, h, Option.map_none, BTreeMap.erase_eq_self h]

/-- A fresh range is put above all the others. -/
theorem Inv.allocate {s : AddressSpace} (h : s.Inv) {handle size : UInt64}
    (hroom : s.nextBase.toNat + reservedNat size < 2 ^ 64) : (s.allocate handle size).2.Inv := by
  have hnext := @toNat_nextBase_allocate s handle size hroom
  constructor
  · intro base r hr
    rw [lookup_allocate] at hr
    rw [hnext]
    split at hr
    case isTrue hbase =>
      cases hr
      rw [hbase]
    case isFalse => exact Nat.le_add_right_of_le (h.below base r hr)
  · intro base r base' r' hr hr' hlt
    rw [lookup_allocate] at hr hr'
    split at hr
    case isTrue hbase =>
      split at hr'
      case isTrue hbase' =>
        rw [hbase, hbase'] at hlt
        omega
      case isFalse =>
        -- every old range ends below the new base
        have hbelow := h.below base' r' hr'
        rw [hbase] at hlt
        omega
    case isFalse =>
      split at hr'
      case isTrue hbase' =>
        rw [hbase']
        exact h.below base r hr
      case isFalse => exact h.apart base r base' r' hr hr' hlt

theorem Inv.removeExact {s : AddressSpace} (h : s.Inv) (ptr : UInt64) :
    (s.removeExact ptr).2.Inv := by
  have hlive : ∀ {base r}, (s.removeExact ptr).2.ranges.lookup base = some r →
      s.ranges.lookup base = some r := by
    intro base r hr
    rw [lookup_removeExact] at hr
    split at hr
    · cases hr
    · exact hr
  exact ⟨fun base r hr => h.below base r (hlive hr),
    fun base r base' r' hr hr' => h.apart base r base' r' (hlive hr) (hlive hr')⟩

/-! ## Resolving an address -/

/-- An address is at offset `k` of a live range, of which a byte is counted even if it has
none. -/
def At (s : AddressSpace) (ptr base : UInt64) (r : AllocRange) (k : UInt64) : Prop :=
  s.ranges.lookup base = some r ∧ base.toNat + k.toNat = ptr.toNat ∧ k.toNat < max r.size.toNat 1

/-- `resolve` looks at the greatest base not above the address only. -/
theorem resolve_eq_some_iff_floor {s : AddressSpace} {ptr handle k : UInt64} :
    s.resolve ptr = some (handle, k) ↔
      ∃ base r, s.ranges.floor? ptr = some (base, r) ∧ ptr - base < max r.size 1 ∧
        r.handle = handle ∧ ptr - base = k := by
  unfold resolve
  cases hfloor : s.ranges.floor? ptr with
  | none => simp
  | some found =>
    obtain ⟨base, r⟩ := found
    by_cases hlt : ptr - base < max r.size 1 <;> simp [hlt]

/-- What `resolve` finds owns the address; that it is the greatest base below does not matter for
that. -/
theorem at_of_resolve {s : AddressSpace} {ptr handle k : UInt64}
    (h : s.resolve ptr = some (handle, k)) : ∃ base r, s.At ptr base r k ∧ r.handle = handle := by
  obtain ⟨base, r, hfloor, hlt, hhandle, rfl⟩ := resolve_eq_some_iff_floor.mp h
  obtain ⟨hlookup, hle, -⟩ := BTreeMap.floor?_eq_some_iff.mp hfloor
  rw [UInt64.lt_iff_toNat_lt, toNat_max] at hlt
  rw [UInt64.le_iff_toNat_le] at hle
  refine ⟨base, r, ⟨hlookup, ?_, hlt⟩, hhandle⟩
  rw [UInt64.toNat_sub_of_le _ _ (UInt64.le_iff_toNat_le.mpr hle)]
  omega

/-- Looking only at the greatest base not above the address finds the range that owns it. -/
theorem Inv.resolve_eq_some_iff {s : AddressSpace} (h : s.Inv) {ptr handle k : UInt64} :
    s.resolve ptr = some (handle, k) ↔ ∃ base r, s.At ptr base r k ∧ r.handle = handle := by
  refine ⟨at_of_resolve, ?_⟩
  rintro ⟨base, r, ⟨hlookup, hsum, hlt⟩, rfl⟩
  have hle : base ≤ ptr := UInt64.le_iff_toNat_le.mpr (by omega)
  have hfloor : s.ranges.floor? ptr = some (base, r) := by
    refine BTreeMap.floor?_eq_some_iff.mpr ⟨hlookup, hle, fun base' hbase' hle' => ?_⟩
    obtain ⟨r', hr'⟩ := Option.isSome_iff_exists.mp (AList.lookup_isSome.mpr hbase')
    rw [UInt64.le_iff_toNat_le] at hle' ⊢
    -- a base in between would have to lie above the padding
    by_contra hgt
    have hapart := h.apart base r base' r' hlookup hr' (by omega)
    have hpad := reservedNat_ge r.size
    omega
  have hk : ptr - base = k := by
    apply UInt64.toNat_inj.mp
    rw [UInt64.toNat_sub_of_le _ _ hle]
    omega
  have hlt' : ptr - base < max r.size 1 := by
    rw [hk, UInt64.lt_iff_toNat_lt, toNat_max]
    exact hlt
  exact resolve_eq_some_iff_floor.mpr ⟨base, r, hfloor, hlt', rfl, hk⟩

theorem Inv.resolve_eq_none_iff {s : AddressSpace} (h : s.Inv) {ptr : UInt64} :
    s.resolve ptr = none ↔ ∀ base r k, ¬ s.At ptr base r k := by
  constructor
  · intro hnone base r k hat
    have hsome := h.resolve_eq_some_iff.mpr ⟨base, r, hat, rfl⟩
    rw [hnone] at hsome
    cases hsome
  · intro hnot
    rw [← Option.not_isSome_iff_eq_none, Option.isSome_iff_exists]
    rintro ⟨⟨handle, k⟩, hsome⟩
    obtain ⟨base, r, hat, -⟩ := h.resolve_eq_some_iff.mp hsome
    exact hnot base r k hat

end AddressSpace

end HipBridge.Stub
