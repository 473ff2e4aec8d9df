import HipBridge.Lib.CString
import HipBridge.Lib.SlotTable
import Mathlib.Algebra.BigOperators.Group.List.Basic

/-!
# The allocation cap (`alloc_cap.c`)

The running total of outstanding GPU allocation that `unix_malloc` compares with
`DLSSNR_VRAM_CAP_BYTES`, and the fixed table of tracked allocations behind it. Pointers are
64-bit words, `0` being `NULL`; sizes and totals are `unsigned long long`, so additions wrap.
-/

namespace HipBridge.Unixlib

open Lib

abbrev maxTrackedAllocs : Nat := 4096

/-- `struct alloc_entry`. -/
structure AllocEntry where
  ptr : Ptr
  size : UInt64
deriving DecidableEq, Repr

/-- The statics of `alloc_cap.c`: `allocs`, `alloc_count` and `total_bytes`. -/
structure AllocCap where
  allocs : SlotTable AllocEntry maxTrackedAllocs
  totalBytes : UInt64
deriving DecidableEq

/-- The statics at load time. -/
def AllocCap.init : AllocCap := ⟨.empty ⟨0, 0⟩, 0⟩

def allocCapReset (s : AllocCap) : AllocCap := { s with allocs := s.allocs.clear, totalBytes := 0 }

def allocCapWouldExceed (currentTotal requestedSize capBytes : UInt64) : Bool :=
  if capBytes = 0 then false else currentTotal + requestedSize > capBytes

/-- `alloc_cap_record`: `1` when the allocation is now tracked. -/
def allocCapRecord (s : AllocCap) (ptr : Ptr) (size : UInt64) : Int32 × AllocCap :=
  if h : ptr = 0 ∨ maxTrackedAllocs ≤ s.allocs.count then (0, s)
  else
    (1, { allocs := s.allocs.push ⟨ptr, size⟩ (by omega)
          totalBytes := s.totalBytes + size })

/-- `alloc_cap_release`: the size taken off the total, the last tracked entry moving into
the freed slot. -/
def allocCapRelease (s : AllocCap) (ptr : Ptr) : UInt64 × AllocCap :=
  if ptr = 0 then (0, s)
  else
    match h : s.allocs.findIdx? (·.ptr = ptr) with
    | none => (0, s)
    | some i =>
      let hi := SlotTable.findIdx?_lt h
      let size := (s.allocs.entry i hi).size
      (size, { allocs := s.allocs.swapRemove i hi, totalBytes := s.totalBytes - size })

def allocCapTotal (s : AllocCap) : UInt64 := s.totalBytes

/-! ## What the table holds -/

/-- The tracked allocations, in slot order. -/
def AllocCap.entries (s : AllocCap) : List AllocEntry := s.allocs.live

@[simp] theorem AllocCap.entries_init : AllocCap.init.entries = [] := rfl

@[simp] theorem AllocCap.length_entries (s : AllocCap) :
    s.entries.length = s.allocs.count := s.allocs.length_live

/-- Everything `alloc_cap_record` can do: refuse and change nothing, or append the entry. -/
theorem allocCapRecord_cases (s : AllocCap) (ptr : Ptr) (size : UInt64) :
    ((ptr = 0 ∨ s.entries.length = maxTrackedAllocs) ∧ allocCapRecord s ptr size = (0, s)) ∨
    (ptr ≠ 0 ∧ s.entries.length < maxTrackedAllocs ∧
      ∃ s', allocCapRecord s ptr size = (1, s') ∧ s'.entries = s.entries ++ [⟨ptr, size⟩] ∧
        s'.totalBytes = s.totalBytes + size) := by
  have hle := s.allocs.count_le
  unfold allocCapRecord
  split
  case isTrue h =>
    refine Or.inl ⟨h.imp_right fun hfull => ?_, rfl⟩
    rw [AllocCap.length_entries]
    exact Nat.le_antisymm hle hfull
  case isFalse h =>
    have hptr : ptr ≠ 0 := fun hp => h (Or.inl hp)
    refine Or.inr ⟨hptr, ?_, _, rfl, ?_, rfl⟩
    · rw [AllocCap.length_entries]
      omega
    · simp [AllocCap.entries]

/-- `alloc_cap_release` takes the first entry of the pointer out. -/
theorem allocCapRelease_first {s : AllocCap} {ptr : Ptr} {e : AllocEntry} (hptr : ptr ≠ 0)
    (hfirst : s.entries.find? (·.ptr = ptr) = some e) :
    ∃ s', allocCapRelease s ptr = (e.size, s') ∧ s.entries.Perm (e :: s'.entries) ∧
      s'.totalBytes = s.totalBytes - e.size := by
  unfold allocCapRelease
  rw [if_neg hptr]
  rw [AllocCap.entries, List.find?_eq_bind_findIdx?_getElem?, ← SlotTable.findIdx?_eq] at hfirst
  split
  case h_1 hnone =>
    rw [hnone] at hfirst
    cases hfirst
  case h_2 i hsome =>
    have hi : i < s.allocs.count := SlotTable.findIdx?_lt hsome
    have hlt : i < s.allocs.live.length := by simpa using hi
    -- the slot read by the loop is the live entry of that index
    have hentry : s.allocs.live[i] = e := by
      rw [hsome, Option.bind_some, List.getElem?_eq_getElem hlt] at hfirst
      exact Option.some.inj hfirst
    obtain rfl : s.allocs.entry i hi = e := (s.allocs.live_getElem hi hlt).symm.trans hentry
    have hperm : s.allocs.live.Perm (s.allocs.live[i] :: s.allocs.live.eraseIdx i) :=
      (List.getElem_cons_eraseIdx_perm hlt).symm
    rw [hentry] at hperm
    exact ⟨_, rfl, hperm.trans ((s.allocs.live_swapRemove hi).symm.cons _), rfl⟩

/-- It does nothing for `NULL` and for a pointer that is not tracked. -/
theorem allocCapRelease_unknown {s : AllocCap} {ptr : Ptr}
    (h : ptr = 0 ∨ s.entries.find? (·.ptr = ptr) = none) : allocCapRelease s ptr = (0, s) := by
  unfold allocCapRelease
  split
  case isTrue => rfl
  case isFalse hptr =>
    have hnone := h.resolve_left hptr
    rw [AllocCap.entries, List.find?_eq_none] at hnone
    split
    case h_1 => rfl
    case h_2 i hsome =>
      rw [SlotTable.findIdx?_eq, List.findIdx?_eq_some_iff_getElem] at hsome
      obtain ⟨hi, hmatch, -⟩ := hsome
      exact absurd hmatch (hnone _ (List.getElem_mem hi))

/-- Everything `alloc_cap_release` can do: take one tracked entry of `ptr` out, or find none
and change nothing. -/
theorem allocCapRelease_cases (s : AllocCap) (ptr : Ptr) :
    (ptr ≠ 0 ∧ ∃ size s', allocCapRelease s ptr = (size, s') ∧
      s.entries.Perm (⟨ptr, size⟩ :: s'.entries) ∧
      s'.totalBytes = s.totalBytes - size) ∨
    ((ptr = 0 ∨ ∀ e ∈ s.entries, e.ptr ≠ ptr) ∧ allocCapRelease s ptr = (0, s)) := by
  by_cases hptr : ptr = 0
  · exact Or.inr ⟨Or.inl hptr, allocCapRelease_unknown (Or.inl hptr)⟩
  cases hfind : s.entries.find? (·.ptr = ptr) with
  | none =>
    refine Or.inr ⟨Or.inr fun e he => ?_, allocCapRelease_unknown (Or.inr hfind)⟩
    simpa using List.find?_eq_none.mp hfind e he
  | some e =>
    obtain ⟨s', hrelease, hperm, htotal⟩ := allocCapRelease_first hptr hfind
    have he : e = ⟨ptr, e.size⟩ := by
      have hmatch : e.ptr = ptr := by simpa using List.find?_some hfind
      rw [← hmatch]
    rw [he] at hperm
    exact Or.inl ⟨hptr, e.size, s', hrelease, hperm, htotal⟩

/-- The exact sum of a list of tracked sizes. -/
def sumSizes (entries : List AllocEntry) : Nat := (entries.map (·.size.toNat)).sum

@[simp] theorem sumSizes_nil : sumSizes [] = 0 := rfl

@[simp] theorem sumSizes_append (xs ys : List AllocEntry) :
    sumSizes (xs ++ ys) = sumSizes xs + sumSizes ys := by
  simp [sumSizes]

@[simp] theorem sumSizes_cons (e : AllocEntry) (es : List AllocEntry) :
    sumSizes (e :: es) = e.size.toNat + sumSizes es := by
  simp [sumSizes]

theorem sumSizes_perm {xs ys : List AllocEntry} (h : xs.Perm ys) : sumSizes xs = sumSizes ys :=
  (h.map _).sum_eq

section ExactTotal

variable {s s' : AllocCap} {ptr : Ptr} {size : UInt64}
  (hexact : s.totalBytes.toNat = sumSizes s.entries)
include hexact

/-- Where the sum does not wrap, the total stays exact when an entry is recorded. -/
theorem exactTotal_recorded (hfits : s.totalBytes.toNat + size.toNat < 2 ^ 64)
    (hentries : s'.entries = s.entries ++ [⟨ptr, size⟩])
    (htotal : s'.totalBytes = s.totalBytes + size) :
    s'.totalBytes.toNat = sumSizes s'.entries := by
  rw [htotal, hentries, UInt64.toNat_add, Nat.mod_eq_of_lt hfits, sumSizes_append, sumSizes_cons,
    sumSizes_nil, hexact, Nat.add_zero]

/-- And when one is released, which never wraps. -/
theorem exactTotal_released (hentries : s.entries.Perm (⟨ptr, size⟩ :: s'.entries))
    (htotal : s'.totalBytes = s.totalBytes - size) :
    s'.totalBytes.toNat = sumSizes s'.entries := by
  rw [sumSizes_perm hentries, sumSizes_cons] at hexact
  change s.totalBytes.toNat = size.toNat + sumSizes s'.entries at hexact
  rw [htotal, UInt64.toNat_sub_of_le _ _ (UInt64.le_iff_toNat_le.mpr (by omega))]
  omega

end ExactTotal

end HipBridge.Unixlib
