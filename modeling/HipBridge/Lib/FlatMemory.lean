import HipBridge.Lib.CString

/-!
# Flat byte memories

A memory that has a byte at each of the `2 ^ 64` addresses; ranges of it wrap round.

* **`slice`**, **`overwrite`** — reading and writing a range.
* **`take_drop_slice`** — a range within a range.
* **`read_mapped`** — seen as a `Memory`, all of which is mapped.
* **`overwrite_outside`** — a write leaves the bytes outside its range.
-/

namespace Lib

/-- A byte at every address. -/
abbrev FlatMemory := Ptr → UInt8

namespace FlatMemory

/-- The `n` bytes from `p` on. -/
def slice (mem : FlatMemory) (p : Ptr) (n : Nat) : List UInt8 :=
  (List.range n).map fun i => mem (p + UInt64.ofNat i)

/-- The memory after `data` was written from `p` on. -/
def overwrite (p : Ptr) (data : List UInt8) (mem : FlatMemory) : FlatMemory :=
  fun a => data.getD (a - p).toNat (mem a)

variable {mem : FlatMemory} {p a : Ptr} {data : List UInt8} {n i : Nat}

@[simp] theorem length_slice : (slice mem p n).length = n := by simp [slice]

theorem getElem?_slice (h : i < n) : (slice mem p n)[i]? = some (mem (p + UInt64.ofNat i)) := by
  simp [slice, h]

theorem sub_toNat_of_offset (h : i < 2 ^ 64) : (p + UInt64.ofNat i - p).toNat = i := by
  have hcancel : p + UInt64.ofNat i - p = UInt64.ofNat i := by
    rw [UInt64.add_comm, UInt64.add_sub_cancel]
  rw [hcancel, UInt64.toNat_ofNat', Nat.mod_eq_of_lt h]

/-- The `k` bytes at offset `i`. -/
theorem take_drop_slice {k : Nat} (h : i + k ≤ n) :
    ((slice mem p n).drop i).take k = slice mem (p + UInt64.ofNat i) k := by
  refine List.ext_getElem (by simp; omega) fun j hj hj' => ?_
  simp only [slice, List.getElem_take, List.getElem_drop, List.getElem_map, List.getElem_range,
    UInt64.ofNat_add, UInt64.add_assoc]

theorem slice_succ : slice mem p (n + 1) = mem p :: slice mem (p + 1) n := by
  have hshift : ∀ i, mem (p + UInt64.ofNat (i + 1)) = mem (p + 1 + UInt64.ofNat i) := by
    intro i
    rw [UInt64.ofNat_add, UInt64.add_comm (UInt64.ofNat i), ← UInt64.add_assoc]
    rfl
  have hfirst : mem (p + UInt64.ofNat 0) = mem p := congrArg mem (UInt64.add_zero p)
  simp only [slice, List.range_succ_eq_map, List.map_cons, List.map_map, Function.comp_def, hshift,
    hfirst]

/-- A memory all of which is mapped. -/
def mapped (mem : FlatMemory) : Memory := fun p => some (mem p)

/-- Nothing faults. Induction on the range. -/
theorem read_mapped : (mapped mem).read p n = some (slice mem p n) := by
  induction n generalizing p with
  | zero => rfl
  | succ n ih =>
    rw [slice_succ, Memory.read, ih]
    rfl

theorem readWord_mapped : (mapped mem).readWord p = some (u64FromLe (slice mem p 8)) := by
  rw [Memory.readWord, read_mapped]
  rfl

theorem overwrite_outside (h : data.length ≤ (a - p).toNat) : overwrite p data mem a = mem a := by
  rw [overwrite, List.getD_eq_getElem?_getD, List.getElem?_eq_none h, Option.getD_none]

/-- An address below a range that does not wrap round, or past it. -/
theorem le_sub_toNat (hfits : p.toNat + n ≤ 2 ^ 64)
    (h : a.toNat < p.toNat ∨ p.toNat + n ≤ a.toNat) : n ≤ (a - p).toNat := by
  rw [UInt64.toNat_sub]
  have ha := a.toNat_lt
  have hp := p.toNat_lt
  omega

@[simp] theorem overwrite_nil : overwrite p [] mem = mem := funext fun _ => rfl

end FlatMemory

end Lib
