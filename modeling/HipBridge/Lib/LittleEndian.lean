import Mathlib.Algebra.Order.Group.Nat
import Mathlib.Tactic.Common
import Mathlib.Tactic.Ring

/-!
# Little-endian integers in byte lists

* **`toLe k n`** — the `k` low-order bytes of `n`, least significant first.
* **`fromLe bs`** — the number a byte list spells.
* **`fromLe_toLe`**, **`toLe_fromLe`** — the two are inverse to each other on numbers
  below `256 ^ k` and on lists of length `k`.

The fixed-width codecs of `UInt32` and `UInt64` are these at widths 4 and 8.
-/

namespace Lib

/-- The `k` low-order bytes of `n`, least significant first. -/
def toLe : (k n : Nat) → List UInt8
  | 0, _ => []
  | k + 1, n => UInt8.ofNat n :: toLe k (n / 256)

/-- The number a little-endian byte list spells. -/
def fromLe : List UInt8 → Nat
  | [] => 0
  | b :: bs => b.toNat + 256 * fromLe bs

@[simp] theorem length_toLe (k n : Nat) : (toLe k n).length = k := by
  induction k generalizing n with
  | zero => rfl
  | succ k ih => simp [toLe, ih]

/-- Encoding keeps the number modulo `256 ^ k`. Induction on the width. -/
theorem fromLe_toLe_mod (k n : Nat) : fromLe (toLe k n) = n % 256 ^ k := by
  induction k generalizing n with
  | zero => simp [toLe, fromLe, Nat.mod_one]
  | succ k ih =>
    have hpow : 256 ^ (k + 1) = 256 * 256 ^ k := Nat.pow_succ'
    rw [toLe, fromLe, ih, UInt8.toNat_ofNat', hpow, Nat.mod_mul]

theorem fromLe_toLe {k n : Nat} (h : n < 256 ^ k) : fromLe (toLe k n) = n := by
  rw [fromLe_toLe_mod, Nat.mod_eq_of_lt h]

theorem fromLe_lt (bs : List UInt8) : fromLe bs < 256 ^ bs.length := by
  induction bs with
  | nil => simp [fromLe]
  | cons b bs ih =>
    have hb : b.toNat < 256 := b.toNat_lt
    rw [fromLe, List.length_cons, Nat.pow_succ]
    omega

/-- Decoding then encoding at the same width gives the bytes back. -/
theorem toLe_fromLe (bs : List UInt8) : toLe bs.length (fromLe bs) = bs := by
  induction bs with
  | nil => rfl
  | cons b bs ih =>
    have hb : b.toNat < 256 := b.toNat_lt
    -- the low byte is the head, what is left after dividing is the tail
    have hhead : UInt8.ofNat (b.toNat + 256 * fromLe bs) = b := by
      apply UInt8.toNat_inj.mp
      rw [UInt8.toNat_ofNat']
      omega
    have htail : (b.toNat + 256 * fromLe bs) / 256 = fromLe bs := by omega
    rw [List.length_cons, fromLe, toLe, hhead, htail, ih]

/-! ## The machine-word codecs

`to_le_bytes` and `from_le_bytes` of `u32`, `u64` and `i32`; the last goes through the two's
complement word. -/

def u32ToLe (x : UInt32) : List UInt8 := toLe 4 x.toNat

def u32FromLe (bs : List UInt8) : UInt32 := UInt32.ofNat (fromLe bs)

def u64ToLe (x : UInt64) : List UInt8 := toLe 8 x.toNat

def u64FromLe (bs : List UInt8) : UInt64 := UInt64.ofNat (fromLe bs)

def i32ToLe (x : Int32) : List UInt8 := u32ToLe x.toUInt32

def i32FromLe (bs : List UInt8) : Int32 := (u32FromLe bs).toInt32

@[simp] theorem length_u32ToLe (x : UInt32) : (u32ToLe x).length = 4 := length_toLe 4 _

@[simp] theorem length_u64ToLe (x : UInt64) : (u64ToLe x).length = 8 := length_toLe 8 _

@[simp] theorem length_i32ToLe (x : Int32) : (i32ToLe x).length = 4 := length_toLe 4 _

@[simp] theorem u32FromLe_u32ToLe (x : UInt32) : u32FromLe (u32ToLe x) = x := by
  rw [u32FromLe, u32ToLe, fromLe_toLe (by simpa using x.toNat_lt), UInt32.ofNat_toNat]

@[simp] theorem u64FromLe_u64ToLe (x : UInt64) : u64FromLe (u64ToLe x) = x := by
  rw [u64FromLe, u64ToLe, fromLe_toLe (by simpa using x.toNat_lt), UInt64.ofNat_toNat]

@[simp] theorem i32FromLe_i32ToLe (x : Int32) : i32FromLe (i32ToLe x) = x := by
  simp [i32FromLe, i32ToLe]

theorem u32ToLe_u32FromLe {bs : List UInt8} (h : bs.length = 4) : u32ToLe (u32FromLe bs) = bs := by
  have hlt := fromLe_lt bs
  rw [h] at hlt
  have hnat : (UInt32.ofNat (fromLe bs)).toNat = fromLe bs := by
    rw [UInt32.toNat_ofNat']
    exact Nat.mod_eq_of_lt hlt
  rw [u32ToLe, u32FromLe, hnat, ← h, toLe_fromLe]

theorem u64ToLe_u64FromLe {bs : List UInt8} (h : bs.length = 8) : u64ToLe (u64FromLe bs) = bs := by
  have hlt := fromLe_lt bs
  rw [h] at hlt
  have hnat : (UInt64.ofNat (fromLe bs)).toNat = fromLe bs := by
    rw [UInt64.toNat_ofNat']
    exact Nat.mod_eq_of_lt hlt
  rw [u64ToLe, u64FromLe, hnat, ← h, toLe_fromLe]

end Lib
