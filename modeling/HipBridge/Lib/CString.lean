import HipBridge.Lib.Rust

/-!
# C strings and byte-addressed memory

* **`Ptr`** — a machine address.
* **`CString`** — the bytes before the terminating NUL; that none of them is NUL is part
  of the type.
* **`snprintfFits`** — what `snprintf` keeps of a text in a buffer of `size` bytes.
* **`Memory`** — a partial map from addresses to bytes; reading an unmapped address faults.
-/

namespace Lib

/-- A machine address; `0` is the null pointer. -/
abbrev Ptr := UInt64

/-- A NUL-terminated string, given by the bytes before the NUL. -/
structure CString where
  bytes : List UInt8
  noNul : 0 ∉ bytes
deriving DecidableEq

namespace CString

/-- A string literal of the source. -/
def ofLiteral (s : String) (h : 0 ∉ utf8Bytes s) : CString := ⟨utf8Bytes s, h⟩

/-- Concatenation, as `"%s%s"` prints it. -/
def append (a b : CString) : CString :=
  ⟨a.bytes ++ b.bytes, fun h => (List.mem_append.mp h).elim a.noNul b.noNul⟩

/-- What `snprintf(buf, size, "%s", s)` leaves in `buf`: at most `size - 1` bytes and a NUL. -/
def snprintfFits (size : Nat) (s : CString) : CString :=
  ⟨s.bytes.take (size - 1), fun h => s.noNul (List.mem_of_mem_take h)⟩

@[simp] theorem bytes_append (a b : CString) : (a.append b).bytes = a.bytes ++ b.bytes := rfl

@[simp] theorem bytes_snprintfFits (size : Nat) (s : CString) :
    (snprintfFits size s).bytes = s.bytes.take (size - 1) := rfl

end CString

/-- A partial map from addresses to bytes. -/
def Memory := Ptr → Option UInt8

/-- `n` bytes from `p` on, or `none` when one of them is not mapped. -/
def Memory.read (mem : Memory) (p : Ptr) : (n : Nat) → Option (List UInt8)
  | 0 => some []
  | n + 1 => do
    let b ← mem p
    let bs ← mem.read (p + 1) n
    pure (b :: bs)

/-- The 64-bit word stored at `p`. -/
def Memory.readWord (mem : Memory) (p : Ptr) : Option UInt64 := u64FromLe <$> mem.read p 8

/-- A range can be read when each byte of it is mapped. Induction on the range. -/
theorem Memory.isSome_read_iff {mem : Memory} {p : Ptr} {n : Nat} :
    (mem.read p n).isSome ↔ ∀ i < n, (mem (p + UInt64.ofNat i)).isSome := by
  induction n generalizing p with
  | zero => simp [Memory.read]
  | succ n ih =>
    have hshift : ∀ i, p + UInt64.ofNat (i + 1) = p + 1 + UInt64.ofNat i := by
      intro i
      rw [UInt64.ofNat_add, UInt64.add_comm (UInt64.ofNat i), ← UInt64.add_assoc]
      rfl
    have hhead : p + UInt64.ofNat 0 = p := UInt64.add_zero p
    have hread : mem.read p (n + 1)
        = (mem p).bind fun b => (mem.read (p + 1) n).bind fun bs => some (b :: bs) := rfl
    rw [hread, Nat.forall_lt_succ_left, hhead]
    simp only [hshift, ← ih]
    cases mem p with
    | none => simp
    | some b => cases mem.read (p + 1) n <;> simp

/-- A word inside a range that was read can be read. -/
theorem Memory.exists_readWord {mem : Memory} {p : Ptr} {n k : Nat} {bytes : List UInt8}
    (h : mem.read p n = some bytes) (hk : k + 8 ≤ n) :
    ∃ word, mem.readWord (p + UInt64.ofNat k) = some word := by
  have hall := Memory.isSome_read_iff.mp (Option.isSome_of_eq_some h)
  have hword : (mem.read (p + UInt64.ofNat k) 8).isSome := by
    apply Memory.isSome_read_iff.mpr
    intro i hi
    rw [UInt64.add_assoc, ← UInt64.ofNat_add]
    exact hall (k + i) (by omega)
  obtain ⟨word, hread⟩ := Option.isSome_iff_exists.mp hword
  exact ⟨u64FromLe word, by rw [Memory.readWord, hread]; rfl⟩

end Lib
