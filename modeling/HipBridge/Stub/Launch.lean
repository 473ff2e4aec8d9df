import HipBridge.Stub.FatBinary

/-!
# Kernel launches in `hip-stub`

The game's argument struct holds fake device addresses. The stub cannot know where, so it looks
at every 8-byte aligned word of a fixed-size copy of the struct.

* **`scanFixups`** — the words that resolve, with what they resolve to.
* **`launchRequest`**, **`hipLaunchKernel`** — what is handed to `call_bridge`, and the exported
  call.
* **`translateWord`** — the word the kernel should see in place of a word.
* **`patchArgs_scanFixups`** — the daemon's patching of a scanned buffer translates every word, or
  stops at one of an unknown handle.
-/

namespace HipBridge.Stub

open Lib Protocol Daemon
open Unixlib (Dim3 hipSuccess hipErrorNotSupported)

def maxKernelArgBytes : Nat := 4096

/-- `u64::from_le_bytes(arg_bytes[offset..offset + 8])`. -/
def wordAt (argBytes : List UInt8) (offset : Nat) : UInt64 :=
  u64FromLe ((argBytes.drop offset).take 8)

/-- The scan of `hipLaunchKernel`, `n` words from `offset` on. -/
def scanFrom (space : AddressSpace) (argBytes : List UInt8) : (n offset : Nat) → List Fixup
  | 0, _ => []
  | n + 1, offset =>
    let found := scanFrom space argBytes n (offset + 8)
    match space.resolve (wordAt argBytes offset) with
    | some (handle, intraOffset) => (UInt32.ofNat offset, handle, intraOffset) :: found
    | none => found

/-- The loop runs as long as `offset + 8 <= arg_bytes.len()`. -/
def scanFixups (space : AddressSpace) (argBytes : List UInt8) : List Fixup :=
  scanFrom space argBytes (argBytes.length / 8) 0

variable {D : Type} (hip : HipLib D) (g : Game D)

/-- What `hipLaunchKernel` hands to `call_bridge`, if it gets that far. `args` is what the
caller's `void **args` points at, if it is not null. -/
def launchRequest (function : Ptr) (gridDim blockDim : Option Dim3) (args : Option Ptr)
    (sharedMem : UInt64) : Option Request := do
  let functionHandle ← g.functions.lookup function
  let grid ← gridDim
  let block ← blockDim
  let argPtr ← args
  if argPtr = 0 then none
  else
    let argBytes := g.host.slice argPtr maxKernelArgBytes
    return .launchKernel functionHandle (grid.x, grid.y, grid.z) (block.x, block.y, block.z)
      sharedMem.toUInt32 (scanFixups g.space argBytes) argBytes

def hipLaunchKernel (function : Ptr) (gridDim blockDim : Option Dim3) (args : Option Ptr)
    (sharedMem : UInt64) : Int32 × Game D :=
  let failed (s : Session D) : Int32 × Game D :=
    let (code, s) := setLastError s hipErrorNotSupported
    (code, { g with toSession := s })
  match launchRequest g function gridDim blockDim args sharedMem with
  | none => failed g.toSession
  | some req =>
    match callBridge hip g.toSession req with
    | (.ok _, s) => (hipSuccess, { g with toSession := s })
    | (.error _, s) => failed s

/-! ## Words -/

/-- The bytes of a list of words. -/
def bytesOf (words : List UInt64) : List UInt8 := words.flatMap u64ToLe

@[simp] theorem length_bytesOf (words : List UInt64) :
    (bytesOf words).length = 8 * words.length := by
  induction words with
  | nil => rfl
  | cons w words ih =>
    rw [bytesOf, List.flatMap_cons, List.length_append, length_u64ToLe, List.length_cons]
    rw [bytesOf] at ih
    omega

theorem bytesOf_cons (w : UInt64) (words : List UInt64) :
    bytesOf (w :: words) = u64ToLe w ++ bytesOf words := List.flatMap_cons

/-- The word behind `pre`. -/
theorem wordAt_append {pre suf : List UInt8} {w : UInt64} {offset : Nat}
    (h : pre.length = offset) : wordAt (pre ++ (u64ToLe w ++ suf)) offset = w := by
  rw [wordAt, List.drop_left' h, List.take_left' (length_u64ToLe w), u64FromLe_u64ToLe]

/-- The word at an index. Induction on the words. -/
theorem wordAt_bytesOf {words : List UInt64} {i : Nat} (hi : i < words.length)
    (pre : List UInt8) : wordAt (pre ++ bytesOf words) (pre.length + 8 * i) = words[i] := by
  induction words generalizing i pre with
  | nil => exact absurd hi (Nat.not_lt_zero i)
  | cons w words ih =>
    rw [bytesOf_cons]
    cases i with
    | zero => exact wordAt_append rfl
    | succ i =>
      have hrest := @ih i (Nat.lt_of_succ_lt_succ hi) (pre ++ u64ToLe w)
      rw [List.length_append, length_u64ToLe, List.append_assoc] at hrest
      have hoffset : pre.length + 8 * (i + 1) = pre.length + 8 + 8 * i := by omega
      rw [hoffset, hrest]
      rfl

/-- A buffer of whole words is the bytes of its words. Induction on their number. -/
theorem exists_bytesOf {n : Nat} {argBytes : List UInt8} (h : argBytes.length = 8 * n) :
    ∃ words, words.length = n ∧ argBytes = bytesOf words := by
  induction n generalizing argBytes with
  | zero => exact ⟨[], rfl, List.eq_nil_of_length_eq_zero h⟩
  | succ n ih =>
    have hhead : (argBytes.take 8).length = 8 := by
      rw [List.length_take]
      omega
    obtain ⟨words, hlen, hwords⟩ := @ih (argBytes.drop 8) (by rw [List.length_drop]; omega)
    refine ⟨u64FromLe (argBytes.take 8) :: words, by rw [List.length_cons, hlen], ?_⟩
    rw [bytesOf_cons, u64ToLe_u64FromLe hhead, ← hwords, List.take_append_drop]

/-! ## Patching a scanned buffer -/

/-- The word the kernel should see: the real address in place of a fake one. -/
def translateWord (space : AddressSpace) (handles : HandleTable Ptr) (w : UInt64) : UInt64 :=
  match space.resolve w with
  | some (handle, intraOffset) =>
    match handles.get handle with
    | some devPtr => devPtr + intraOffset
    | none => w
  | none => w

/-- Writing a word over the word behind `pre`. -/
theorem copyFromSlice_word (pre : List UInt8) (w w' : UInt64) (suf : List UInt8) :
    copyFromSlice (pre ++ (u64ToLe w ++ suf)) pre.length (u64ToLe w')
      = pre ++ (u64ToLe w' ++ suf) := by
  have hdrop : (pre ++ (u64ToLe w ++ suf)).drop (pre.length + (u64ToLe w').length) = suf := by
    rw [← List.drop_drop, List.drop_left, List.drop_left' (by simp)]
  rw [copyFromSlice, List.take_left, hdrop, List.append_assoc]

/-- What the daemon makes of a scanned buffer of which the words are left: it stops at a word of
an unknown handle, or translates them all. -/
inductive Patching (space : AddressSpace) (handles : HandleTable Ptr) (words : List UInt64)
    (pre : List UInt8) : Io (Except String (List UInt8)) → Prop
  | unknown (w handle k : UInt64) (hw : w ∈ words) (hresolve : space.resolve w = some (handle, k))
      (hunknown : handles.get handle = none) :
      Patching space handles words pre
        (.ok (.error ("fixup referenced unknown handle " ++ toString handle.toNat)))
  | translated (hknown : ∀ w ∈ words, ∀ handle k, space.resolve w = some (handle, k) →
      (handles.get handle).isSome) :
      Patching space handles words pre
        (.ok (.ok (pre ++ bytesOf (words.map (translateWord space handles)))))

/-- One word more in front, which is translated. -/
theorem Patching.cons {space : AddressSpace} {handles : HandleTable Ptr} {w : UInt64}
    {words : List UInt64} {pre : List UInt8} {result : Io (Except String (List UInt8))}
    (hknown : ∀ handle k, space.resolve w = some (handle, k) → (handles.get handle).isSome)
    (h : Patching space handles words (pre ++ u64ToLe (translateWord space handles w)) result) :
    Patching space handles (w :: words) pre result := by
  cases h with
  | unknown w' handle k hw hresolve hunknown =>
    exact .unknown w' handle k (List.mem_cons_of_mem w hw) hresolve hunknown
  | translated hrest =>
    rw [List.append_assoc, ← bytesOf_cons, ← List.map_cons]
    refine .translated fun w' hw' => ?_
    rcases List.mem_cons.mp hw' with rfl | hw'
    · exact hknown
    · exact hrest w' hw'

/-- **Scanning and patching**, word by word. Induction on the words not looked at yet: `orig` is
what the scan has behind it, `pre` what the patching made of that. -/
theorem patchArgs_scanFrom {space : AddressSpace} {handles : HandleTable Ptr}
    {words : List UInt64} {orig pre : List UInt8} (hlen : orig.length = pre.length)
    (hsmall : pre.length + 8 * words.length < 2 ^ 32) :
    Patching space handles words pre
      (patchArgs handles (scanFrom space (orig ++ bytesOf words) words.length orig.length)
        (pre ++ bytesOf words)) := by
  induction words generalizing orig pre with
  | nil => exact .translated fun w hw => by cases hw
  | cons w words ih =>
    rw [List.length_cons] at hsmall
    -- the IH, with the first word on the other side
    have hnext : ∀ w', Patching space handles words (pre ++ u64ToLe w')
        (patchArgs handles
          (scanFrom space (orig ++ bytesOf (w :: words)) words.length (orig.length + 8))
          (pre ++ (u64ToLe w' ++ bytesOf words))) := by
      intro w'
      have hrest := @ih (orig ++ u64ToLe w) (pre ++ u64ToLe w') (by simp [hlen])
        (by rw [List.length_append, length_u64ToLe]; omega)
      rw [List.length_append, length_u64ToLe, List.append_assoc pre, List.append_assoc orig,
        ← bytesOf_cons] at hrest
      exact hrest
    have hword : wordAt (orig ++ bytesOf (w :: words)) orig.length = w := wordAt_append rfl
    rw [List.length_cons, scanFrom, hword]
    cases hresolve : space.resolve w with
    | none =>
      have htranslate : translateWord space handles w = w := by rw [translateWord, hresolve]
      refine .cons (fun handle k hsome => ?_) ?_
      · rw [hresolve] at hsome
        cases hsome
      · rw [htranslate, bytesOf_cons]
        exact hnext w
    | some found =>
      obtain ⟨handle, k⟩ := found
      have hoffset : (UInt32.ofNat orig.length).toNat = pre.length := by
        rw [UInt32.toNat_ofNat', hlen, Nat.mod_eq_of_lt (by omega)]
      have hadd : usizeAdd pre.length 8 = .ok (pre.length + 8) :=
        usizeAdd_ok (by unfold usizeMax; omega)
      have hinside : ¬ (pre ++ bytesOf (w :: words)).length < pre.length + 8 := by
        rw [List.length_append, length_bytesOf, List.length_cons]
        omega
      simp only [patchArgs, hoffset, hadd, Io.ok_bind]
      rw [if_neg hinside]
      cases hget : handles.get handle with
      | none => exact .unknown w handle k List.mem_cons_self hresolve hget
      | some devPtr =>
        have htranslate : translateWord space handles w = devPtr + k := by
          simp only [translateWord, hresolve, hget]
        refine .cons (fun handle' k' hsome => ?_) ?_
        · rw [hresolve] at hsome
          cases hsome
          rw [hget]
          rfl
        · rw [htranslate, bytesOf_cons w words]
          simp only [copyFromSlice_word]
          rw [← bytesOf_cons w words]
          exact hnext (devPtr + k)

theorem patchArgs_scanFixups (space : AddressSpace) (handles : HandleTable Ptr)
    {words : List UInt64} (hsmall : 8 * words.length < 2 ^ 32) :
    Patching space handles words []
      (patchArgs handles (scanFixups space (bytesOf words)) (bytesOf words)) := by
  have hcount : (bytesOf words).length / 8 = words.length := by
    rw [length_bytesOf, Nat.mul_div_cancel_left _ (by decide)]
  rw [scanFixups, hcount]
  exact @patchArgs_scanFrom space handles words [] [] rfl (by simpa using hsmall)

theorem length_scanFrom_le (space : AddressSpace) (argBytes : List UInt8) (n offset : Nat) :
    (scanFrom space argBytes n offset).length ≤ n := by
  induction n generalizing offset with
  | zero => exact Nat.le_refl 0
  | succ n ih =>
    have hrest := ih (offset + 8)
    rw [scanFrom]
    split
    case h_1 =>
      rw [List.length_cons]
      omega
    case h_2 => omega

end HipBridge.Stub
