import HipBridge.Stub.BundleSize
import HipBridge.Unixlib.Registry

/-!
# The two ways to find a bundle

`__hipRegisterFatBinary` of `hip-stub` and `resolve_bundle_ptr` of the Unix side are handed the same
pointer: to a bundle, or to a wrapper whose word at offset 8 points to one.

* **`selectFollows`**, **`resolveFollows`** — the word at offset 8, where each of them goes on to
  read what it points to. `selectBundle_of_follows` and `resolveBundlePtr_of_follows` say what
  becomes of it.
* **`ResolversAgree`** — they settle on the same bundle, and follow the word only if there is no
  magic at the pointer and the word is not null.
* **`resolversAgree_iff`** — `hip-stub` tries the word whenever the parse fails: they agree unless
  it fails on a bundle, or without one the word is null.
-/

namespace HipBridge.Stub

open Lib
open Unixlib (resolveBundlePtr)

/-! ## The word at offset 8 -/

/-- The pointer `__hipRegisterFatBinary` tries after `data`. -/
def selectFollows (mem : Memory) (data : Ptr) : Option Ptr :=
  match offloadBundleTotalSize mem data with
  | some none => mem.readWord (data + 8)
  | _ => none

/-- The pointer `resolve_bundle_ptr` compares with the magic after `data`. -/
def resolveFollows (mem : Memory) (data : Ptr) : Option Ptr :=
  match mem.read data offloadBundleMagic.length with
  | none => none
  | some head =>
    if head = offloadBundleMagic then none
    else (mem.readWord (data + 8)).bind fun inner => if inner = 0 then none else some inner

theorem selectBundle_of_follows {mem : Memory} {data inner : Ptr}
    (h : selectFollows mem data = some inner) :
    selectBundle mem data
      = (offloadBundleTotalSize mem inner).map (Option.map fun size => (inner, size)) := by
  unfold selectFollows at h
  unfold selectBundle
  split at h
  case h_1 hnone =>
    rw [hnone]
    simp only [Option.bind_eq_bind, Option.bind_some, h]
    cases offloadBundleTotalSize mem inner with
    | none => rfl
    | some size => cases size <;> rfl
  case h_2 => cases h

/-- If it follows nothing, it settles on `data` or faults. -/
theorem selectBundle_of_not_follows {mem : Memory} {data : Ptr}
    (h : selectFollows mem data = none) :
    selectBundle mem data
      = (offloadBundleTotalSize mem data).bind (Option.map fun size => some (data, size)) := by
  unfold selectFollows at h
  unfold selectBundle
  cases hsize : offloadBundleTotalSize mem data with
  | none => rfl
  | some size =>
    cases size with
    | some size => rfl
    | none =>
      rw [hsize] at h
      simp only [Option.bind_eq_bind, Option.bind_some, h]
      rfl

theorem resolveBundlePtr_of_follows {mem : Memory} {data inner : Ptr}
    (h : resolveFollows mem data = some inner) :
    resolveBundlePtr mem data = (mem.read inner offloadBundleMagic.length).map fun head =>
      if head = offloadBundleMagic then inner else 0 := by
  unfold resolveFollows at h
  have hmagic : Unixlib.offloadBundleMagic = offloadBundleMagic := rfl
  cases hread : mem.read data offloadBundleMagic.length with
  | none => simp [hread] at h
  | some head =>
    simp only [hread] at h
    split at h
    case isTrue => cases h
    case isFalse hne =>
      obtain ⟨word, hword, h⟩ := Option.bind_eq_some_iff.mp h
      split at h
      case isTrue => cases h
      case isFalse hnull =>
        cases h
        simp only [resolveBundlePtr, hmagic, hread, hword, Option.bind_eq_bind, Option.bind_some,
          if_neg hne, if_neg hnull]
        cases mem.read inner offloadBundleMagic.length with
        | none => rfl
        | some head' =>
          simp only [Option.bind_some, Option.map_some]
          split <;> rfl

/-- Where the magic is, `resolve_bundle_ptr` stops. -/
theorem resolveBundlePtr_of_magic {mem : Memory} {data : Ptr}
    (h : mem.read data offloadBundleMagic.length = some offloadBundleMagic) :
    resolveBundlePtr mem data = some data := by
  have hmagic : Unixlib.offloadBundleMagic = offloadBundleMagic := rfl
  simp only [resolveBundlePtr, hmagic, h, Option.bind_eq_bind, Option.bind_some]
  rfl

/-! ## When they agree -/

/-- A bundle `hip-stub` settles on is the one `resolve_bundle_ptr` returns, and neither takes the
word at offset 8 for a pointer if the magic stands at `data` or the word is null. -/
structure ResolversAgree (mem : Memory) (data : Ptr) : Prop where
  same : ∀ bundle size, selectBundle mem data = some (some (bundle, size)) →
    resolveBundlePtr mem data = some bundle
  select : ∀ inner, selectFollows mem data = some inner →
    mem.read data offloadBundleMagic.length ≠ some offloadBundleMagic ∧ inner ≠ 0
  resolve : ∀ inner, resolveFollows mem data = some inner →
    mem.read data offloadBundleMagic.length ≠ some offloadBundleMagic ∧ inner ≠ 0

theorem magic_of_offloadBundleTotalSize {mem : Memory} {data : Ptr} {size : Nat}
    (h : offloadBundleTotalSize mem data = some (some size)) :
    mem.read data offloadBundleMagic.length = some offloadBundleMagic := by
  obtain ⟨entries, htable, -⟩ := offloadBundleTotalSize_eq_some_iff.mp h
  exact htable.1

/-- `resolve_bundle_ptr` checks both before it goes on. -/
theorem resolveFollows_eq_some_iff {mem : Memory} {data inner : Ptr} :
    resolveFollows mem data = some inner ↔
      (∃ head, mem.read data offloadBundleMagic.length = some head ∧ head ≠ offloadBundleMagic) ∧
        mem.readWord (data + 8) = some inner ∧ inner ≠ 0 := by
  unfold resolveFollows
  cases mem.read data offloadBundleMagic.length with
  | none => simp
  | some head =>
    by_cases hmagic : head = offloadBundleMagic
    · simp [hmagic]
    · cases mem.readWord (data + 8) with
      | none => simp [hmagic]
      | some word =>
        by_cases hnull : word = 0
        · simp [hmagic, hnull]
          rintro rfl
          rfl
        · simp [hmagic, hnull]
          rintro rfl
          exact hnull

/-- `hip-stub` goes on whenever the bytes at `data` are not a plausible bundle. -/
theorem selectFollows_eq_some_iff {mem : Memory} {data inner : Ptr} :
    selectFollows mem data = some inner ↔
      Malformed mem data ∧ mem.readWord (data + 8) = some inner := by
  unfold selectFollows
  constructor
  · intro h
    split at h
    case h_1 hnone => exact ⟨malformed_of_offloadBundleTotalSize hnone, h⟩
    case h_2 => cases h
  · intro h
    rw [offloadBundleTotalSize_of_malformed h.1]
    exact h.2

/-- **When the two resolvers agree.** Exactly when the bytes at `data` are not the magic with an
implausible table behind it, and, if they are not the magic, the word at offset 8 is not null. -/
theorem resolversAgree_iff (mem : Memory) (data : Ptr) :
    ResolversAgree mem data ↔
      ¬ (mem.read data offloadBundleMagic.length = some offloadBundleMagic ∧ Malformed mem data) ∧
      ¬ ((∃ head, mem.read data offloadBundleMagic.length = some head ∧ head ≠ offloadBundleMagic) ∧
        mem.readWord (data + 8) = some 0) := by
  constructor
  · intro h
    constructor
    · intro hbad
      obtain ⟨hmagic, hmalformed⟩ := hbad
      -- the word is part of the magic, so it can be read
      obtain ⟨word, hword⟩ := Memory.exists_readWord (k := 8) hmagic (by decide)
      exact (h.select word (selectFollows_eq_some_iff.mpr ⟨hmalformed, hword⟩)).1 hmagic
    · intro hbad
      obtain ⟨hhead, hnull⟩ := hbad
      exact (h.select 0 (selectFollows_eq_some_iff.mpr ⟨Or.inl hhead, hnull⟩)).2 rfl
  · intro h
    obtain ⟨hsane, hnull⟩ := h
    have hselect : ∀ inner, selectFollows mem data = some inner →
        resolveFollows mem data = some inner := by
      intro inner hfollows
      obtain ⟨hmalformed, hword⟩ := selectFollows_eq_some_iff.mp hfollows
      have hhead : ∃ head, mem.read data offloadBundleMagic.length = some head ∧
          head ≠ offloadBundleMagic :=
        hmalformed.elim id fun htable => absurd ⟨htable.1, hmalformed⟩ hsane
      refine resolveFollows_eq_some_iff.mpr ⟨hhead, hword, ?_⟩
      rintro rfl
      exact hnull ⟨hhead, hword⟩
    have hresolve : ∀ inner, resolveFollows mem data = some inner →
        mem.read data offloadBundleMagic.length ≠ some offloadBundleMagic ∧ inner ≠ 0 := by
      intro inner hfollows
      obtain ⟨⟨head, hread, hne⟩, -, hinner⟩ := resolveFollows_eq_some_iff.mp hfollows
      refine ⟨fun hmagic => hne ?_, hinner⟩
      exact Option.some.inj (hread.symm.trans hmagic)
    refine ⟨fun bundle size hsome => ?_, fun inner hfollows => ?_, hresolve⟩
    · cases hfollows : selectFollows mem data with
      | none =>
        rw [selectBundle_of_not_follows hfollows] at hsome
        obtain ⟨total, htotal, hsome⟩ := Option.bind_eq_some_iff.mp hsome
        obtain ⟨size', rfl, hpair⟩ := Option.map_eq_some_iff.mp hsome
        cases hpair
        exact resolveBundlePtr_of_magic (magic_of_offloadBundleTotalSize htotal)
      | some inner =>
        rw [selectBundle_of_follows hfollows] at hsome
        obtain ⟨total, htotal, hsome⟩ := Option.map_eq_some_iff.mp hsome
        obtain ⟨size', rfl, hpair⟩ := Option.map_eq_some_iff.mp hsome
        cases hpair
        rw [resolveBundlePtr_of_follows (hselect _ hfollows),
          magic_of_offloadBundleTotalSize htotal]
        exact congrArg some (if_pos rfl)
    · exact hresolve inner (hselect inner hfollows)

/-- The text of the magic from its ninth byte on, as an address. -/
def magicText : Ptr := u64FromLe ((offloadBundleMagic.drop 8).take 8)

/-- A bundle of two thousand objects at `0x1000`, and one of none where its text points. -/
def manyObjects : Memory := fun p =>
  if p - 0x1000 < 32 then (offloadBundleMagic ++ u64ToLe 2000)[(p - 0x1000).toNat]?
  else if p - magicText < 32 then (offloadBundleMagic ++ u64ToLe 0)[(p - magicText).toNat]?
  else none

/-- Thirty-two zero bytes at `0x1000`. -/
def zeroBytes : Memory := fun p => if p - 0x1000 < 32 then some 0 else none

/-- The text of a header that was refused is followed as a pointer, to a bundle even, and so is a
null pointer, which faults. -/
theorem resolvers_disagree :
    selectBundle manyObjects 0x1000 = some (some (magicText, 32)) ∧
    resolveBundlePtr manyObjects 0x1000 = some 0x1000 ∧
    ¬ ResolversAgree manyObjects 0x1000 ∧
    selectBundle zeroBytes 0x1000 = none ∧
    resolveBundlePtr zeroBytes 0x1000 = some 0 ∧
    ¬ ResolversAgree zeroBytes 0x1000 := by
  have hselect : selectBundle manyObjects 0x1000 = some (some (magicText, 32)) := by
    decide +kernel
  have hresolve : resolveBundlePtr manyObjects 0x1000 = some 0x1000 := by decide +kernel
  have hnull : selectFollows zeroBytes 0x1000 = some 0 := by decide +kernel
  refine ⟨hselect, hresolve, fun h => ?_, by decide +kernel, by decide +kernel, fun h => ?_⟩
  · have hsame := h.same magicText 32 hselect
    rw [hresolve] at hsame
    revert hsame
    decide +kernel
  · exact (h.select 0 hnull).2 rfl

end HipBridge.Stub
