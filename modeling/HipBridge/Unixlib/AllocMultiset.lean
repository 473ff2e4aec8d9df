import HipBridge.Lib.Run
import HipBridge.Unixlib.AllocCap
import Mathlib.Algebra.BigOperators.Group.Multiset.Basic
import Mathlib.Data.Multiset.Filter

/-!
# The allocation table as a multiset

A release moves the last entry into the freed slot, so what the table holds is a multiset of
entries, whatever slots they are in.

* **`CapEffect`** — what a call does to a multiset of at most 4096 entries, and returns.
* **`capCall_effect`** — every call does just that to the tracked entries.
* **`totalWraps_run`** — the running total is the sum of their sizes modulo `2 ^ 64`.
* **`OnlyEntry`** — a pointer is tracked once. Calls with other pointers leave it so, and its
  release takes that entry.
-/

namespace HipBridge.Unixlib

open Lib

inductive CapOp
  | reset
  | record (ptr : Ptr) (size : UInt64)
  | release (ptr : Ptr)

inductive CapReturn
  | void
  | int (ret : Int32)
  | bytes (size : UInt64)
deriving DecidableEq

/-- A call: what it returns, and the table afterwards. -/
def capCall (s : AllocCap) : CapOp → CapReturn × AllocCap
  | .reset => (.void, allocCapReset s)
  | .record ptr size =>
    let (ret, s) := allocCapRecord s ptr size
    (.int ret, s)
  | .release ptr =>
    let (size, s) := allocCapRelease s ptr
    (.bytes size, s)

def capStep (s : AllocCap) (op : CapOp) : AllocCap := (capCall s op).2

/-- The tracked entries, in no order. -/
def AllocCap.tracked (s : AllocCap) : Multiset AllocEntry := s.entries

/-- Where an entry is put does not matter. -/
theorem tracked_of_append {s s' : AllocCap} {e : AllocEntry} (h : s'.entries = s.entries ++ [e]) :
    s'.tracked = e ::ₘ s.tracked := by
  unfold AllocCap.tracked
  rw [h, ← Multiset.coe_add, add_comm]
  rfl

theorem tracked_of_perm {s s' : AllocCap} {e : AllocEntry} (h : s.entries.Perm (e :: s'.entries)) :
    s.tracked = e ::ₘ s'.tracked :=
  Multiset.coe_eq_coe.mpr h

/-! ## What a call does to a multiset of entries -/

inductive CapEffect (m : Multiset AllocEntry) : CapOp → CapReturn → Multiset AllocEntry → Prop
  | reset : CapEffect m .reset .void 0
  | recorded (ptr : Ptr) (size : UInt64) (hptr : ptr ≠ 0) (hroom : m.card < maxTrackedAllocs) :
    CapEffect m (.record ptr size) (.int 1) (⟨ptr, size⟩ ::ₘ m)
  | refused (ptr : Ptr) (size : UInt64) (hno : ptr = 0 ∨ maxTrackedAllocs ≤ m.card) :
    CapEffect m (.record ptr size) (.int 0) m
  | released (ptr : Ptr) (size : UInt64) (hmem : ⟨ptr, size⟩ ∈ m) :
    CapEffect m (.release ptr) (.bytes size) (m.erase ⟨ptr, size⟩)
  | untracked (ptr : Ptr) (hno : ∀ e ∈ m, e.ptr ≠ ptr) : CapEffect m (.release ptr) (.bytes 0) m

/-- No entry is tracked under `NULL`. -/
def NoNull (s : AllocCap) : Prop := ∀ e ∈ s.tracked, e.ptr ≠ 0

theorem capCall_effect {s : AllocCap} (h : NoNull s) (op : CapOp) :
    CapEffect s.tracked op (capCall s op).1 (capStep s op).tracked := by
  unfold capStep
  cases op with
  | reset => exact .reset
  | record ptr size =>
    simp only [capCall]
    rcases allocCapRecord_cases s ptr size with
      ⟨hno, hrecord⟩ | ⟨hptr, hroom, s', hrecord, hentries, -⟩
    · rw [hrecord]
      refine .refused ptr size (hno.imp_right fun hfull => ?_)
      exact Nat.le_of_eq hfull.symm
    · rw [hrecord, tracked_of_append hentries]
      exact .recorded ptr size hptr hroom
  | release ptr =>
    simp only [capCall]
    rcases allocCapRelease_cases s ptr with ⟨-, size, s', hrelease, hperm, -⟩ | ⟨hno, hrelease⟩
    · have htracked := tracked_of_perm hperm
      have herase : s'.tracked = s.tracked.erase ⟨ptr, size⟩ := by
        rw [htracked, Multiset.erase_cons_head]
      rw [hrelease, herase]
      refine .released ptr size ?_
      rw [htracked]
      exact Multiset.mem_cons_self _ _
    · rw [hrelease]
      refine .untracked ptr fun e hmem => ?_
      rcases hno with rfl | hno
      · exact h e hmem
      · exact hno e hmem

/-- An entry that is tracked afterwards was tracked before, or is the one recorded. -/
theorem CapEffect.mem {m m' : Multiset AllocEntry} {op : CapOp} {ret : CapReturn}
    (h : CapEffect m op ret m') {e : AllocEntry} (hmem : e ∈ m') :
    e ∈ m ∨ (op = .record e.ptr e.size ∧ e.ptr ≠ 0) := by
  cases h with
  | reset => exact absurd hmem (Multiset.notMem_zero e)
  | recorded ptr size hptr hroom =>
    rcases Multiset.mem_cons.mp hmem with rfl | hold
    · exact Or.inr ⟨rfl, hptr⟩
    · exact Or.inl hold
  | refused ptr size hno => exact Or.inl hmem
  | released ptr size hin => exact Or.inl (Multiset.mem_of_mem_erase hmem)
  | untracked ptr hno => exact Or.inl hmem

theorem noNull_capStep {s : AllocCap} (h : NoNull s) (op : CapOp) : NoNull (capStep s op) := by
  intro e hmem
  rcases (capCall_effect h op).mem hmem with hold | ⟨-, hptr⟩
  · exact h e hold
  · exact hptr

theorem noNull_init : NoNull .init := fun e hmem => absurd hmem (Multiset.notMem_zero e)

theorem noNull_run (ops : List CapOp) : NoNull (run capStep .init ops) := by
  have halways : Always capStep NoNull .init ops :=
    always_of_along (P := fun _ _ => True) (fun s op (h : NoNull s) _ => noNull_capStep h op)
      noNull_init (along_of_forall (fun _ _ => trivial) ops)
  exact halways.last

/-! ## The running total -/

/-- The exact sum of the sizes. -/
def bytesOf (m : Multiset AllocEntry) : Nat := (m.map fun e => e.size.toNat).sum

theorem bytesOf_cons (e : AllocEntry) (m : Multiset AllocEntry) :
    bytesOf (e ::ₘ m) = e.size.toNat + bytesOf m := by
  simp [bytesOf]

/-- The total is the sum modulo `2 ^ 64`. -/
def TotalWraps (s : AllocCap) : Prop := s.totalBytes.toNat = bytesOf s.tracked % 2 ^ 64

theorem totalWraps_capStep {s : AllocCap} (h : TotalWraps s) (op : CapOp) :
    TotalWraps (capStep s op) := by
  unfold TotalWraps at h ⊢
  unfold capStep
  cases op with
  | reset => rfl
  | record ptr size =>
    simp only [capCall]
    rcases allocCapRecord_cases s ptr size with ⟨-, hrecord⟩ | ⟨-, -, s', hrecord, hentries, htotal⟩
    · rw [hrecord]
      exact h
    · rw [hrecord, tracked_of_append hentries, bytesOf_cons, htotal, UInt64.toNat_add, h]
      show (bytesOf s.tracked % 2 ^ 64 + size.toNat) % 2 ^ 64
        = (size.toNat + bytesOf s.tracked) % 2 ^ 64
      omega
  | release ptr =>
    simp only [capCall]
    rcases allocCapRelease_cases s ptr with ⟨-, size, s', hrelease, hperm, htotal⟩ | ⟨-, hrelease⟩
    · have htracked := tracked_of_perm hperm
      rw [htracked, bytesOf_cons] at h
      have hsize := size.toNat_lt
      rw [hrelease, htotal, UInt64.toNat_sub, h]
      show (2 ^ 64 - size.toNat + (size.toNat + bytesOf s'.tracked) % 2 ^ 64) % 2 ^ 64
        = bytesOf s'.tracked % 2 ^ 64
      omega
    · rw [hrelease]
      exact h

theorem totalWraps_run (ops : List CapOp) : TotalWraps (run capStep .init ops) := by
  have halways : Always capStep TotalWraps .init ops :=
    always_of_along (P := fun _ _ => True)
      (fun s op (h : TotalWraps s) _ => totalWraps_capStep h op)
      rfl (along_of_forall (fun _ _ => trivial) ops)
  exact halways.last

/-! ## A pointer that is tracked once -/

/-- The pointer a call is about. -/
def CapOp.pointer : CapOp → Option Ptr
  | .reset => none
  | .record ptr _ => some ptr
  | .release ptr => some ptr

/-- The entry is the only one of its pointer. -/
def OnlyEntry (m : Multiset AllocEntry) (e : AllocEntry) : Prop := m.filter (·.ptr = e.ptr) = {e}

theorem filter_cons_of_ne {e e' : AllocEntry} (m : Multiset AllocEntry) (h : e'.ptr ≠ e.ptr) :
    (e' ::ₘ m).filter (·.ptr = e.ptr) = m.filter (·.ptr = e.ptr) :=
  Multiset.filter_cons_of_neg m h

theorem OnlyEntry.eq_of_mem {m : Multiset AllocEntry} {e e' : AllocEntry} (h : OnlyEntry m e)
    (hmem : e' ∈ m) (hptr : e'.ptr = e.ptr) : e' = e := by
  have hfilter : e' ∈ m.filter (·.ptr = e.ptr) := Multiset.mem_filter.mpr ⟨hmem, hptr⟩
  rw [h] at hfilter
  exact Multiset.mem_singleton.mp hfilter

theorem OnlyEntry.mem {m : Multiset AllocEntry} {e : AllocEntry} (h : OnlyEntry m e) : e ∈ m := by
  have hfilter : e ∈ m.filter (·.ptr = e.ptr) := by
    rw [h]
    exact Multiset.mem_singleton_self e
  exact Multiset.mem_of_mem_filter hfilter

/-- A call about another pointer leaves it so. -/
theorem CapEffect.onlyEntry {m m' : Multiset AllocEntry} {op : CapOp} {ret : CapReturn}
    (heffect : CapEffect m op ret m') {e : AllocEntry} (h : OnlyEntry m e)
    (hother : ∃ ptr, op.pointer = some ptr ∧ ptr ≠ e.ptr) : OnlyEntry m' e := by
  obtain ⟨ptr, hpointer, hne⟩ := hother
  unfold OnlyEntry at h ⊢
  cases heffect with
  | reset => cases hpointer
  | recorded ptr' size hptr hroom =>
    cases hpointer
    rw [filter_cons_of_ne m hne]
    exact h
  | refused ptr' size hno => exact h
  | released ptr' size hmem =>
    cases hpointer
    rw [← Multiset.cons_erase hmem, filter_cons_of_ne _ hne] at h
    exact h
  | untracked ptr' hno => exact h

/-- A release of its pointer takes it, and nothing else. -/
theorem CapEffect.release_only {m m' : Multiset AllocEntry} {e : AllocEntry} {ret : CapReturn}
    (heffect : CapEffect m (.release e.ptr) ret m') (h : OnlyEntry m e) :
    ret = .bytes e.size ∧ m = e ::ₘ m' := by
  cases heffect with
  | released ptr size hmem =>
    have heq : (⟨e.ptr, size⟩ : AllocEntry) = e := h.eq_of_mem hmem rfl
    have hsize : size = e.size := congrArg AllocEntry.size heq
    rw [heq] at hmem ⊢
    exact ⟨congrArg CapReturn.bytes hsize, (Multiset.cons_erase hmem).symm⟩
  | untracked ptr hno => exact absurd rfl (hno e h.mem)

/-- Calls about other pointers, one after the other. -/
theorem onlyEntry_run {s : AllocCap} (hnull : NoNull s) {e : AllocEntry} (h : OnlyEntry s.tracked e)
    {ops : List CapOp} (hother : ∀ op ∈ ops, ∃ ptr, op.pointer = some ptr ∧ ptr ≠ e.ptr) :
    NoNull (run capStep s ops) ∧ OnlyEntry (run capStep s ops).tracked e := by
  induction ops generalizing s with
  | nil => exact ⟨hnull, h⟩
  | cons op ops ih =>
    obtain ⟨hfirst, hrest⟩ := List.forall_mem_cons.mp hother
    rw [run_cons]
    exact ih (noNull_capStep hnull op) ((capCall_effect hnull op).onlyEntry h hfirst) hrest

/-- A pointer that was not tracked is tracked once when it is recorded. -/
theorem onlyEntry_record {m : Multiset AllocEntry} {ptr : Ptr} (size : UInt64)
    (hno : ∀ e ∈ m, e.ptr ≠ ptr) : OnlyEntry (⟨ptr, size⟩ ::ₘ m) ⟨ptr, size⟩ := by
  have hnone : m.filter (·.ptr = ptr) = 0 := Multiset.filter_eq_nil.mpr hno
  have hcons : (⟨ptr, size⟩ ::ₘ m).filter (·.ptr = ptr) = ⟨ptr, size⟩ ::ₘ m.filter (·.ptr = ptr) :=
    Multiset.filter_cons_of_pos m rfl
  unfold OnlyEntry
  rw [hcons, hnone]
  rfl

/-- **The allocation table is a bounded multiset.** After any calls, every call does what
`CapEffect` says to the tracked entries, and the total is the sum of their sizes modulo `2 ^ 64`.
A release takes out the first entry of its pointer in the table, and returns its size. An entry
recorded for a pointer that was not tracked is the one that is taken out, and its size the one that
is returned, when the pointer is released after any calls about other pointers. -/
theorem allocCap_multiset (ops : List CapOp) :
    let s := run capStep .init ops
    AllocCap.init.tracked = 0 ∧
    (∀ op, CapEffect s.tracked op (capCall s op).1 (capStep s op).tracked) ∧
    (allocCapTotal s).toNat = bytesOf s.tracked % 2 ^ 64 ∧
    (∀ ptr e, s.entries.find? (·.ptr = ptr) = some e →
      (allocCapRelease s ptr).1 = e.size ∧
        s.tracked = e ::ₘ (allocCapRelease s ptr).2.tracked) ∧
    ∀ ptr size others, (∀ e ∈ s.tracked, e.ptr ≠ ptr) → (allocCapRecord s ptr size).1 = 1 →
      (∀ op ∈ others, ∃ ptr', op.pointer = some ptr' ∧ ptr' ≠ ptr) →
      let s' := run capStep (capStep s (.record ptr size)) others
      (allocCapRelease s' ptr).1 = size ∧
        s'.tracked = ⟨ptr, size⟩ ::ₘ (allocCapRelease s' ptr).2.tracked := by
  intro s
  have hnull : NoNull s := noNull_run ops
  refine ⟨rfl, capCall_effect hnull, totalWraps_run ops, fun ptr e hfirst => ?_, ?_⟩
  · have hmatch : e.ptr = ptr := by simpa using List.find?_some hfirst
    have hptr : ptr ≠ 0 := hmatch ▸ hnull e (List.mem_of_find?_eq_some hfirst)
    obtain ⟨s', hrelease, hperm, -⟩ := allocCapRelease_first hptr hfirst
    rw [hrelease]
    exact ⟨rfl, tracked_of_perm hperm⟩
  intro ptr size others hno hrecord hother s'
  have htracked : (capStep s (.record ptr size)).tracked = ⟨ptr, size⟩ ::ₘ s.tracked := by
    show (allocCapRecord s ptr size).2.tracked = _
    rcases allocCapRecord_cases s ptr size with ⟨-, hrefused⟩ | ⟨-, -, s₁, hrecorded, hentries, -⟩
    · rw [hrefused] at hrecord
      cases hrecord
    · rw [hrecorded]
      exact tracked_of_append hentries
  have honly : OnlyEntry (capStep s (.record ptr size)).tracked ⟨ptr, size⟩ := by
    rw [htracked]
    exact onlyEntry_record size hno
  obtain ⟨hnull', honly'⟩ := onlyEntry_run (noNull_capStep hnull _) honly hother
  obtain ⟨hret, htaken⟩ := (capCall_effect hnull' (.release ptr)).release_only honly'
  exact ⟨CapReturn.bytes.inj hret, htaken⟩

/-- A pointer that is recorded twice: the entry that comes first is the one released. -/
theorem release_takes_first :
    ¬ ∀ (ops others : List CapOp) (ptr : Ptr) (size : UInt64),
      (allocCapRecord (run capStep .init ops) ptr size).1 = 1 →
      (∀ op ∈ others, ∃ ptr', op.pointer = some ptr' ∧ ptr' ≠ ptr) →
      (allocCapRelease (run capStep (capStep (run capStep .init ops) (.record ptr size)) others)
        ptr).1 = size := by
  intro h
  have hsize := h [.record 0x1000 10] [] 0x1000 20 (by decide +kernel)
    (fun op hmem => by cases hmem)
  revert hsize
  decide +kernel

end HipBridge.Unixlib
