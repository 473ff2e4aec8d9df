import HipBridge.Unixlib.VramCap
import Mathlib.Algebra.BigOperators.Group.Finset.Basic
import Mathlib.Data.Fintype.BigOperators

/-!
# The allocation cap under concurrency

Threads `T` run `unix_malloc` and `unix_free`, which take no lock: each call of `alloc_cap.c` and
each HIP call is one step. Beside the table of `alloc_cap.c` a state keeps the **`live`** blocks,
those `hipMalloc` returned and `hipFree` did not take back.

* **`VramPhase`** — where a thread is in its call.
* **`vramStep`** — the steps; `vramStep_effect` says what each can do.
* **`VramPromise`** — what is assumed: `hipMalloc` returns no address that is live, `hipFree`
  succeeds on live addresses and `NULL` only, and no sum wraps.
* **`Unraced`** — what no code checks: the total a request was compared with is not out of date
  when it is granted, a block finds room in the table, and a release the entry of its block.
* **`vramSafe_of_unraced`** — runs of such steps keep the cap and the total.
-/

namespace HipBridge.Unixlib

open Lib

/-- Where a thread is: outside, or in front of the call its phase is named for. -/
inductive VramPhase
  | idle
  | total (size : UInt64)
  | wouldExceed (size total : UInt64)
  /-- The total is the one the request was compared with. -/
  | hipMalloc (size total : UInt64)
  | record (block : AllocEntry)
  | hipFree (ptr : Ptr)
  /-- The block is the one `hipFree` took back, if there was one. -/
  | release (ptr : Ptr) (block : Option AllocEntry)
deriving DecidableEq

/-- A call of `unix_malloc` or `unix_free`, or the next step of one, with what the HIP library
answers. -/
inductive VramAct
  | unixMalloc (size : UInt64)
  | unixFree (ptr : Ptr)
  | total
  | wouldExceed
  | hipMalloc (ret : Int32) (ptr : Ptr)
  | record
  | hipFree (ret : Int32)
  | release
deriving DecidableEq

structure VramThreads (T : Type*) where
  phase : T → VramPhase
  table : AllocCap
  live : List AllocEntry

variable {T : Type*}

/-- No call is under way, and nothing was allocated yet. -/
def VramThreads.init : VramThreads T := ⟨fun _ => .idle, .init, []⟩

variable [DecidableEq T]

/-- A thread that moves on without touching anything shared. -/
def VramThreads.moved (s : VramThreads T) (t : T) (p : VramPhase) : VramThreads T :=
  { s with phase := Function.update s.phase t p }

/-- The next step of a thread. A step that is not its next does nothing. -/
def vramStep (cap : UInt64) (s : VramThreads T) (a : T × VramAct) : VramThreads T :=
  match s.phase a.1, a.2 with
  | .idle, .unixMalloc size => s.moved a.1 (.total size)
  | .idle, .unixFree ptr => s.moved a.1 (.hipFree ptr)
  | .total size, .total => s.moved a.1 (.wouldExceed size (allocCapTotal s.table))
  | .wouldExceed size total, .wouldExceed =>
    if allocCapWouldExceed total size cap then s.moved a.1 .idle
    else s.moved a.1 (.hipMalloc size total)
  | .hipMalloc size _, .hipMalloc ret ptr =>
    if ret = 0 ∧ ptr ≠ 0 then
      { s.moved a.1 (.record ⟨ptr, size⟩) with live := ⟨ptr, size⟩ :: s.live }
    else s.moved a.1 .idle
  | .record block, .record =>
    { s.moved a.1 .idle with table := (allocCapRecord s.table block.ptr block.size).2 }
  | .hipFree ptr, .hipFree ret =>
    if ret = 0 then
      match s.live.find? (·.ptr = ptr) with
      | some block =>
        { s.moved a.1 (.release ptr (some block)) with live := s.live.erase block }
      | none => s.moved a.1 (.release ptr none)
    else s.moved a.1 .idle
  | .release ptr _, .release =>
    { s.moved a.1 .idle with table := (allocCapRelease s.table ptr).2 }
  | _, _ => s

/-- What is assumed of the HIP library and of the sizes. -/
def VramPromise (s : VramThreads T) : T × VramAct → Prop
  | (t, .wouldExceed) => ∀ size total, s.phase t = .wouldExceed size total →
    total.toNat + size.toNat < 2 ^ 64
  | (t, .hipMalloc ret ptr) => ∀ size total, s.phase t = .hipMalloc size total → ret = 0 →
    ∀ e ∈ s.live, e.ptr ≠ ptr
  | (t, .record) => ∀ block, s.phase t = .record block →
    (allocCapTotal s.table).toNat + block.size.toNat < 2 ^ 64
  | (t, .hipFree ret) => ∀ ptr, s.phase t = .hipFree ptr → ret = 0 →
    ptr = 0 ∨ ∃ e ∈ s.live, e.ptr = ptr
  | _ => True

/-- What the steps of other threads in between can spoil. -/
def Unraced (s : VramThreads T) : T × VramAct → Prop
  | (t, .hipMalloc ret ptr) => ∀ size total, s.phase t = .hipMalloc size total → ret = 0 →
    ptr ≠ 0 → sumSizes s.live ≤ total.toNat
  | (t, .record) => ∀ block, s.phase t = .record block →
    s.table.entries.length < maxTrackedAllocs
  | (t, .release) => ∀ ptr block, s.phase t = .release ptr (some block) →
    s.table.entries.find? (·.ptr = ptr) = some block
  | _ => True

/-- The live blocks fit under the cap, and the total is their sum whenever no call is under
way. -/
def VramSafe (cap : UInt64) (s : VramThreads T) : Prop :=
  sumSizes s.live ≤ cap.toNat ∧
    ((∀ t, s.phase t = .idle) → (allocCapTotal s.table).toNat = sumSizes s.live)

/-! ## What a step can do -/

/-- A thread that is in front of `alloc_cap_record` or `alloc_cap_release` holds a block that is
on only one of the two sides, live and tracked. -/
def VramPhase.Holds : VramPhase → Prop
  | .record _ => True
  | .release _ (some _) => True
  | _ => False

/-- The effects of a step of `t`. -/
inductive VramEffect (cap : UInt64) (s : VramThreads T) (t : T) : VramAct → VramThreads T → Prop
  | nothing (act : VramAct) : VramEffect cap s t act s
  | moved (act : VramAct) (p : VramPhase) (hold : ¬ (s.phase t).Holds) (hnew : ¬ p.Holds)
      (hadmitted : ∀ size total, p = .hipMalloc size total → act = .wouldExceed ∧
        s.phase t = .wouldExceed size total ∧ allocCapWouldExceed total size cap = false)
      (hnull : ∀ ptr, p = .release ptr none → act = .hipFree 0 ∧ s.phase t = .hipFree ptr ∧
        s.live.find? (·.ptr = ptr) = none) :
      VramEffect cap s t act (s.moved t p)
  | allocated (size total : UInt64) (ptr : Ptr) (hphase : s.phase t = .hipMalloc size total)
      (hptr : ptr ≠ 0) :
      VramEffect cap s t (.hipMalloc 0 ptr)
        { s.moved t (.record ⟨ptr, size⟩) with live := ⟨ptr, size⟩ :: s.live }
  | recorded (block : AllocEntry) (hphase : s.phase t = .record block) :
      VramEffect cap s t .record
        { s.moved t .idle with table := (allocCapRecord s.table block.ptr block.size).2 }
  | freed (ptr : Ptr) (block : AllocEntry) (hphase : s.phase t = .hipFree ptr)
      (hlive : block ∈ s.live) (hptr : block.ptr = ptr) :
      VramEffect cap s t (.hipFree 0)
        { s.moved t (.release ptr (some block)) with live := s.live.erase block }
  | released (ptr : Ptr) (block : Option AllocEntry) (hphase : s.phase t = .release ptr block) :
      VramEffect cap s t .release
        { s.moved t .idle with table := (allocCapRelease s.table ptr).2 }

theorem vramStep_effect (cap : UInt64) (s : VramThreads T) (t : T) (act : VramAct) :
    VramEffect cap s t act (vramStep cap s (t, act)) := by
  unfold vramStep
  split
  case h_1 size hphase _ | h_2 ptr hphase _ | h_3 size hphase _ =>
    exact .moved _ _ (by simp [hphase, VramPhase.Holds]) (by simp [VramPhase.Holds]) (by simp)
      (by simp)
  case h_4 size total hphase hact =>
    have hold : ¬ (s.phase t).Holds := by simp [hphase, VramPhase.Holds]
    simp only at hact
    split
    case isTrue => exact .moved _ _ hold (by simp [VramPhase.Holds]) (by simp) (by simp)
    case isFalse hunder =>
      refine .moved _ _ hold (by simp [VramPhase.Holds]) ?_ (by simp)
      intro size' total' heq
      cases heq
      exact ⟨hact, hphase, Bool.eq_false_iff.mpr hunder⟩
  case h_5 size total ret ptr hphase hact =>
    simp only at hact
    subst hact
    split
    case isTrue hgranted =>
      obtain ⟨rfl, hptr⟩ := hgranted
      exact .allocated size total ptr hphase hptr
    case isFalse =>
      exact .moved _ _ (by simp [hphase, VramPhase.Holds]) (by simp [VramPhase.Holds]) (by simp)
        (by simp)
  case h_6 block hphase hact =>
    simp only at hact
    subst hact
    exact .recorded block hphase
  case h_7 ptr ret hphase hact =>
    have hold : ¬ (s.phase t).Holds := by simp [hphase, VramPhase.Holds]
    simp only at hact
    subst hact
    split
    case isTrue hret =>
      subst hret
      split
      case h_1 block hfind =>
        have hptr : block.ptr = ptr := by simpa using List.find?_some hfind
        exact .freed ptr block hphase (List.mem_of_find?_eq_some hfind) hptr
      case h_2 hfind =>
        refine .moved _ _ hold (by simp [VramPhase.Holds]) (by simp) ?_
        intro ptr' heq
        cases heq
        exact ⟨rfl, hphase, hfind⟩
    case isFalse => exact .moved _ _ hold (by simp [VramPhase.Holds]) (by simp) (by simp)
  case h_8 ptr block hphase hact =>
    simp only at hact
    subst hact
    exact .released ptr block hphase
  case h_9 => exact .nothing act

/-! ## A call on its own -/

/-- The steps of `unix_malloc`, with what `hipMalloc` answers. -/
def mallocSteps (t : T) (size : UInt64) (ret : Int32) (ptr : Ptr) : List (T × VramAct) :=
  [(t, .unixMalloc size), (t, .total), (t, .wouldExceed), (t, .hipMalloc ret ptr), (t, .record)]

/-- The steps of `unix_free`, with what `hipFree` answers. -/
def freeSteps (t : T) (ptr : Ptr) (ret : Int32) : List (T × VramAct) :=
  [(t, .unixFree ptr), (t, .hipFree ret), (t, .release)]

section Alone

variable {s : VramThreads T} {t : T} (hidle : s.phase t = .idle) {w : World}
  {native : NativeState} (htable : s.table = native.allocCap)
  (hloaded : (ensureLoaded w native).1 = true)
include hidle htable hloaded

/-- With no step of another thread in between, the steps are `unix_malloc`. -/
theorem run_mallocSteps (hsym : (ensureLoaded w native).2.hasSym .hipMalloc = true)
    (size : UInt64) :
    (run (vramStep native.vramCap) s
      (mallocSteps t size (w.hip (.malloc size)).ret (w.hip (.malloc size)).ptr)).table
        = (unixMalloc w native { size }).state.allocCap := by
  obtain ⟨hiff, hsuccess, hfailure⟩ := unixMalloc_spec w native size
  simp only [mallocSteps, run_cons, run_nil, vramStep, hidle, VramThreads.moved,
    Function.update_self]
  cases hunder : allocCapWouldExceed (allocCapTotal s.table) size native.vramCap with
  | true =>
    have hret : (unixMalloc w native { size }).args.ret ≠ 0 := by
      intro hret
      have hreach := (hiff.mp hret).1.2.2
      rw [← htable, hunder] at hreach
      cases hreach
    rw [hfailure hret]
    simpa using htable
  | false =>
    by_cases hret : (w.hip (.malloc size)).ret = 0
    · have hok := hiff.mpr ⟨⟨hloaded, hsym, by rw [← htable]; exact hunder⟩, hret⟩
      rw [(hsuccess hok).2, ← htable]
      -- a successful call that returns `NULL` has nothing to record
      by_cases hptr : (w.hip (.malloc size)).ptr = 0
      · simp [hret, hptr, allocCapRecord]
      · simp [hret, hptr]
    · have hfail : (unixMalloc w native { size }).args.ret ≠ 0 := fun h => hret (hiff.mp h).2
      rw [hfailure hfail]
      simpa [hret] using htable

/-- And those of `unix_free` are `unix_free`. -/
theorem run_freeSteps (hsym : (ensureLoaded w native).2.hasSym .hipFree = true) (cap : UInt64)
    (ptr : Ptr) :
    (run (vramStep cap) s (freeSteps t ptr (w.hip (.free ptr)).ret)).table
      = (unixFree w native { ptr }).state.allocCap := by
  obtain ⟨hiff, hsuccess, hfailure⟩ := unixFree_spec w native ptr
  simp only [freeSteps, run_cons, run_nil, vramStep, hidle, VramThreads.moved,
    Function.update_self]
  by_cases hret : (w.hip (.free ptr)).ret = 0
  · rw [hsuccess (hiff.mpr ⟨⟨hloaded, hsym⟩, hret⟩), ← htable]
    cases s.live.find? (·.ptr = ptr) <;> simp [hret]
  · have hfail : (unixFree w native { ptr }).args.ret ≠ 0 := fun h => hret (hiff.mp h).2
    rw [hfailure hfail]
    simpa [hret] using htable

end Alone

/-! ## The invariant -/

/-- The block that is live and not tracked yet. -/
def VramPhase.unrecorded : VramPhase → Multiset AllocEntry
  | .record block => {block}
  | _ => 0

/-- The block that is still tracked and not live any more. -/
def VramPhase.unreleased : VramPhase → Multiset AllocEntry
  | .release _ (some block) => {block}
  | _ => 0

theorem VramPhase.sides_of_not_holds {p : VramPhase} (h : ¬ p.Holds) :
    p.unrecorded = 0 ∧ p.unreleased = 0 := by
  cases p with
  | record block => exact absurd trivial h
  | release ptr block =>
    cases block with
    | none => exact ⟨rfl, rfl⟩
    | some block => exact absurd trivial h
  | _ => exact ⟨rfl, rfl⟩

@[simp] theorem VramPhase.unrecorded_idle : VramPhase.idle.unrecorded = 0 := rfl

@[simp] theorem VramPhase.unreleased_idle : VramPhase.idle.unreleased = 0 := rfl

/-- What a sum over the threads loses and gains when one of them moves on. -/
theorem sum_update_add {ι α M : Type*} [Fintype ι] [DecidableEq ι] [AddCommMonoid M] (f : α → M)
    (g : ι → α) (i : ι) (a : α) :
    ∑ j, f (Function.update g i a j) + f (g i) = ∑ j, f (g j) + f a := by
  have hrest : ∑ j ∈ Finset.univ.erase i, f (Function.update g i a j)
      = ∑ j ∈ Finset.univ.erase i, f (g j) := by
    refine Finset.sum_congr rfl fun j hj => ?_
    rw [Function.update_of_ne (Finset.ne_of_mem_erase hj)]
  rw [← Finset.add_sum_erase _ _ (Finset.mem_univ i), hrest, Function.update_self,
    ← Finset.add_sum_erase Finset.univ (fun j => f (g j)) (Finset.mem_univ i)]
  exact (add_right_comm _ _ _).trans (by rw [add_comm (f a), add_right_comm])

/-- A request is granted below the cap, a block has an address, and only `NULL` is freed without
a block. -/
def VramPhase.Ok (cap : UInt64) : VramPhase → Prop
  | .hipMalloc size seen => seen.toNat + size.toNat ≤ cap.toNat
  | .record block => block.ptr ≠ 0
  | .release ptr none => ptr = 0
  | .release ptr (some _) => ptr ≠ 0
  | _ => True

variable [Fintype T]

def VramThreads.unrecorded (s : VramThreads T) : Multiset AllocEntry :=
  ∑ t, (s.phase t).unrecorded

def VramThreads.unreleased (s : VramThreads T) : Multiset AllocEntry :=
  ∑ t, (s.phase t).unreleased

/-- The invariant: what is tracked or about to be is what is live or about to be released; the
total is the exact sum of what is tracked; and the cap is kept. -/
structure VramThreads.Inv (cap : UInt64) (s : VramThreads T) : Prop where
  balance : (s.table.entries : Multiset AllocEntry) + s.unrecorded = s.live + s.unreleased
  total : (allocCapTotal s.table).toNat = sumSizes s.table.entries
  le_cap : sumSizes s.live ≤ cap.toNat
  notNull : ∀ e ∈ s.live, e.ptr ≠ 0
  phases : ∀ t, (s.phase t).Ok cap

omit [DecidableEq T] in
theorem VramThreads.inv_init (cap : UInt64) : (init : VramThreads T).Inv cap where
  balance := by simp [init, unrecorded, unreleased]
  total := rfl
  le_cap := Nat.zero_le _
  notNull := fun e he => by simp [init] at he
  phases := fun _ => by simp [init, VramPhase.Ok]

omit [DecidableEq T] in
/-- With no call under way, what is tracked is what is live. -/
theorem VramThreads.Inv.safe {cap : UInt64} {s : VramThreads T} (h : s.Inv cap) :
    VramSafe cap s := by
  refine ⟨h.le_cap, fun hidle => ?_⟩
  have hbalance := h.balance
  have hunrecorded : s.unrecorded = 0 :=
    Finset.sum_eq_zero fun t _ => by rw [hidle t, VramPhase.unrecorded_idle]
  have hunreleased : s.unreleased = 0 :=
    Finset.sum_eq_zero fun t _ => by rw [hidle t, VramPhase.unreleased_idle]
  rw [hunrecorded, hunreleased, add_zero, add_zero] at hbalance
  rw [h.total]
  exact sumSizes_perm (Multiset.coe_eq_coe.mp hbalance)

/-! ## One step -/

section Step

variable {cap : UInt64} {s : VramThreads T} {t : T} {p : VramPhase}

/-- What the two sides lose and gain when a thread moves on. -/
theorem sides_moved {old : VramPhase} (hphase : s.phase t = old) (p : VramPhase) :
    (s.moved t p).unrecorded + old.unrecorded = s.unrecorded + p.unrecorded ∧
      (s.moved t p).unreleased + old.unreleased = s.unreleased + p.unreleased := by
  rw [← hphase]
  exact ⟨sum_update_add VramPhase.unrecorded s.phase t p,
    sum_update_add VramPhase.unreleased s.phase t p⟩

omit [DecidableEq T] in
theorem VramThreads.Inv.phase (h : s.Inv cap) (hphase : s.phase t = p) : p.Ok cap := by
  rw [← hphase]
  exact h.phases t

theorem phases_moved (h : s.Inv cap) (hp : p.Ok cap) : ∀ u, ((s.moved t p).phase u).Ok cap :=
  (Function.forall_update_iff s.phase fun _ q => q.Ok cap).mpr ⟨hp, fun u _ => h.phases u⟩

/-- A thread that holds no block before and after moves on. -/
theorem VramThreads.Inv.moved (h : s.Inv cap) (hold : ¬ (s.phase t).Holds) (hnew : ¬ p.Holds)
    (hp : p.Ok cap) : (s.moved t p).Inv cap := by
  obtain ⟨hrecord, hrelease⟩ := VramPhase.sides_of_not_holds hold
  obtain ⟨hrecord', hrelease'⟩ := VramPhase.sides_of_not_holds hnew
  obtain ⟨hunrecorded, hunreleased⟩ := @sides_moved T _ _ s t _ rfl p
  rw [hrecord, hrecord', add_zero, add_zero] at hunrecorded
  rw [hrelease, hrelease', add_zero, add_zero] at hunreleased
  refine ⟨?_, h.total, h.le_cap, h.notNull, phases_moved h hp⟩
  rw [hunrecorded, hunreleased]
  exact h.balance

/-- The total the request was compared with covers what is live, so the block fits too. -/
theorem VramThreads.Inv.allocated (h : s.Inv cap) {size seen : UInt64} {ptr : Ptr}
    (hphase : s.phase t = .hipMalloc size seen) (hptr : ptr ≠ 0)
    (hcurrent : sumSizes s.live ≤ seen.toNat) :
    VramThreads.Inv cap
      { s.moved t (.record ⟨ptr, size⟩) with live := ⟨ptr, size⟩ :: s.live } := by
  obtain ⟨hunrecorded, hunreleased⟩ := sides_moved hphase (.record ⟨ptr, size⟩)
  simp only [VramPhase.unrecorded, VramPhase.unreleased, add_zero] at hunrecorded hunreleased
  refine ⟨?_, h.total, ?_, ?_, phases_moved h hptr⟩
  · show (s.table.entries : Multiset AllocEntry) + (s.moved t (.record ⟨ptr, size⟩)).unrecorded
      = ↑(⟨ptr, size⟩ :: s.live) + (s.moved t (.record ⟨ptr, size⟩)).unreleased
    rw [hunrecorded, hunreleased, ← add_assoc, h.balance, ← Multiset.cons_coe,
      ← Multiset.singleton_add, add_comm, add_assoc]
  · show sumSizes (⟨ptr, size⟩ :: s.live) ≤ cap.toNat
    have hle : seen.toNat + size.toNat ≤ cap.toNat := h.phase hphase
    rw [sumSizes_cons]
    show size.toNat + sumSizes s.live ≤ cap.toNat
    omega
  · intro e he
    rcases List.mem_cons.mp he with rfl | he
    · exact hptr
    · exact h.notNull e he

/-- There is room in the table, so the block is now tracked. -/
theorem VramThreads.Inv.recorded (h : s.Inv cap) {block : AllocEntry}
    (hphase : s.phase t = .record block) (hroom : s.table.entries.length < maxTrackedAllocs)
    (hfits : (allocCapTotal s.table).toNat + block.size.toNat < 2 ^ 64) :
    VramThreads.Inv cap
      { s.moved t .idle with table := (allocCapRecord s.table block.ptr block.size).2 } := by
  obtain ⟨hunrecorded, hunreleased⟩ := sides_moved hphase .idle
  simp only [VramPhase.unrecorded, VramPhase.unreleased, add_zero] at hunrecorded hunreleased
  have hptr : block.ptr ≠ 0 := h.phase hphase
  rcases allocCapRecord_cases s.table block.ptr block.size with
    ⟨hfull, -⟩ | ⟨-, -, table, hrecord, hentries, htotal⟩
  · rcases hfull with hzero | hfull
    · exact absurd hzero hptr
    · omega
  · rw [hrecord]
    refine ⟨?_, ?_, h.le_cap, h.notNull, phases_moved h trivial⟩
    · show (table.entries : Multiset AllocEntry) + (s.moved t .idle).unrecorded
        = s.live + (s.moved t .idle).unreleased
      rw [hunreleased, ← h.balance, ← hunrecorded, hentries, ← Multiset.coe_add,
        Multiset.coe_singleton, add_assoc, add_comm {_}]
    · exact exactTotal_recorded h.total hfits hentries htotal

/-- A block that is taken back stays tracked for now. -/
theorem VramThreads.Inv.freed (h : s.Inv cap) {ptr : Ptr} {block : AllocEntry}
    (hphase : s.phase t = .hipFree ptr) (hlive : block ∈ s.live) (hptr : block.ptr = ptr) :
    VramThreads.Inv cap
      { s.moved t (.release ptr (some block)) with live := s.live.erase block } := by
  obtain ⟨hunrecorded, hunreleased⟩ := sides_moved hphase (.release ptr (some block))
  simp only [VramPhase.unrecorded, VramPhase.unreleased, add_zero] at hunrecorded hunreleased
  have hperm : s.live.Perm (block :: s.live.erase block) := List.perm_cons_erase hlive
  have hnull : ptr ≠ 0 := hptr ▸ h.notNull block hlive
  refine ⟨?_, h.total, ?_, fun e he => h.notNull e (List.mem_of_mem_erase he), phases_moved h hnull⟩
  · show (s.table.entries : Multiset AllocEntry)
        + (s.moved t (.release ptr (some block))).unrecorded
      = ↑(s.live.erase block) + (s.moved t (.release ptr (some block))).unreleased
    rw [hunrecorded, hunreleased, h.balance, Multiset.coe_eq_coe.mpr hperm, ← Multiset.cons_coe,
      ← Multiset.singleton_add, add_comm {_}, add_assoc, add_comm {_}]
  · have hsum := sumSizes_perm hperm
    have hle := h.le_cap
    rw [sumSizes_cons] at hsum
    show sumSizes (s.live.erase block) ≤ cap.toNat
    omega

/-- The entry that is released is that of the block, so the two sides lose the same. -/
theorem VramThreads.Inv.released (h : s.Inv cap) {ptr : Ptr} {block : AllocEntry}
    (hphase : s.phase t = .release ptr (some block))
    (hfirst : s.table.entries.find? (·.ptr = ptr) = some block) :
    VramThreads.Inv cap
      { s.moved t .idle with table := (allocCapRelease s.table ptr).2 } := by
  obtain ⟨hunrecorded, hunreleased⟩ := sides_moved hphase .idle
  simp only [VramPhase.unrecorded, VramPhase.unreleased, add_zero] at hunrecorded hunreleased
  have hptr : ptr ≠ 0 := h.phase hphase
  obtain ⟨table, hrelease, hperm, htotal⟩ := allocCapRelease_first hptr hfirst
  rw [hrelease]
  refine ⟨?_, ?_, h.le_cap, h.notNull, phases_moved h trivial⟩
  · show (table.entries : Multiset AllocEntry) + (s.moved t .idle).unrecorded
      = s.live + (s.moved t .idle).unreleased
    have hbalance := h.balance
    rw [Multiset.coe_eq_coe.mpr hperm, ← Multiset.cons_coe, ← Multiset.singleton_add,
      ← hunreleased, add_assoc, add_comm {_}, ← add_assoc] at hbalance
    rw [hunrecorded]
    exact add_right_cancel hbalance
  · exact exactTotal_released h.total hperm htotal

/-- Freeing `NULL` releases nothing. -/
theorem VramThreads.Inv.releasedNull (h : s.Inv cap) {ptr : Ptr}
    (hphase : s.phase t = .release ptr none) :
    VramThreads.Inv cap
      { s.moved t .idle with table := (allocCapRelease s.table ptr).2 } := by
  have hptr : ptr = 0 := h.phase hphase
  rw [allocCapRelease_unknown (Or.inl hptr)]
  exact h.moved (by simp [hphase, VramPhase.Holds]) (by simp [VramPhase.Holds]) trivial

end Step

/-- One step. -/
theorem inv_vramStep {cap : UInt64} (hcap : cap ≠ 0) {s : VramThreads T} {a : T × VramAct}
    (h : s.Inv cap) (hpromise : VramPromise s a) (hunraced : Unraced s a) :
    (vramStep cap s a).Inv cap := by
  obtain ⟨t, act⟩ := a
  have heffect := vramStep_effect cap s t act
  generalize vramStep cap s (t, act) = s' at heffect ⊢
  cases heffect with
  | nothing => exact h
  | moved _ p hold hnew hadmitted hnull =>
    refine h.moved hold hnew ?_
    cases p with
    | hipMalloc size seen =>
      obtain ⟨rfl, hphase, hunder⟩ := hadmitted size seen rfl
      exact add_le_cap_of_admitted hcap hunder (hpromise size seen hphase)
    | record block => exact absurd trivial hnew
    | release ptr block =>
      cases block with
      | some block => exact absurd trivial hnew
      | none =>
        obtain ⟨rfl, hphase, hfind⟩ := hnull ptr rfl
        rcases hpromise ptr hphase rfl with hzero | ⟨e, he, hptr⟩
        · exact hzero
        · exact absurd (by simpa using hptr) (List.find?_eq_none.mp hfind e he)
    | _ => trivial
  | allocated size seen ptr hphase hptr =>
    exact h.allocated hphase hptr (hunraced size seen hphase rfl hptr)
  | recorded block hphase =>
    exact h.recorded hphase (hunraced block hphase) (hpromise block hphase)
  | freed ptr block hphase hlive hptr => exact h.freed hphase hlive hptr
  | released ptr block hphase =>
    cases block with
    | none => exact h.releasedNull hphase
    | some block => exact h.released hphase (hunraced ptr block hphase)

/-- **When the cap holds under concurrency.** In every run whose steps are not raced, the live
blocks fit under the cap in every state, and the total is their sum in every state without a call
under way. -/
theorem vramSafe_of_unraced (cap : UInt64) (hcap : cap ≠ 0) (acts : List (T × VramAct))
    (hpromise : Along (vramStep cap) VramPromise .init acts)
    (hunraced : Along (vramStep cap) Unraced .init acts) :
    Always (vramStep cap) (VramSafe cap) .init acts := by
  have hkeep : ∀ (s : VramThreads T) a, s.Inv cap → (VramPromise s a ∧ Unraced s a) →
      (vramStep cap s a).Inv cap := fun s a h hboth => inv_vramStep hcap h hboth.1 hboth.2
  exact (always_of_along hkeep (VramThreads.inv_init cap)
    (along_and.mpr ⟨hpromise, hunraced⟩)).imp fun _ => VramThreads.Inv.safe

/-- Thread `true` gives its block back while thread `false` asks for one. -/
def overlappingCalls : List (Bool × VramAct) :=
  mallocSteps true 60 0 0x1000 ++
  [(false, .unixMalloc 30), (true, .unixFree 0x1000), (false, .total), (true, .hipFree 0),
    (false, .wouldExceed), (false, .hipMalloc 0 0x2000), (true, .release), (false, .record)]

theorem overlappingCalls_safe :
    Always (vramStep 100) (VramSafe 100) (.init : VramThreads Bool) overlappingCalls := by
  refine vramSafe_of_unraced 100 (by decide) overlappingCalls ?_ ?_
  · refine ⟨trivial, trivial, ?_, ?_, ?_, trivial, trivial, trivial, ?_, ?_, ?_, trivial, ?_,
      trivial⟩
    · rintro size seen ⟨⟩; decide
    · rintro size seen ⟨⟩ _ e he; cases he
    · rintro block ⟨⟩; decide
    · rintro ptr ⟨⟩ _; decide
    · rintro size seen ⟨⟩; decide
    · rintro size seen ⟨⟩ _ e he; cases he
    · rintro block ⟨⟩; decide
  · refine ⟨trivial, trivial, trivial, ?_, ?_, trivial, trivial, trivial, trivial, trivial, ?_, ?_,
      ?_, trivial⟩
    · rintro size seen ⟨⟩ _ _; decide
    · rintro block ⟨⟩; decide
    · rintro size seen ⟨⟩ _ _; decide
    · rintro ptr block ⟨⟩; decide
    · rintro block ⟨⟩; decide

/-- Both threads are admitted before either has allocated. -/
def racingMallocs : List (Bool × VramAct) :=
  [(false, .unixMalloc 60), (true, .unixMalloc 60), (false, .total), (true, .total),
    (false, .wouldExceed), (true, .wouldExceed), (false, .hipMalloc 0 0x1000),
    (true, .hipMalloc 0 0x2000)]

/-- Thread `true` is handed the address thread `false` has freed and not released yet, and another
release moves the new entry in front of the old. -/
def reusedAddress : List (Bool × VramAct) :=
  mallocSteps true 1 0 0x1000 ++ mallocSteps true 10 0 0x2000 ++
  [(false, .unixFree 0x2000), (false, .hipFree 0)] ++ mallocSteps true 20 0 0x2000 ++
  freeSteps true 0x1000 0 ++ [(false, .release)]

/-- Two blocks of 60 bytes are live under a cap of 100; and the total is 10 when all calls have
returned and one block of 20 bytes is live. -/
theorem raced_not_safe :
    (Along (vramStep 100) VramPromise .init racingMallocs ∧
      ¬ Always (vramStep 100) (VramSafe 100) .init racingMallocs) ∧
    (Along (vramStep 100) VramPromise .init reusedAddress ∧
      ¬ Always (vramStep 100) (VramSafe 100) .init reusedAddress) := by
  refine ⟨⟨?_, fun h => ?_⟩, ?_, fun h => ?_⟩
  · refine ⟨trivial, trivial, trivial, trivial, ?_, ?_, ?_, ?_, trivial⟩
    · rintro size seen ⟨⟩; decide
    · rintro size seen ⟨⟩; decide
    · rintro size seen ⟨⟩ _ e he; cases he
    · rintro size seen ⟨⟩ _ e he; revert e; decide
  · have hcap := h.last.1
    revert hcap
    decide
  · refine ⟨trivial, trivial, ?_, ?_, ?_, trivial, trivial, ?_, ?_, ?_, trivial, ?_, trivial,
      trivial, ?_, ?_, ?_, trivial, ?_, trivial, trivial, trivial⟩
    · rintro size seen ⟨⟩; decide
    · rintro size seen ⟨⟩ _ e he; cases he
    · rintro block ⟨⟩; decide
    · rintro size seen ⟨⟩; decide
    · rintro size seen ⟨⟩ _ e he; revert e; decide
    · rintro block ⟨⟩; decide
    · rintro ptr ⟨⟩ _; decide
    · rintro size seen ⟨⟩; decide
    · rintro size seen ⟨⟩ _ e he; revert e; decide
    · rintro block ⟨⟩; decide
    · rintro ptr ⟨⟩ _; decide
  · have htotal := h.last.2 fun t => by cases t <;> rfl
    revert htotal
    decide +kernel

end HipBridge.Unixlib
