import HipBridge.Lib.Run
import HipBridge.Unixlib.Native

/-!
# The cap on outstanding GPU memory

Runs of `unix_malloc` and `unix_free` with `DLSSNR_VRAM_CAP_BYTES` set. Beside the native state
a run keeps the **`outstanding`** blocks: those a successful `unix_malloc` returned and no
successful `unix_free` gave back.

* **`HipPromise`** — what is assumed of the HIP library: a successful `hipMalloc` returns a
  pointer that is not `NULL` and not outstanding, and `hipFree` succeeds exactly on
  outstanding pointers.
* **`CapSafe`** — the exact sum of the outstanding sizes is at most the cap, and the running
  total is not smaller than it.
* **`capSafe_iff_mallocFits`** — a run is safe throughout exactly when each allocation that
  succeeds finds room in the tracking table and does not wrap the running total.
-/

namespace HipBridge.Unixlib

open Lib

/-! ## The cap in force -/

/-- The cap `unix_malloc` compares with. -/
def NativeState.vramCap (s : NativeState) : UInt64 := (ensureVramCapRead s).vramCapBytes

/-- The cap in force depends on the two statics and the environment variable alone. -/
theorem vramCap_eq (s : NativeState) : s.vramCap =
    if s.vramCapRead then s.vramCapBytes
    else match s.env.vramCapBytes with
      | some env => if env.bytes = [] then s.vramCapBytes else strtoull env
      | none => s.vramCapBytes := by
  unfold NativeState.vramCap ensureVramCapRead
  split
  case isTrue => rfl
  case isFalse =>
    cases hvar : s.env.vramCapBytes with
    | none => simp [hvar]
    | some env =>
      by_cases henv : env.bytes = [] <;> simp [hvar, henv]

/-- Reading the variable settles the cap in force and touches nothing else. -/
theorem ensureVramCapRead_eq (s : NativeState) :
    ensureVramCapRead s = { s with vramCapRead := true, vramCapBytes := s.vramCap } := by
  obtain ⟨env, hipHandle, registry, allocCap, vramCapBytes, vramCapRead⟩ := s
  rw [vramCap_eq]
  unfold ensureVramCapRead
  cases vramCapRead with
  | true => rfl
  | false =>
    cases hvar : env.vramCapBytes with
    | none => simp [hvar]
    | some var =>
      by_cases hempty : var.bytes = [] <;> simp [hvar, hempty]

@[simp] theorem vramCap_ensureVramCapRead (s : NativeState) :
    (ensureVramCapRead s).vramCap = s.vramCap := by
  rw [ensureVramCapRead_eq, vramCap_eq]
  rfl

@[simp] theorem vramCap_ensureLoaded (w : World) (s : NativeState) :
    (ensureLoaded w s).2.vramCap = s.vramCap := by
  -- loading changes another environment variable and the handle
  have hkept : (ensureLoaded w s).2.vramCapRead = s.vramCapRead ∧
      (ensureLoaded w s).2.env.vramCapBytes = s.env.vramCapBytes ∧
      (ensureLoaded w s).2.vramCapBytes = s.vramCapBytes := by
    unfold ensureLoaded
    split
    · exact ⟨rfl, rfl, rfl⟩
    · split <;> exact ⟨rfl, rfl, rfl⟩
  obtain ⟨hread, henv, hbytes⟩ := hkept
  rw [vramCap_eq, vramCap_eq, hread, henv, hbytes]

@[simp] theorem vramCap_with_allocCap (s : NativeState) (allocCap : AllocCap) :
    ({ s with allocCap } : NativeState).vramCap = s.vramCap := by
  rw [vramCap_eq, vramCap_eq]

@[simp] theorem allocCap_ensureLoaded (w : World) (s : NativeState) :
    (ensureLoaded w s).2.allocCap = s.allocCap := by
  unfold ensureLoaded
  split
  · rfl
  · split <;> rfl

@[simp] theorem allocCap_ensureVramCapRead (s : NativeState) :
    (ensureVramCapRead s).allocCap = s.allocCap := by
  rw [ensureVramCapRead_eq]

/-! ## One call -/

/-- The request reaches `hipMalloc`: the library is there and the cap admits the size. -/
def ReachesHipMalloc (w : World) (s : NativeState) (size : UInt64) : Prop :=
  (ensureLoaded w s).1 = true ∧ (ensureLoaded w s).2.hasSym .hipMalloc = true ∧
    allocCapWouldExceed (allocCapTotal s.allocCap) size s.vramCap = false

def ReachesHipFree (w : World) (s : NativeState) : Prop :=
  (ensureLoaded w s).1 = true ∧ (ensureLoaded w s).2.hasSym .hipFree = true

/-- `unix_malloc` returns a block exactly when `hipMalloc` is reached and succeeds; it then
tries to track the block, and otherwise tracks nothing. -/
theorem unixMalloc_spec (w : World) (s : NativeState) (size : UInt64) :
    ((unixMalloc w s { size }).args.ret = 0 ↔
      ReachesHipMalloc w s size ∧ (w.hip (.malloc size)).ret = 0) ∧
    ((unixMalloc w s { size }).args.ret = 0 →
      (unixMalloc w s { size }).args.ptr = (w.hip (.malloc size)).ptr ∧
      (unixMalloc w s { size }).state.allocCap
        = (allocCapRecord s.allocCap (w.hip (.malloc size)).ptr size).2) ∧
    ((unixMalloc w s { size }).args.ret ≠ 0 →
      (unixMalloc w s { size }).state.allocCap = s.allocCap) := by
  by_cases hload : (!(ensureLoaded w s).1 || !(ensureLoaded w s).2.hasSym .hipMalloc) = true
  · have hmissing : ¬ ReachesHipMalloc w s size := by
      rintro ⟨hloaded, hsym, -⟩
      simp [hloaded, hsym] at hload
    simp [unixMalloc, hload, hmissing]
  have hreach : (ensureLoaded w s).1 = true ∧
      (ensureLoaded w s).2.hasSym .hipMalloc = true := by simpa using hload
  have hcap : (ensureVramCapRead (ensureLoaded w s).2).vramCapBytes = s.vramCap :=
    vramCap_ensureLoaded w s
  -- the cap check decides whether `hipMalloc` is reached
  cases hunder : allocCapWouldExceed s.allocCap.totalBytes size s.vramCap with
  | true =>
    simp [unixMalloc, hload, hcap, allocCapTotal, hunder, hipErrorOutOfMemory, ReachesHipMalloc]
  | false =>
    by_cases hptr : (w.hip (.malloc size)).ptr = 0 <;>
      by_cases hret : (w.hip (.malloc size)).ret = 0 <;>
        simp [unixMalloc, hcap, allocCapTotal, hunder, hret, hptr, ReachesHipMalloc, hreach,
          allocCapRecord]

@[simp] theorem vramCap_unixMalloc (w : World) (s : NativeState) (a : ArgsMalloc) :
    (unixMalloc w s a).state.vramCap = s.vramCap := by
  simp only [unixMalloc]
  repeat' split
  all_goals simp

theorem hipHandle_unixMalloc (w : World) (s : NativeState) (a : ArgsMalloc) :
    (unixMalloc w s a).state.hipHandle = (ensureLoaded w s).2.hipHandle := by
  simp only [unixMalloc, ensureVramCapRead_eq]
  repeat' split
  all_goals rfl

/-- `unix_free` gives a block back exactly when `hipFree` is reached and succeeds; it then
releases the pointer, and otherwise releases nothing. -/
theorem unixFree_spec (w : World) (s : NativeState) (ptr : Ptr) :
    ((unixFree w s { ptr }).args.ret = 0 ↔
      ReachesHipFree w s ∧ (w.hip (.free ptr)).ret = 0) ∧
    ((unixFree w s { ptr }).args.ret = 0 →
      (unixFree w s { ptr }).state.allocCap = (allocCapRelease s.allocCap ptr).2) ∧
    ((unixFree w s { ptr }).args.ret ≠ 0 →
      (unixFree w s { ptr }).state.allocCap = s.allocCap) := by
  by_cases hload : (!(ensureLoaded w s).1 || !(ensureLoaded w s).2.hasSym .hipFree) = true
  · have hmissing : ¬ ReachesHipFree w s := by
      rintro ⟨hloaded, hsym⟩
      simp [hloaded, hsym] at hload
    simp [unixFree, hload, hmissing]
  have hreach : ReachesHipFree w s := by simpa [ReachesHipFree] using hload
  by_cases hret : (w.hip (.free ptr)).ret = 0 <;> simp [unixFree, hload, hret, hreach]

@[simp] theorem vramCap_unixFree (w : World) (s : NativeState) (a : ArgsFree) :
    (unixFree w s a).state.vramCap = s.vramCap := by
  simp only [unixFree]
  split
  · exact vramCap_ensureLoaded w s
  · exact (vramCap_with_allocCap _ _).trans (vramCap_ensureLoaded w s)

/-! ## Runs -/

/-- A call of the game that reaches the allocator. -/
inductive AllocCall
  | malloc (size : UInt64)
  | free (ptr : Ptr)

/-- The native side, and the blocks obtained through `unix_malloc` and not given back. -/
structure CappedRun where
  native : NativeState
  outstanding : List AllocEntry

def CappedRun.init (env : Env) : CappedRun := ⟨NativeState.init env, []⟩

def CappedRun.step (r : CappedRun) : AllocCall × World → CappedRun
  | (.malloc size, w) =>
    let u := unixMalloc w r.native { size }
    { native := u.state
      outstanding :=
        if u.args.ret = 0 then ⟨u.args.ptr, size⟩ :: r.outstanding else r.outstanding }
  | (.free ptr, w) =>
    let u := unixFree w r.native { ptr }
    { native := u.state
      outstanding :=
        if u.args.ret = 0 then r.outstanding.filter (·.ptr ≠ ptr) else r.outstanding }

/-- What is assumed of the HIP library in the calls that reach it. -/
def HipPromise (r : CappedRun) : AllocCall × World → Prop
  | (.malloc size, w) =>
    ReachesHipMalloc w r.native size → (w.hip (.malloc size)).ret = 0 →
      (w.hip (.malloc size)).ptr ≠ 0 ∧
        ∀ e ∈ r.outstanding, e.ptr ≠ (w.hip (.malloc size)).ptr
  | (.free ptr, w) =>
    ReachesHipFree w r.native → ((w.hip (.free ptr)).ret = 0 ↔ ∃ e ∈ r.outstanding, e.ptr = ptr)

/-- The outstanding blocks fit under the cap, and the running total covers them. -/
def CapSafe (cap : UInt64) (r : CappedRun) : Prop :=
  sumSizes r.outstanding ≤ cap.toNat ∧
    sumSizes r.outstanding ≤ (allocCapTotal r.native.allocCap).toNat

/-- An allocation that succeeds finds a free entry of the tracking table (or needs none, being
empty) and does not wrap the running total. -/
def MallocFits (r : CappedRun) : AllocCall × World → Prop
  | (.malloc size, w) =>
    ReachesHipMalloc w r.native size → (w.hip (.malloc size)).ret = 0 →
      (r.native.allocCap.entries.length < maxTrackedAllocs ∨ size = 0) ∧
        (allocCapTotal r.native.allocCap).toNat + size.toNat < 2 ^ 64
  | (.free _, _) => True

instance (w : World) (s : NativeState) (size : UInt64) : Decidable (ReachesHipMalloc w s size) :=
  inferInstanceAs (Decidable (_ ∧ _ ∧ _))

instance (w : World) (s : NativeState) : Decidable (ReachesHipFree w s) :=
  inferInstanceAs (Decidable (_ ∧ _))

instance (r : CappedRun) : ∀ a, Decidable (HipPromise r a)
  | (.malloc _, _) => inferInstanceAs (Decidable (_ → _ → _))
  | (.free _, _) => inferInstanceAs (Decidable (_ → _))

instance (r : CappedRun) : ∀ a, Decidable (MallocFits r a)
  | (.malloc _, _) => inferInstanceAs (Decidable (_ → _ → _))
  | (.free _, _) => inferInstanceAs (Decidable True)

/-- The invariant of the runs that fit: what is outstanding is what is tracked, but for empty
blocks, and the total is its exact sum. -/
structure CappedRun.Inv (cap : UInt64) (r : CappedRun) : Prop where
  inForce : r.native.vramCap = cap
  nodup : (r.outstanding.map AllocEntry.ptr).Nodup
  notNull : ∀ e ∈ r.outstanding, e.ptr ≠ 0
  tracked : ∃ untracked, r.outstanding.Perm (r.native.allocCap.entries ++ untracked) ∧
    ∀ e ∈ untracked, e.size = 0
  total : r.native.allocCap.totalBytes.toNat = sumSizes r.native.allocCap.entries
  le_cap : sumSizes r.native.allocCap.entries ≤ cap.toNat

theorem sumSizes_eq_zero {es : List AllocEntry} (h : ∀ e ∈ es, e.size = 0) : sumSizes es = 0 := by
  induction es with
  | nil => rfl
  | cons e es ih =>
    have he := h e List.mem_cons_self
    rw [sumSizes_cons, ih fun x hx => h x (List.mem_cons_of_mem e hx), he]
    rfl

theorem CappedRun.Inv.sum_outstanding {cap : UInt64} {r : CappedRun} (h : r.Inv cap) :
    sumSizes r.outstanding = r.native.allocCap.totalBytes.toNat := by
  obtain ⟨untracked, hperm, hzero⟩ := h.tracked
  rw [sumSizes_perm hperm, sumSizes_append, sumSizes_eq_zero hzero, h.total, Nat.add_zero]

theorem CappedRun.Inv.safe {cap : UInt64} {r : CappedRun} (h : r.Inv cap) : CapSafe cap r := by
  refine ⟨?_, Nat.le_of_eq h.sum_outstanding⟩
  rw [h.sum_outstanding, h.total]
  exact h.le_cap

/-! ## One step -/

/-- What the cap check says about the exact numbers. -/
theorem add_le_cap_of_admitted {total size cap : UInt64} (hcap : cap ≠ 0)
    (hunder : allocCapWouldExceed total size cap = false)
    (hfits : total.toNat + size.toNat < 2 ^ 64) : total.toNat + size.toNat ≤ cap.toNat := by
  have hle : (total + size).toNat ≤ cap.toNat := by
    simpa [allocCapWouldExceed, hcap, UInt64.le_iff_toNat_le] using hunder
  rwa [UInt64.toNat_add, Nat.mod_eq_of_lt hfits] at hle

/-- A successful allocation, and what it does to the outstanding blocks and the table. -/
theorem step_malloc_success {r : CappedRun} {w : World} {size : UInt64}
    (hreach : ReachesHipMalloc w r.native size) (hret : (w.hip (.malloc size)).ret = 0) :
    (r.step (.malloc size, w)).outstanding
      = ⟨(w.hip (.malloc size)).ptr, size⟩ :: r.outstanding ∧
    (r.step (.malloc size, w)).native.allocCap
      = (allocCapRecord r.native.allocCap (w.hip (.malloc size)).ptr size).2 := by
  obtain ⟨hiff, hsuccess, -⟩ := unixMalloc_spec w r.native size
  have hok := hiff.mpr ⟨hreach, hret⟩
  obtain ⟨hptr, hcapState⟩ := hsuccess hok
  refine ⟨?_, hcapState⟩
  simp only [CappedRun.step, hok, if_pos, hptr]

/-- A call that does not succeed changes neither. -/
theorem inv_of_unchanged {cap : UInt64} {r r' : CappedRun} (h : r.Inv cap)
    (hcap : r'.native.vramCap = r.native.vramCap)
    (hout : r'.outstanding = r.outstanding)
    (hstate : r'.native.allocCap = r.native.allocCap) : r'.Inv cap := by
  constructor
  · rw [hcap, h.inForce]
  · rw [hout]
    exact h.nodup
  · rw [hout]
    exact h.notNull
  · rw [hout, hstate]
    exact h.tracked
  · rw [hstate]
    exact h.total
  · rw [hstate]
    exact h.le_cap

/-- An allocation that fits keeps the invariant. -/
theorem inv_step_malloc {cap : UInt64} (hcap : cap ≠ 0) {r : CappedRun} (h : r.Inv cap)
    {w : World} {size : UInt64} (hhip : HipPromise r (.malloc size, w))
    (hfits : MallocFits r (.malloc size, w)) : (r.step (.malloc size, w)).Inv cap := by
  obtain ⟨hiff, -, hfailure⟩ := unixMalloc_spec w r.native size
  by_cases hok : (unixMalloc w r.native { size }).args.ret = 0
  case neg =>
    exact inv_of_unchanged h (vramCap_unixMalloc w r.native _)
      (by simp only [CappedRun.step, hok, if_false]) (hfailure hok)
  obtain ⟨hreach, hret⟩ := hiff.mp hok
  obtain ⟨hptr, hfresh⟩ := hhip hreach hret
  obtain ⟨hroom, hwrap⟩ := hfits hreach hret
  obtain ⟨hout, hstate⟩ := step_malloc_success hreach hret
  have hunder := hreach.2.2
  rw [h.inForce] at hunder
  simp only [allocCapTotal] at hunder hwrap
  have hle := add_le_cap_of_admitted hcap hunder hwrap
  have htotal := h.total
  obtain ⟨untracked, hperm, hzero⟩ := h.tracked
  set ptr := (w.hip (.malloc size)).ptr with hptrDef
  -- the new block is on the outstanding list whether or not it gets tracked
  have hnodup : ((⟨ptr, size⟩ :: r.outstanding).map AllocEntry.ptr).Nodup := by
    rw [List.map_cons, List.nodup_cons]
    refine ⟨fun hmem => ?_, h.nodup⟩
    obtain ⟨e, he, heptr⟩ := List.mem_map.mp hmem
    exact hfresh e he heptr
  have hnotNull : ∀ e ∈ AllocEntry.mk ptr size :: r.outstanding, e.ptr ≠ 0 := by
    rintro e (_ | ⟨_, he⟩)
    · exact hptr
    · exact h.notNull e he
  have hinForce : (r.step (.malloc size, w)).native.vramCap = cap :=
    (vramCap_unixMalloc w r.native _).trans h.inForce
  rcases allocCapRecord_cases r.native.allocCap ptr size with
    ⟨hfull, hrecord⟩ | ⟨-, -, s', hrecord, hentries, htotal'⟩
  · -- no room: the block is empty
    have hsize : size = 0 := by
      rcases hroom with hroom | hsize
      · exact absurd (hfull.resolve_left hptr) (Nat.ne_of_lt hroom)
      · exact hsize
    have hkept : (r.step (.malloc size, w)).native.allocCap = r.native.allocCap := by
      rw [hstate, hrecord]
    refine ⟨hinForce, hout ▸ hnodup, hout ▸ hnotNull, ⟨⟨ptr, size⟩ :: untracked, ?_, ?_⟩,
      hkept ▸ htotal, hkept ▸ h.le_cap⟩
    · rw [hout, hkept]
      exact (hperm.cons _).trans List.perm_middle.symm
    · rintro e (_ | ⟨_, he⟩)
      · exact hsize
      · exact hzero e he
  · -- the block is tracked, and the total stays the exact sum because it does not wrap
    have hnew : (r.step (.malloc size, w)).native.allocCap = s' := by rw [hstate, hrecord]
    have hsum := exactTotal_recorded htotal hwrap hentries htotal'
    refine ⟨hinForce, hout ▸ hnodup, hout ▸ hnotNull, ⟨untracked, ?_, hzero⟩,
      hnew ▸ hsum, hnew ▸ ?_⟩
    · rw [hout, hnew, hentries, List.append_assoc]
      exact (hperm.cons _).trans List.perm_middle.symm
    · rw [hentries, sumSizes_append, ← htotal]
      simpa using hle

/-- An allocation that does not fit leaves an unsafe state. -/
theorem not_safe_step_malloc {cap : UInt64} {r : CappedRun} (h : r.Inv cap)
    {w : World} {size : UInt64} (hhip : HipPromise r (.malloc size, w))
    (hfits : ¬ MallocFits r (.malloc size, w)) : ¬ CapSafe cap (r.step (.malloc size, w)) := by
  simp only [MallocFits, Classical.not_imp] at hfits
  obtain ⟨hreach, hret, hbad⟩ := hfits
  obtain ⟨hptr, -⟩ := hhip hreach hret
  obtain ⟨hout, hstate⟩ := step_malloc_success hreach hret
  have hsum : sumSizes (r.step (.malloc size, w)).outstanding
      = r.native.allocCap.totalBytes.toNat + size.toNat := by
    rw [hout, sumSizes_cons, h.sum_outstanding, Nat.add_comm]
  rintro ⟨hleCap, hleTotal⟩
  rw [hsum] at hleCap hleTotal
  by_cases hwrap : r.native.allocCap.totalBytes.toNat + size.toNat < 2 ^ 64
  · -- the table is full, and the total stays as it was
    have hfull : ¬ (r.native.allocCap.entries.length < maxTrackedAllocs ∨ size = 0) :=
      fun hroom => hbad ⟨hroom, hwrap⟩
    rw [not_or] at hfull
    rcases allocCapRecord_cases r.native.allocCap (w.hip (.malloc size)).ptr size with
      ⟨-, hrecord⟩ | ⟨-, hroom, -⟩
    · have hkept : (r.step (.malloc size, w)).native.allocCap = r.native.allocCap := by
        rw [hstate, hrecord]
      rw [hkept, allocCapTotal] at hleTotal
      have hpos : size.toNat ≠ 0 := fun hzero => hfull.2 (UInt64.toNat_inj.mp hzero)
      omega
    · exact hfull.1 hroom
  · -- more than any 64-bit cap is outstanding
    have hcapLt := cap.toNat_lt
    omega

/-- Taking every entry of one pointer out of a list that holds it once. -/
theorem filter_ptr_perm {xs ys : List AllocEntry} {ptr : Ptr} {size : UInt64}
    (h : xs.Perm (⟨ptr, size⟩ :: ys)) (hnodup : (xs.map AllocEntry.ptr).Nodup) :
    (xs.filter (·.ptr ≠ ptr)).Perm ys := by
  have hnodup' := (h.map AllocEntry.ptr).nodup_iff.mp hnodup
  rw [List.map_cons, List.nodup_cons] at hnodup'
  have hkeep : ys.filter (·.ptr ≠ ptr) = ys := by
    rw [List.filter_eq_self]
    intro y hy
    have hne : y.ptr ≠ ptr := by
      rintro rfl
      exact hnodup'.1 (List.mem_map.mpr ⟨y, hy, rfl⟩)
    simpa using hne
  have hfilter := h.filter (·.ptr ≠ ptr)
  rwa [List.filter_cons_of_neg (by simp), hkeep] at hfilter

/-- Giving a block back keeps the invariant. -/
theorem inv_step_free {cap : UInt64} {r : CappedRun} (h : r.Inv cap) {w : World} {ptr : Ptr}
    (hhip : HipPromise r (.free ptr, w)) : (r.step (.free ptr, w)).Inv cap := by
  obtain ⟨hiff, hsuccess, hfailure⟩ := unixFree_spec w r.native ptr
  by_cases hok : (unixFree w r.native { ptr }).args.ret = 0
  case neg =>
    exact inv_of_unchanged h (vramCap_unixFree w r.native _)
      (by simp only [CappedRun.step, hok, if_false]) (hfailure hok)
  obtain ⟨hreach, hret⟩ := hiff.mp hok
  obtain ⟨freed, hfreed, rfl⟩ := (hhip hreach).mp hret
  have hout : (r.step (.free freed.ptr, w)).outstanding
      = r.outstanding.filter (·.ptr ≠ freed.ptr) := by
    simp only [CappedRun.step, hok, if_pos]
  have hstate : (r.step (.free freed.ptr, w)).native.allocCap
      = (allocCapRelease r.native.allocCap freed.ptr).2 := hsuccess hok
  have hinForce : (r.step (.free freed.ptr, w)).native.vramCap = cap :=
    (vramCap_unixFree w r.native _).trans h.inForce
  have hnodup : ((r.outstanding.filter (·.ptr ≠ freed.ptr)).map AllocEntry.ptr).Nodup :=
    h.nodup.sublist (List.filter_sublist.map _)
  have hnotNull : ∀ e ∈ r.outstanding.filter (·.ptr ≠ freed.ptr), e.ptr ≠ 0 :=
    fun e he => h.notNull e (List.mem_of_mem_filter he)
  obtain ⟨untracked, hperm, hzero⟩ := h.tracked
  rcases allocCapRelease_cases r.native.allocCap freed.ptr with
    ⟨-, size, s', hrelease, hentries, htotal⟩ | ⟨hmiss, hrelease⟩
  · -- a tracked block: it leaves the table and its size the total
    have hnew : (r.step (.free freed.ptr, w)).native.allocCap = s' := by rw [hstate, hrelease]
    have hsum : sumSizes r.native.allocCap.entries = size.toNat + sumSizes s'.entries := by
      rw [sumSizes_perm hentries, sumSizes_cons]
    have hall : r.outstanding.Perm (⟨freed.ptr, size⟩ :: (s'.entries ++ untracked)) :=
      hperm.trans (hentries.append_right untracked)
    refine ⟨hinForce, hout ▸ hnodup, hout ▸ hnotNull, ⟨untracked, ?_, hzero⟩,
      hnew ▸ ?_, hnew ▸ ?_⟩
    · rw [hout, hnew]
      exact filter_ptr_perm hall h.nodup
    · exact exactTotal_released h.total hentries htotal
    · have := h.le_cap
      omega
  · -- an untracked block: the table never knew it
    have hkept : (r.step (.free freed.ptr, w)).native.allocCap = r.native.allocCap := by
      rw [hstate, hrelease]
    have hentries : ∀ e ∈ r.native.allocCap.entries, e.ptr ≠ freed.ptr :=
      hmiss.resolve_left (h.notNull freed hfreed)
    have hkeep : r.native.allocCap.entries.filter (·.ptr ≠ freed.ptr)
        = r.native.allocCap.entries := by
      rw [List.filter_eq_self]
      simpa using hentries
    refine ⟨hinForce, hout ▸ hnodup, hout ▸ hnotNull,
      ⟨untracked.filter (·.ptr ≠ freed.ptr), ?_, fun e he => hzero e (List.mem_of_mem_filter he)⟩,
      hkept ▸ h.total, hkept ▸ h.le_cap⟩
    rw [hout, hkept]
    have hfilter := hperm.filter (·.ptr ≠ freed.ptr)
    rwa [List.filter_append, hkeep] at hfilter

theorem inv_step {cap : UInt64} (hcap : cap ≠ 0) {r : CappedRun} (h : r.Inv cap)
    (a : AllocCall × World) (hhip : HipPromise r a) (hfits : MallocFits r a) :
    (r.step a).Inv cap := by
  obtain ⟨call, w⟩ := a
  cases call with
  | malloc size => exact inv_step_malloc hcap h hhip hfits
  | free ptr => exact inv_step_free h hhip

theorem not_safe_step {cap : UInt64} {r : CappedRun} (h : r.Inv cap)
    (a : AllocCall × World) (hhip : HipPromise r a) (hfits : ¬ MallocFits r a) :
    ¬ CapSafe cap (r.step a) := by
  obtain ⟨call, w⟩ := a
  cases call with
  | malloc size => exact not_safe_step_malloc h hhip hfits
  | free ptr => exact absurd trivial hfits

theorem inv_init (env : Env) : (CappedRun.init env).Inv (NativeState.init env).vramCap where
  inForce := rfl
  nodup := List.nodup_nil
  notNull := fun e he => by cases he
  tracked := ⟨[], List.Perm.refl _, fun e he => by cases he⟩
  total := rfl
  le_cap := Nat.zero_le _

/-- **When the cap holds.** With a cap set and a HIP library that keeps its promise, the
outstanding memory stays under the cap and the running total covers it in every state of a run
exactly when every allocation that succeeds finds a free entry of the tracking table (or is
empty) and does not wrap the running total. -/
theorem capSafe_iff_mallocFits (env : Env) (hcap : (NativeState.init env).vramCap ≠ 0)
    (calls : List (AllocCall × World))
    (hhip : Along CappedRun.step HipPromise (CappedRun.init env) calls) :
    Always CappedRun.step (CapSafe (NativeState.init env).vramCap) (CappedRun.init env) calls ↔
      Along CappedRun.step MallocFits (CappedRun.init env) calls :=
  always_iff_along (fun _ h => h.safe) (fun _ a h hhip hfits => inv_step hcap h a hhip hfits)
    (fun _ a h hhip hfits => not_safe_step h a hhip hfits) (inv_init env) hhip

/-- A process with ROCm whose `hipMalloc` returns `ptr` and whose `hipFree` succeeds. -/
def allocWorld (ptr : Ptr) : World where
  dlopen _ := some fun _ => true
  mem _ := none
  hip _ := { ret := 0, ptr }

/-- Under a cap of 100 bytes: 60 bytes, 60 more that are refused, and after a free 60 again. -/
def refusedThenFreed : List (AllocCall × World) :=
  [ (.malloc 60, allocWorld 16), (.malloc 60, allocWorld 32), (.free 16, allocWorld 0)
  , (.malloc 60, allocWorld 32) ]

/-- `DLSSNR_VRAM_CAP_BYTES=100`. -/
def capOf100 : Env := ⟨none, some (.ofLiteral "100" (by decide))⟩

theorem refusedThenFreed_safe :
    (NativeState.init capOf100).vramCap = 100 ∧
      Always CappedRun.step (CapSafe 100) (CappedRun.init capOf100) refusedThenFreed := by
  have hcap : (NativeState.init capOf100).vramCap = 100 := by decide +kernel
  have hpromise : Along CappedRun.step HipPromise (CappedRun.init capOf100) refusedThenFreed := by
    decide +kernel
  have hfits : Along CappedRun.step MallocFits (CappedRun.init capOf100) refusedThenFreed := by
    decide +kernel
  have hsafe := (capSafe_iff_mallocFits capOf100 (by rw [hcap]; decide) refusedThenFreed
    hpromise).mpr hfits
  exact ⟨hcap, hcap ▸ hsafe⟩

/-- `DLSSNR_VRAM_CAP_BYTES=5000`. -/
def capOf5000 : Env := ⟨none, some (.ofLiteral "5000" (by decide))⟩

/-- The `i`-th one-byte allocation, which `hipMalloc` places at `i + 1`. -/
def oneByte (i : Nat) : AllocCall × World := (.malloc 1, allocWorld (UInt64.ofNat (i + 1)))

/-- `n` one-byte allocations, none of them freed. -/
def oneByteMallocs (n : Nat) : List (AllocCall × World) := (List.range n).map oneByte

/-- The state after `n` one-byte allocations that were all tracked. -/
structure AfterOneBytes (n : Nat) (r : CappedRun) : Prop where
  inv : r.Inv 5000
  handle : r.native.hipHandle = none ∨ r.native.hipHandle = some fun _ => true
  length : r.native.allocCap.entries.length = n
  total : r.native.allocCap.totalBytes.toNat = n
  placed : ∀ e ∈ r.outstanding, e.ptr.toNat ≤ n

theorem toNat_ptr_oneByte {n : Nat} (hn : n ≤ 4096) : (UInt64.ofNat (n + 1)).toNat = n + 1 := by
  rw [UInt64.toNat_ofNat', Nat.mod_eq_of_lt (by omega)]

theorem ensureLoaded_allocWorld {s : NativeState}
    (h : s.hipHandle = none ∨ s.hipHandle = some fun _ => true) (ptr : Ptr) :
    (ensureLoaded (allocWorld ptr) s).1 = true ∧
      (ensureLoaded (allocWorld ptr) s).2.hipHandle = some fun _ => true := by
  rcases h with hnone | hsome
  · simp [ensureLoaded, hnone, allocWorld, candidates]
  · simp [ensureLoaded, hsome]

/-- The next allocation reaches `hipMalloc`, and `hipMalloc` keeps its promise. -/
theorem AfterOneBytes.reaches {n : Nat} {r : CappedRun} (h : AfterOneBytes n r) (hn : n ≤ 4096) :
    ReachesHipMalloc (oneByte n).2 r.native 1 ∧ HipPromise r (oneByte n) := by
  obtain ⟨hloaded, hhandle⟩ := ensureLoaded_allocWorld h.handle (UInt64.ofNat (n + 1))
  have htotal := h.total
  refine ⟨⟨hloaded, ?_, ?_⟩, fun _ _ => ⟨fun hzero => ?_, fun e he heq => ?_⟩⟩
  · show (ensureLoaded (allocWorld _) r.native).2.hasSym .hipMalloc = true
    rw [NativeState.hasSym, hhandle]
  · -- at most 4097 bytes are counted, well under the cap
    have hsum : (r.native.allocCap.totalBytes + 1).toNat ≤ 5000 := by
      rw [UInt64.toNat_add, htotal, UInt64.toNat_one, Nat.mod_eq_of_lt (by omega)]
      omega
    rw [h.inv.inForce]
    simpa [allocCapWouldExceed, allocCapTotal, UInt64.le_iff_toNat_le] using hsum
  · have hnat := congrArg UInt64.toNat hzero
    simp only [allocWorld, toNat_ptr_oneByte hn, UInt64.toNat_zero] at hnat
    omega
  · have hle := h.placed e he
    rw [heq] at hle
    simp only [allocWorld, toNat_ptr_oneByte hn] at hle
    omega

theorem AfterOneBytes.step {n : Nat} {r : CappedRun} (h : AfterOneBytes n r) (hn : n < 4096) :
    AfterOneBytes (n + 1) (r.step (oneByte n)) := by
  obtain ⟨hreach, hpromise⟩ := h.reaches (Nat.le_of_lt hn)
  have htotal := h.total
  have hptr := toNat_ptr_oneByte (Nat.le_of_lt hn)
  have hfits : MallocFits r (oneByte n) := by
    intro _ _
    refine ⟨Or.inl (by rw [h.length]; exact hn), ?_⟩
    rw [allocCapTotal, htotal, UInt64.toNat_one]
    omega
  obtain ⟨hout, hstate⟩ := step_malloc_success hreach rfl
  rcases allocCapRecord_cases r.native.allocCap (UInt64.ofNat (n + 1)) 1 with
    ⟨hfull, -⟩ | ⟨-, -, s', hrecord, hentries, htotal'⟩
  · -- neither reason to refuse applies below 4096 allocations
    rcases hfull with hzero | hfull
    · have hnat := congrArg UInt64.toNat hzero
      rw [hptr, UInt64.toNat_zero] at hnat
      omega
    · have hlen : n = 4096 := h.length.symm.trans hfull
      omega
  · have hnew : (r.step (oneByte n)).native.allocCap = s' :=
      hstate.trans (congrArg Prod.snd hrecord)
    refine ⟨inv_step_malloc (by decide) h.inv hpromise hfits, Or.inr ?_, ?_, ?_, ?_⟩
    · exact (hipHandle_unixMalloc _ _ _).trans (ensureLoaded_allocWorld h.handle _).2
    · rw [hnew, hentries, List.length_append, h.length]
      rfl
    · rw [hnew, htotal', UInt64.toNat_add, htotal, UInt64.toNat_one, Nat.mod_eq_of_lt (by omega)]
    · intro e he
      rw [show (r.step (oneByte n)).outstanding = _ from hout] at he
      rcases List.mem_cons.mp he with rfl | he
      · exact Nat.le_of_eq hptr
      · exact Nat.le_succ_of_le (h.placed e he)

/-- Up to the size of the table every allocation is tracked. Induction on their number. -/
theorem afterOneBytes {n : Nat} (hn : n ≤ 4096) :
    AfterOneBytes n (run CappedRun.step (CappedRun.init capOf5000) (oneByteMallocs n)) ∧
      Along CappedRun.step HipPromise (CappedRun.init capOf5000) (oneByteMallocs n) := by
  induction n with
  | zero =>
    refine ⟨⟨?_, Or.inl rfl, rfl, rfl, fun e he => by cases he⟩, trivial⟩
    have hcap : (NativeState.init capOf5000).vramCap = 5000 := by decide +kernel
    exact hcap ▸ inv_init capOf5000
  | succ n ih =>
    obtain ⟨hafter, hpromise⟩ := ih (by omega)
    rw [oneByteMallocs, List.range_succ, List.map_append, run_append, along_append]
    exact ⟨hafter.step (by omega), hpromise, (hafter.reaches (by omega)).2, trivial⟩

/-- Once the table is full, one byte more is outstanding and not in the running total. -/
theorem AfterOneBytes.not_safe {n : Nat} {r : CappedRun} (h : AfterOneBytes n r)
    (hn : n = 4096) : ¬ CapSafe 5000 (r.step (oneByte n)) := by
  obtain ⟨hreach, hpromise⟩ := h.reaches (Nat.le_of_eq hn)
  refine not_safe_step_malloc h.inv hpromise fun hfits => ?_
  rcases (hfits hreach rfl).1 with hroom | hempty
  · rw [h.length, hn] at hroom
    exact absurd hroom (by decide)
  · exact absurd hempty (by decide)

/-- 4097 one-byte allocations, `oneByteMallocs 4097`, are not safe under a cap of 5000 bytes. -/
theorem oneByteMallocs_not_safe :
    ¬ ∀ env calls, (NativeState.init env).vramCap ≠ 0 →
      Along CappedRun.step HipPromise (CappedRun.init env) calls →
      Always CappedRun.step (CapSafe (NativeState.init env).vramCap) (CappedRun.init env)
        calls := by
  intro h
  -- a variable in place of the number, so that nothing evaluates the list of calls
  obtain ⟨n, hn⟩ : ∃ n, n = 4096 := ⟨4096, rfl⟩
  obtain ⟨hafter, hpromises⟩ := afterOneBytes (Nat.le_of_eq hn)
  have hnext := (hafter.reaches (Nat.le_of_eq hn)).2
  have hcap : (NativeState.init capOf5000).vramCap = 5000 := by decide +kernel
  have hne : (NativeState.init capOf5000).vramCap ≠ 0 := by
    rw [hcap]
    decide
  have hsafe := (h capOf5000 (oneByteMallocs n ++ [oneByte n]) hne
    (along_append.mpr ⟨hpromises, hnext, trivial⟩)).last
  rw [hcap, run_append] at hsafe
  exact hafter.not_safe hn hsafe

end HipBridge.Unixlib
