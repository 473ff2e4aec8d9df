import HipBridge.Unixlib.DirectHip
import HipBridge.Unixlib.Registration
import HipBridge.Unixlib.VramCap

/-!
# The unixlib stands for a game that is linked with HIP

The two sides of the shim, its tables and its running total do not show, as long as a run keeps to
what they are made for: a game is answered as in `Unixlib.DirectHip`.

* **`resolveBundlePtr_eq`**, **`hipExtMemExtractFd_eq`**, **`hipMemcpyKindSupported_iff`** — the
  filters of the shim let through what HIP is to be handed.
* **`Mirrors`** — a process stands for such a game: its tables look up what the maps hold, and the
  library is loaded by the time a table leads to it.
* **`Fits`** — a step the shim is made for: a new key, room in the table, a version query that HIP
  answers.
* **`hostStep_mirrors`** — every such export answers, and calls the library, as in such a game.
* **`unixlib_refines_direct`** — so does every run of them.
-/

namespace HipBridge.Unixlib

open Lib

variable {D : Type}

/-! ## The filters of the shim -/

/-- The kinds of copy are those from 0 to 4. -/
theorem hipMemcpyKindSupported_iff {kind : Int32} :
    hipMemcpyKindSupported kind = true ↔ kind ∈ copyKinds := by
  have hzero : (0 : Int32).toInt = 0 := rfl
  have hfour : (4 : Int32).toInt = 4 := rfl
  simp only [hipMemcpyKindSupported, Bool.and_eq_true, decide_eq_true_iff, Int32.le_iff_toInt_le,
    hzero, hfour]
  constructor
  · rintro ⟨hlow, hhigh⟩
    have hcases : kind.toInt = 0 ∨ kind.toInt = 1 ∨ kind.toInt = 2 ∨ kind.toInt = 3 ∨
        kind.toInt = 4 := by omega
    rcases hcases with h | h | h | h | h
    · exact (Int32.toInt_inj.mp (h.trans (rfl : _ = (0 : Int32).toInt))) ▸ by decide
    · exact (Int32.toInt_inj.mp (h.trans (rfl : _ = (1 : Int32).toInt))) ▸ by decide
    · exact (Int32.toInt_inj.mp (h.trans (rfl : _ = (2 : Int32).toInt))) ▸ by decide
    · exact (Int32.toInt_inj.mp (h.trans (rfl : _ = (3 : Int32).toInt))) ▸ by decide
    · exact (Int32.toInt_inj.mp (h.trans (rfl : _ = (4 : Int32).toInt))) ▸ by decide
  · intro hmem
    simp only [copyKinds, List.mem_cons, List.not_mem_nil, or_false] at hmem
    rcases hmem with rfl | rfl | rfl | rfl | rfl <;> decide

/-- What is no descriptor of a file is taken for descriptor `-1`. -/
theorem hipExtMemExtractFd_eq (d : HipExtMemHandleDesc) :
    hipExtMemExtractFd (some d) = (fileDescriptor d).getD (-1) := by
  have hopaque : extMemTypeOpaqueFd = 1 := rfl
  have hresource : extMemTypeD3D12Resource = 5 := rfl
  simp only [hipExtMemExtractFd, fileDescriptor, hopaque, hresource]
  by_cases h1 : d.type = 1
  · rw [if_pos h1, if_pos (Or.inl h1)]
    rfl
  · rw [if_neg h1]
    by_cases h5 : d.type = 5
    · rw [if_pos h5, if_pos (Or.inr h5)]
      rfl
    · rw [if_neg h5, if_neg fun h => h.elim h1 h5]
      rfl

/-- The shim refuses a descriptor that is none. -/
theorem filter_fileDescriptor (d : HipExtMemHandleDesc) :
    (fileDescriptor d).filter (0 ≤ ·)
      = if hipExtMemExtractFd (some d) < 0 then none else some (hipExtMemExtractFd (some d)) := by
  rw [hipExtMemExtractFd_eq]
  cases fileDescriptor d with
  | none => rfl
  | some fd =>
    have hle : 0 ≤ fd ↔ ¬ fd < 0 := by
      rw [Int32.le_iff_toInt_le, Int32.lt_iff_toInt_lt]
      omega
    by_cases hneg : fd < 0
    · simp [Option.filter_some, hle, hneg]
    · simp [Option.filter_some, hle, hneg]

/-- What the shim reads of a fat binary is mapped. -/
def BundleMapped (mem : Memory) (data : Ptr) : Prop :=
  data ≠ 0 ∧ (mem.read data 24).isSome ∧ (StartsBundle mem data ∨
    (mem.readWord (data + 8)).all fun inner => inner = 0 || (mem.read inner 24).isSome)

instance (mem : Memory) (data : Ptr) : Decidable (BundleMapped mem data) :=
  inferInstanceAs (Decidable (_ ∧ _ ∧ _))

/-- The shim finds the bundle that is there, and null where there is none. -/
theorem resolveBundlePtr_eq {mem : Memory} {data : Ptr} (h : BundleMapped mem data) :
    resolveBundlePtr mem data = some ((bundleAt mem data).getD 0) ∧
      bundleAt mem data ≠ some 0 := by
  obtain ⟨hdata, hread, hinner⟩ := h
  have hmagic : offloadBundleMagic.length = 24 := by decide
  obtain ⟨head, hhead⟩ := Option.isSome_iff_exists.mp hread
  simp only [resolveBundlePtr, bundleAt, hmagic, hhead, Option.bind_eq_bind, Option.bind_some]
  by_cases hstart : StartsBundle mem data
  -- the pointer is to the bundle itself
  case pos =>
    have heq : head = offloadBundleMagic := Option.some.inj (hhead.symm.trans hstart)
    rw [if_pos heq, if_pos hstart]
    exact ⟨rfl, fun hzero => hdata (Option.some.inj hzero)⟩
  -- or to a wrapper, whose second word is the pointer to try
  case neg =>
    have hne : head ≠ offloadBundleMagic := fun heq => hstart (hhead.trans (congrArg some heq))
    obtain ⟨inner, hword⟩ := Memory.exists_readWord hhead (by decide : 8 + 8 ≤ 24)
    have hword' : mem.readWord (data + 8) = some inner := hword
    have hmapped := hinner.resolve_left hstart
    rw [hword'] at hmapped ⊢
    simp only [hne, hstart, if_false, Option.bind_some]
    by_cases hnull : inner = 0
    case pos => simp [hnull, Option.filter_some]
    case neg =>
      have hsome : (mem.read inner 24).isSome := by simpa [hnull] using hmapped
      obtain ⟨head', hhead'⟩ := Option.isSome_iff_exists.mp hsome
      simp only [hnull, if_false, hhead', Option.bind_some]
      by_cases hstart' : StartsBundle mem inner
      case pos =>
        have heq : head' = offloadBundleMagic := Option.some.inj (hhead'.symm.trans hstart')
        simp [heq, hnull, hstart', Option.filter_some]
      case neg =>
        have hne' : head' ≠ offloadBundleMagic :=
          fun heq => hstart' (hhead'.trans (congrArg some heq))
        simp [hne', hstart', Option.filter_some]

/-! ## The relation -/

/-- What a table looks up is what a map holds. -/
def TableMirrors {α : Type*} {n : Nat} (t : SlotTable α n) (key val : α → Ptr)
    (m : Ptr → Option Ptr) : Prop :=
  ∀ k, m k = if registryFind t key val k = 0 then none else some (registryFind t key val k)

/-- The library that is loaded, or will be, has all its symbols; `cap` is in force. -/
structure Unhindered (dlopen : String → Option HipLibrary) (cap : UInt64) (s : NativeState) :
    Prop where
  library : ∃ lib, (s.hipHandle <|> candidates.findSome? dlopen) = some lib ∧
    ∀ sym, lib sym = true
  vramCap : s.vramCap = cap

/-- The table holds the blocks of the game, and the total is theirs. -/
structure Accounts (t : AllocCap) (held : List AllocEntry) : Prop where
  entries : t.entries.Perm held
  total : t.totalBytes.toNat = sumSizes t.entries
  distinct : (t.entries.map AllocEntry.ptr).Nodup

/-- The process stands for the game. -/
structure Mirrors (dlopen : String → Option HipLibrary) (s : UnixHost D) (q : DirectHip D) :
    Prop where
  modules : TableMirrors s.proc.native.registry.fatbins FatbinEntry.token FatbinEntry.module
    q.modules
  functions : TableMirrors s.proc.native.registry.functions FunctionEntry.hostFn
    FunctionEntry.function q.functions
  vars : TableMirrors s.proc.native.registry.vars VarEntry.hostVar VarEntry.devicePtr q.vars
  pushed : s.proc.callConfigStack.live = q.pushed.reverse
  lastError : s.proc.lastError = q.lastError
  device : s.device = q.device
  native : Unhindered dlopen q.cap s.proc.native
  /-- Without a cap nothing is compared with the total. -/
  accounts : q.cap ≠ 0 → Accounts s.proc.native.allocCap q.held
  /-- Before the library is loaded there is nothing to look up. -/
  loaded : s.proc.native.hipHandle = none → ∀ k, q.modules k = none ∧ q.functions k = none

section Tables

variable {α : Type*} {n : Nat} {t : SlotTable α n} {key val : α → Ptr} {m : Ptr → Option Ptr}

/-- What is looked up with success is held. -/
theorem TableMirrors.ne_none (h : TableMirrors t key val m) {k : Ptr}
    (hfound : registryFind t key val k ≠ 0) : m k ≠ none := by
  rw [h k, if_neg hfound]
  exact Option.some_ne_none _

/-- A key that is not registered is in no map. -/
theorem TableMirrors.eq_none (h : TableMirrors t key val m) {k : Ptr}
    (hnew : ¬ Registered t key k) : m k = none := by
  rw [h k, if_pos (registryFind_of_not_registered val hnew)]

/-- A new key is registered as the table has room for it. -/
theorem TableMirrors.add (h : TableMirrors t key val m) (e : α) (hroom : t.count < n)
    (hnew : ¬ Registered t key (key e)) :
    TableMirrors (registryAdd t e).2 key val (register m (key e) (val e)) := by
  intro k
  rw [registryFind_registryAdd]
  unfold register
  by_cases hk : k = key e
  · subst hk
    have hthere : key e = key e ∧ t.count < n := ⟨rfl, hroom⟩
    rw [if_neg hnew, if_pos hthere, Function.update_self]
  · have hother : ¬ (key e = k ∧ t.count < n) := fun hboth => hk hboth.1.symm
    rw [Function.update_of_ne hk, h k, if_neg hother]
    by_cases hreg : Registered t key k
    · rw [if_pos hreg]
    · rw [if_neg hreg, registryFind_of_not_registered val hreg]

end Tables

/-! ## The blocks -/

/-- What the native side keeps of a call that HIP answers with `r`. -/
def PeCall.accounted (r : HipReply) (t : AllocCap) : PeCall → AllocCap
  | .malloc _ size => if r.ret = 0 ∧ r.ptr ≠ 0 then (allocCapRecord t r.ptr size).2 else t
  | .free ptr => if r.ret = 0 then (allocCapRelease t ptr).2 else t
  | _ => t

/-- There is room for a block of this size at `ptr`, the total does not wrap, and no block is
there. -/
def BlockFits (t : AllocCap) (size : UInt64) (ptr : Ptr) : Prop :=
  t.entries.length < maxTrackedAllocs ∧ t.totalBytes.toNat + size.toNat < 2 ^ 64 ∧
    ∀ e ∈ t.entries, e.ptr ≠ ptr

instance (t : AllocCap) (size : UInt64) (ptr : Ptr) : Decidable (BlockFits t size ptr) :=
  inferInstanceAs (Decidable (_ ∧ _ ∧ _))

section Blocks

variable {t : AllocCap} {held : List AllocEntry}

/-- A block that has room is entered, and the total is as exact as before. -/
theorem Accounts.malloc (h : Accounts t held) (given : Bool) {size : UInt64} {r : HipReply}
    (hfits : BlockFits t size r.ptr) :
    Accounts ((PeCall.malloc given size).accounted r t)
      ((PeCall.malloc given size).holds r held) := by
  obtain ⟨hroom, htotal, hnew⟩ := hfits
  simp only [PeCall.accounted, PeCall.holds]
  by_cases hblock : r.ret = 0 ∧ r.ptr ≠ 0
  · rw [if_pos hblock, if_pos hblock]
    rcases allocCapRecord_cases t r.ptr size with
      ⟨hrefused, -⟩ | ⟨-, -, t', hrecord, hentries, hbytes⟩
    -- a block at `NULL` or a full table would not be recorded: neither is the case here
    · rcases hrefused with hnull | hfull
      · exact absurd hnull hblock.2
      · omega
    · rw [hrecord]
      refine ⟨?_, exactTotal_recorded h.total htotal hentries hbytes, ?_⟩
      · rw [hentries]
        exact (List.perm_append_singleton _ _).trans (h.entries.cons _)
      · rw [hentries, List.map_append, List.nodup_append]
        refine ⟨h.distinct, List.pairwise_singleton _ _, ?_⟩
        intro a ha b hb
        obtain ⟨e, he, rfl⟩ := List.mem_map.mp ha
        rw [List.map_singleton, List.mem_singleton] at hb
        rw [hb]
        exact hnew e he
  · rw [if_neg hblock, if_neg hblock]
    exact h

/-- A block that is freed is taken out, as no other has its pointer. -/
theorem Accounts.free (h : Accounts t held) {ptr : Ptr} (hptr : ptr ≠ 0) (r : HipReply) :
    Accounts ((PeCall.free ptr).accounted r t) ((PeCall.free ptr).holds r held) := by
  simp only [PeCall.accounted, PeCall.holds]
  by_cases hok : r.ret = 0
  · rw [if_pos hok, if_pos hok]
    rcases allocCapRelease_cases t ptr with
      ⟨-, size, t', hrelease, hperm, hbytes⟩ | ⟨hunknown, hrelease⟩
    · rw [hrelease]
      have hheld := h.entries.symm.trans hperm
      have hdistinct : (held.map AllocEntry.ptr).Nodup :=
        (h.entries.map AllocEntry.ptr).nodup_iff.mp h.distinct
      refine ⟨(filter_ptr_perm hheld hdistinct).symm, exactTotal_released h.total hperm hbytes, ?_⟩
      have hnodup := (hperm.map AllocEntry.ptr).nodup_iff.mp h.distinct
      rw [List.map_cons, List.nodup_cons] at hnodup
      exact hnodup.2
    -- a block the table does not hold is none of the game's, and nothing is dropped
    · rw [hrelease]
      have hnone := hunknown.resolve_left hptr
      have hsame : held.filter (·.ptr ≠ ptr) = held := by
        rw [List.filter_eq_self]
        intro e he
        exact decide_eq_true (hnone e (h.entries.mem_iff.mpr he))
      rw [hsame]
      exact h
  · rw [if_neg hok, if_neg hok]
    exact h

/-- The check of the cap is the one on the blocks. -/
theorem Accounts.exceeds_eq {q : DirectHip D} (h : q.cap ≠ 0 → Accounts t q.held) {size : UInt64}
    (hfits : q.cap ≠ 0 → t.totalBytes.toNat + size.toNat < 2 ^ 64) :
    allocCapWouldExceed (allocCapTotal t) size q.cap = q.overCap size := by
  unfold allocCapWouldExceed DirectHip.overCap
  by_cases hcap : q.cap = 0
  · simp [hcap]
  -- the sum of the check does not wrap, so it is the one over the naturals
  · have htotal := (h hcap).total
    rw [sumSizes_perm (h hcap).entries] at htotal
    have hnowrap := hfits hcap
    rw [if_neg hcap, decide_eq_true hcap, Bool.true_and, decide_eq_decide, gt_iff_lt,
      UInt64.lt_iff_toNat_lt, UInt64.toNat_add, allocCapTotal, Nat.mod_eq_of_lt hnowrap, htotal,
      sumSizes]

end Blocks

/-! ## The library -/

variable {dlopen : String → Option HipLibrary} {cap : UInt64} {w : World} {n : NativeState}

/-- `ensure_loaded` loads it. -/
theorem Unhindered.ensureLoaded (h : Unhindered dlopen cap n) (hw : w.dlopen = dlopen) :
    (ensureLoaded w n).1 = true ∧ (∀ sym, (ensureLoaded w n).2.hasSym sym = true) ∧
      (ensureLoaded w n).2.hipHandle.isSome ∧ Unhindered dlopen cap (ensureLoaded w n).2 := by
  obtain ⟨lib, hlib, hsyms⟩ := h.library
  have hcap : (Unixlib.ensureLoaded w n).2.vramCap = cap := by
    rw [vramCap_ensureLoaded, h.vramCap]
  subst hw
  unfold Unixlib.ensureLoaded at hcap ⊢
  cases hhandle : n.hipHandle with
  | some lib' =>
    rw [hhandle] at hlib
    obtain rfl : lib' = lib := Option.some.inj hlib
    exact ⟨rfl, fun sym => by simp [NativeState.hasSym, hhandle, hsyms], by simp [hhandle], h⟩
  | none =>
    rw [hhandle] at hlib
    change candidates.findSome? w.dlopen = some lib at hlib
    simp only [hhandle, hlib] at hcap ⊢
    exact ⟨trivial, hsyms, rfl, ⟨lib, rfl, hsyms⟩, hcap⟩

/-- Once loaded, it has every symbol. -/
theorem Unhindered.hasSym (h : Unhindered dlopen cap n) (hloaded : n.hipHandle ≠ none)
    (sym : HipSym) : n.hasSym sym = true := by
  obtain ⟨lib, hlib, hsyms⟩ := h.library
  unfold NativeState.hasSym
  cases hhandle : n.hipHandle with
  | none => exact absurd hhandle hloaded
  | some lib' =>
    rw [hhandle] at hlib
    obtain rfl : lib' = lib := Option.some.inj hlib
    exact hsyms sym

/-- A handler that loads the library and asks for a symbol gets to its call. -/
theorem Unhindered.tryHip (h : Unhindered dlopen cap n) (hw : w.dlopen = dlopen) (sym : HipSym)
    (call : HipCall) : tryHip w n sym call = (some (w.hip call), (Unixlib.ensureLoaded w n).2) := by
  obtain ⟨hloaded, hsym, -⟩ := h.ensureLoaded hw
  unfold Unixlib.tryHip
  simp [hloaded, hsym sym]

/-- So do the handlers that only return a code, -/
theorem Unhindered.forwardRet {A : Type} (h : Unhindered dlopen cap n) (hw : w.dlopen = dlopen)
    (sym : HipSym) (call : HipCall) (missing : A) (store : HipReply → A) :
    forwardRet w n sym call missing store
      = { args := store (w.hip call)
          state := (Unixlib.ensureLoaded w n).2
          issued := some call } := by
  simp [Unixlib.forwardRet, h.tryHip hw]

/-- the version queries, -/
theorem Unhindered.forwardVersion {A : Type} (h : Unhindered dlopen cap n) (hw : w.dlopen = dlopen)
    (sym : HipSym) (call : HipCall) (store : Int32 → Int32 → A) :
    forwardVersion w n sym call store
      = { args := store (w.hip call).int (w.hip call).ret
          state := (Unixlib.ensureLoaded w n).2
          issued := some call } := by
  simp [Unixlib.forwardVersion, h.tryHip hw, hipVersionQueryApply]

/-- and the handlers that return an object. -/
theorem Unhindered.forwardPtr {A : Type} (h : Unhindered dlopen cap n) (hw : w.dlopen = dlopen)
    (sym : HipSym) (call : HipCall) (store : Ptr → Int32 → A) :
    forwardPtr w n sym call store
      = { args := store (w.hip call).ptr (w.hip call).ret
          state := (Unixlib.ensureLoaded w n).2
          issued := some call } := by
  simp [Unixlib.forwardPtr, h.tryHip hw, hipForwardPtrResult]

/-- The native side has called the library, and the tables are as they were. -/
structure Steady (dlopen : String → Option HipLibrary) (cap : UInt64) (n n' : NativeState) :
    Prop where
  registry : n'.registry = n.registry
  unhindered : Unhindered dlopen cap n'
  loaded : n'.hipHandle.isSome

/-- Loading the library leaves the tables alone. -/
theorem Unhindered.steady (h : Unhindered dlopen cap n) (hw : w.dlopen = dlopen) :
    Steady dlopen cap n (Unixlib.ensureLoaded w n).2 := by
  obtain ⟨-, -, hloaded, hnext⟩ := h.ensureLoaded hw
  exact ⟨registry_ensureLoaded w n, hnext, hloaded⟩

/-- The accounting of allocations is no part of what the game sees. -/
theorem Steady.allocCap {n' : NativeState} (h : Steady dlopen cap n n') (allocCap : AllocCap) :
    Steady dlopen cap n { n' with allocCap } := by
  refine ⟨h.registry, ⟨h.unhindered.library, ?_⟩, h.loaded⟩
  rw [vramCap_with_allocCap]
  exact h.unhindered.vramCap

/-- Nor is when the cap was read. -/
theorem Steady.ensureVramCapRead {n' : NativeState} (h : Steady dlopen cap n n') :
    Steady dlopen cap n (ensureVramCapRead n') := by
  have hcap := vramCap_ensureVramCapRead n'
  rw [ensureVramCapRead_eq] at hcap ⊢
  exact ⟨h.registry, ⟨h.unhindered.library, hcap.trans h.unhindered.vramCap⟩, h.loaded⟩

/-! ## One export, one call of HIP -/

/-- The export comes down to one call of HIP, and ends as HIP says. -/
structure Forwarded (dlopen : String → Option HipLibrary) (cap : UInt64) (w : World) (p : Process)
    (c : PeCall) (call : HipCall) : Prop where
  code : (c.exec w p).ret = if (w.hip call).ret = 0 then 0 else c.failCode
  lastError : (c.exec w p).proc.lastError
    = if (w.hip call).ret = 0 then p.lastError else c.failCode
  stack : (c.exec w p).proc.callConfigStack = p.callConfigStack
  writes : c.writes w p = c.written (w.hip call)
  issued : (PeEvent.call c).issued w p = some call
  native : Steady dlopen cap p.native (c.exec w p).proc.native
  accounts : (c.exec w p).proc.native.allocCap = c.accounted (w.hip call) p.native.allocCap

variable {p : Process} {c : PeCall} {call : HipCall}

/-- An export that makes its unix call and ends in `mapRet`, with the code HIP returned. -/
theorem Forwarded.of_unix (k : HipUnixCall) {a b : k.Args} (ret : k.Args → Int32)
    {n' : NativeState} {code : Int32} (hc : c.unix = some ⟨k, a⟩)
    (hunix : unixCall w p.native k a = { args := b, state := n', issued := some call })
    (hexec : c.exec w p = mapRet (wineUnixCall w p k a).2 (ret (wineUnixCall w p k a).1) code ())
    (hret : ret b = (w.hip call).ret) (hcode : c.failCode = code)
    (hwrites : c.writes w p = c.written (w.hip call)) (hsteady : Steady dlopen cap p.native n')
    (haccounts : n'.allocCap = c.accounted (w.hip call) p.native.allocCap) :
    Forwarded dlopen cap w p c call := by
  have hissued : (PeEvent.call c).issued w p = some call := by
    simp only [PeEvent.issued, PeEvent.unix, hc, Option.bind_some, hunix]
  have hmapped : c.exec w p = mapRet { p with native := n' } (w.hip call).ret code () := by
    rw [hexec, ← hret]
    simp only [wineUnixCall, hunix]
  unfold mapRet at hmapped
  split at hmapped
  case isTrue hok =>
    have hzero : (w.hip call).ret = 0 := hok
    refine ⟨?_, ?_, ?_, hwrites, hissued, ?_, ?_⟩
    · rw [hmapped, if_pos hzero]
      rfl
    · rw [hmapped, if_pos hzero]
    · rw [hmapped]
    · rw [hmapped]
      exact hsteady
    · rw [hmapped]
      exact haccounts
  case isFalse hfail =>
    have hnonzero : ¬ (w.hip call).ret = 0 := hfail
    refine ⟨?_, ?_, ?_, hwrites, hissued, ?_, ?_⟩
    · rw [hmapped, if_neg hnonzero, hcode]
    · rw [hmapped, if_neg hnonzero, hcode]
    · rw [hmapped]
    · rw [hmapped]
      exact hsteady
    · rw [hmapped]
      exact haccounts

/-- An export that makes its unix call and succeeds whatever HIP returned: it ends as HIP says if
HIP has succeeded, too. -/
theorem Forwarded.of_query (k : HipUnixCall) {a b : k.Args} {n' : NativeState}
    (hok : (w.hip call).ret = 0) (hc : c.unix = some ⟨k, a⟩)
    (hunix : unixCall w p.native k a = { args := b, state := n', issued := some call })
    (hexec : (c.exec w p).ret = hipSuccess ∧ (c.exec w p).proc = (wineUnixCall w p k a).2)
    (hwrites : c.writes w p = c.written (w.hip call)) (hsteady : Steady dlopen cap p.native n')
    (haccounts : n'.allocCap = c.accounted (w.hip call) p.native.allocCap) :
    Forwarded dlopen cap w p c call := by
  have hproc : (c.exec w p).proc = { p with native := n' } := by
    rw [hexec.2]
    simp only [wineUnixCall, hunix]
  refine ⟨?_, ?_, ?_, hwrites, ?_, ?_, ?_⟩
  · rw [if_pos hok]
    exact hexec.1
  · rw [if_pos hok, hproc]
  · rw [hproc]
  · simp only [PeEvent.issued, PeEvent.unix, hc, Option.bind_some, hunix]
  · rw [hproc]
    exact hsteady
  · rw [hproc]
    exact haccounts

/-- What is written does not depend on the code. -/
@[simp] theorem out_mapRet {α : Type} (p : Process) (unixRet code : Int32) (out : α) :
    (mapRet p unixRet code out).out = out := by
  unfold mapRet
  split <;> rfl

section Exports

variable (h : Unhindered dlopen cap p.native) (hw : w.dlopen = dlopen)
include h hw

/-- An event. Without flags the handler asks for `hipEventCreate`. -/
theorem eventCreateWithFlags_forwarded (event : Bool) (flags : UInt32) :
    Forwarded dlopen cap w p (.eventCreateWithFlags event flags)
      (if flags = 0 then .eventCreate else .eventCreateWithFlags flags) := by
  have hunix : unixEventCreate w p.native { flags }
      = { args := { flags
                    event := (w.hip (if flags = 0 then .eventCreate
                      else .eventCreateWithFlags flags)).ptr
                    ret := (w.hip (if flags = 0 then .eventCreate
                      else .eventCreateWithFlags flags)).ret }
          state := (ensureLoaded w p.native).2
          issued := some (if flags = 0 then .eventCreate else .eventCreateWithFlags flags) } := by
    unfold unixEventCreate
    by_cases hflags : flags = 0
    · simp only [hflags, ne_eq, not_true_eq_false, if_false, if_true, h.forwardPtr hw]
    · simp only [hflags, ne_eq, not_false_eq_true, if_false, if_true, h.forwardPtr hw]
  refine .of_unix .eventCreate ArgsEventCreate.ret rfl hunix (forget_mapRet ..) rfl rfl ?_
    (h.steady hw) (allocCap_ensureLoaded w p.native)
  simp only [PeCall.writes, hipEventCreateWithFlags, wineUnixCall, unixCall, hunix, out_mapRet]
  rfl

/-- A copy. A kind the library knows passes the guard in front of the unix call. -/
theorem memcpy_forwarded (dst src : Ptr) (size : UInt64) {kind : Int32} (hmem : kind ∈ copyKinds) :
    Forwarded dlopen cap w p (.memcpy dst src size kind) (.memcpy dst src size kind) := by
  have hkind := hipMemcpyKindSupported_iff.mpr hmem
  refine .of_unix .memcpy ArgsMemcpy.ret (if_pos hkind) (h.forwardRet hw ..) ?_ rfl rfl rfl
    (h.steady hw) (allocCap_ensureLoaded w p.native)
  simp only [PeCall.exec, hipMemcpy, memcpyForward, hkind, Bool.not_true, Bool.false_eq_true,
    if_false]
  rfl

/-- A copy on a stream. -/
theorem memcpyAsync_forwarded (dst src : Ptr) (size : UInt64) {kind : Int32} (stream : Ptr)
    (hmem : kind ∈ copyKinds) :
    Forwarded dlopen cap w p (.memcpyAsync dst src size kind stream)
      (.memcpyAsync dst src size kind stream) := by
  have hkind := hipMemcpyKindSupported_iff.mpr hmem
  refine .of_unix .memcpyAsync ArgsMemcpy.ret (if_pos hkind) (h.forwardRet hw ..) ?_ rfl rfl rfl
    (h.steady hw) (allocCap_ensureLoaded w p.native)
  simp only [PeCall.exec, hipMemcpyAsync, hkind, Bool.not_true, Bool.false_eq_true, if_false]
  rfl

/-- A copy to a global that the handler finds. -/
theorem memcpyToSymbol_forwarded (symbol src : Ptr) (size offset : UInt64) {kind : Int32}
    (hmem : kind ∈ copyKinds) (hfound : ¬ findVar p.native symbol = 0) :
    Forwarded dlopen cap w p (.memcpyToSymbol symbol src size offset kind)
      (.memcpy (findVar p.native symbol + offset) src size kind) := by
  have hkind := hipMemcpyKindSupported_iff.mpr hmem
  refine .of_unix .memcpyToSymbol ArgsMemcpyToSymbol.ret (if_pos hkind)
    ((if_neg hfound).trans (h.forwardRet hw ..)) ?_ rfl rfl rfl (h.steady hw)
    (allocCap_ensureLoaded w p.native)
  simp only [PeCall.exec, hipMemcpyToSymbol, hkind, Bool.not_true, Bool.false_eq_true, if_false]
  rfl

/-- An external memory, if there is a descriptor for it. -/
theorem importExternalMemory_forwarded (extMem : Bool) (d : HipExtMemHandleDesc)
    (hfd : ¬ hipExtMemExtractFd (some d) < 0) :
    Forwarded dlopen cap w p (.importExternalMemory extMem (some d))
      (.importExternalMemory 1 (hipExtMemExtractFd (some d)) d.size d.flags) := by
  refine .of_unix .importExternalMemory ArgsImportExternalMemory.ret (if_neg hfd)
    (h.forwardPtr hw ..) ?_ rfl rfl ?_ (h.steady hw) (allocCap_ensureLoaded w p.native)
  · simp only [PeCall.exec, hipImportExternalMemory, if_neg hfd]
    exact forget_mapRet ..
  · simp only [PeCall.writes, hipImportExternalMemory, if_neg hfd, wineUnixCall, unixCall,
      unixImportExternalMemory, h.forwardPtr hw, out_mapRet]
    rfl

omit hw in
/-- A launch of a kernel that the handler finds. A kernel is known only once the library is
loaded. -/
theorem launchKernel_forwarded (hostFn : Ptr) (grid block : Dim3) {args : Ptr} (sharedMem : UInt64)
    (stream : Ptr) (hargs : ¬ args = 0) (hfound : ¬ findFunction p.native hostFn = 0)
    (hhandle : p.native.hipHandle ≠ none) :
    Forwarded dlopen cap w p
      (.launchKernel hostFn (some grid) (some block) (some args) sharedMem stream)
      (.moduleLaunchKernel (findFunction p.native hostFn) grid block sharedMem.toUInt32 stream
        args) := by
  have hsym := h.hasSym hhandle .hipModuleLaunchKernel
  have hunix : unixLaunchKernel w p.native
        { hostFn, grid, block, args, sharedMem := sharedMem.toUInt32, stream }
      = { args := { hostFn, grid, block, args, sharedMem := sharedMem.toUInt32, stream
                    ret := (w.hip (.moduleLaunchKernel (findFunction p.native hostFn) grid block
                      sharedMem.toUInt32 stream args)).ret }
          state := p.native
          issued := some (.moduleLaunchKernel (findFunction p.native hostFn) grid block
            sharedMem.toUInt32 stream args) } := by
    simp only [unixLaunchKernel, hsym, hfound, decide_false, Bool.not_true, Bool.or_false,
      Bool.false_eq_true, if_false]
  refine .of_unix .launchKernel ArgsLaunchKernel.ret (if_neg hargs) hunix ?_ rfl rfl rfl
    ⟨rfl, h, Option.isSome_iff_ne_none.mpr hhandle⟩ rfl
  simp only [PeCall.exec, hipLaunchKernel, if_neg hargs]
  rfl

/-- An allocation that stays under the cap. -/
theorem malloc_forwarded (given : Bool) (size : UInt64)
    (hunder : allocCapWouldExceed (allocCapTotal p.native.allocCap) size cap = false) :
    Forwarded dlopen cap w p (.malloc given size) (.malloc size) := by
  obtain ⟨hok, hsym, -⟩ := h.ensureLoaded hw
  have hsteady := h.steady hw
  have hkept := allocCap_ensureLoaded w p.native
  -- the handler compares with the cap that reading it now gives, and the table is as it was
  have hforce : (ensureVramCapRead (ensureLoaded w p.native).2).vramCapBytes = cap :=
    hsteady.unhindered.vramCap
  have hadmitted : allocCapWouldExceed
      (allocCapTotal (ensureVramCapRead (ensureLoaded w p.native).2).allocCap) size
      (ensureVramCapRead (ensureLoaded w p.native).2).vramCapBytes = false := by
    rw [hforce, allocCap_ensureVramCapRead, hkept, hunder]
  have hunix : unixMalloc w p.native { size }
      = { args := { size, ptr := (w.hip (.malloc size)).ptr, ret := (w.hip (.malloc size)).ret }
          state := (unixMalloc w p.native { size }).state
          issued := some (.malloc size) } := by
    simp only [unixMalloc, hok, hsym, hadmitted, Bool.not_true, Bool.or_false, Bool.false_eq_true,
      if_false]
  refine .of_unix .malloc ArgsMalloc.ret rfl hunix (forget_mapRet ..) rfl rfl ?_ ?_ ?_
  · simp only [PeCall.writes, hipMalloc, wineUnixCall, unixCall, out_mapRet]
    rw [hunix]
    rfl
  · simp only [unixMalloc, hok, hsym, hadmitted, Bool.not_true, Bool.or_false, Bool.false_eq_true,
      if_false]
    exact hsteady.ensureVramCapRead.allocCap _
  · simp only [unixMalloc, hok, hsym, hadmitted, Bool.not_true, Bool.or_false, Bool.false_eq_true,
      if_false]
    rw [allocCap_ensureVramCapRead, hkept]
    rfl

/-- A free. The block is released only if HIP has freed it. -/
theorem free_forwarded {ptr : Ptr} (hptr : ptr ≠ 0) :
    Forwarded dlopen cap w p (.free ptr) (.free ptr) := by
  obtain ⟨hok, hsym, -⟩ := h.ensureLoaded hw
  have hunix : unixFree w p.native { ptr }
      = { args := { ptr, ret := (w.hip (.free ptr)).ret }
          state := (unixFree w p.native { ptr }).state
          issued := some (.free ptr) } := by
    simp only [unixFree, hok, hsym, Bool.not_true, Bool.or_false, Bool.false_eq_true, if_false]
  refine .of_unix .free ArgsFree.ret (if_neg hptr) hunix (if_neg hptr) rfl rfl rfl ?_ ?_
  · simp only [unixFree, hok, hsym, Bool.not_true, Bool.or_false, Bool.false_eq_true, if_false]
    exact (h.steady hw).allocCap _
  · simp only [unixFree, hok, hsym, Bool.not_true, Bool.or_false, Bool.false_eq_true, if_false,
      allocCap_ensureLoaded]
    rfl

end Exports

/-- A launch that HIP is called for has all that it needs, and a kernel that is registered. -/
theorem DirectHip.hipCall_launchKernel {q : DirectHip D} {hostFn : Ptr}
    {gridDim blockDim : Option Dim3} {args : Option Ptr} {sharedMem : UInt64} {stream : Ptr}
    (h : q.hipCall (.launchKernel hostFn gridDim blockDim args sharedMem stream) = some call) :
    ∃ grid block args', gridDim = some grid ∧ blockDim = some block ∧ args = some args' ∧
      args' ≠ 0 ∧ ∃ function, q.functions hostFn = some function ∧
        call = .moduleLaunchKernel function grid block sharedMem.toUInt32 stream args' := by
  cases gridDim with
  | none => cases h
  | some grid =>
    cases blockDim with
    | none => cases h
    | some block =>
      cases args with
      | none => cases h
      | some args =>
        obtain ⟨hargs, h⟩ := Option.ite_none_left_eq_some.mp h
        obtain ⟨function, hfunction, rfl⟩ := Option.map_eq_some_iff.mp h
        exact ⟨grid, block, args, rfl, rfl, rfl, hargs, function, hfunction, rfl⟩

/-- **The walk over the exports.** One case an export that is one call of HIP in a game linked with
the library: the guards let it through, the handler makes that call, and the export ends with it. -/
theorem forwarded {q : DirectHip D} (h : Unhindered dlopen cap p.native) (hw : w.dlopen = dlopen)
    (hfunctions : TableMirrors p.native.registry.functions FunctionEntry.hostFn
      FunctionEntry.function q.functions)
    (hvars : TableMirrors p.native.registry.vars VarEntry.hostVar VarEntry.devicePtr q.vars)
    (hloaded : p.native.hipHandle = none → ∀ k, q.functions k = none)
    (hcap : ∀ given size, c = .malloc given size →
      allocCapWouldExceed (allocCapTotal p.native.allocCap) size cap = q.overCap size)
    (hversion : ∀ version, c = .driverGetVersion version ∨ c = .runtimeGetVersion version →
      (w.hip call).ret = 0)
    (hfree : c ≠ .free 0) (hcall : q.hipCall c = some call) : Forwarded dlopen cap w p c call := by
  have hsteady := h.steady hw
  have hkept := allocCap_ensureLoaded w p.native
  cases c with
  -- these are answered by the shim itself
  | pushCallConfiguration | popCallConfiguration | getLastError => cases hcall
  | setDevice device =>
    cases hcall
    exact .of_unix .setDevice ArgsSetDevice.ret rfl (h.forwardRet hw ..) rfl rfl rfl rfl hsteady
      hkept
  | getDevicePropertiesR0600 props device =>
    cases hcall
    exact .of_unix .getDeviceProperties ArgsGetDeviceProperties.ret rfl (h.forwardRet hw ..) rfl rfl
      rfl rfl hsteady hkept
  | deviceSynchronize =>
    cases hcall
    exact .of_unix .deviceSynchronize ArgsDeviceSynchronize.ret rfl (h.forwardRet hw ..) rfl rfl
      rfl rfl hsteady hkept
  | getDeviceCount count =>
    cases hcall
    refine .of_unix .getDeviceCount ArgsGetDeviceCount.ret rfl (h.forwardRet hw ..)
      (forget_mapRet ..) rfl rfl ?_ hsteady hkept
    simp only [PeCall.writes, hipGetDeviceCount, wineUnixCall, unixCall, unixGetDeviceCount,
      h.forwardRet hw, out_mapRet]
    rfl
  | memset ptr value size =>
    cases hcall
    exact .of_unix .memset ArgsMemset.ret rfl (h.forwardRet hw ..) rfl rfl rfl rfl hsteady hkept
  | memsetAsync ptr value size stream =>
    cases hcall
    exact .of_unix .memsetAsync ArgsMemset.ret rfl (h.forwardRet hw ..) rfl rfl rfl rfl hsteady
      hkept
  | eventQuery event =>
    cases hcall
    exact .of_unix .eventQuery ArgsEvent.ret rfl (h.forwardRet hw ..) rfl rfl rfl rfl hsteady hkept
  | streamSynchronize stream =>
    cases hcall
    exact .of_unix .streamSynchronize ArgsStreamSynchronize.ret rfl (h.forwardRet hw ..) rfl rfl rfl
      rfl hsteady hkept
  | eventRecord event stream =>
    cases hcall
    exact .of_unix .eventRecord ArgsEventRecord.ret rfl (h.forwardRet hw ..) rfl rfl rfl rfl hsteady
      hkept
  | eventSynchronize event =>
    cases hcall
    exact .of_unix .eventSynchronize ArgsEvent.ret rfl (h.forwardRet hw ..) rfl rfl rfl rfl hsteady
      hkept
  | destroyExternalMemory extMem =>
    cases hcall
    exact .of_unix .destroyExternalMemory ArgsDestroyExternalMemory.ret rfl (h.forwardRet hw ..) rfl
      rfl rfl rfl hsteady hkept
  | eventElapsedTime ms start stop =>
    cases hcall
    refine .of_unix .eventElapsedTime ArgsEventElapsedTime.ret rfl (h.forwardRet hw ..)
      (forget_mapRet ..) rfl rfl ?_ hsteady hkept
    simp only [PeCall.writes, hipEventElapsedTime, wineUnixCall, unixCall, unixEventElapsedTime,
      h.forwardRet hw, out_mapRet]
    rfl
  | streamCreateWithFlags stream flags =>
    cases hcall
    refine .of_unix .streamCreate ArgsStreamCreate.ret rfl (h.forwardPtr hw ..)
      (forget_mapRet ..) rfl rfl ?_ hsteady hkept
    simp only [PeCall.writes, hipStreamCreateWithFlags, wineUnixCall, unixCall, unixStreamCreate,
      h.forwardPtr hw, out_mapRet]
    rfl
  | eventCreate event =>
    cases hcall
    refine .of_unix .eventCreate ArgsEventCreate.ret rfl (h.forwardPtr hw ..)
      (forget_mapRet ..) rfl rfl ?_ hsteady hkept
    simp only [PeCall.writes, hipEventCreate, wineUnixCall, unixCall, unixEventCreate, ne_eq,
      not_true_eq_false, if_false, h.forwardPtr hw, out_mapRet]
    rfl
  | eventCreateWithFlags event flags =>
    cases hcall
    exact eventCreateWithFlags_forwarded h hw event flags
  | memcpy dst src size kind =>
    obtain ⟨hmem, hcall⟩ := Option.ite_none_right_eq_some.mp hcall
    cases hcall
    exact memcpy_forwarded h hw dst src size hmem
  | memcpyAsync dst src size kind stream =>
    obtain ⟨hmem, hcall⟩ := Option.ite_none_right_eq_some.mp hcall
    cases hcall
    exact memcpyAsync_forwarded h hw dst src size stream hmem
  | externalMemoryGetMappedBuffer devPtr extMem desc =>
    cases desc with
    | none => cases hcall
    | some d =>
      cases hcall
      refine .of_unix .externalMemoryGetMappedBuffer ArgsExternalMemoryGetMappedBuffer.ret rfl
        (h.forwardPtr hw ..) (forget_mapRet ..) rfl rfl ?_ hsteady hkept
      simp only [PeCall.writes, hipExternalMemoryGetMappedBuffer, wineUnixCall, unixCall,
        unixExternalMemoryGetMappedBuffer, h.forwardPtr hw, out_mapRet]
      rfl
  | importExternalMemory extMem desc =>
    cases desc with
    | none => cases hcall
    | some d =>
      simp only [DirectHip.hipCall, Option.bind_some, filter_fileDescriptor] at hcall
      split at hcall
      case isTrue => cases hcall
      case isFalse hfd =>
        cases hcall
        exact importExternalMemory_forwarded h hw extMem d hfd
  | memcpyToSymbol symbol src size offset kind =>
    obtain ⟨hmem, hcall⟩ := Option.ite_none_right_eq_some.mp hcall
    rw [hvars symbol] at hcall
    split at hcall
    case isTrue => cases hcall
    case isFalse hfound =>
      cases hcall
      exact memcpyToSymbol_forwarded h hw symbol src size offset hmem hfound
  | launchKernel hostFn gridDim blockDim args sharedMem stream =>
    obtain ⟨grid, block, args, rfl, rfl, rfl, hargs, function, hfunction, rfl⟩ :=
      DirectHip.hipCall_launchKernel hcall
    rw [hfunctions hostFn] at hfunction
    obtain ⟨hfound, hfunction⟩ := Option.ite_none_left_eq_some.mp hfunction
    cases hfunction
    exact launchKernel_forwarded h hostFn grid block sharedMem stream hargs hfound
      fun hnone => hfunctions.ne_none hfound (hloaded hnone hostFn)
  | driverGetVersion version =>
    cases hcall
    refine .of_query .driverGetVersion (hversion version (Or.inl rfl)) rfl (h.forwardVersion hw ..)
      ⟨rfl, rfl⟩ ?_ hsteady hkept
    simp only [PeCall.writes, hipDriverGetVersion, wineUnixCall, unixCall, unixDriverGetVersion,
      h.forwardVersion hw]
    rfl
  | runtimeGetVersion version =>
    cases hcall
    refine .of_query .runtimeGetVersion (hversion version (Or.inr rfl)) rfl
      (h.forwardVersion hw ..) ⟨rfl, rfl⟩ ?_ hsteady hkept
    simp only [PeCall.writes, hipRuntimeGetVersion, wineUnixCall, unixCall, unixRuntimeGetVersion,
      h.forwardVersion hw]
    rfl
  | malloc given size =>
    obtain ⟨hover, hcall⟩ := Option.ite_none_left_eq_some.mp hcall
    cases hcall
    refine malloc_forwarded h hw given size ?_
    rw [hcap given size rfl]
    exact Bool.not_eq_true _ ▸ hover
  | free ptr =>
    cases hcall
    exact free_forwarded h hw fun hzero => hfree (by rw [hzero])

/-- The export ends before HIP is called. -/
structure Refused (w : World) (p : Process) (c : PeCall) : Prop where
  code : (c.exec w p).ret = hipErrorNotSupported
  proc : (c.exec w p).proc = { p with lastError := hipErrorNotSupported }
  failCode : c.failCode = hipErrorNotSupported
  writes : c.writes w p = c.refused
  issued : (PeEvent.call c).issued w p = none

/-- A copy to a global of a kind that is none, or to one that is not registered. -/
theorem memcpyToSymbol_refused {q : DirectHip D} {symbol src : Ptr} {size offset : UInt64}
    {kind : Int32}
    (hvars : TableMirrors p.native.registry.vars VarEntry.hostVar VarEntry.devicePtr q.vars)
    (hcall : q.hipCall (.memcpyToSymbol symbol src size offset kind) = none) :
    Refused w p (.memcpyToSymbol symbol src size offset kind) := by
  simp only [DirectHip.hipCall] at hcall
  split at hcall
  case isFalse hmem =>
    have hkind : ¬ hipMemcpyKindSupported kind = true := fun h =>
      hmem (hipMemcpyKindSupported_iff.mp h)
    refine ⟨?_, ?_, rfl, rfl, ?_⟩ <;>
      simp [PeCall.exec, hipMemcpyToSymbol, PeEvent.issued, PeEvent.unix, PeCall.unix, hkind,
        reject]
  case isTrue hmem =>
    have hkind := hipMemcpyKindSupported_iff.mpr hmem
    rw [hvars symbol] at hcall
    split at hcall
    case isFalse => cases hcall
    -- the handler is called, and it finds no global
    case isTrue hunknown =>
      have hvar : findVar p.native symbol = 0 := hunknown
      refine ⟨?_, ?_, rfl, rfl, ?_⟩ <;>
        simp [PeCall.exec, hipMemcpyToSymbol, wineUnixCall, unixCall, unixMemcpyToSymbol,
          PeEvent.issued, PeEvent.unix, PeCall.unix, hkind, hvar, mapRet, hipSuccess]

/-- A launch without its dimensions or arguments, or of a kernel that is not registered. -/
theorem launchKernel_refused {q : DirectHip D} {hostFn : Ptr} {gridDim blockDim : Option Dim3}
    {args : Option Ptr} {sharedMem : UInt64} {stream : Ptr}
    (hfunctions : TableMirrors p.native.registry.functions FunctionEntry.hostFn
      FunctionEntry.function q.functions)
    (hcall : q.hipCall (.launchKernel hostFn gridDim blockDim args sharedMem stream) = none) :
    Refused w p (.launchKernel hostFn gridDim blockDim args sharedMem stream) := by
  cases gridDim with
  | none => exact ⟨rfl, rfl, rfl, rfl, rfl⟩
  | some grid =>
    cases blockDim with
    | none => exact ⟨rfl, rfl, rfl, rfl, rfl⟩
    | some block =>
      cases args with
      | none => exact ⟨rfl, rfl, rfl, rfl, rfl⟩
      | some args =>
        simp only [DirectHip.hipCall] at hcall
        split at hcall
        case isTrue hnull =>
          refine ⟨?_, ?_, rfl, rfl, ?_⟩ <;>
            simp [PeCall.exec, hipLaunchKernel, PeEvent.issued, PeEvent.unix, PeCall.unix, hnull,
              reject]
        case isFalse hargs =>
          rw [hfunctions hostFn] at hcall
          split at hcall
          case isFalse => cases hcall
          -- the handler is called, and it finds no kernel
          case isTrue hunknown =>
            have hfunction : findFunction p.native hostFn = 0 := hunknown
            refine ⟨?_, ?_, rfl, rfl, ?_⟩ <;>
              simp [PeCall.exec, hipLaunchKernel, wineUnixCall, unixCall, unixLaunchKernel,
                PeEvent.issued, PeEvent.unix, PeCall.unix, hargs, hfunction, mapRet, hipSuccess]

/-- The exports that check their arguments, or look a key up, refuse what is no call of HIP. -/
theorem refused {q : DirectHip D}
    (hfunctions : TableMirrors p.native.registry.functions FunctionEntry.hostFn
      FunctionEntry.function q.functions)
    (hvars : TableMirrors p.native.registry.vars VarEntry.hostVar VarEntry.devicePtr q.vars)
    (hpush : ∀ grid block sharedMem stream,
      c ≠ .pushCallConfiguration (some grid) (some block) sharedMem stream)
    (hpop : ∀ ptrs, c ≠ .popCallConfiguration ptrs) (hget : c ≠ .getLastError)
    (hmalloc : ∀ given size, c ≠ .malloc given size) (hcall : q.hipCall c = none) :
    Refused w p c := by
  cases c with
  | malloc given size => exact absurd rfl (hmalloc given size)
  | pushCallConfiguration gridDim blockDim sharedMem stream =>
    cases gridDim with
    | none => exact ⟨rfl, rfl, rfl, rfl, rfl⟩
    | some grid =>
      cases blockDim with
      | none => exact ⟨rfl, rfl, rfl, rfl, rfl⟩
      | some block => exact absurd rfl (hpush grid block sharedMem stream)
  | popCallConfiguration ptrs => exact absurd rfl (hpop ptrs)
  | getLastError => exact absurd rfl hget
  | memcpy dst src size kind =>
    simp only [DirectHip.hipCall] at hcall
    split at hcall
    case isTrue => cases hcall
    case isFalse hmem =>
      have hkind : ¬ hipMemcpyKindSupported kind = true := fun h =>
        hmem (hipMemcpyKindSupported_iff.mp h)
      refine ⟨?_, ?_, rfl, rfl, ?_⟩ <;>
        simp [PeCall.exec, hipMemcpy, memcpyForward, PeEvent.issued, PeEvent.unix, PeCall.unix,
          hkind, reject]
  | memcpyAsync dst src size kind stream =>
    simp only [DirectHip.hipCall] at hcall
    split at hcall
    case isTrue => cases hcall
    case isFalse hmem =>
      have hkind : ¬ hipMemcpyKindSupported kind = true := fun h =>
        hmem (hipMemcpyKindSupported_iff.mp h)
      refine ⟨?_, ?_, rfl, rfl, ?_⟩ <;>
        simp [PeCall.exec, hipMemcpyAsync, PeEvent.issued, PeEvent.unix, PeCall.unix, hkind, reject]
  | memcpyToSymbol symbol src size offset kind => exact memcpyToSymbol_refused hvars hcall
  | importExternalMemory extMem desc =>
    cases desc with
    | none => exact ⟨rfl, rfl, rfl, rfl, rfl⟩
    | some d =>
      simp only [DirectHip.hipCall, Option.bind_some, filter_fileDescriptor] at hcall
      split at hcall
      case isFalse => cases hcall
      case isTrue hfd =>
        refine ⟨?_, ?_, rfl, ?_, ?_⟩ <;>
          simp [PeCall.exec, PeCall.writes, PeCall.refused, hipImportExternalMemory,
            PeEvent.issued, PeEvent.unix, PeCall.unix, hfd, reject, PeResult.forget, through,
            writeIf]
  | externalMemoryGetMappedBuffer devPtr extMem desc =>
    cases desc with
    | none => exact ⟨rfl, rfl, rfl, rfl, rfl⟩
    | some d => cases hcall
  | launchKernel hostFn gridDim blockDim args sharedMem stream =>
    exact launchKernel_refused hfunctions hcall
  | _ => cases hcall

/-! ## Every export answers as in such a game -/

/-- A step of the two has shown the same, and the process still stands for the game. -/
def Alike (dlopen : String → Option HipLibrary) (r : PeAnswer × UnixHost D)
    (r' : PeAnswer × DirectHip D) : Prop :=
  r.1 = r'.1 ∧ Mirrors dlopen r.2 r'.2

/-- The step is one the shim is made for. No table is too small for it, with a cap not even the one
of blocks; no key is registered a second time, or taken back; what is read of a fat binary is
mapped; and HIP knows its version. -/
def Fits (hip : HipRuntime D) (s : UnixHost D) : PeEvent × Memory → Prop
  | (.call (.malloc _ size), _) =>
    s.proc.native.vramCap = 0 ∨
      BlockFits s.proc.native.allocCap size (hip (.malloc size) s.device).1.ptr
  | (.call (.pushCallConfiguration _ _ _ _), _) =>
    s.proc.callConfigStack.count < callConfigStackSize
  | (.call (.driverGetVersion _), _) => (hip .driverGetVersion s.device).1.ret = 0
  | (.call (.runtimeGetVersion _), _) => (hip .runtimeGetVersion s.device).1.ret = 0
  | (.registerFatBinary data, mem) =>
    BundleMapped mem data ∧ s.proc.native.registry.fatbins.count < maxFatbins ∧
      ¬ Registered s.proc.native.registry.fatbins FatbinEntry.token data
  | (.registerFunction _ hostFn _, _) =>
    s.proc.native.registry.functions.count < maxFunctions ∧
      ¬ Registered s.proc.native.registry.functions FunctionEntry.hostFn hostFn
  | (.registerVar _ hostVar _, _) =>
    s.proc.native.registry.vars.count < maxVars ∧
      ¬ Registered s.proc.native.registry.vars VarEntry.hostVar hostVar
  | (.unregisterFatBinary fatbinToken, _) =>
    ¬ Registered s.proc.native.registry.fatbins FatbinEntry.token fatbinToken
  | _ => True

instance (hip : HipRuntime D) (s : UnixHost D) (a : PeEvent × Memory) :
    Decidable (Fits hip s a) := by
  unfold Fits
  split <;> infer_instance

section Steps

variable {hip : HipRuntime D} {s : UnixHost D} {q : DirectHip D}

/-- A call of HIP that leaves the tables alone. -/
theorem Mirrors.steady (h : Mirrors dlopen s q) (proc : Process)
    (hsteady : Steady dlopen q.cap s.proc.native proc.native)
    (hstack : proc.callConfigStack = s.proc.callConfigStack) {held : List AllocEntry}
    (haccounts : q.cap ≠ 0 → Accounts proc.native.allocCap held) (device : D) :
    Mirrors dlopen ⟨proc, device⟩ { q with lastError := proc.lastError, device, held } where
  modules := by rw [hsteady.registry]; exact h.modules
  functions := by rw [hsteady.registry]; exact h.functions
  vars := by rw [hsteady.registry]; exact h.vars
  pushed := by rw [hstack]; exact h.pushed
  lastError := rfl
  device := rfl
  native := hsteady.unhindered
  accounts := haccounts
  loaded hnone := by
    have hloaded := hsteady.loaded
    rw [hnone] at hloaded
    cases hloaded

/-- Both sides set the last error. -/
theorem Mirrors.withLastError (h : Mirrors dlopen s q) (lastError : Int32) :
    Mirrors dlopen { s with proc := { s.proc with lastError } } { q with lastError } :=
  ⟨h.modules, h.functions, h.vars, h.pushed, rfl, h.device, h.native, h.accounts, h.loaded⟩

/-- Both sides push a configuration, or take one. -/
theorem Mirrors.withStack (h : Mirrors dlopen s q)
    {callConfigStack : SlotTable CallConfig callConfigStackSize} {pushed : List CallConfig}
    (hlive : callConfigStack.live = pushed.reverse) :
    Mirrors dlopen { s with proc := { s.proc with callConfigStack } } { q with pushed } :=
  ⟨h.modules, h.functions, h.vars, hlive, h.lastError, h.device, h.native, h.accounts, h.loaded⟩

/-- What a call of HIP does to the blocks. -/
theorem Mirrors.accounted (h : Mirrors dlopen s q) {mem : Memory} {c : PeCall} {call : HipCall}
    (hfits : Fits hip s (.call c, mem)) (hfree : c ≠ .free 0) (hcall : q.hipCall c = some call)
    (hcap : q.cap ≠ 0) :
    Accounts (c.accounted (hip call s.device).1 s.proc.native.allocCap)
      (c.holds (hip call s.device).1 q.held) := by
  cases c with
  | malloc given size =>
    simp only [DirectHip.hipCall] at hcall
    split at hcall
    case isTrue => cases hcall
    case isFalse =>
      cases hcall
      rcases hfits with hnone | hblock
      · exact absurd (h.native.vramCap.symm.trans hnone) hcap
      · exact (h.accounts hcap).malloc given hblock
  | free ptr => exact (h.accounts hcap).free (fun hzero => hfree (by rw [hzero])) _
  | _ => exact h.accounts hcap

/-- How a call ends that HIP was asked for. -/
theorem Mirrors.forwarded (h : Mirrors dlopen s q) {mem : Memory} {c : PeCall} {call : HipCall}
    (hfits : Fits hip s (.call c, mem)) (hfree : c ≠ .free 0) (hcall : q.hipCall c = some call)
    (hc : Forwarded dlopen q.cap (s.world dlopen hip mem) s.proc c call) :
    Alike dlopen (hostStep dlopen hip s (.call c, mem))
      ({ q with
          device := (hip call q.device).2
          held := c.holds (hip call q.device).1 q.held }.ends c
        ((hip call q.device).1.ret = 0) (c.written (hip call q.device).1)) := by
  have haccounts : q.cap ≠ 0 →
      Accounts (c.exec (s.world dlopen hip mem) s.proc).proc.native.allocCap
        (c.holds (hip call s.device).1 q.held) := by
    intro hcap
    rw [hc.accounts]
    exact h.accounted hfits hfree hcall hcap
  have hmirrors := h.steady _ hc.native hc.stack haccounts (hip call s.device).2
  have hworld : (s.world dlopen hip mem).hip call = (hip call s.device).1 := rfl
  have hcode := hc.code
  have hlast := hc.lastError
  rw [hworld] at hcode hlast
  unfold Alike hostStep DirectHip.ends
  simp only [PeEvent.exec, hc.issued, hc.writes, hcode, hworld, ← h.device]
  -- the last error is HIP's refusal in the shim's words, or what it was
  by_cases hret : (hip call s.device).1.ret = 0
  case pos =>
    rw [if_pos hret, h.lastError] at hlast
    rw [hlast] at hmirrors
    rw [if_pos hret, if_pos (decide_eq_true hret)]
    exact ⟨rfl, hmirrors⟩
  case neg =>
    rw [if_neg hret] at hlast
    rw [hlast] at hmirrors
    have hfailed : ¬ decide ((hip call s.device).1.ret = 0) = true := by simpa using hret
    rw [if_neg hret, if_neg hfailed]
    exact ⟨rfl, hmirrors⟩

/-- How a call ends that HIP was not asked for. -/
theorem Mirrors.refused (h : Mirrors dlopen s q) {mem : Memory} {c : PeCall}
    (hc : Refused (s.world dlopen hip mem) s.proc c) :
    Alike dlopen (hostStep dlopen hip s (.call c, mem)) (q.ends c false c.refused) := by
  unfold Alike hostStep DirectHip.ends
  simp only [PeEvent.exec, hc.issued, hc.writes, hc.code, hc.proc, hc.failCode,
    Bool.false_eq_true, if_false]
  exact ⟨trivial, h.withLastError hipErrorNotSupported⟩

/-- A block over the cap is refused without a call of HIP. -/
theorem malloc_mirrors (h : Mirrors dlopen s q) (given : Bool) {size : UInt64} (mem : Memory)
    (hexceeds : allocCapWouldExceed (allocCapTotal s.proc.native.allocCap) size q.cap = true) :
    Alike dlopen (hostStep dlopen hip s (.call (.malloc given size), mem))
      (q.ends (.malloc given size) false (PeCall.malloc given size).refused) := by
  have hw : (s.world dlopen hip mem).dlopen = dlopen := rfl
  generalize hworld : s.world dlopen hip mem = w at hw
  obtain ⟨hok, hsym, -⟩ := h.native.ensureLoaded hw
  have hsteady := (h.native.steady hw).ensureVramCapRead
  -- by then the library is loaded and the cap read, and neither has changed the total
  have hover : allocCapWouldExceed
      (allocCapTotal (ensureVramCapRead (ensureLoaded w s.proc.native).2).allocCap) size
      (ensureVramCapRead (ensureLoaded w s.proc.native).2).vramCapBytes = true := by
    have hforce : (ensureVramCapRead (ensureLoaded w s.proc.native).2).vramCapBytes = q.cap :=
      (h.native.steady hw).unhindered.vramCap
    rw [hforce, allocCap_ensureVramCapRead, allocCap_ensureLoaded]
    exact hexceeds
  have hunix : unixMalloc w s.proc.native { size }
      = { args := { size, ptr := 0, ret := hipErrorOutOfMemory }
          state := ensureVramCapRead (ensureLoaded w s.proc.native).2 } := by
    simp only [unixMalloc, hok, hsym, hover, Bool.not_true, Bool.or_false, Bool.false_eq_true,
      if_false, if_true]
  have hstep : hostStep dlopen hip s (.call (.malloc given size), mem)
      = ({ code := some hipErrorNoDevice, ptr := writeIf given 0 },
        { s with
          proc := { s.proc with
            lastError := hipErrorNoDevice
            native := ensureVramCapRead (ensureLoaded w s.proc.native).2 } }) := by
    simp only [hostStep, hworld, PeEvent.exec, PeCall.exec, PeCall.writes, PeEvent.issued,
      PeEvent.unix, PeCall.unix, Option.bind_some, hipMalloc, wineUnixCall, unixCall, hunix, mapRet]
    rfl
  rw [hstep]
  have haccounts : q.cap ≠ 0 →
      Accounts (ensureVramCapRead (ensureLoaded w s.proc.native).2).allocCap q.held := by
    rw [allocCap_ensureVramCapRead, allocCap_ensureLoaded]
    exact h.accounts
  have hmirrors : Mirrors dlopen
      ⟨{ s.proc with
          lastError := hipErrorNoDevice
          native := ensureVramCapRead (ensureLoaded w s.proc.native).2 }, s.device⟩
      { q with lastError := hipErrorNoDevice, device := s.device } :=
    h.steady { s.proc with lastError := hipErrorNoDevice, native := _ } hsteady rfl haccounts
      s.device
  refine ⟨rfl, ?_⟩
  show Mirrors dlopen _ { q with lastError := hipErrorNoDevice }
  rw [h.device] at hmirrors ⊢
  exact hmirrors

/-- A pop takes the configuration pushed last, or is refused. -/
theorem pop_mirrors (h : Mirrors dlopen s q) (ptrs : PopPointers) (mem : Memory) :
    Alike dlopen (hostStep dlopen hip s (.call (.popCallConfiguration ptrs), mem))
      (q.call hip (.popCallConfiguration ptrs)) := by
  have hlive := h.pushed
  by_cases hempty : s.proc.callConfigStack.count = 0
  -- both are empty, or neither is
  · have hnone : q.pushed = [] := by
      have hlen := s.proc.callConfigStack.length_live
      rw [hlive, hempty, List.length_reverse] at hlen
      exact List.length_eq_zero_iff.mp hlen
    have hstep : hostStep dlopen hip s (.call (.popCallConfiguration ptrs), mem)
        = ({ code := some hipErrorNotSupported },
          { s with proc.lastError := hipErrorNotSupported }) := by
      simp only [hostStep, PeEvent.exec, PeCall.exec, PeCall.writes, hipPopCallConfiguration,
        dif_pos hempty]
      rfl
    rw [hstep, DirectHip.call, hnone]
    exact ⟨rfl, h.withLastError hipErrorNotSupported⟩
  · have hpos : 0 < s.proc.callConfigStack.count := Nat.pos_of_ne_zero hempty
    have hsplit := s.proc.callConfigStack.live_eq_dropLast_append hpos
    rw [hlive] at hsplit
    -- the top of the stack is the head of the list
    have hpushed : q.pushed
        = s.proc.callConfigStack.last hpos :: s.proc.callConfigStack.pop.live.reverse := by
      rw [← List.reverse_reverse q.pushed, hsplit, List.reverse_append]
      rfl
    have hstep : hostStep dlopen hip s (.call (.popCallConfiguration ptrs), mem)
        = ({ code := some hipSuccess
             config := ptrs.write (s.proc.callConfigStack.last hpos) },
          { s with proc.callConfigStack := s.proc.callConfigStack.pop }) := by
      simp only [hostStep, PeEvent.exec, PeCall.exec, PeCall.writes, hipPopCallConfiguration,
        dif_neg hempty]
      rfl
    rw [hstep, DirectHip.call, hpushed]
    exact ⟨rfl, h.withStack (List.reverse_reverse _).symm⟩

/-- A push with room on the stack is kept. -/
theorem push_mirrors (h : Mirrors dlopen s q) (grid block : Dim3) (sharedMem : UInt64)
    (stream : Ptr) (mem : Memory) (hroom : s.proc.callConfigStack.count < callConfigStackSize) :
    Alike dlopen
      (hostStep dlopen hip s
        (.call (.pushCallConfiguration (some grid) (some block) sharedMem stream), mem))
      (q.call hip (.pushCallConfiguration (some grid) (some block) sharedMem stream)) := by
  have hstep : hostStep dlopen hip s
        (.call (.pushCallConfiguration (some grid) (some block) sharedMem stream), mem)
      = ({ code := some hipSuccess },
        { s with
          proc.callConfigStack :=
            s.proc.callConfigStack.push ⟨grid, block, sharedMem, stream⟩ hroom }) := by
    simp only [hostStep, PeEvent.exec, PeCall.exec, PeCall.writes, hipPushCallConfiguration,
      dif_neg (Nat.not_le.mpr hroom)]
    rfl
  have hlive : (s.proc.callConfigStack.push ⟨grid, block, sharedMem, stream⟩ hroom).live
      = (⟨grid, block, sharedMem, stream⟩ :: q.pushed).reverse := by
    rw [SlotTable.live_push, h.pushed, List.reverse_cons]
  rw [hstep]
  exact ⟨rfl, h.withStack hlive⟩

/-- A call that keeps no state of its own is one of HIP, or is refused. -/
theorem DirectHip.call_eq (q : DirectHip D) {c : PeCall}
    (hpush : ∀ grid block sharedMem stream,
      c ≠ .pushCallConfiguration (some grid) (some block) sharedMem stream)
    (hpop : ∀ ptrs, c ≠ .popCallConfiguration ptrs) (hget : c ≠ .getLastError)
    (hfree : c ≠ .free 0) :
    q.call hip c
      = match q.hipCall c with
        | none => q.ends c false c.refused
        | some call =>
          { q with
              device := (hip call q.device).2
              held := c.holds (hip call q.device).1 q.held }.ends c
            ((hip call q.device).1.ret = 0) (c.written (hip call q.device).1) := by
  unfold DirectHip.call
  split
  case h_1 => exact absurd rfl (hpush _ _ _ _)
  case h_2 => exact absurd rfl (hpop _)
  case h_3 => exact absurd rfl hget
  case h_4 => exact absurd rfl hfree
  case h_5 => rfl

/-- The calls of the game. -/
theorem call_mirrors (h : Mirrors dlopen s q) (c : PeCall) (mem : Memory)
    (hfits : Fits hip s (.call c, mem)) :
    Alike dlopen (hostStep dlopen hip s (.call c, mem)) (q.call hip c) := by
  -- the four calls the two sides answer from a state of their own come first
  by_cases hpush : ∃ grid block sharedMem stream,
      c = .pushCallConfiguration (some grid) (some block) sharedMem stream
  · obtain ⟨grid, block, sharedMem, stream, rfl⟩ := hpush
    exact push_mirrors h grid block sharedMem stream mem hfits
  by_cases hpop : ∃ ptrs, c = .popCallConfiguration ptrs
  · obtain ⟨ptrs, rfl⟩ := hpop
    exact pop_mirrors h ptrs mem
  by_cases hget : c = .getLastError
  · subst hget
    refine ⟨?_, h.withLastError hipSuccess⟩
    show { code := some s.proc.lastError : PeAnswer } = { code := some q.lastError }
    rw [h.lastError]
  by_cases hfree : c = .free 0
  · subst hfree
    exact ⟨rfl, h⟩
  have hnopush : ∀ grid block sharedMem stream,
      c ≠ .pushCallConfiguration (some grid) (some block) sharedMem stream :=
    fun grid block sharedMem stream hc => hpush ⟨grid, block, sharedMem, stream, hc⟩
  have hnopop : ∀ ptrs, c ≠ .popCallConfiguration ptrs := fun ptrs hc => hpop ⟨ptrs, hc⟩
  have hcap : ∀ given size, c = .malloc given size →
      allocCapWouldExceed (allocCapTotal s.proc.native.allocCap) size q.cap = q.overCap size := by
    intro given size hc
    subst hc
    apply Accounts.exceeds_eq h.accounts
    intro hcap
    rcases hfits with hnone | hblock
    · exact absurd (h.native.vramCap.symm.trans hnone) hcap
    · exact hblock.2.1
  have hversion : ∀ {call : HipCall}, q.hipCall c = some call → ∀ version,
      c = .driverGetVersion version ∨ c = .runtimeGetVersion version →
      ((s.world dlopen hip mem).hip call).ret = 0 := by
    intro call hcall version hc
    rcases hc with rfl | rfl
    · cases hcall
      exact hfits
    · cases hcall
      exact hfits
  rw [q.call_eq hnopush hnopop hget hfree]
  cases hcall : q.hipCall c with
  | none =>
    -- of the refusals only `hipMalloc`'s comes from the native side
    by_cases hmalloc : ∃ given size, c = .malloc given size
    · obtain ⟨given, size, rfl⟩ := hmalloc
      apply malloc_mirrors h given mem
      rw [hcap given size rfl]
      simp only [DirectHip.hipCall] at hcall
      split at hcall
      case isTrue hover => exact hover
      case isFalse => cases hcall
    · exact h.refused (HipBridge.Unixlib.refused h.functions h.vars hnopush hnopop hget
        (fun given size hc => hmalloc ⟨given, size, hc⟩) hcall)
  | some call =>
    exact h.forwarded hfits hfree hcall (HipBridge.Unixlib.forwarded h.native rfl h.functions h.vars
      (fun hnone k => (h.loaded hnone k).2) hcap (hversion hcall) hfree hcall)

/-! ### Registrations -/

/-- The library is called, and nothing is registered. -/
theorem Mirrors.called (h : Mirrors dlopen s q) {native : NativeState}
    (hsteady : Steady dlopen q.cap s.proc.native native)
    (hkept : native.allocCap = s.proc.native.allocCap) (device : D) :
    Mirrors dlopen { proc := { s.proc with native }, device } { q with device } := by
  have haccounts : q.cap ≠ 0 → Accounts native.allocCap q.held := by
    rw [hkept]
    exact h.accounts
  have hmirrors : Mirrors dlopen ⟨{ s.proc with native }, device⟩
      { q with lastError := s.proc.lastError, device } :=
    h.steady { s.proc with native } hsteady rfl haccounts device
  rw [h.lastError] at hmirrors
  exact hmirrors

/-- The tables have no part in it. -/
theorem Unhindered.registry (h : Unhindered dlopen cap n) (registry : Registry) :
    Unhindered dlopen cap { n with registry } := by
  refine ⟨h.library, ?_⟩
  have hcap := h.vramCap
  rw [vramCap_eq] at hcap ⊢
  exact hcap

/-- A module is entered on both sides, -/
theorem Mirrors.addFatbin (h : Mirrors dlopen s q) (hloaded : s.proc.native.hipHandle ≠ none)
    (hroom : s.proc.native.registry.fatbins.count < maxFatbins) {token : Ptr}
    (hnew : ¬ Registered s.proc.native.registry.fatbins FatbinEntry.token token) (module : Ptr) :
    Mirrors dlopen
      { s with
        proc.native.registry := (registryAddFatbin s.proc.native.registry token module).2 }
      { q with modules := register q.modules token module } :=
  ⟨h.modules.add ⟨token, module⟩ hroom hnew, h.functions, h.vars, h.pushed, h.lastError, h.device,
    h.native.registry _, h.accounts, fun hnone => absurd hnone hloaded⟩

/-- a kernel, -/
theorem Mirrors.addFunction (h : Mirrors dlopen s q) (hloaded : s.proc.native.hipHandle ≠ none)
    (hroom : s.proc.native.registry.functions.count < maxFunctions) {hostFn : Ptr}
    (hnew : ¬ Registered s.proc.native.registry.functions FunctionEntry.hostFn hostFn)
    (function : Ptr) (name : Option CString) :
    Mirrors dlopen
      { s with
        proc.native.registry :=
          (registryAddFunction s.proc.native.registry hostFn function name).2 }
      { q with functions := register q.functions hostFn function } :=
  ⟨h.modules, h.functions.add ⟨hostFn, function, _⟩ hroom hnew, h.vars, h.pushed, h.lastError,
    h.device, h.native.registry _, h.accounts, fun hnone => absurd hnone hloaded⟩

/-- and a device global. -/
theorem Mirrors.addVar (h : Mirrors dlopen s q) (hloaded : s.proc.native.hipHandle ≠ none)
    (hroom : s.proc.native.registry.vars.count < maxVars) {hostVar : Ptr}
    (hnew : ¬ Registered s.proc.native.registry.vars VarEntry.hostVar hostVar) (devicePtr : Ptr) :
    Mirrors dlopen
      { s with
        proc.native.registry := (registryAddVar s.proc.native.registry hostVar devicePtr).2 }
      { q with vars := register q.vars hostVar devicePtr } :=
  ⟨h.modules, h.functions, h.vars.add ⟨hostVar, devicePtr⟩ hroom hnew, h.pushed, h.lastError,
    h.device, h.native.registry _, h.accounts, fun hnone => absurd hnone hloaded⟩

/-- A fat binary is loaded. -/
theorem registerFatBinary_mirrors (h : Mirrors dlopen s q) (data : Ptr) (mem : Memory)
    (hfits : Fits hip s (.registerFatBinary data, mem)) :
    Alike dlopen (hostStep dlopen hip s (.registerFatBinary data, mem))
      (q.step hip (.registerFatBinary data, mem)) := by
  obtain ⟨hmapped, hroom, hnew⟩ := hfits
  obtain ⟨hresolve, hnonnull⟩ := resolveBundlePtr_eq hmapped
  obtain ⟨hok, hsym, hhandle, -⟩ :=
    @Unhindered.ensureLoaded dlopen q.cap (s.world dlopen hip mem) _ h.native rfl
  have hsteady := @Unhindered.steady dlopen q.cap (s.world dlopen hip mem) _ h.native rfl
  have hresolve' : resolveBundlePtr (s.world dlopen hip mem).mem data
      = some ((bundleAt mem data).getD 0) := hresolve
  have hreply : ∀ bundle, (s.world dlopen hip mem).hip (.moduleLoadData bundle)
      = (hip (.moduleLoadData bundle) s.device).1 := fun _ => rfl
  generalize hworld : s.world dlopen hip mem = w at *
  cases hbundle : bundleAt mem data with
  -- no bundle: the token is null on both sides
  | none =>
    rw [hbundle] at hresolve'
    have hstep : hostStep dlopen hip s (.registerFatBinary data, mem)
        = ({ ptr := some 0 },
          { proc := { s.proc with native := (ensureLoaded w s.proc.native).2 }
            device := s.device }) := by
      simp [hostStep, hworld, PeEvent.exec, PeEvent.issued, PeEvent.unix, hipRegisterFatBinary,
        wineUnixCall, unixCall, unixRegisterFatBinary, hok, hsym, hresolve']
    have hmirrors := h.called hsteady (allocCap_ensureLoaded _ _) s.device
    rw [hstep]
    simp only [DirectHip.step, hbundle]
    rw [h.device] at hmirrors ⊢
    exact ⟨rfl, hmirrors⟩
  | some bundle =>
    rw [hbundle] at hresolve' hnonnull
    have hnull : bundle ≠ 0 := fun hzero => hnonnull (congrArg some hzero)
    have hmirrors := h.called hsteady (allocCap_ensureLoaded _ _)
      (hip (.moduleLoadData bundle) s.device).2
    simp only [DirectHip.step, hbundle, ← h.device]
    by_cases hret : (hip (.moduleLoadData bundle) s.device).1.ret = 0
    case pos =>
      have hsuccess : (hip (.moduleLoadData bundle) s.device).1.ret = hipSuccess := hret
      have hstep : hostStep dlopen hip s (.registerFatBinary data, mem)
          = ({ ptr := some data },
            { proc :=
                { s.proc with
                  native :=
                    { (ensureLoaded w s.proc.native).2 with
                      registry := (registryAddFatbin (ensureLoaded w s.proc.native).2.registry data
                        (hip (.moduleLoadData bundle) s.device).1.ptr).2 } }
              device := (hip (.moduleLoadData bundle) s.device).2 }) := by
        simp [hostStep, hworld, PeEvent.exec, PeEvent.issued, PeEvent.unix, hipRegisterFatBinary,
          wineUnixCall, unixCall, unixRegisterFatBinary, hok, hsym, hresolve', hnull, hreply,
          hsuccess]
      rw [hstep, if_pos hret]
      -- loading the library has left the table as it was, so there is room and the key is new
      have hkept : (ensureLoaded w s.proc.native).2.registry = s.proc.native.registry :=
        registry_ensureLoaded w s.proc.native
      refine ⟨rfl, hmirrors.addFatbin (Option.isSome_iff_ne_none.mp hhandle) ?_ ?_ _⟩
      · show (ensureLoaded w s.proc.native).2.registry.fatbins.count < maxFatbins
        rw [hkept]
        exact hroom
      · show ¬ Registered (ensureLoaded w s.proc.native).2.registry.fatbins FatbinEntry.token data
        rw [hkept]
        exact hnew
    case neg =>
      have hfailed : ¬ (hip (.moduleLoadData bundle) s.device).1.ret = hipSuccess := hret
      have hstep : hostStep dlopen hip s (.registerFatBinary data, mem)
          = ({ ptr := some 0 },
            { proc := { s.proc with native := (ensureLoaded w s.proc.native).2 }
              device := (hip (.moduleLoadData bundle) s.device).2 }) := by
        simp [hostStep, hworld, PeEvent.exec, PeEvent.issued, PeEvent.unix, hipRegisterFatBinary,
          wineUnixCall, unixCall, unixRegisterFatBinary, hok, hsym, hresolve', hnull, hreply,
          hfailed]
      rw [hstep, if_neg hret]
      exact ⟨rfl, hmirrors⟩

/-- What the handlers of `__hipRegisterFunction` and `__hipRegisterVar` do: they look the module up,
look their object up in it, and add it. -/
structure Resolves (dlopen : String → Option HipLibrary) (hip : HipRuntime D) (s : UnixHost D)
    (a : PeEvent × Memory) (fatbinToken : Ptr) (lookup : Ptr → HipCall)
    (add : Registry → Ptr → Registry) : Prop where
  unknown : findModule s.proc.native fatbinToken = 0 → hostStep dlopen hip s a = ({}, s)
  known : ∀ r device, findModule s.proc.native fatbinToken ≠ 0 →
    hip (lookup (findModule s.proc.native fatbinToken)) s.device = (r, device) →
    hostStep dlopen hip s a = ({}, if r.ret = hipSuccess then
      { s with
        proc.native.registry := add s.proc.native.registry r.ptr
        device }
      else { s with device })

/-- Such a handler registers what the game registers. -/
theorem Resolves.mirrors {a : PeEvent × Memory} {fatbinToken : Ptr} {lookup : Ptr → HipCall}
    {add : Registry → Ptr → Registry} {add' : DirectHip D → Ptr → DirectHip D}
    (hs : Resolves dlopen hip s a fatbinToken lookup add) (h : Mirrors dlopen s q)
    (hadd : ∀ device x, s.proc.native.hipHandle ≠ none →
      Mirrors dlopen { s with device } { q with device } →
      Mirrors dlopen
        { s with
          proc.native.registry := add s.proc.native.registry x
          device }
        (add' { q with device } x)) :
    Alike dlopen (hostStep dlopen hip s a) (q.resolve hip fatbinToken lookup add') := by
  unfold DirectHip.resolve
  rw [h.modules fatbinToken]
  by_cases hunknown : findModule s.proc.native fatbinToken = 0
  · rw [hs.unknown hunknown]
    have hknown : registryFind s.proc.native.registry.fatbins FatbinEntry.token FatbinEntry.module
      fatbinToken = 0 := hunknown
    rw [if_pos hknown]
    exact ⟨rfl, h⟩
  -- a module is known only once the library is loaded
  · have hhandle : s.proc.native.hipHandle ≠ none :=
      fun hnone => h.modules.ne_none hunknown (h.loaded hnone fatbinToken).1
    have hfound : registryFind s.proc.native.registry.fatbins FatbinEntry.token FatbinEntry.module
      fatbinToken ≠ 0 := hunknown
    rw [if_neg hfound, ← h.device]
    have hknown := fun r device => hs.known r device hunknown
    change ∀ r device, hip (lookup (registryFind s.proc.native.registry.fatbins FatbinEntry.token
      FatbinEntry.module fatbinToken)) s.device = (r, device) → _ at hknown
    dsimp only
    generalize hip (lookup _) s.device = reply at hknown ⊢
    obtain ⟨r, device⟩ := reply
    rw [hknown r device rfl]
    have hmirrors : Mirrors dlopen { s with device } { q with device } :=
      ⟨h.modules, h.functions, h.vars, h.pushed, h.lastError, rfl, h.native, h.accounts, h.loaded⟩
    by_cases hret : r.ret = 0
    · have hsuccess : r.ret = hipSuccess := hret
      rw [if_pos hret, if_pos hsuccess]
      exact ⟨rfl, hadd device r.ptr hhandle hmirrors⟩
    · have hfailed : ¬ r.ret = hipSuccess := hret
      rw [if_neg hret, if_neg hfailed]
      exact ⟨rfl, hmirrors⟩

/-- A kernel is registered. -/
theorem registerFunction_mirrors (h : Mirrors dlopen s q) (fatbinToken hostFn : Ptr)
    (name : Option CString) (mem : Memory)
    (hroom : s.proc.native.registry.functions.count < maxFunctions)
    (hnew : ¬ Registered s.proc.native.registry.functions FunctionEntry.hostFn hostFn) :
    Alike dlopen (hostStep dlopen hip s (.registerFunction fatbinToken hostFn name, mem))
      (q.step hip (.registerFunction fatbinToken hostFn name, mem)) := by
  have hs : Resolves dlopen hip s (.registerFunction fatbinToken hostFn name, mem) fatbinToken
      (.moduleGetFunction · name) fun r x => (registryAddFunction r hostFn x name).2 := by
    refine ⟨fun hunknown => ?_, fun r device hknown hreply => ?_⟩
    · simp [hostStep, PeEvent.exec, PeEvent.issued, PeEvent.unix, hipRegisterFunction,
        wineUnixCall, unixCall, unixRegisterFunction, hunknown]
    · have hhandle : s.proc.native.hipHandle ≠ none :=
        fun hnone => h.modules.ne_none hknown (h.loaded hnone fatbinToken).1
      have hsym := h.native.hasSym hhandle .hipModuleGetFunction
      have hworld : (s.world dlopen hip mem).hip
          (.moduleGetFunction (findModule s.proc.native fatbinToken) name) = r :=
        congrArg Prod.fst hreply
      by_cases hret : r.ret = hipSuccess <;>
        simp [hostStep, PeEvent.exec, PeEvent.issued, PeEvent.unix, hipRegisterFunction,
          wineUnixCall, unixCall, unixRegisterFunction, hknown, hsym, hworld, hret, hreply]
  refine hs.mirrors h fun device x hhandle hmirrors => ?_
  exact hmirrors.addFunction hhandle hroom hnew x name

/-- A device global is registered. -/
theorem registerVar_mirrors (h : Mirrors dlopen s q) (fatbinToken hostVar : Ptr)
    (name : Option CString) (mem : Memory)
    (hroom : s.proc.native.registry.vars.count < maxVars)
    (hnew : ¬ Registered s.proc.native.registry.vars VarEntry.hostVar hostVar) :
    Alike dlopen (hostStep dlopen hip s (.registerVar fatbinToken hostVar name, mem))
      (q.step hip (.registerVar fatbinToken hostVar name, mem)) := by
  have hs : Resolves dlopen hip s (.registerVar fatbinToken hostVar name, mem) fatbinToken
      (.moduleGetGlobal · name) fun r x => (registryAddVar r hostVar x).2 := by
    refine ⟨fun hunknown => ?_, fun r device hknown hreply => ?_⟩
    · simp [hostStep, PeEvent.exec, PeEvent.issued, PeEvent.unix, hipRegisterVar,
        wineUnixCall, unixCall, unixRegisterVar, hunknown]
    · have hhandle : s.proc.native.hipHandle ≠ none :=
        fun hnone => h.modules.ne_none hknown (h.loaded hnone fatbinToken).1
      have hsym := h.native.hasSym hhandle .hipModuleGetGlobal
      have hworld : (s.world dlopen hip mem).hip
          (.moduleGetGlobal (findModule s.proc.native fatbinToken) name) = r :=
        congrArg Prod.fst hreply
      by_cases hret : r.ret = hipSuccess <;>
        simp [hostStep, PeEvent.exec, PeEvent.issued, PeEvent.unix, hipRegisterVar,
          wineUnixCall, unixCall, unixRegisterVar, hknown, hsym, hworld, hret, hreply]
  refine hs.mirrors h fun device x hhandle hmirrors => ?_
  exact hmirrors.addVar hhandle hroom hnew x

/-- The text of an error is HIP's. -/
theorem getErrorString_mirrors (h : Mirrors dlopen s q) (error : Int32) (mem : Memory) :
    Alike dlopen (hostStep dlopen hip s (.getErrorString error, mem))
      (q.step hip (.getErrorString error, mem)) := by
  have hw : (s.world dlopen hip mem).dlopen = dlopen := rfl
  have hstep : hostStep dlopen hip s (.getErrorString error, mem)
      = ({ str := (hip (.getErrorString error) s.device).1.str },
        { proc :=
            { s.proc with native := (ensureLoaded (s.world dlopen hip mem) s.proc.native).2 }
          device := (hip (.getErrorString error) s.device).2 }) := by
    simp only [hostStep, PeEvent.exec, PeEvent.issued, PeEvent.unix, hipGetErrorString,
      wineUnixCall, unixCall, unixGetErrorString, Option.bind_some, h.native.forwardRet hw]
    rfl
  have hmirrors := h.called (h.native.steady hw) (allocCap_ensureLoaded _ _)
    (hip (.getErrorString error) s.device).2
  rw [hstep]
  simp only [DirectHip.step, ← h.device]
  exact ⟨rfl, hmirrors⟩

/-- **The step.** -/
theorem hostStep_mirrors (h : Mirrors dlopen s q) (a : PeEvent × Memory) (hfits : Fits hip s a) :
    Alike dlopen (hostStep dlopen hip s a) (q.step hip a) := by
  obtain ⟨e, mem⟩ := a
  cases e with
  | call c => exact call_mirrors h c mem hfits
  | registerFatBinary data => exact registerFatBinary_mirrors h data mem hfits
  | registerFunction fatbinToken hostFn name =>
    exact registerFunction_mirrors h fatbinToken hostFn name mem hfits.1 hfits.2
  | registerVar fatbinToken hostVar name =>
    exact registerVar_mirrors h fatbinToken hostVar name mem hfits.1 hfits.2
  | unregisterFatBinary fatbinToken =>
    -- the shim does nothing, and there is nothing to do
    have hsame : Function.update q.modules fatbinToken none = q.modules := by
      rw [Function.update_eq_self_iff]
      exact (h.modules.eq_none hfits).symm
    refine ⟨rfl, ?_⟩
    show Mirrors dlopen s { q with modules := Function.update q.modules fatbinToken none }
    rw [hsame]
    exact h
  | getErrorString error => exact getErrorString_mirrors h error mem

end Steps

/-- A process that was just loaded, on a machine with the whole library. -/
theorem mirrors_init {lib : HipLibrary} (hlib : candidates.findSome? dlopen = some lib)
    (hsyms : ∀ sym, lib sym = true) (env : Env) (device : D) :
    Mirrors dlopen ⟨Process.init env, device⟩ (.new env.cap device) where
  modules _ := rfl
  functions _ := rfl
  vars _ := rfl
  pushed := rfl
  lastError := rfl
  device := rfl
  native := by
    refine ⟨⟨lib, hlib, hsyms⟩, ?_⟩
    show (NativeState.init env).vramCap = env.cap
    rw [vramCap_eq]
    rfl
  accounts _ := ⟨List.Perm.refl _, rfl, List.nodup_nil⟩
  loaded _ _ := ⟨rfl, rfl⟩

/-- **The two sides of the shim, its tables and its total do not show.** On a machine whose HIP
library has all its symbols, a run of one thread whose steps are all ones the shim is made for is
answered call by call as a game is that is linked with the library, and keeps to the cap on its
blocks itself; and the library is left in the same state: it was called for the same, in the same
order. -/
theorem unixlib_refines_direct (hip : HipRuntime D) (dlopen : String → Option HipLibrary)
    (lib : HipLibrary) (hlib : candidates.findSome? dlopen = some lib)
    (hsyms : ∀ sym, lib sym = true) (env : Env) (device : D) (steps : List (PeEvent × Memory))
    (hfits : Along (after (hostStep dlopen hip)) (Fits hip) ⟨Process.init env, device⟩ steps) :
    answers (hostStep dlopen hip) ⟨Process.init env, device⟩ steps
        = answers (DirectHip.step hip) (.new env.cap device) steps ∧
      (run (after (hostStep dlopen hip)) ⟨Process.init env, device⟩ steps).device
        = (run (after (DirectHip.step hip)) (.new env.cap device) steps).device := by
  have hinit := mirrors_init hlib hsyms env device
  obtain ⟨hanswers, hlast⟩ :=
    lockstep (R := fun _ => Mirrors dlopen) (n := 0)
      (fun _ s q a h hP => hostStep_mirrors h a hP) hinit hfits
  exact ⟨hanswers, hlast.device⟩

/-- A library that succeeds, makes objects at increasing addresses and keeps the calls. -/
def recordingHip : HipRuntime (List HipCall) := fun call log =>
  ({ ret := hipSuccess, ptr := 0x1000 * (log.length.toUInt64 + 1) }, call :: log)

/-- A memory with a bundle's magic at `64`. -/
def bundleMemory : Memory := fun p => some (offloadBundleMagic.getD (p.toNat - 64) 0)

/-- A kernel and a global are registered, the global is written, the kernel is launched, and the
memory behind descriptor 9 imported; of three blocks the second is over a cap of 100 bytes. -/
def directLaunch : List (PeEvent × Memory) :=
  [ .registerFatBinary 64, .registerFunction 64 100 none, .registerVar 64 200 none
  , .call (.memcpyToSymbol 200 300 16 8 1)
  , .call (.malloc true 80), .call (.malloc true 40), .call (.free 0x5000)
  , .call (.malloc true 40)
  , .call (.pushCallConfiguration (some ⟨2, 1, 1⟩) (some ⟨64, 1, 1⟩) 0 7)
  , .call (.popCallConfiguration ⟨true, true, true, true⟩)
  , .call (.launchKernel 100 (some ⟨2, 1, 1⟩) (some ⟨64, 1, 1⟩) (some 400) 0 7)
  , .call (.driverGetVersion true), .call (.importExternalMemory true (some ⟨1, 9, 0, 4096, 0⟩))
  , .call (.memcpy 0 0 0 9), .call .getLastError ].map (·, bundleMemory)

/-- With a cap of 100 bytes read from the environment. -/
theorem unixlib_refines_direct_launch :
    let env : Env := ⟨none, some (.ofLiteral "100" (by decide))⟩
    answers (hostStep (fun _ => some fun _ => true) recordingHip) ⟨Process.init env, []⟩
        directLaunch
      = answers (DirectHip.step recordingHip) (.new 100 []) directLaunch ∧
    (run (after (hostStep (fun _ => some fun _ => true) recordingHip)) ⟨Process.init env, []⟩
        directLaunch).device
      = (run (after (DirectHip.step recordingHip)) (.new 100 []) directLaunch).device := by
  intro env
  have hcap : env.cap = 100 := by decide +kernel
  have hfits : Along (after (hostStep (fun _ => some fun _ => true) recordingHip))
      (Fits recordingHip) ⟨Process.init env, []⟩ directLaunch := by decide +kernel
  rw [← hcap]
  exact unixlib_refines_direct recordingHip _ (fun _ => true) rfl (fun _ => rfl) env [] directLaunch
    hfits

end HipBridge.Unixlib
