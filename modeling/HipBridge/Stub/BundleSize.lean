import HipBridge.Stub.FatBinary

/-!
# What the size of a bundle covers

`offload_bundle_total_size` reads the table at the head of a bundle entry by entry. Here the table
comes first, as a list, and the size is a function of it.

* **`BundleEntry`**, **`readEntries`** — the table, wherever it is mapped.
* **`bundleExtent_eq_some_iff`** — the loop accepts exactly the tables of plausible entries, and
  returns the greatest end of an entry.
* **`BundleSizeRight`** — the size covers the table and the entries, and what is not plausible is
  refused.
* **`bundleSizeRight_iff`** — the table is counted without its entries: it is covered only if there
  are none or one of them ends behind it.
-/

namespace HipBridge.Stub

open Lib

structure BundleEntry where
  offset : UInt64
  size : UInt64
  tripleLen : UInt64
deriving DecidableEq, Repr

namespace BundleEntry

/-- One behind the last byte of the payload, in exact numbers. -/
def stop (e : BundleEntry) : Nat := e.offset.toNat + e.size.toNat

/-- The bytes the entry takes up in the table. -/
def length (e : BundleEntry) : Nat := 24 + e.tripleLen.toNat

def Sane (e : BundleEntry) : Prop := e.tripleLen.toNat ≤ 4096 ∧ e.stop ≤ sanityMaxSize

instance (e : BundleEntry) : Decidable e.Sane := inferInstanceAs (Decidable (_ ∧ _))

end BundleEntry

/-- The bytes before the entries: the magic and their number. -/
def headerLen : Nat := offloadBundleMagic.length + 8

/-- The entry at `cursor`, or `none` when a field of it is not mapped. -/
def readEntry (mem : Memory) (data : Ptr) (cursor : Nat) : Option BundleEntry := do
  let offset ← mem.readWord (data + UInt64.ofNat cursor)
  let size ← mem.readWord (data + UInt64.ofNat (cursor + 8))
  let tripleLen ← mem.readWord (data + UInt64.ofNat (cursor + 16))
  pure ⟨offset, size, tripleLen⟩

/-- `n` entries from `cursor` on. -/
def readEntries (mem : Memory) (data : Ptr) : (n cursor : Nat) → Option (List BundleEntry)
  | 0, _ => some []
  | n + 1, cursor => do
    let e ← readEntry mem data cursor
    let entries ← readEntries mem data n (cursor + e.length)
    pure (e :: entries)

/-- The greatest end of an entry, `0` if there are none. -/
def greatestStop (entries : List BundleEntry) : Nat :=
  entries.foldr (fun e stop => max e.stop stop) 0

/-- The end of the table. -/
def headerEnd (entries : List BundleEntry) : Nat :=
  headerLen + (entries.map BundleEntry.length).sum

/-! ## The loop -/

/-- The sum is cut off far above the limit it is compared with. -/
theorem saturatingAdd_eq {offset size : UInt64} (h : offset.toNat + size.toNat ≤ sanityMaxSize) :
    saturatingAdd offset size = offset.toNat + size.toNat := by
  have hmax : usizeMax = 2 ^ 64 - 1 := rfl
  have hsanity : sanityMaxSize = 536870912 := rfl
  unfold saturatingAdd
  omega

theorem lt_saturatingAdd {offset size : UInt64} (h : sanityMaxSize < offset.toNat + size.toNat) :
    sanityMaxSize < saturatingAdd offset size := by
  have hmax : usizeMax = 2 ^ 64 - 1 := rfl
  have hsanity : sanityMaxSize = 536870912 := rfl
  unfold saturatingAdd
  omega

/-- One round of the loop, in terms of the entry it reads. -/
theorem bundleExtent_succ (mem : Memory) (data : Ptr) (n cursor : Nat) {total : Nat}
    (htotal : total ≤ sanityMaxSize) :
    bundleExtent mem data (n + 1) cursor total = (readEntry mem data cursor).bind fun e =>
      if e.Sane then bundleExtent mem data n (cursor + e.length) (max total e.stop)
      else some none := by
  conv_lhs => unfold bundleExtent
  unfold readEntry
  cases mem.readWord (data + UInt64.ofNat cursor) with
  | none => rfl
  | some offset =>
    cases mem.readWord (data + UInt64.ofNat (cursor + 8)) with
    | none => rfl
    | some size =>
      cases mem.readWord (data + UInt64.ofNat (cursor + 16)) with
      | none => rfl
      | some tripleLen =>
        show (if 4096 < tripleLen.toNat then some none
          else if sanityMaxSize < max total (saturatingAdd offset size) then some none
          else bundleExtent mem data n (cursor + (24 + tripleLen.toNat))
            (max total (saturatingAdd offset size)))
          = if tripleLen.toNat ≤ 4096 ∧ offset.toNat + size.toNat ≤ sanityMaxSize then
              bundleExtent mem data n (cursor + (24 + tripleLen.toNat))
                (max total (offset.toNat + size.toNat))
            else some none
        by_cases htriple : tripleLen.toNat ≤ 4096
        · rw [if_neg (by omega)]
          by_cases hstop : offset.toNat + size.toNat ≤ sanityMaxSize
          · rw [saturatingAdd_eq hstop, if_neg (by omega), if_pos ⟨htriple, hstop⟩]
          · have hlt := @lt_saturatingAdd offset size (by omega)
            rw [if_pos (by omega), if_neg (fun h => hstop h.2)]
        · rw [if_pos (by omega), if_neg (fun h => htriple h.1)]

/-- **What the loop accepts.** Exactly a table that is mapped and plausible, and it returns the
greatest of its total and the ends of the entries. Induction on the entries. -/
theorem bundleExtent_eq_some_iff {mem : Memory} {data : Ptr} {n cursor total t : Nat}
    (htotal : total ≤ sanityMaxSize) :
    bundleExtent mem data n cursor total = some (some t) ↔
      ∃ entries, readEntries mem data n cursor = some entries ∧
        (∀ e ∈ entries, e.Sane) ∧ t = max total (greatestStop entries) := by
  induction n generalizing cursor total with
  | zero => simp [bundleExtent, readEntries, greatestStop, eq_comm]
  | succ n ih =>
    rw [bundleExtent_succ mem data n cursor htotal]
    cases hentry : readEntry mem data cursor with
    | none => simp [readEntries, hentry]
    | some e =>
      rw [Option.bind_some]
      split
      case isFalse hmalformed =>
        refine iff_of_false (by simp) (fun h => hmalformed ?_)
        obtain ⟨entries, hentries, hsane, -⟩ := h
        simp only [readEntries, hentry, Option.bind_eq_bind, Option.bind_some,
          Option.bind_eq_some_iff] at hentries
        obtain ⟨rest, -, hcons⟩ := hentries
        cases hcons
        exact hsane e List.mem_cons_self
      case isTrue hsane =>
        rw [ih (Nat.max_le.mpr ⟨htotal, hsane.2⟩)]
        simp only [readEntries, hentry, Option.bind_eq_bind, Option.bind_some,
          Option.bind_eq_some_iff]
        constructor
        · intro h
          obtain ⟨rest, hrest, hall, rfl⟩ := h
          refine ⟨e :: rest, ⟨rest, hrest, rfl⟩, List.forall_mem_cons.mpr ⟨hsane, hall⟩, ?_⟩
          exact Nat.max_assoc _ _ _
        · intro h
          obtain ⟨entries, ⟨rest, hrest, hcons⟩, hall, rfl⟩ := h
          cases hcons
          exact ⟨rest, hrest, (List.forall_mem_cons.mp hall).2, (Nat.max_assoc _ _ _).symm⟩

/-- An entry that is not plausible is refused, if it can be read at all. Induction on the entries
before it. -/
theorem bundleExtent_refused {mem : Memory} {data : Ptr} {n k cursor total : Nat}
    (htotal : total ≤ sanityMaxSize) (hk : k ≤ n) {entries : List BundleEntry}
    (hentries : readEntries mem data k cursor = some entries)
    (hbad : ∃ e ∈ entries, ¬ e.Sane) :
    bundleExtent mem data n cursor total = some none := by
  induction n generalizing k cursor total entries with
  | zero =>
    obtain rfl : k = 0 := by omega
    cases hentries
    obtain ⟨e, hmem, -⟩ := hbad
    cases hmem
  | succ n ih =>
    cases k with
    | zero =>
      cases hentries
      obtain ⟨e, hmem, -⟩ := hbad
      cases hmem
    | succ k =>
      simp only [readEntries, Option.bind_eq_bind, Option.bind_eq_some_iff] at hentries
      obtain ⟨e, hentry, rest, hrest, hcons⟩ := hentries
      cases hcons
      rw [bundleExtent_succ mem data n cursor htotal, hentry, Option.bind_some]
      split
      case isFalse => rfl
      case isTrue hsane =>
        apply ih (Nat.max_le.mpr ⟨htotal, hsane.2⟩) (Nat.le_of_succ_le_succ hk) hrest
        obtain ⟨bad, hmem, hmalformed⟩ := hbad
        rcases List.mem_cons.mp hmem with rfl | hmem
        · exact absurd hsane hmalformed
        · exact ⟨bad, hmem, hmalformed⟩

/-- Nothing else is refused. Induction on the entries. -/
theorem exists_bad_of_bundleExtent {mem : Memory} {data : Ptr} {n cursor total : Nat}
    (htotal : total ≤ sanityMaxSize) (h : bundleExtent mem data n cursor total = some none) :
    ∃ k ≤ n, ∃ entries, readEntries mem data k cursor = some entries ∧
      ∃ e ∈ entries, ¬ e.Sane := by
  induction n generalizing cursor total with
  | zero => cases h
  | succ n ih =>
    rw [bundleExtent_succ mem data n cursor htotal] at h
    obtain ⟨e, hentry, h⟩ := Option.bind_eq_some_iff.mp h
    split at h
    case isFalse hmalformed =>
      refine ⟨1, by omega, [e], ?_, e, List.mem_singleton_self e, hmalformed⟩
      simp [readEntries, hentry]
    case isTrue hsane =>
      obtain ⟨k, hk, entries, hentries, bad, hmem, hbad⟩ :=
        ih (Nat.max_le.mpr ⟨htotal, hsane.2⟩) h
      refine ⟨k + 1, by omega, e :: entries, ?_, bad, List.mem_cons_of_mem e hmem, hbad⟩
      simp [readEntries, hentry, hentries]

theorem length_readEntries {mem : Memory} {data : Ptr} {n cursor : Nat}
    {entries : List BundleEntry} (h : readEntries mem data n cursor = some entries) :
    entries.length = n := by
  induction n generalizing cursor entries with
  | zero =>
    cases h
    rfl
  | succ n ih =>
    simp only [readEntries, Option.bind_eq_bind, Option.bind_eq_some_iff] at h
    obtain ⟨e, -, rest, hrest, hcons⟩ := h
    cases hcons
    rw [List.length_cons, ih hrest]

/-! ## The whole table -/

/-- A bundle with this table is mapped at `data`. -/
def IsTable (mem : Memory) (data : Ptr) (entries : List BundleEntry) : Prop :=
  mem.read data offloadBundleMagic.length = some offloadBundleMagic ∧
    ∃ numBundles, mem.readWord (data + UInt64.ofNat offloadBundleMagic.length) = some numBundles ∧
      readEntries mem data numBundles.toNat headerLen = some entries

/-- What is read before the first entry decides between three outcomes. -/
theorem offloadBundleTotalSize_eq (mem : Memory) (data : Ptr) :
    offloadBundleTotalSize mem data =
      (mem.read data offloadBundleMagic.length).bind fun magic =>
        if magic = offloadBundleMagic then
          (mem.readWord (data + UInt64.ofNat offloadBundleMagic.length)).bind fun numBundles =>
            if sanityMaxBundles < numBundles.toNat then some none
            else bundleExtent mem data numBundles.toNat headerLen headerLen
        else some none := by
  unfold offloadBundleTotalSize
  cases mem.read data offloadBundleMagic.length with
  | none => rfl
  | some magic =>
    by_cases hmagic : magic = offloadBundleMagic
    · simp [hmagic, headerLen]
    · simp [hmagic]

theorem headerLen_le : headerLen ≤ sanityMaxSize := by decide

theorem offloadBundleTotalSize_eq_some_iff {mem : Memory} {data : Ptr} {t : Nat} :
    offloadBundleTotalSize mem data = some (some t) ↔
      ∃ entries, IsTable mem data entries ∧ entries.length ≤ sanityMaxBundles ∧
        (∀ e ∈ entries, e.Sane) ∧ t = max headerLen (greatestStop entries) := by
  rw [offloadBundleTotalSize_eq]
  constructor
  · intro h
    obtain ⟨magic, hread, h⟩ := Option.bind_eq_some_iff.mp h
    split at h
    case isFalse => cases h
    case isTrue hmagic =>
      obtain ⟨numBundles, hnum, h⟩ := Option.bind_eq_some_iff.mp h
      split at h
      case isTrue => cases h
      case isFalse hcount =>
        obtain ⟨entries, hentries, hsane, ht⟩ := (bundleExtent_eq_some_iff headerLen_le).mp h
        refine ⟨entries, ⟨hmagic ▸ hread, numBundles, hnum, hentries⟩, ?_, hsane, ht⟩
        rw [length_readEntries hentries]
        omega
  · intro h
    obtain ⟨entries, ⟨hread, numBundles, hnum, hentries⟩, hcount, hsane, ht⟩ := h
    rw [length_readEntries hentries] at hcount
    rw [hread, Option.bind_some, if_pos rfl, hnum, Option.bind_some, if_neg (by omega)]
    exact (bundleExtent_eq_some_iff headerLen_le).mpr ⟨entries, hentries, hsane, ht⟩

theorem IsTable.unique {mem : Memory} {data : Ptr} {entries entries' : List BundleEntry}
    (h : IsTable mem data entries) (h' : IsTable mem data entries') : entries = entries' := by
  obtain ⟨-, numBundles, hnum, hentries⟩ := h
  obtain ⟨-, numBundles', hnum', hentries'⟩ := h'
  cases hnum.symm.trans hnum'
  exact Option.some.inj (hentries.symm.trans hentries')

/-! ## The greatest end -/

theorem le_greatestStop {entries : List BundleEntry} {e : BundleEntry} (h : e ∈ entries) :
    e.stop ≤ greatestStop entries := by
  induction entries with
  | nil => cases h
  | cons first rest ih =>
    unfold greatestStop at ih ⊢
    rw [List.foldr_cons]
    rcases List.mem_cons.mp h with rfl | h
    · exact Nat.le_max_left _ _
    · exact (ih h).trans (Nat.le_max_right _ _)

/-- It is the end of an entry, unless it is `0`. -/
theorem exists_stop_eq_greatestStop {entries : List BundleEntry} (h : 0 < greatestStop entries) :
    ∃ e ∈ entries, e.stop = greatestStop entries := by
  induction entries with
  | nil => exact absurd h (Nat.lt_irrefl 0)
  | cons first rest ih =>
    have hcons : greatestStop (first :: rest) = max first.stop (greatestStop rest) := rfl
    rcases Nat.le_total (greatestStop rest) first.stop with hle | hle
    · exact ⟨first, List.mem_cons_self, by rw [hcons, Nat.max_eq_left hle]⟩
    · rw [hcons, Nat.max_eq_right hle] at h ⊢
      obtain ⟨e, hmem, heq⟩ := ih h
      exact ⟨e, List.mem_cons_of_mem first hmem, heq⟩

/-- Every entry makes the table longer. -/
theorem headerLen_lt_headerEnd {entries : List BundleEntry} (h : entries ≠ []) :
    headerLen < headerEnd entries := by
  cases entries with
  | nil => exact absurd rfl h
  | cons e rest =>
    unfold headerEnd BundleEntry.length
    rw [List.map_cons, List.sum_cons]
    omega

/-! ## What the size covers -/

/-- The bytes at `data` are no bundle, or one of too many or of implausible entries. An entry
counts if all that stands before it in the table is mapped. -/
def Malformed (mem : Memory) (data : Ptr) : Prop :=
  (∃ head, mem.read data offloadBundleMagic.length = some head ∧ head ≠ offloadBundleMagic) ∨
  (mem.read data offloadBundleMagic.length = some offloadBundleMagic ∧
    ∃ numBundles, mem.readWord (data + UInt64.ofNat offloadBundleMagic.length) = some numBundles ∧
      (sanityMaxBundles < numBundles.toNat ∨
        ∃ k ≤ numBundles.toNat, ∃ entries, readEntries mem data k headerLen = some entries ∧
          ∃ e ∈ entries, 4096 < e.tripleLen.toNat ∨ sanityMaxSize < e.stop))

/-- A size that is returned is at most the limit, and the greatest of the end of the table and of
the ends of the entries; what is implausible is refused. -/
def BundleSizeRight (mem : Memory) (data : Ptr) : Prop :=
  (∀ t, offloadBundleTotalSize mem data = some (some t) →
    ∃ entries, IsTable mem data entries ∧ t ≤ sanityMaxSize ∧ headerEnd entries ≤ t ∧
      (∀ e ∈ entries, e.stop ≤ t) ∧ (t = headerEnd entries ∨ ∃ e ∈ entries, t = e.stop)) ∧
  (Malformed mem data → offloadBundleTotalSize mem data = some none)

theorem BundleEntry.not_sane_iff {e : BundleEntry} :
    ¬ e.Sane ↔ 4096 < e.tripleLen.toNat ∨ sanityMaxSize < e.stop := by
  unfold Sane
  omega

theorem offloadBundleTotalSize_of_malformed {mem : Memory} {data : Ptr}
    (h : Malformed mem data) : offloadBundleTotalSize mem data = some none := by
  rw [offloadBundleTotalSize_eq]
  rcases h with ⟨head, hread, hne⟩ | ⟨hread, numBundles, hnum, h⟩
  · rw [hread, Option.bind_some, if_neg hne]
  · rw [hread, Option.bind_some, if_pos rfl, hnum, Option.bind_some]
    split
    case isTrue => rfl
    case isFalse hcount =>
      rcases h with hmany | ⟨k, hk, entries, hentries, e, hmem, hbad⟩
      · exact absurd hmany hcount
      · apply bundleExtent_refused headerLen_le hk hentries
        exact ⟨e, hmem, BundleEntry.not_sane_iff.mpr hbad⟩

theorem malformed_of_offloadBundleTotalSize {mem : Memory} {data : Ptr}
    (h : offloadBundleTotalSize mem data = some none) : Malformed mem data := by
  rw [offloadBundleTotalSize_eq] at h
  obtain ⟨head, hread, h⟩ := Option.bind_eq_some_iff.mp h
  split at h
  case isFalse hne => exact Or.inl ⟨head, hread, hne⟩
  case isTrue hmagic =>
    subst hmagic
    obtain ⟨numBundles, hnum, h⟩ := Option.bind_eq_some_iff.mp h
    refine Or.inr ⟨hread, numBundles, hnum, ?_⟩
    split at h
    case isTrue hmany => exact Or.inl hmany
    case isFalse =>
      obtain ⟨k, hk, entries, hentries, e, hmem, hbad⟩ := exists_bad_of_bundleExtent headerLen_le h
      exact Or.inr ⟨k, hk, entries, hentries, e, hmem, BundleEntry.not_sane_iff.mp hbad⟩

/-- **The size does not count the table.** What is implausible is always refused, and a size that
is returned is at most the limit and covers every entry; but it covers the table only if that has
no entries or one of them ends behind it. -/
theorem bundleSizeRight_iff (mem : Memory) (data : Ptr) :
    BundleSizeRight mem data ↔
      ∀ entries, IsTable mem data entries → entries.length ≤ sanityMaxBundles →
        (∀ e ∈ entries, e.Sane) → entries = [] ∨ ∃ e ∈ entries, headerEnd entries ≤ e.stop := by
  unfold BundleSizeRight
  constructor
  · intro h entries htable hcount hsane
    have hsize := offloadBundleTotalSize_eq_some_iff.mpr ⟨entries, htable, hcount, hsane, rfl⟩
    obtain ⟨entries', htable', -, hheader, -, -⟩ := h.1 _ hsize
    obtain rfl := htable.unique htable'
    by_cases hnil : entries = []
    · exact Or.inl hnil
    · have hlt := headerLen_lt_headerEnd hnil
      obtain ⟨e, hmem, hstop⟩ := @exists_stop_eq_greatestStop entries (by omega)
      exact Or.inr ⟨e, hmem, by omega⟩
  · intro h
    refine ⟨fun t ht => ?_, offloadBundleTotalSize_of_malformed⟩
    have hle := offloadBundleTotalSize_le ht
    obtain ⟨entries, htable, hcount, hsane, rfl⟩ := offloadBundleTotalSize_eq_some_iff.mp ht
    have hstops : ∀ e ∈ entries, e.stop ≤ max headerLen (greatestStop entries) := by
      intro e hmem
      exact (le_greatestStop hmem).trans (Nat.le_max_right _ _)
    refine ⟨entries, htable, hle, ?_, hstops, ?_⟩
    · rcases h entries htable hcount hsane with rfl | ⟨e, hmem, hheader⟩
      · exact Nat.le_max_left _ _
      · exact hheader.trans (hstops e hmem)
    · rcases h entries htable hcount hsane with rfl | ⟨e, hmem, hheader⟩
      · exact Or.inl rfl
      · -- the greatest end is behind the table, so it is the size
        have hlt := headerLen_lt_headerEnd (List.ne_nil_of_mem hmem)
        have hgreatest := le_greatestStop hmem
        obtain ⟨e', hmem', hstop⟩ := @exists_stop_eq_greatestStop entries (by omega)
        exact Or.inr ⟨e', hmem', by omega⟩

/-- A bundle at `0x1000` with one empty entry, without a name. -/
def emptyEntry : Memory := fun p =>
  if 0x1000 ≤ p then
    (offloadBundleMagic ++ u64ToLe 1 ++ u64ToLe 0 ++ u64ToLe 0 ++ u64ToLe 0)[(p - 0x1000).toNat]?
  else none

/-- The size is that of a table without entries, 24 bytes short of this one. -/
theorem emptyEntry_not_covered :
    IsTable emptyEntry 0x1000 [⟨0, 0, 0⟩] ∧ headerEnd [⟨0, 0, 0⟩] = 56 ∧
    offloadBundleTotalSize emptyEntry 0x1000 = some (some 32) ∧
    ¬ BundleSizeRight emptyEntry 0x1000 := by
  have htable : IsTable emptyEntry 0x1000 [⟨0, 0, 0⟩] :=
    ⟨by decide +kernel, 1, by decide +kernel, by decide +kernel⟩
  have hsize : offloadBundleTotalSize emptyEntry 0x1000 = some (some 32) := by decide +kernel
  have hend : headerEnd [⟨0, 0, 0⟩] = 56 := by decide
  refine ⟨htable, hend, hsize, fun hright => ?_⟩
  obtain ⟨entries, htable', -, hheader, -, -⟩ := hright.1 32 hsize
  rw [htable'.unique htable, hend] at hheader
  omega

end HipBridge.Stub
