import Mathlib.Data.List.AList

/-!
# Ordered maps with 64-bit keys

A `BTreeMap<u64, V>` is an association list with distinct keys. What the order of the keys adds
is the query for the last entry of a range:

* **`floor?`** — `map.range(..=k).next_back()`, the entry with the greatest key not above `k`.
* **`floor?_eq_some_iff`**, **`floor?_eq_none_iff`** — the query in terms of `lookup`.
* **`floor?_rel`** — the query on two maps with related values.
* **`entries_perm_erase`**, **`entries_insert_new`** — the entries as a whole, after an entry is
  taken out or put in.
-/

namespace Lib

variable {V : Type*}

/-- An ordered map with 64-bit keys. -/
abbrev BTreeMap (V : Type*) := AList fun _ : UInt64 => V

namespace BTreeMap

/-- The entry with the greatest key not above `k`. -/
def floorEntry (k : UInt64) : List (Sigma fun _ : UInt64 => V) → Option (UInt64 × V)
  | [] => none
  | ⟨key, value⟩ :: entries =>
    match floorEntry k entries with
    | none => if key ≤ k then some (key, value) else none
    | some best => if key ≤ k ∧ best.1 < key then some (key, value) else some best

/-- `map.range(..=k).next_back()`. -/
def floor? (m : BTreeMap V) (k : UInt64) : Option (UInt64 × V) := floorEntry k m.entries

/-- What the scan found, or that there was nothing to find. Induction on the entries. -/
theorem floorEntry_spec (k : UInt64) (entries : List (Sigma fun _ : UInt64 => V)) :
    (floorEntry k entries = none ∧ ∀ e ∈ entries, ¬ e.1 ≤ k) ∨
    ∃ key value, floorEntry k entries = some (key, value) ∧ ⟨key, value⟩ ∈ entries ∧ key ≤ k ∧
      ∀ e ∈ entries, e.1 ≤ k → e.1 ≤ key := by
  induction entries with
  | nil => exact Or.inl ⟨rfl, fun e he => by cases he⟩
  | cons e entries ih =>
    obtain ⟨key, value⟩ := e
    rcases ih with ⟨hnone, hall⟩ | ⟨best, bestValue, hbest, hmem, hle, hall⟩
    · by_cases hkey : key ≤ k
      · refine Or.inr ⟨key, value, by simp [floorEntry, hnone, hkey], List.mem_cons_self, hkey, ?_⟩
        intro e he hek
        rcases List.mem_cons.mp he with rfl | he
        · exact UInt64.le_refl _
        · exact absurd hek (hall e he)
      · refine Or.inl ⟨by simp [floorEntry, hnone, hkey], fun e he => ?_⟩
        rcases List.mem_cons.mp he with rfl | he
        · exact hkey
        · exact hall e he
    · by_cases hkey : key ≤ k ∧ best < key
      · refine Or.inr ⟨key, value, by simp [floorEntry, hbest, hkey], List.mem_cons_self,
          hkey.1, ?_⟩
        intro e he hek
        rcases List.mem_cons.mp he with rfl | he
        · exact UInt64.le_refl _
        · exact UInt64.le_trans (hall e he hek) (UInt64.le_of_lt hkey.2)
      · refine Or.inr ⟨best, bestValue, by simp [floorEntry, hbest, hkey],
          List.mem_cons_of_mem _ hmem, hle, ?_⟩
        intro e he hek
        rcases List.mem_cons.mp he with rfl | he
        · exact UInt64.not_lt.mp fun hlt => hkey ⟨hek, hlt⟩
        · exact hall e he hek

theorem mem_iff_entry {m : BTreeMap V} {key : UInt64} :
    key ∈ m ↔ ∃ e ∈ m.entries, e.1 = key :=
  AList.mem_keys.trans List.mem_map

theorem floor?_eq_some_iff {m : BTreeMap V} {k key : UInt64} {value : V} :
    m.floor? k = some (key, value) ↔
      m.lookup key = some value ∧ key ≤ k ∧ ∀ key' ∈ m, key' ≤ k → key' ≤ key := by
  rcases floorEntry_spec k m.entries with ⟨hnone, hall⟩ | ⟨best, bestValue, hbest, hin, hle, hall⟩
  · refine ⟨fun h => ?_, fun h => ?_⟩
    · rw [floor?, hnone] at h
      cases h
    · exact absurd h.2.1 (hall ⟨key, value⟩ (AList.mem_lookup_iff.mp h.1))
  · have hlookup : m.lookup best = some bestValue := AList.mem_lookup_iff.mpr hin
    rw [floor?, hbest]
    constructor
    · intro h
      cases h
      refine ⟨hlookup, hle, fun key' hkey' hle' => ?_⟩
      obtain ⟨e, he, rfl⟩ := mem_iff_entry.mp hkey'
      exact hall e he hle'
    · rintro ⟨hkey, hkeyLe, hgreatest⟩
      have hbestLe := hgreatest best (mem_iff_entry.mpr ⟨_, hin, rfl⟩) hle
      have hkeyBest := hall ⟨key, value⟩ (AList.mem_lookup_iff.mp hkey) hkeyLe
      obtain rfl : best = key := UInt64.le_antisymm hbestLe hkeyBest
      rw [hlookup] at hkey
      rw [Option.some.inj hkey]

theorem floor?_eq_none_iff {m : BTreeMap V} {k : UInt64} :
    m.floor? k = none ↔ ∀ key ∈ m, ¬ key ≤ k := by
  rcases floorEntry_spec k m.entries with ⟨hnone, hall⟩ | ⟨best, bestValue, hbest, hin, hle, -⟩
  · refine iff_of_true hnone fun key hkey => ?_
    obtain ⟨e, he, rfl⟩ := mem_iff_entry.mp hkey
    exact hall e he
  · refine iff_of_false ?_ fun h => h best (mem_iff_entry.mpr ⟨_, hin, rfl⟩) hle
    rw [floor?, hbest]
    exact Option.some_ne_none _

/-- Two maps with the same keys and related values: the query finds the same key in both. -/
theorem floor?_rel {W : Type*} {R : V → W → Prop} {m : BTreeMap V} {m' : BTreeMap W}
    (h : ∀ key, Option.Rel R (m.lookup key) (m'.lookup key)) (k : UInt64) :
    Option.Rel (fun e e' => e.1 = e'.1 ∧ R e.2 e'.2) (m.floor? k) (m'.floor? k) := by
  have hkeys : ∀ key, key ∈ m ↔ key ∈ m' := by
    intro key
    have hrel := h key
    rw [← AList.lookup_isSome, ← AList.lookup_isSome]
    generalize m.lookup key = found, m'.lookup key = found' at hrel
    cases hrel <;> simp
  cases hfloor : m.floor? k with
  | none =>
    have hnone : m'.floor? k = none :=
      floor?_eq_none_iff.mpr fun key hkey =>
        floor?_eq_none_iff.mp hfloor key ((hkeys key).mpr hkey)
    rw [hnone]
    exact .none
  | some e =>
    obtain ⟨key, value⟩ := e
    obtain ⟨hlookup, hle, hgreatest⟩ := floor?_eq_some_iff.mp hfloor
    have hrel := h key
    rw [hlookup] at hrel
    generalize hlookup' : m'.lookup key = found at hrel
    cases hrel with
    | some hvalue =>
      rw [floor?_eq_some_iff.mpr ⟨hlookup', hle, fun key' hkey' =>
        hgreatest key' ((hkeys key').mpr hkey')⟩]
      exact .some ⟨rfl, hvalue⟩

/-- The entries are the one under a live key and the rest. -/
theorem entries_perm_erase {m : BTreeMap V} {key : UInt64} {value : V}
    (h : m.lookup key = some value) : m.entries.Perm (⟨key, value⟩ :: (m.erase key).entries) := by
  have hkey : key ∈ m.entries.keys := AList.mem_keys.mp (AList.lookup_isSome.mp (by rw [h]; rfl))
  obtain ⟨value', pre, post, hpre, hentries, herase⟩ := List.exists_of_kerase hkey
  have hvalue : m.lookup key = some value' := by
    refine AList.mem_lookup_iff.mpr ?_
    rw [hentries]
    simp
  obtain rfl : value = value' := Option.some.inj (h.symm.trans hvalue)
  show m.entries.Perm (⟨key, value⟩ :: m.entries.kerase key)
  rw [herase, hentries]
  exact List.perm_middle

/-- Taking out a key that is not there changes nothing. -/
theorem erase_eq_self {m : BTreeMap V} {key : UInt64} (h : m.lookup key = none) :
    m.erase key = m :=
  AList.ext (List.kerase_of_notMem_keys (fun hkey =>
    AList.lookup_eq_none.mp h (AList.mem_keys.mpr hkey)))

/-- A new key adds one entry. -/
theorem entries_insert_new {m : BTreeMap V} {key : UInt64} (value : V)
    (h : m.lookup key = none) : (m.insert key value).entries = ⟨key, value⟩ :: m.entries :=
  AList.entries_insert_of_notMem (AList.lookup_eq_none.mp h)

/-- Taking a new key out again gives the map back. -/
theorem erase_insert_new {m : BTreeMap V} {key : UInt64} (value : V) (h : m.lookup key = none) :
    (m.insert key value).erase key = m := by
  apply AList.ext
  show (m.insert key value).entries.kerase key = m.entries
  rw [entries_insert_new value h]
  exact List.kerase_cons_eq rfl

/-- A live key adds none. -/
theorem length_entries_insert_live {m : BTreeMap V} {key : UInt64} (value : V) {old : V}
    (h : m.lookup key = some old) : (m.insert key value).entries.length = m.entries.length := by
  rw [(entries_perm_erase h).length_eq, AList.entries_insert]
  rfl

end BTreeMap

end Lib
