import Mathlib.Data.List.Basic
import Mathlib.Data.List.Perm.Basic
import Mathlib.Tactic.Common

/-!
# Fixed arrays with a fill count

The C idiom `static struct entry table[N]; static int count;`: slots `0 .. count - 1` are
in use, the rest hold whatever was last written there.

* **`live`** — the entries in use, in slot order. Every lemma below describes an operation
  by what it does to `live`.
* **`findIdx?`** — the `for (i = 0; i < count; i++)` scan for the first match, with
  `findIdx?_eq` stating that it is `List.findIdx?` on `live`.
* **`push`**, **`pop`**, **`swapRemove`** — append at `count`, drop the last entry, and
  overwrite an entry by the last one before dropping it.
-/

namespace Lib

/-- A fixed array of `n` slots of which the first `count` are in use. -/
structure SlotTable (α : Type*) (n : Nat) where
  slots : Vector α n
  count : Nat
  count_le : count ≤ n
deriving DecidableEq, Repr

namespace SlotTable

variable {α : Type*} {n : Nat}

/-- A table of `n` slots that all hold `x`, none in use. -/
def empty (x : α) : SlotTable α n := ⟨Vector.replicate n x, 0, Nat.zero_le n⟩

/-- The entries in use, in slot order. -/
def live (t : SlotTable α n) : List α := t.slots.toList.take t.count

/-- Forget every entry; the slots keep their contents. -/
def clear (t : SlotTable α n) : SlotTable α n := { t with count := 0, count_le := Nat.zero_le n }

/-- Write the first free slot and count it. -/
def push (t : SlotTable α n) (x : α) (h : t.count < n) : SlotTable α n :=
  ⟨t.slots.set t.count x h, t.count + 1, h⟩

/-- The entry in use at index `i`. -/
def entry (t : SlotTable α n) (i : Nat) (h : i < t.count) : α :=
  have hn : i < n := Nat.lt_of_lt_of_le h t.count_le
  t.slots[i]

/-- The entry in use with the highest index. -/
def last (t : SlotTable α n) (h : 0 < t.count) : α := t.entry (t.count - 1) (by omega)

/-- Drop the last entry in use; its slot keeps its contents. -/
def pop (t : SlotTable α n) : SlotTable α n :=
  { t with count := t.count - 1, count_le := by have := t.count_le; omega }

/-- The scan loop from slot `i` on, with `fuel` slots left to look at. -/
def scan (t : SlotTable α n) (p : α → Bool) : (fuel i : Nat) → Option Nat
  | 0, _ => none
  | fuel + 1, i =>
    match t.slots[i]? with
    | none => none
    | some x => if p x then some i else scan t p fuel (i + 1)

/-- The index of the first entry in use that meets `p`. -/
def findIdx? (t : SlotTable α n) (p : α → Bool) : Option Nat := t.scan p t.count 0

/-- The first entry in use that meets `p`. -/
def find? (t : SlotTable α n) (p : α → Bool) : Option α :=
  (t.findIdx? p).bind fun i => t.slots[i]?

/-- Overwrite entry `i` by the last entry in use and drop that one. -/
def swapRemove (t : SlotTable α n) (i : Nat) (h : i < t.count) : SlotTable α n :=
  { slots := t.slots.set i (t.last (by omega)) (by have := t.count_le; omega)
    count := t.count - 1
    count_le := by have := t.count_le; omega }

/-! ## What the operations do to the entries in use -/

@[simp] theorem length_live (t : SlotTable α n) : t.live.length = t.count := by
  simp [live, t.count_le]

@[simp] theorem live_empty (x : α) : (empty x : SlotTable α n).live = [] := rfl

@[simp] theorem live_clear (t : SlotTable α n) : t.clear.live = [] := rfl

theorem live_getElem? (t : SlotTable α n) {i : Nat} (h : i < t.count) :
    t.live[i]? = t.slots[i]? := by
  simp [live, h]

theorem slots_getElem? (t : SlotTable α n) {i : Nat} (h : i < t.count) :
    t.slots[i]? = some (t.entry i h) := by
  have hn : i < n := Nat.lt_of_lt_of_le h t.count_le
  simp [entry, hn]

theorem live_getElem (t : SlotTable α n) {i : Nat} (h : i < t.count) (hlt : i < t.live.length) :
    t.live[i] = t.entry i h := by
  apply Option.some.inj
  rw [← List.getElem?_eq_getElem, live_getElem? t h, slots_getElem?]

@[simp] theorem live_push (t : SlotTable α n) (x : α) (h : t.count < n) :
    (t.push x h).live = t.live ++ [x] := by
  simp only [live, push, Vector.toList_set]
  rw [List.take_add_one, List.take_set_of_le (Nat.le_refl _)]
  simp [h]

@[simp] theorem count_push (t : SlotTable α n) (x : α) (h : t.count < n) :
    (t.push x h).count = t.count + 1 := rfl

theorem live_pop (t : SlotTable α n) : t.pop.live = t.live.dropLast := by
  have hlen : (t.slots.toList.take t.count).length = t.count := t.length_live
  rw [live, live, List.dropLast_eq_take, hlen, List.take_take]
  simp [pop]

theorem live_eq_dropLast_append (t : SlotTable α n) (h : 0 < t.count) :
    t.live = t.pop.live ++ [t.last h] := by
  have hne : t.live ≠ [] := by
    intro hnil
    have := t.length_live
    simp [hnil] at this
    omega
  rw [live_pop]
  conv_lhs => rw [← List.dropLast_append_getLast hne]
  congr 2
  rw [List.getLast_eq_getElem]
  simp only [length_live]
  exact live_getElem t (by omega) (by simp; omega)

/-! ## The scan loop -/

/-- The loop invariant of the scan: `i` slots are behind it and `fuel` in use ahead. -/
theorem scan_eq (t : SlotTable α n) (p : α → Bool) :
    ∀ fuel i, i + fuel = t.count →
      t.scan p fuel i = ((t.live.drop i).findIdx? p).map (· + i) := by
  intro fuel
  induction fuel with
  | zero =>
    intro i hi
    have hdrop : t.live.drop i = [] := List.drop_eq_nil_of_le (by simp; omega)
    simp [scan, hdrop]
  | succ fuel ih =>
    intro i hi
    have hlt : i < t.live.length := by simp; omega
    have hslot : t.slots[i]? = some t.live[i] := by
      rw [← live_getElem? t (by omega), List.getElem?_eq_getElem hlt]
    rw [List.drop_eq_getElem_cons hlt, List.findIdx?_cons]
    simp only [scan, hslot]
    split
    · simp
    · rw [ih (i + 1) (by omega)]
      cases (t.live.drop (i + 1)).findIdx? p with
      | none => rfl
      | some j => simp; omega

theorem findIdx?_eq (t : SlotTable α n) (p : α → Bool) :
    t.findIdx? p = t.live.findIdx? p := by
  rw [findIdx?, scan_eq t p t.count 0 (by omega)]
  simp

theorem findIdx?_lt {t : SlotTable α n} {p : α → Bool} {i : Nat}
    (h : t.findIdx? p = some i) : i < t.count := by
  rw [findIdx?_eq] at h
  have := (List.findIdx?_eq_some_iff_getElem.mp h).1
  simpa using this

/-- The scan finds the first live entry that meets the test. -/
theorem find?_eq (t : SlotTable α n) (p : α → Bool) : t.find? p = t.live.find? p := by
  rw [find?, findIdx?_eq, List.find?_eq_bind_findIdx?_getElem?]
  cases hidx : t.live.findIdx? p with
  | none => rfl
  | some i =>
    obtain ⟨hi, -, -⟩ := List.findIdx?_eq_some_iff_getElem.mp hidx
    rw [Option.bind_some, Option.bind_some, live_getElem? t (by simpa using hi)]

/-! ## Swap removal -/

theorem set_dropLast_perm (l : List α) {i : Nat} (hi : i < l.length)
    (hne : l ≠ []) : ((l.set i (l.getLast hne)).dropLast).Perm (l.eraseIdx i) := by
  obtain ⟨init, y, rfl⟩ : ∃ init y, l = init ++ [y] :=
    ⟨l.dropLast, l.getLast hne, (List.dropLast_append_getLast hne).symm⟩
  rw [List.getLast_append_singleton]
  by_cases hlast : i = init.length
  · subst hlast
    simp [List.set_append_right, List.eraseIdx_append_of_length_le]
  · have hlt : i < init.length := by simp at hi; omega
    rw [List.set_append_left _ _ hlt, List.dropLast_concat, List.eraseIdx_append_of_lt_length hlt]
    have hset : init.set i y = init.take i ++ y :: init.drop (i + 1) :=
      (List.set_eq_take_append_cons_drop ..).trans (by simp [hlt])
    rw [hset, List.eraseIdx_eq_take_drop_succ]
    exact List.perm_middle.trans (List.perm_append_singleton y _).symm

/-- Swap removal takes entry `i` out and keeps all the others, in some order. -/
theorem live_swapRemove (t : SlotTable α n) {i : Nat} (h : i < t.count) :
    (t.swapRemove i h).live.Perm (t.live.eraseIdx i) := by
  have hpos : 0 < t.count := by omega
  have hlive := t.live_eq_dropLast_append hpos
  have hne : t.live ≠ [] := by rw [hlive]; simp
  have hlast : t.live.getLast hne = t.last hpos := by
    simp only [hlive, List.getLast_append_singleton]
  have heq : (t.swapRemove i h).live = (t.live.set i (t.live.getLast hne)).dropLast := by
    rw [hlast]
    simp only [live, swapRemove, Vector.toList_set]
    have hlen : ((t.slots.toList.set i (t.last hpos)).take t.count).length = t.count := by
      simp [t.count_le]
    rw [← List.take_set, List.dropLast_eq_take, hlen, List.take_take]
    simp
  rw [heq]
  exact set_dropLast_perm t.live (by simpa using h) hne

@[simp] theorem count_swapRemove (t : SlotTable α n) {i : Nat} (h : i < t.count) :
    (t.swapRemove i h).count = t.count - 1 := rfl

end SlotTable

end Lib
