import HipBridge.Lib.SlotTable

/-!
# Bounded association lists

What a fixed array with a fill count is for when its entries have a key: a list of keys and values
with room for `n`, in which the first entry with a key counts.

* **`BoundedAssoc`** — the list; that it fits is part of the type.
* **`add`**, **`get`** — append if there is room, and look up.
* **`Represents`** — an array holds the list, with whatever else its entries hold.
-/

namespace Lib

/-- A list of at most `n` keys with their values. -/
structure BoundedAssoc (κ β : Type*) (n : Nat) where
  entries : List (κ × β)
  length_le : entries.length ≤ n

namespace BoundedAssoc

variable {κ β : Type*} {n : Nat}

def empty : BoundedAssoc κ β n := ⟨[], Nat.zero_le n⟩

/-- Whether there was room, and the list with the entry if so. -/
def add (a : BoundedAssoc κ β n) (k : κ) (v : β) : Bool × BoundedAssoc κ β n :=
  if h : a.entries.length < n then
    (true, ⟨a.entries ++ [(k, v)], by rw [List.length_append]; exact h⟩)
  else (false, a)

/-- The value of the first entry with the key. -/
def get [DecidableEq κ] (a : BoundedAssoc κ β n) (k : κ) : Option β :=
  (a.entries.find? (·.1 = k)).map Prod.snd

theorem fst_add (a : BoundedAssoc κ β n) (k : κ) (v : β) :
    (a.add k v).1 = decide (a.entries.length < n) := by
  unfold add
  split
  case isTrue hroom => exact (decide_eq_true hroom).symm
  case isFalse hfull => exact (decide_eq_false hfull).symm

theorem entries_add (a : BoundedAssoc κ β n) (k : κ) (v : β) :
    (a.add k v).2.entries = if a.entries.length < n then a.entries ++ [(k, v)] else a.entries := by
  unfold add
  split <;> rfl

end BoundedAssoc

/-! ## Arrays that hold a list -/

section Represents

variable {α κ β : Type*} {n : Nat}

/-- The entries in use are those of the list, in its order. -/
def Represents (key : α → κ) (val : α → β) (t : SlotTable α n) (a : BoundedAssoc κ β n) : Prop :=
  (t.live.map fun e => (key e, val e)) = a.entries

variable {key : α → κ} {val : α → β} {t : SlotTable α n} {a : BoundedAssoc κ β n}

theorem represents_clear (t : SlotTable α n) : Represents key val t.clear .empty := rfl

theorem Represents.count_eq (h : Represents key val t a) : t.count = a.entries.length := by
  rw [← h, List.length_map, SlotTable.length_live]

/-- A scan of the array is a lookup in the list. -/
theorem Represents.find?_eq [DecidableEq κ] (h : Represents key val t a) (k : κ) :
    (t.find? (key · = k)).map val = a.get k := by
  unfold BoundedAssoc.get
  rw [SlotTable.find?_eq, ← h, List.find?_map, Option.map_map]
  rfl

/-- One more entry in the array is one more in the list. -/
theorem Represents.append (h : Represents key val t a) {t' : SlotTable α n} {e : α}
    (hroom : t.count < n) (hlive : t'.live = t.live ++ [e]) :
    Represents key val t' (a.add (key e) (val e)).2 := by
  have hlength : a.entries.length < n := by
    rw [← h.count_eq]
    exact hroom
  unfold Represents at h ⊢
  rw [hlive, List.map_append, h, BoundedAssoc.entries_add, if_pos hlength]
  rfl

end Represents

end Lib
