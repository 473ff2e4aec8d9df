import HipBridge.Lib.BTreeMap
import HipBridge.Lib.CString

/-!
# Handle tables (`native-daemon/src/handles.rs`)

A map from `u64` handles to values, with the counter the handles come from.

* **`fetchAdd`**, **`mapInsert`** — the two atomic steps of `insert`.
* **`insert`**, **`remove`**, **`get`**, **`len`** — the operations, and what each does to the
  others' answers.
* **`IdsLeft`** — how many more ids can be issued, all of them new.
-/

namespace HipBridge.Daemon

open Lib

/-- `HandleTable<T>`: `next_id` and the map behind the mutex. -/
structure HandleTable (T : Type) where
  nextId : UInt64
  entries : AList fun _ : UInt64 => T

namespace HandleTable

variable {T : Type}

/-- `HandleTable::new`; handle `0` is never issued. -/
def new : HandleTable T := ⟨1, ∅⟩

/-- `next_id.fetch_add(1, Ordering::Relaxed)`, which wraps. -/
def fetchAdd (t : HandleTable T) : UInt64 × HandleTable T :=
  (t.nextId, { t with nextId := t.nextId + 1 })

/-- `entries.lock().unwrap().insert(id, value)`. -/
def mapInsert (t : HandleTable T) (id : UInt64) (value : T) : HandleTable T :=
  { t with entries := t.entries.insert id value }

def insert (t : HandleTable T) (value : T) : UInt64 × HandleTable T :=
  let (id, t) := t.fetchAdd
  (id, t.mapInsert id value)

def remove (t : HandleTable T) (id : UInt64) : Option T × HandleTable T :=
  (t.entries.lookup id, { t with entries := t.entries.erase id })

def get (t : HandleTable T) (id : UInt64) : Option T := t.entries.lookup id

def len (t : HandleTable T) : Nat := t.entries.keys.length

@[simp] theorem get_new (id : UInt64) : (new : HandleTable T).get id = none := rfl

@[simp] theorem insert_fst (t : HandleTable T) (value : T) : (t.insert value).1 = t.nextId := rfl

@[simp] theorem nextId_insert (t : HandleTable T) (value : T) :
    (t.insert value).2.nextId = t.nextId + 1 := rfl

@[simp] theorem remove_fst (t : HandleTable T) (id : UInt64) : (t.remove id).1 = t.get id := rfl

theorem remove_eq {t : HandleTable T} {id : UInt64} {value : Option T} (h : t.get id = value) :
    t.remove id = (value, (t.remove id).2) := by
  rw [← h]
  rfl

theorem remove_unknown {t : HandleTable T} {id : UInt64} (h : t.get id = none) :
    t.remove id = (none, t) := by
  have herase : t.entries.erase id = t.entries := BTreeMap.erase_eq_self h
  rw [remove, herase, ← h]
  rfl

@[simp] theorem nextId_remove (t : HandleTable T) (id : UInt64) :
    (t.remove id).2.nextId = t.nextId := rfl

theorem get_mapInsert (t : HandleTable T) (id : UInt64) (value : T) (id' : UInt64) :
    (t.mapInsert id value).get id' = if id' = id then some value else t.get id' := by
  by_cases hid : id' = id
  · subst hid
    simp [mapInsert, get]
  · simp [mapInsert, get, hid]

theorem get_insert (t : HandleTable T) (value : T) (id : UInt64) :
    (t.insert value).2.get id = if id = t.nextId then some value else t.get id := by
  show (t.fetchAdd.2.mapInsert t.nextId value).get id = _
  rw [get_mapInsert]
  rfl

theorem get_remove (t : HandleTable T) (id id' : UInt64) :
    (t.remove id).2.get id' = if id' = id then none else t.get id' := by
  by_cases hid : id' = id
  · subst hid
    simp [remove, get]
  · simp [remove, get, hid]

theorem len_eq (t : HandleTable T) : t.len = t.entries.entries.length := by
  unfold len AList.keys List.keys
  rw [List.length_map]

theorem len_mapInsert {t : HandleTable T} {id : UInt64} (value : T) (h : t.get id = none) :
    (t.mapInsert id value).len = t.len + 1 := by
  rw [len_eq, len_eq]
  show (t.entries.insert id value).entries.length = _
  rw [BTreeMap.entries_insert_new value h]
  rfl

theorem len_remove (t : HandleTable T) (id : UInt64) :
    (t.remove id).2.len + (t.get id).isSome.toNat = t.len := by
  cases hget : t.get id with
  | none =>
    rw [remove_unknown hget]
    rfl
  | some value =>
    rw [len_eq, len_eq]
    show (t.entries.erase id).entries.length + 1 = _
    rw [(BTreeMap.entries_perm_erase hget).length_eq]
    rfl

/-! ## Ids that are still to come -/

/-- `n` more ids can be issued before the counter wraps round, and none of them is in the
table. -/
structure IdsLeft (t : HandleTable T) (n : Nat) : Prop where
  room : t.nextId.toNat + n < 2 ^ 64
  below : ∀ id, (t.get id).isSome → id.toNat < t.nextId.toNat

theorem idsLeft_new {n : Nat} (h : n < 2 ^ 64 - 1) : (new : HandleTable T).IdsLeft n where
  room := by
    show 1 + n < 2 ^ 64
    omega
  below := fun id hid => by cases hid

variable {t : HandleTable T} {n : Nat}

theorem IdsLeft.fewer (h : t.IdsLeft (n + 1)) : t.IdsLeft n :=
  ⟨Nat.lt_of_succ_lt h.room, h.below⟩

/-- The next id is a new one. -/
theorem IdsLeft.get_nextId (h : t.IdsLeft n) : t.get t.nextId = none := by
  cases hget : t.get t.nextId with
  | none => rfl
  | some value => exact absurd (h.below t.nextId (by rw [hget]; rfl)) (Nat.lt_irrefl _)

theorem IdsLeft.toNat_nextId_insert (h : t.IdsLeft (n + 1)) (value : T) :
    (t.insert value).2.nextId.toNat = t.nextId.toNat + 1 := by
  have hroom := h.room
  rw [nextId_insert, UInt64.toNat_add, UInt64.toNat_one, Nat.mod_eq_of_lt (by omega)]

theorem IdsLeft.insert (h : t.IdsLeft (n + 1)) (value : T) : (t.insert value).2.IdsLeft n := by
  have hnext := h.toNat_nextId_insert value
  have hroom := h.room
  constructor
  · omega
  · intro id hid
    rw [get_insert] at hid
    split at hid
    case isTrue hself =>
      rw [hself]
      omega
    case isFalse =>
      have hbelow := h.below id hid
      omega

theorem IdsLeft.remove (h : t.IdsLeft n) (id : UInt64) : (t.remove id).2.IdsLeft n := by
  refine ⟨h.room, fun id' hid' => h.below id' ?_⟩
  rw [get_remove] at hid'
  split at hid'
  · cases hid'
  · exact hid'

/-- What is behind an id stays there when another is issued. -/
theorem IdsLeft.get_insert_of_get (h : t.IdsLeft n) (value : T) {id : UInt64} {old : T}
    (hget : t.get id = some old) : (t.insert value).2.get id = some old := by
  have hne : id ≠ t.nextId := by
    rintro rfl
    rw [h.get_nextId] at hget
    cases hget
  rw [get_insert, if_neg hne, hget]

end HandleTable

end HipBridge.Daemon
