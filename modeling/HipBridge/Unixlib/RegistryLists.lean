import HipBridge.Lib.BoundedAssoc
import HipBridge.Lib.Run
import HipBridge.Unixlib.Registry

/-!
# The registry as three bounded association lists

* **`Tables`** — what the registry is for: three lists, of which each takes entries until it is
  full. A function is listed with the name it was given, as far as there is room for it.
* **`registryStep`**, **`tablesStep`** — any call that changes the registry, and what it is for.
* **`cString_copyName`** — the copy loop keeps the bytes there is room for and ends them with a
  NUL, whatever the buffer held.
* **`Refines`** — the static arrays hold the lists, and every name in use ends inside its buffer.
-/

namespace HipBridge.Unixlib

open Lib

/-- The calls that change the registry. -/
inductive RegistryOp
  | reset
  | addFatbin (token module : Ptr)
  | addFunction (hostFn function : Ptr) (name : Option CString)
  | addVar (hostVar devicePtr : Ptr)

/-- The return value, `none` for `void`, and the registry afterwards. -/
def registryStep (s : Registry) : RegistryOp → Option Int32 × Registry
  | .reset => (none, registryReset s)
  | .addFatbin token module =>
    let (ret, s) := registryAddFatbin s token module
    (some ret, s)
  | .addFunction hostFn function name =>
    let (ret, s) := registryAddFunction s hostFn function name
    (some ret, s)
  | .addVar hostVar devicePtr =>
    let (ret, s) := registryAddVar s hostVar devicePtr
    (some ret, s)

/-! ## The lists -/

/-- The bytes of a name that are kept; `NULL` is kept as the empty name. -/
def keptName (name : Option CString) : List UInt8 :=
  (name.elim [] CString.bytes).take maxFunctionName

/-- The entries accepted since the last reset. -/
structure Tables where
  fatbins : BoundedAssoc Ptr Ptr maxFatbins
  functions : BoundedAssoc Ptr (Ptr × List UInt8) maxFunctions
  vars : BoundedAssoc Ptr Ptr maxVars

def Tables.empty : Tables := ⟨.empty, .empty, .empty⟩

def tablesStep (t : Tables) : RegistryOp → Option Bool × Tables
  | .reset => (none, .empty)
  | .addFatbin token module =>
    let (accepted, fatbins) := t.fatbins.add token module
    (some accepted, { t with fatbins })
  | .addFunction hostFn function name =>
    let (accepted, functions) := t.functions.add hostFn (function, keptName name)
    (some accepted, { t with functions })
  | .addVar hostVar devicePtr =>
    let (accepted, vars) := t.vars.add hostVar devicePtr
    (some accepted, { t with vars })

/-! ## The name buffer -/

/-- The string a buffer holds: the bytes before its first NUL. -/
def cString (buf : Vector UInt8 (maxFunctionName + 1)) : List UInt8 := buf.toList.takeWhile (· ≠ 0)

theorem take_setIfInBounds (buf : Vector UInt8 (maxFunctionName + 1)) (c : UInt8) {i : Nat}
    (hi : i ≤ maxFunctionName) :
    (buf.setIfInBounds i c).toList.take (i + 1) = buf.toList.take i ++ [c] := by
  have hlt : i < buf.toList.length := by
    rw [Vector.length_toList]
    omega
  rw [Vector.toList_setIfInBounds, List.take_add_one, List.take_set_of_le (Nat.le_refl i),
    List.getElem?_set_self hlt]
  rfl

/-- The loop leaves the bytes before `i`, the bytes there is room for, and a NUL behind them.
Induction on the name. -/
theorem take_copyName (buf : Vector UInt8 (maxFunctionName + 1)) (name : List UInt8) {i : Nat}
    (hi : i ≤ maxFunctionName) :
    (copyName buf i name).toList.take (i + (name.take (maxFunctionName - i)).length + 1)
      = buf.toList.take i ++ name.take (maxFunctionName - i) ++ [0] := by
  induction name generalizing buf i with
  | nil =>
    rw [List.take_nil, List.append_nil]
    exact take_setIfInBounds buf 0 hi
  | cons c cs ih =>
    unfold copyName
    split
    case isTrue hlt =>
      have hrest := @ih (buf.setIfInBounds i c) (i + 1) hlt
      have hroom : maxFunctionName - i = maxFunctionName - (i + 1) + 1 := by omega
      have hlen : i + ((cs.take (maxFunctionName - (i + 1))).length + 1) + 1
          = i + 1 + (cs.take (maxFunctionName - (i + 1))).length + 1 := by omega
      rw [hroom, List.take_succ_cons, List.length_cons, hlen, hrest, take_setIfInBounds buf c hi]
      simp
    case isFalse hge =>
      have hnone : maxFunctionName - i = 0 := by omega
      rw [hnone, List.take_zero, List.append_nil]
      exact take_setIfInBounds buf 0 hi

/-- A buffer that starts with a string and a NUL holds the string. -/
theorem cString_of_take {buf : Vector UInt8 (maxFunctionName + 1)} {name : List UInt8}
    (hnoNul : 0 ∉ name) (h : buf.toList.take (name.length + 1) = name ++ [0]) :
    0 ∈ buf.toList ∧ cString buf = name := by
  have hsplit : buf.toList = name ++ 0 :: buf.toList.drop (name.length + 1) := by
    conv_lhs => rw [← List.take_append_drop (name.length + 1) buf.toList, h]
    simp
  constructor
  · rw [hsplit]
    simp
  · unfold cString
    rw [hsplit, List.takeWhile_append_of_pos, List.takeWhile_cons_of_neg, List.append_nil]
    · simp
    · intro c hmem
      have hne : c ≠ 0 := fun hzero => hnoNul (hzero ▸ hmem)
      simpa using hne

/-- Whatever the buffer held, it holds the kept part of the name afterwards, and ends inside. -/
theorem cString_copyName (buf : Vector UInt8 (maxFunctionName + 1)) (name : CString) :
    0 ∈ (copyName buf 0 name.bytes).toList ∧
      cString (copyName buf 0 name.bytes) = keptName (some name) := by
  have hnoNul : 0 ∉ keptName (some name) := fun h => name.noNul (List.mem_of_mem_take h)
  have htake := take_copyName buf name.bytes (Nat.zero_le maxFunctionName)
  apply cString_of_take hnoNul
  rw [Nat.zero_add] at htake
  exact htake

/-- The same for a `NULL` name. -/
theorem cString_setIfInBounds (buf : Vector UInt8 (maxFunctionName + 1)) :
    0 ∈ (buf.setIfInBounds 0 0).toList ∧ cString (buf.setIfInBounds 0 0) = keptName none := by
  apply cString_of_take
  · simp [keptName]
  · exact take_setIfInBounds buf 0 (Nat.zero_le maxFunctionName)

/-! ## The refinement -/

/-- The arrays hold the lists, and no name in use runs past its buffer. -/
structure Refines (s : Registry) (t : Tables) : Prop where
  fatbins : Represents FatbinEntry.token FatbinEntry.module s.fatbins t.fatbins
  functions : Represents FunctionEntry.hostFn (fun e => (e.function, cString e.name)) s.functions
    t.functions
  vars : Represents VarEntry.hostVar VarEntry.devicePtr s.vars t.vars
  terminated : ∀ e ∈ s.functions.live, 0 ∈ e.name.toList

theorem refines_init : Refines Registry.init .empty where
  fatbins := rfl
  functions := rfl
  vars := rfl
  terminated := fun e hmem => by cases hmem

/-- What an add of the source does to the list its array holds: `1` and one more entry, or `0` and
no change. -/
theorem represents_registryAdd {α κ β : Type*} {n : Nat} {key : α → κ} {val : α → β}
    {table : SlotTable α n} {a : BoundedAssoc κ β n} (h : Represents key val table a) (e : α) :
    (registryAdd table e).1 = (if (a.add (key e) (val e)).1 then 1 else 0) ∧
      Represents key val (registryAdd table e).2 (a.add (key e) (val e)).2 ∧
      ((a.add (key e) (val e)).1 = false → (registryAdd table e).2 = table) := by
  have hcount := h.count_eq
  rw [BoundedAssoc.fst_add]
  rcases registryAdd_cases table e with ⟨hfull, hadd⟩ | ⟨hroom, table', hadd, hlive⟩
  · have hlength : ¬ a.entries.length < n := by omega
    have hsame : (a.add (key e) (val e)).2 = a := by
      unfold BoundedAssoc.add
      rw [dif_neg hlength]
    rw [hadd, hsame]
    exact ⟨by simp [hlength], h, fun _ => rfl⟩
  · have hlength : a.entries.length < n := by omega
    rw [hadd]
    exact ⟨by simp [hlength], h.append hroom hlive, fun hfalse => by simp [hlength] at hfalse⟩

/-- `registry_add_function` adds one entry, with a buffer that holds the kept name. -/
theorem registryAddFunction_eq (s : Registry) (hostFn function : Ptr) (name : Option CString) :
    ∃ buf : Vector UInt8 (maxFunctionName + 1), (0 ∈ buf.toList ∧ cString buf = keptName name) ∧
      registryAddFunction s hostFn function name
        = ((registryAdd s.functions ⟨hostFn, function, buf⟩).1,
          { s with functions := (registryAdd s.functions ⟨hostFn, function, buf⟩).2 }) := by
  cases name with
  | none => exact ⟨_, cString_setIfInBounds _, rfl⟩
  | some name => exact ⟨_, cString_copyName _ name, rfl⟩

theorem terminated_registryAdd {table : SlotTable FunctionEntry maxFunctions}
    (h : ∀ e ∈ table.live, 0 ∈ e.name.toList) {e : FunctionEntry} (he : 0 ∈ e.name.toList) :
    ∀ e' ∈ (registryAdd table e).2.live, 0 ∈ e'.name.toList := by
  rcases registryAdd_cases table e with ⟨-, hadd⟩ | ⟨-, table', hadd, hlive⟩
  · rw [hadd]
    exact h
  · rw [hadd]
    intro e' hmem
    rw [hlive, List.mem_append, List.mem_singleton] at hmem
    rcases hmem with hold | rfl
    · exact h e' hold
    · exact he

/-- What one call does: the same to the arrays as to the lists, with `1` for an entry that is
accepted, and `0` and no change at all for one that is not. -/
theorem Refines.step {s : Registry} {t : Tables} (h : Refines s t) (op : RegistryOp) :
    Refines (registryStep s op).2 (tablesStep t op).2 ∧
      (registryStep s op).1 = (tablesStep t op).1.map (fun accepted => if accepted then 1 else 0) ∧
      ((tablesStep t op).1 = some false → (registryStep s op).2 = s) := by
  cases op with
  | reset =>
    refine ⟨⟨represents_clear _, represents_clear _, represents_clear _, fun e hmem => ?_⟩, rfl,
      fun hfalse => by cases hfalse⟩
    cases hmem
  | addFatbin token module =>
    obtain ⟨hret, hrep, hsame⟩ := represents_registryAdd h.fatbins ⟨token, module⟩
    refine ⟨⟨hrep, h.functions, h.vars, h.terminated⟩, congrArg some hret, fun hfalse => ?_⟩
    show { s with fatbins := (registryAdd s.fatbins ⟨token, module⟩).2 } = s
    rw [hsame (Option.some.inj hfalse)]
  | addFunction hostFn function name =>
    obtain ⟨buf, ⟨hnul, hname⟩, hadd⟩ := registryAddFunction_eq s hostFn function name
    obtain ⟨hret, hrep, hsame⟩ := represents_registryAdd h.functions ⟨hostFn, function, buf⟩
    simp only [hname] at hret hrep hsame
    simp only [registryStep, tablesStep, hadd]
    refine ⟨⟨h.fatbins, hrep, h.vars, terminated_registryAdd h.terminated hnul⟩,
      congrArg some hret, fun hfalse => ?_⟩
    rw [hsame (Option.some.inj hfalse)]
  | addVar hostVar devicePtr =>
    obtain ⟨hret, hrep, hsame⟩ := represents_registryAdd h.vars ⟨hostVar, devicePtr⟩
    refine ⟨⟨h.fatbins, h.functions, hrep, h.terminated⟩, congrArg some hret, fun hfalse => ?_⟩
    show { s with vars := (registryAdd s.vars ⟨hostVar, devicePtr⟩).2 } = s
    rw [hsame (Option.some.inj hfalse)]

/-- Induction on the calls. -/
theorem Refines.run {s : Registry} {t : Tables} (h : Refines s t) (ops : List RegistryOp) :
    Refines (Lib.run (fun s op => (registryStep s op).2) s ops)
      (Lib.run (fun t op => (tablesStep t op).2) t ops) := by
  induction ops generalizing s t with
  | nil => exact h
  | cons op ops ih => exact ih (h.step op).1

/-! ## Lookups -/

/-- The `registry_find_*` functions look their key up in the list. -/
theorem registryFind_eq {α β : Type*} {n : Nat} {key : α → Ptr} {val : α → β}
    {table : SlotTable α n} {a : BoundedAssoc Ptr β n} (h : Represents key val table a)
    (get : β → Ptr) (k : Ptr) :
    registryFind table key (fun e => get (val e)) k = ((a.get k).map get).getD 0 := by
  unfold registryFind
  rw [← h.find?_eq]
  cases table.find? (key · = k) <;> rfl

theorem Refines.findFunctionName {s : Registry} {t : Tables} (h : Refines s t) (k : Ptr) :
    (registryFindFunctionName s k).map cString = (t.functions.get k).map Prod.snd ∧
      ∀ buf, registryFindFunctionName s k = some buf → 0 ∈ buf.toList := by
  unfold registryFindFunctionName
  constructor
  · rw [← h.functions.find?_eq, Option.map_map, Option.map_map]
    rfl
  · intro buf hbuf
    obtain ⟨e, hfind, rfl⟩ := Option.map_eq_some_iff.mp hbuf
    rw [SlotTable.find?_eq] at hfind
    exact h.terminated e (List.mem_of_find?_eq_some hfind)

/-- **The registry is three bounded association lists.** After any calls: an add returns `1`
exactly if its own list has room, and a `0` changes nothing; every lookup finds the first entry
with its key that was accepted since the last reset; the name of a function is the kept part of the
name in that same entry, and ends inside its buffer; and an add to one table leaves the lookups in
the other two alone. -/
theorem registry_refines (ops : List RegistryOp) :
    let s := run (fun s op => (registryStep s op).2) Registry.init ops
    let t := run (fun t op => (tablesStep t op).2) Tables.empty ops
    (∀ token module,
      (registryAddFatbin s token module).1 = if t.fatbins.entries.length < 16 then 1 else 0) ∧
    (∀ hostFn function name, (registryAddFunction s hostFn function name).1
      = if t.functions.entries.length < 256 then 1 else 0) ∧
    (∀ hostVar devicePtr,
      (registryAddVar s hostVar devicePtr).1 = if t.vars.entries.length < 32 then 1 else 0) ∧
    (∀ op, (registryStep s op).1 = some 0 → (registryStep s op).2 = s) ∧
    (∀ k, registryFindModule s k = (t.fatbins.get k).getD 0) ∧
    (∀ k, registryFindFunction s k = ((t.functions.get k).map Prod.fst).getD 0) ∧
    (∀ k, registryFindVar s k = (t.vars.get k).getD 0) ∧
    (∀ k, (registryFindFunctionName s k).map cString = (t.functions.get k).map Prod.snd ∧
      ∀ buf, registryFindFunctionName s k = some buf → 0 ∈ buf.toList) ∧
    (∀ token module k, let s' := (registryAddFatbin s token module).2
      registryFindFunction s' k = registryFindFunction s k ∧
      registryFindFunctionName s' k = registryFindFunctionName s k ∧
      registryFindVar s' k = registryFindVar s k) ∧
    (∀ hostFn function name k, let s' := (registryAddFunction s hostFn function name).2
      registryFindModule s' k = registryFindModule s k ∧
      registryFindVar s' k = registryFindVar s k) ∧
    (∀ hostVar devicePtr k, let s' := (registryAddVar s hostVar devicePtr).2
      registryFindModule s' k = registryFindModule s k ∧
      registryFindFunction s' k = registryFindFunction s k ∧
      registryFindFunctionName s' k = registryFindFunctionName s k) := by
  intro s t
  have h : Refines s t := refines_init.run ops
  refine ⟨fun token module => ?_, fun hostFn function name => ?_, fun hostVar devicePtr => ?_,
    fun op hzero => ?_, fun k => ?_, registryFind_eq h.functions Prod.fst, fun k => ?_,
    h.findFunctionName, fun _ _ _ => ⟨rfl, rfl, rfl⟩, fun _ _ _ _ => ⟨rfl, rfl⟩,
    fun _ _ _ => ⟨rfl, rfl, rfl⟩⟩
  -- an add answers as its list does, and the list takes what it has room for
  · obtain ⟨-, hret, -⟩ := h.step (.addFatbin token module)
    have hanswer : some (registryAddFatbin s token module).1
        = some (if (t.fatbins.add token module).1 then 1 else 0) := by
      exact hret
    rw [BoundedAssoc.fst_add] at hanswer
    simpa using hanswer
  · obtain ⟨-, hret, -⟩ := h.step (.addFunction hostFn function name)
    have hanswer : some (registryAddFunction s hostFn function name).1
        = some (if (t.functions.add hostFn (function, keptName name)).1 then 1 else 0) := by
      exact hret
    rw [BoundedAssoc.fst_add] at hanswer
    simpa using hanswer
  · obtain ⟨-, hret, -⟩ := h.step (.addVar hostVar devicePtr)
    have hanswer : some (registryAddVar s hostVar devicePtr).1
        = some (if (t.vars.add hostVar devicePtr).1 then 1 else 0) := by
      exact hret
    rw [BoundedAssoc.fst_add] at hanswer
    simpa using hanswer
  -- no entry was accepted, so nothing has changed
  · obtain ⟨-, hret, hsame⟩ := h.step op
    apply hsame
    rw [hzero] at hret
    cases haccepted : (tablesStep t op).1 with
    | none => simp [haccepted] at hret
    | some accepted =>
      cases accepted with
      | false => rfl
      | true => simp [haccepted] at hret
  · have hfind := registryFind_eq h.fatbins id k
    rw [Option.map_id] at hfind
    exact hfind
  · have hfind := registryFind_eq h.vars id k
    rw [Option.map_id] at hfind
    exact hfind

end HipBridge.Unixlib
