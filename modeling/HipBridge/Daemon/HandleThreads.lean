import HipBridge.Daemon.Handles
import HipBridge.Lib.Run
import Mathlib.Logic.Function.Basic

/-!
# Handle tables under concurrency

Threads `Tid` share one `HandleTable`. `insert` is two atomic steps, the `fetch_add` on `next_id`
and the insertion under the lock; `remove`, `get` and `len` are one each. Beside the table a state
keeps the **`log`** of the steps that took effect, oldest first, each with what it answered.

* **`handleStep`** — the steps; `handleStep_effect` says what each can do.
* **`replay`** — what the map holds under an id, read off the log.
* **`HandleInv`** — the invariant: the ids drawn are `1, 2, …`, a drawn id waits in one thread only
  until it is inserted, and every answer is the one the log so far gives.
* **`NeverReuses`** — what a log says of a table that never reuses a handle.
-/

namespace HipBridge.Daemon

open Lib

/-- Where a thread is: outside, or between the two steps of `insert`. -/
inductive HandlePhase (T : Type)
  | idle
  | drawn (id : UInt64) (value : T)
deriving DecidableEq

inductive HandleAct (T : Type)
  | fetchAdd (value : T)
  | mapInsert
  | remove (id : UInt64)
  | get (id : UInt64)
  | len
deriving DecidableEq

/-- A step that took effect. `HashMap::insert` answers with the value it replaces. -/
inductive HandleEvent (T : Type)
  | fetchAdd (id : UInt64)
  | mapInsert (id : UInt64) (value : T) (replaced : Option T)
  | remove (id : UInt64) (removed : Option T)
  | get (id : UInt64) (found : Option T)
  | len (n : Nat)
deriving DecidableEq

structure HandleThreads (Tid T : Type) where
  phase : Tid → HandlePhase T
  table : HandleTable T
  log : List (HandleEvent T)

variable {Tid T : Type}

/-- A new table, and no call under way. -/
def HandleThreads.init : HandleThreads Tid T := ⟨fun _ => .idle, .new, []⟩

/-- One more step that took effect. -/
def HandleThreads.logged (s : HandleThreads Tid T) (e : HandleEvent T) : HandleThreads Tid T :=
  { s with log := s.log ++ [e] }

variable [DecidableEq Tid]

/-- The next step of a thread. A step that is not its next does nothing. -/
def handleStep (s : HandleThreads Tid T) (a : Tid × HandleAct T) : HandleThreads Tid T :=
  match s.phase a.1, a.2 with
  | .idle, .fetchAdd value =>
    let (id, table) := s.table.fetchAdd
    { s.logged (.fetchAdd id) with
      phase := Function.update s.phase a.1 (.drawn id value), table }
  | .drawn id value, .mapInsert =>
    { s.logged (.mapInsert id value (s.table.get id)) with
      phase := Function.update s.phase a.1 .idle, table := s.table.mapInsert id value }
  | .idle, .remove id =>
    let (removed, table) := s.table.remove id
    { s.logged (.remove id removed) with table }
  | .idle, .get id => s.logged (.get id (s.table.get id))
  | .idle, .len => s.logged (.len s.table.len)
  | _, _ => s

/-- With no step of another thread in between, the two steps are `insert`. -/
theorem run_insert_steps {s : HandleThreads Tid T} {t : Tid} (hidle : s.phase t = .idle)
    (value : T) :
    (run handleStep s [(t, .fetchAdd value), (t, .mapInsert)]).table
      = (s.table.insert value).2 := by
  rw [run_cons, run_cons, run_nil]
  unfold handleStep
  simp only [hidle, HandleThreads.logged, Function.update_self]
  rfl

/-! ## Reading a log -/

def HandleEvent.drawn : HandleEvent T → Option UInt64
  | .fetchAdd id => some id
  | _ => none

def HandleEvent.inserted : HandleEvent T → Option UInt64
  | .mapInsert id _ _ => some id
  | _ => none

def drawnIds (log : List (HandleEvent T)) : List UInt64 := log.filterMap HandleEvent.drawn

/-- The ids that `insert` returned, in the order of the map insertions. -/
def insertedIds (log : List (HandleEvent T)) : List UInt64 := log.filterMap HandleEvent.inserted

/-- The step is a call of `remove(id)`. -/
def HandleEvent.removes (id : UInt64) : HandleEvent T → Bool
  | .remove id' _ => id' == id
  | _ => false

/-- The step is a `remove` that found its entry. -/
def HandleEvent.succeeds : HandleEvent T → Bool
  | .remove _ removed => removed.isSome
  | _ => false

/-- The step is a call of `remove(id)` that found its entry. -/
def HandleEvent.takes (id : UInt64) (e : HandleEvent T) : Bool := e.removes id && e.succeeds

/-- What a map that held `held` under `id` holds after one more step. -/
def replayEvent (id : UInt64) (held : Option T) : HandleEvent T → Option T
  | .mapInsert id' value _ => if id' = id then some value else held
  | .remove id' _ => if id' = id then none else held
  | _ => held

/-- What the map holds under `id` after the steps of the log. -/
def replay (id : UInt64) (log : List (HandleEvent T)) : Option T :=
  run (replayEvent id) none log

theorem drawnIds_concat (log : List (HandleEvent T)) (e : HandleEvent T) :
    drawnIds (log ++ [e]) = drawnIds log ++ e.drawn.toList := by
  unfold drawnIds
  rw [List.filterMap_append]
  cases e <;> rfl

theorem insertedIds_concat (log : List (HandleEvent T)) (e : HandleEvent T) :
    insertedIds (log ++ [e]) = insertedIds log ++ e.inserted.toList := by
  unfold insertedIds
  rw [List.filterMap_append]
  cases e <;> rfl

theorem replay_concat (id : UInt64) (log : List (HandleEvent T)) (e : HandleEvent T) :
    replay id (log ++ [e]) = replayEvent id (replay id log) e := by
  unfold replay
  rw [run_append, run_cons, run_nil]

/-- Without an insertion under `id` a remove of it is what can change the entry. Induction on the
steps. -/
theorem run_replay_of_not_inserted {id : UInt64} {log : List (HandleEvent T)}
    (h : id ∉ insertedIds log) (held : Option T) :
    run (replayEvent id) held log = if log.any (·.removes id) then none else held := by
  induction log generalizing held with
  | nil => simp
  | cons e log ih =>
    have hlog : id ∉ insertedIds log := by
      intro hmem
      apply h
      obtain ⟨e', he', hid⟩ := List.mem_filterMap.mp hmem
      exact List.mem_filterMap.mpr ⟨e', List.mem_cons_of_mem e he', hid⟩
    rw [run_cons, ih hlog]
    cases e with
    | mapInsert id' value replaced =>
      have hne : id' ≠ id := by
        intro hid
        apply h
        exact List.mem_filterMap.mpr ⟨_, List.mem_cons_self, by rw [hid]; rfl⟩
      simp [replayEvent, HandleEvent.removes, hne]
    | remove id' removed =>
      -- from the first remove on there is nothing left
      by_cases hid : id' = id
      · simp [replayEvent, HandleEvent.removes, hid]
      · simp [replayEvent, HandleEvent.removes, hid]
    | fetchAdd _ | get _ _ | len _ => simp [replayEvent, HandleEvent.removes]

theorem replay_of_not_inserted {id : UInt64} {log : List (HandleEvent T)}
    (h : id ∉ insertedIds log) : replay id log = none := by
  unfold replay
  rw [run_replay_of_not_inserted h]
  simp

/-- What a step may answer after the steps before it. -/
def Answered (before : List (HandleEvent T)) : HandleEvent T → Prop
  | .fetchAdd _ => True
  | .mapInsert id _ replaced => replaced = replay id before ∧ id ∉ insertedIds before
  | .remove id removed => removed = replay id before
  | .get id found => found = replay id before
  | .len n => n + before.countP HandleEvent.succeeds = (insertedIds before).length

/-- An insertion under `id` pays for the entry or for one remove. Induction on the log. -/
theorem countP_removes_add {id : UInt64} {log : List (HandleEvent T)} (h : AtEach Answered log) :
    log.countP (HandleEvent.takes id) + (replay id log).isSome.toNat
      = (insertedIds log).count id := by
  induction log using List.reverseRecOn with
  | nil => rfl
  | append_singleton log e ih =>
    obtain ⟨hlog, he⟩ := atEach_concat.mp h
    have hcount := ih hlog
    rw [replay_concat, insertedIds_concat, List.countP_append, List.count_append]
    cases e with
    | mapInsert id' value replaced =>
      obtain ⟨-, hfresh⟩ := he
      by_cases hid : id' = id
      · subst hid
        rw [replay_of_not_inserted hfresh] at hcount
        simpa [HandleEvent.inserted, replayEvent, HandleEvent.takes, HandleEvent.removes]
          using hcount
      · simpa [HandleEvent.inserted, replayEvent, HandleEvent.takes, HandleEvent.removes, hid]
          using hcount
    | remove id' removed =>
      replace he : removed = replay id' log := he
      by_cases hid : id' = id
      · subst hid
        rw [he]
        -- what was held is what is taken
        cases hheld : replay id' log <;>
          simpa [HandleEvent.inserted, replayEvent, HandleEvent.takes, HandleEvent.removes,
            HandleEvent.succeeds, hheld] using hcount
      · simpa [HandleEvent.inserted, replayEvent, HandleEvent.takes, HandleEvent.removes, hid]
          using hcount
    | fetchAdd _ | get _ _ | len _ =>
      simpa [HandleEvent.inserted, replayEvent, HandleEvent.takes, HandleEvent.removes]
        using hcount

/-! ## What a step can do -/

/-- The effects of a step of `t`. -/
inductive HandleEffect (s : HandleThreads Tid T) (t : Tid) : HandleThreads Tid T → Prop
  | nothing : HandleEffect s t s
  | drew (value : T) (hphase : s.phase t = .idle) :
      HandleEffect s t
        { phase := Function.update s.phase t (.drawn s.table.nextId value)
          table := { s.table with nextId := s.table.nextId + 1 }
          log := s.log ++ [.fetchAdd s.table.nextId] }
  | inserted (id : UInt64) (value : T) (hphase : s.phase t = .drawn id value) :
      HandleEffect s t
        { phase := Function.update s.phase t .idle
          table := s.table.mapInsert id value
          log := s.log ++ [.mapInsert id value (s.table.get id)] }
  | removed (id : UInt64) :
      HandleEffect s t
        { s with
          table := (s.table.remove id).2
          log := s.log ++ [.remove id (s.table.get id)] }
  | got (id : UInt64) : HandleEffect s t (s.logged (.get id (s.table.get id)))
  | counted : HandleEffect s t (s.logged (.len s.table.len))

theorem handleStep_effect (s : HandleThreads Tid T) (t : Tid) (act : HandleAct T) :
    HandleEffect s t (handleStep s (t, act)) := by
  unfold handleStep
  split
  case h_1 value hphase _ => exact .drew value hphase
  case h_2 id value hphase _ => exact .inserted id value hphase
  case h_3 id _ _ => exact .removed id
  case h_4 id _ _ => exact .got id
  case h_5 => exact .counted
  case h_6 => exact .nothing

/-! ## The invariant -/

structure HandleInv (s : HandleThreads Tid T) : Prop where
  /-- The ids drawn are `1, …, n`, and `n + 1` is next. -/
  next : s.table.nextId.toNat = (drawnIds s.log).length + 1
  drawn : ∀ id ∈ drawnIds s.log, 0 < id.toNat ∧ id.toNat ≤ (drawnIds s.log).length
  /-- A thread in the middle of `insert` has drawn its id and has it to itself. -/
  held : ∀ t id value, s.phase t = .drawn id value →
    id ∈ drawnIds s.log ∧ id ∉ insertedIds s.log
  apart : ∀ t t' id value value', s.phase t = .drawn id value → s.phase t' = .drawn id value' →
    t = t'
  inserted : ∀ id ∈ insertedIds s.log, id ∈ drawnIds s.log
  distinct : (insertedIds s.log).Nodup
  get : ∀ id, s.table.get id = replay id s.log
  len : s.table.len + s.log.countP HandleEvent.succeeds = (insertedIds s.log).length
  answered : AtEach Answered s.log

omit [DecidableEq Tid] in
theorem handleInv_init : HandleInv (HandleThreads.init : HandleThreads Tid T) := by
  refine ⟨rfl, ?_, ?_, ?_, ?_, List.nodup_nil, fun _ => rfl, rfl, ?_⟩
  · intro id hid
    cases hid
  · intro t id value hphase
    cases hphase
  · intro t t' id value value' hphase
    cases hphase
  · intro id hid
    cases hid
  · intro pre a post hnil
    cases pre <;> cases hnil

omit [DecidableEq Tid] in
/-- A step that neither draws nor inserts an id keeps what is known of the ids. -/
theorem HandleInv.called {s : HandleThreads Tid T} (h : HandleInv s) {table : HandleTable T}
    {e : HandleEvent T} (hdrawn : e.drawn = none) (hinserted : e.inserted = none)
    (hnext : table.nextId = s.table.nextId)
    (hget : ∀ id, table.get id = replayEvent id (s.table.get id) e)
    (hlen : table.len + e.succeeds.toNat = s.table.len) (he : Answered s.log e) :
    HandleInv { s.logged e with table } := by
  have hdrawnIds : drawnIds (s.log ++ [e]) = drawnIds s.log := by
    rw [drawnIds_concat, hdrawn]
    exact List.append_nil _
  have hinsertedIds : insertedIds (s.log ++ [e]) = insertedIds s.log := by
    rw [insertedIds_concat, hinserted]
    exact List.append_nil _
  unfold HandleThreads.logged
  constructor
  case next =>
    rw [hdrawnIds, hnext]
    exact h.next
  case drawn => simpa only [hdrawnIds] using h.drawn
  case held => simpa only [hdrawnIds, hinsertedIds] using h.held
  case apart => exact h.apart
  case inserted => simpa only [hdrawnIds, hinsertedIds] using h.inserted
  case distinct => simpa only [hinsertedIds] using h.distinct
  case get =>
    intro id
    rw [replay_concat, ← h.get id]
    exact hget id
  case len =>
    have hcount : List.countP HandleEvent.succeeds [e] = e.succeeds.toNat := by
      rw [List.countP_singleton]
      cases e.succeeds <;> rfl
    have hold := h.len
    rw [hinsertedIds, List.countP_append, hcount]
    show table.len + _ = _
    omega
  case answered => exact atEach_concat.mpr ⟨h.answered, he⟩

/-- Who is in the middle of `insert` once `t` has moved on. -/
theorem update_eq_drawn {phase : Tid → HandlePhase T} {t t' : Tid} {p : HandlePhase T}
    {id : UInt64} {value : T} (h : Function.update phase t p t' = .drawn id value) :
    (t' = t ∧ p = .drawn id value) ∨ (t' ≠ t ∧ phase t' = .drawn id value) := by
  by_cases ht : t' = t
  · subst ht
    rw [Function.update_self] at h
    exact Or.inl ⟨rfl, h⟩
  · rw [Function.update_of_ne ht] at h
    exact Or.inr ⟨ht, h⟩

theorem HandleInv.drew {s : HandleThreads Tid T} (h : HandleInv s) (t : Tid) (value : T)
    (hfew : (drawnIds s.log).length < 2 ^ 64 - 2) :
    HandleInv
      { phase := Function.update s.phase t (.drawn s.table.nextId value)
        table := { s.table with nextId := s.table.nextId + 1 }
        log := s.log ++ [.fetchAdd s.table.nextId] } := by
  have hdrawnIds : drawnIds (s.log ++ [.fetchAdd s.table.nextId])
      = drawnIds s.log ++ [s.table.nextId] := drawnIds_concat _ _
  have hinsertedIds : insertedIds (s.log ++ [.fetchAdd s.table.nextId]) = insertedIds s.log := by
    rw [insertedIds_concat]
    exact List.append_nil _
  have hnext := h.next
  -- the counter is above every id drawn so far
  have hnew : s.table.nextId ∉ drawnIds s.log := by
    intro hmem
    have hle := (h.drawn _ hmem).2
    omega
  constructor
  case next =>
    rw [hdrawnIds, List.length_append, List.length_singleton, ← hnext]
    show (s.table.nextId.toNat + 1) % 2 ^ 64 = _
    exact Nat.mod_eq_of_lt (by omega)
  case drawn =>
    rw [hdrawnIds]
    intro id hid
    rw [List.length_append, List.length_singleton]
    rcases List.mem_append.mp hid with hold | hlast
    · have hbounds := h.drawn id hold
      omega
    · rw [List.mem_singleton.mp hlast]
      omega
  case held =>
    rw [hdrawnIds, hinsertedIds]
    intro t' id value' hphase
    rcases update_eq_drawn hphase with ⟨-, hself⟩ | ⟨-, hother⟩
    · cases hself
      refine ⟨List.mem_append_right _ List.mem_cons_self, ?_⟩
      intro hmem
      exact hnew (h.inserted _ hmem)
    · obtain ⟨hdrawn, hinserted⟩ := h.held t' id value' hother
      exact ⟨List.mem_append_left _ hdrawn, hinserted⟩
  case apart =>
    intro t₁ t₂ id value₁ value₂ h₁ h₂
    rcases update_eq_drawn h₁ with ⟨ht₁, hself₁⟩ | ⟨-, hother₁⟩
    · rcases update_eq_drawn h₂ with ⟨ht₂, -⟩ | ⟨-, hother₂⟩
      · rw [ht₁, ht₂]
      · cases hself₁
        exact absurd (h.held t₂ _ _ hother₂).1 hnew
    · rcases update_eq_drawn h₂ with ⟨-, hself₂⟩ | ⟨-, hother₂⟩
      · cases hself₂
        exact absurd (h.held t₁ _ _ hother₁).1 hnew
      · exact h.apart t₁ t₂ id value₁ value₂ hother₁ hother₂
  case inserted =>
    rw [hdrawnIds, hinsertedIds]
    intro id hid
    exact List.mem_append_left _ (h.inserted id hid)
  case distinct => simpa only [hinsertedIds] using h.distinct
  case get =>
    intro id
    rw [replay_concat]
    exact h.get id
  case len =>
    rw [hinsertedIds, List.countP_append]
    exact h.len
  case answered => exact atEach_concat.mpr ⟨h.answered, trivial⟩

theorem HandleInv.insertedStep {s : HandleThreads Tid T} (h : HandleInv s) {t : Tid} {id : UInt64}
    {value : T} (hphase : s.phase t = .drawn id value) :
    HandleInv
      { phase := Function.update s.phase t .idle
        table := s.table.mapInsert id value
        log := s.log ++ [.mapInsert id value (s.table.get id)] } := by
  obtain ⟨hdrawn, hfresh⟩ := h.held t id value hphase
  have hdrawnIds : drawnIds (s.log ++ [.mapInsert id value (s.table.get id)]) = drawnIds s.log := by
    rw [drawnIds_concat]
    exact List.append_nil _
  have hinsertedIds : insertedIds (s.log ++ [.mapInsert id value (s.table.get id)])
      = insertedIds s.log ++ [id] := insertedIds_concat _ _
  have hnone : s.table.get id = none := by
    rw [h.get id]
    exact replay_of_not_inserted hfresh
  constructor
  case next =>
    rw [hdrawnIds]
    exact h.next
  case drawn => simpa only [hdrawnIds] using h.drawn
  case held =>
    rw [hdrawnIds, hinsertedIds]
    intro t' id' value' hphase'
    rcases update_eq_drawn hphase' with ⟨-, hself⟩ | ⟨ht, hother⟩
    · cases hself
    · obtain ⟨hdrawn', hfresh'⟩ := h.held t' id' value' hother
      refine ⟨hdrawn', ?_⟩
      intro hmem
      rcases List.mem_append.mp hmem with hold | hlast
      · exact hfresh' hold
      · -- the id was in the hands of `t` alone
        rw [List.mem_singleton.mp hlast] at hother
        exact ht (h.apart t' t id value' value hother hphase)
  case apart =>
    intro t₁ t₂ id' value₁ value₂ h₁ h₂
    rcases update_eq_drawn h₁ with ⟨-, hself⟩ | ⟨-, hother₁⟩
    · cases hself
    · rcases update_eq_drawn h₂ with ⟨-, hself⟩ | ⟨-, hother₂⟩
      · cases hself
      · exact h.apart t₁ t₂ id' value₁ value₂ hother₁ hother₂
  case inserted =>
    rw [hdrawnIds, hinsertedIds]
    intro id' hmem
    rcases List.mem_append.mp hmem with hold | hlast
    · exact h.inserted id' hold
    · rw [List.mem_singleton.mp hlast]
      exact hdrawn
  case distinct =>
    rw [hinsertedIds, List.nodup_append]
    refine ⟨h.distinct, List.nodup_singleton id, ?_⟩
    intro id' hold last hlast heq
    apply hfresh
    rw [← List.mem_singleton.mp hlast, ← heq]
    exact hold
  case get =>
    intro id'
    rw [replay_concat, HandleTable.get_mapInsert, h.get id']
    show _ = if id = id' then some value else replay id' s.log
    simp only [eq_comm]
  case len =>
    have hlen := h.len
    rw [hinsertedIds, List.countP_append, List.length_append, List.length_singleton]
    show (s.table.mapInsert id value).len + (_ + 0) = _
    rw [HandleTable.len_mapInsert value hnone]
    omega
  case answered => exact atEach_concat.mpr ⟨h.answered, h.get id, hfresh⟩

/-- A step keeps the invariant as long as the counter does not wrap. -/
theorem HandleInv.step {s : HandleThreads Tid T} (h : HandleInv s) (a : Tid × HandleAct T)
    (hfew : (drawnIds (handleStep s a).log).length < 2 ^ 64 - 1) : HandleInv (handleStep s a) := by
  obtain ⟨t, act⟩ := a
  generalize hs' : handleStep s (t, act) = s' at hfew ⊢
  have heffect : HandleEffect s t s' := hs' ▸ handleStep_effect s t act
  cases heffect with
  | nothing => exact h
  | drew value hphase =>
    apply h.drew
    rw [drawnIds_concat, List.length_append] at hfew
    change _ + 1 < _ at hfew
    omega
  | inserted id value hphase => exact h.insertedStep hphase
  | removed id =>
    have hget : ∀ id', (s.table.remove id).2.get id'
        = replayEvent id' (s.table.get id') (.remove id (s.table.get id)) := by
      intro id'
      rw [HandleTable.get_remove]
      show _ = if id = id' then none else s.table.get id'
      simp only [eq_comm]
    exact h.called rfl rfl rfl hget (HandleTable.len_remove s.table id) (h.get id)
  | got id => exact h.called rfl rfl rfl (fun _ => rfl) rfl (h.get id)
  | counted => exact h.called rfl rfl rfl (fun _ => rfl) rfl h.len

/-- The log only grows. -/
theorem drawnIds_length_le (s : HandleThreads Tid T) (a : Tid × HandleAct T) :
    (drawnIds s.log).length ≤ (drawnIds (handleStep s a).log).length := by
  obtain ⟨t, act⟩ := a
  generalize hs' : handleStep s (t, act) = s'
  have heffect : HandleEffect s t s' := hs' ▸ handleStep_effect s t act
  have hconcat : ∀ e, (drawnIds s.log).length ≤ (drawnIds (s.log ++ [e])).length := by
    intro e
    rw [drawnIds_concat, List.length_append]
    exact Nat.le_add_right _ _
  cases heffect with
  | nothing => exact Nat.le_refl _
  | drew | inserted | removed | got | counted => exact hconcat _

/-- A run in which the counter does not wrap keeps the invariant. -/
theorem HandleInv.run (acts : List (Tid × HandleAct T))
    (hfew : (drawnIds (run handleStep .init acts).log).length < 2 ^ 64 - 1) :
    HandleInv (Lib.run handleStep .init acts) := by
  have hkeep : ∀ (s : HandleThreads Tid T) a, HandleInv s → True →
      (drawnIds (handleStep s a).log).length < 2 ^ 64 - 1 → HandleInv (handleStep s a) :=
    fun _ a h _ => h.step a
  have hfree : Along handleStep (fun _ _ => True) (.init : HandleThreads Tid T) acts :=
    along_of_forall (fun _ _ => trivial) acts
  exact (always_of_below drawnIds_length_le hkeep handleInv_init hfree hfew).last

/-! ## Handles are never reused -/

/-- What a log says of a table that never reuses a handle. -/
structure NeverReuses (log : List (HandleEvent T)) : Prop where
  nonzero : 0 ∉ insertedIds log
  distinct : (insertedIds log).Nodup
  /-- No insertion replaces an entry. -/
  kept : ∀ id value replaced, .mapInsert id value replaced ∈ log → replaced = none
  /-- From its insertion on an entry is found until the first remove, and never after it. -/
  found : ∀ before id value replaced between e after answer,
    log = before ++ .mapInsert id value replaced :: (between ++ e :: after) →
    e = .get id answer ∨ e = .remove id answer →
    answer = if between.any (·.removes id) then none else some value
  /-- Until then, drawn or not, it is not. -/
  unknown : ∀ before id e after answer, log = before ++ e :: after →
    e = .get id answer ∨ e = .remove id answer → id ∉ insertedIds before → answer = none
  /-- Of the calls of `remove(id)` at most one succeeds. -/
  once : ∀ id, log.countP (HandleEvent.takes id) ≤ 1
  /-- The length is the number of insertions less that of the removes that succeeded. -/
  counted : ∀ before n after, log = before ++ .len n :: after →
    n + before.countP HandleEvent.succeeds = (insertedIds before).length

theorem answer_eq_replay {before : List (HandleEvent T)} {id : UInt64} {e : HandleEvent T}
    {answer : Option T} (h : Answered before e) (he : e = .get id answer ∨ e = .remove id answer) :
    answer = replay id before := by
  rcases he with heq | heq
  · subst heq
    exact h
  · subst heq
    exact h

/-- What is held under an id after its only insertion. -/
theorem replay_after_insert {before between : List (HandleEvent T)} {id : UInt64} {value : T}
    {replaced : Option T}
    (h : (insertedIds (before ++ .mapInsert id value replaced :: between)).Nodup) :
    replay id (before ++ .mapInsert id value replaced :: between)
      = if between.any (·.removes id) then none else some value := by
  have hsplit : insertedIds (before ++ .mapInsert id value replaced :: between)
      = insertedIds before ++ id :: insertedIds between := by
    unfold insertedIds
    rw [List.filterMap_append]
    rfl
  have honce : id ∉ insertedIds between := by
    rw [hsplit] at h
    exact (List.nodup_cons.mp (List.nodup_append.mp h).2.1).1
  have hvalue : replayEvent id (replay id before) (.mapInsert id value replaced) = some value :=
    if_pos rfl
  unfold replay at hvalue ⊢
  rw [run_append, run_cons, hvalue, run_replay_of_not_inserted honce]

theorem insertedIds_prefix {before after : List (HandleEvent T)} :
    (insertedIds before).Sublist (insertedIds (before ++ after)) := by
  unfold insertedIds
  exact (List.sublist_append_left before after).filterMap _

/-- **Handles are never reused.** Whatever the threads do and however their steps interleave,
with fewer than `2^64 - 1` insertions begun. -/
theorem handles_never_reused (acts : List (Tid × HandleAct T))
    (hfew : (drawnIds (run handleStep .init acts).log).length < 2 ^ 64 - 1) :
    NeverReuses (run handleStep .init acts).log := by
  have hinv := HandleInv.run acts hfew
  generalize run handleStep .init acts = s at hinv
  constructor
  case nonzero =>
    intro hmem
    have hpos := (hinv.drawn 0 (hinv.inserted 0 hmem)).1
    exact absurd hpos (by decide)
  case distinct => exact hinv.distinct
  case kept =>
    intro id value replaced hmem
    obtain ⟨before, after, hlog⟩ := List.append_of_mem hmem
    obtain ⟨hreplaced, hfresh⟩ := hinv.answered before _ after hlog
    rw [hreplaced]
    exact replay_of_not_inserted hfresh
  case found =>
    intro before id value replaced between e after answer hlog he
    -- the log up to the answer, with the insertion in it
    have hsplit : s.log = (before ++ .mapInsert id value replaced :: between) ++ e :: after := by
      rw [hlog, List.append_assoc]
      rfl
    rw [answer_eq_replay (hinv.answered _ e after hsplit) he]
    apply replay_after_insert
    apply List.Nodup.sublist _ hinv.distinct
    rw [hsplit]
    exact insertedIds_prefix
  case unknown =>
    intro before id e after answer hlog he hfresh
    rw [answer_eq_replay (hinv.answered before e after hlog) he]
    exact replay_of_not_inserted hfresh
  case once =>
    intro id
    have hpaid : s.log.countP (HandleEvent.takes id) + (replay id s.log).isSome.toNat
        = (insertedIds s.log).count id := countP_removes_add hinv.answered
    have hcount := List.nodup_iff_count_le_one.mp hinv.distinct id
    omega
  case counted =>
    intro before n after hlog
    exact hinv.answered before _ after hlog

/-- Two threads: the ids `1` and `2` are drawn in one order and inserted in the other, with calls
on id `1` in between. -/
def crossedInserts : List (Bool × HandleAct Nat) :=
  [(false, .fetchAdd 10), (true, .fetchAdd 20), (true, .mapInsert), (true, .remove 1),
    (true, .get 1), (false, .mapInsert), (true, .get 1), (true, .remove 1), (false, .remove 1),
    (false, .len)]

theorem handles_never_reused_crossed :
    NeverReuses (run handleStep .init crossedInserts).log ∧
      (run handleStep .init crossedInserts).log
        = [.fetchAdd 1, .fetchAdd 2, .mapInsert 2 20 none, .remove 1 none, .get 1 none,
            .mapInsert 1 10 none, .get 1 (some 10), .remove 1 (some 10), .remove 1 none, .len 1] :=
  ⟨handles_never_reused crossedInserts (by decide), by decide⟩

end HipBridge.Daemon
