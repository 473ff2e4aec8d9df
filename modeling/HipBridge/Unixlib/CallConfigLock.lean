import HipBridge.Lib.Simulation
import HipBridge.Unixlib.CallConfig

/-!
# The lock of the call-configuration stack (`ensure_call_config_lock`)

The critical section around the stack is initialised by whichever thread is first to find the flag
clear. Finding it clear, initialising and setting it are three steps, and no lock is held for them:
two threads can both be first, and the second then initialises a section the first may be in.

* **`configStep`** — the steps of push and pop, and of `ensure_call_config_lock` in front of them.
* **`Held`** — a thread in the section owns it, so it is the only one.
* **`NotReset`** — a step does not initialise a section that a thread is in.
* **`held_iff_notReset`** — that is all it takes, and once a first call is through it never happens.
* **`pushPop_linearize`** — in such runs the calls are whole calls, one after the other. The last
  error, which a call sets with no lock held, is no part of it.
-/

namespace HipBridge.Unixlib

open Lib

/-! ## A call on the stack alone -/

theorem room_of_not_full {stack : SlotTable CallConfig callConfigStackSize}
    (h : ¬ callConfigStackSize ≤ stack.count) : stack.count < callConfigStackSize := by omega

theorem nonempty_of_count {stack : SlotTable CallConfig callConfigStackSize}
    (h : ¬ stack.count = 0) : 0 < stack.count := by omega

/-- What a call does inside the section: its code, what it writes, and the stack. -/
def LaunchCall.onStack (stack : SlotTable CallConfig callConfigStackSize) :
    LaunchCall → Int32 × PoppedConfig × SlotTable CallConfig callConfigStackSize
  | .push (some grid) (some block) sharedMem stream =>
    if h : callConfigStackSize ≤ stack.count then (hipErrorNotSupported, .none, stack)
    else (hipSuccess, .none, stack.push ⟨grid, block, sharedMem, stream⟩ (room_of_not_full h))
  | .push _ _ _ _ => (hipErrorNotSupported, .none, stack)
  | .pop ptrs =>
    if h : stack.count = 0 then (hipErrorNotSupported, .none, stack)
    else (hipSuccess, ptrs.write (stack.last (nonempty_of_count h)), stack.pop)

/-- It is all of the call but `set_last_error`, which comes after the section is left. -/
theorem LaunchCall.exec_onStack (p : Process) (c : LaunchCall) :
    ((c.exec p).ret, (c.exec p).out, (c.exec p).proc.callConfigStack)
      = c.onStack p.callConfigStack := by
  cases c with
  | push gridDim blockDim sharedMem stream =>
    cases gridDim with
    | none => rfl
    | some grid =>
      cases blockDim with
      | none => rfl
      | some block =>
        simp only [LaunchCall.exec, hipPushCallConfiguration, LaunchCall.onStack]
        split <;> rfl
  | pop ptrs =>
    simp only [LaunchCall.exec, hipPopCallConfiguration, LaunchCall.onStack]
    split <;> rfl

/-- A push without its dimensions returns before it comes to the lock. -/
def LaunchCall.refused : LaunchCall → Bool
  | .push (some _) (some _) _ _ | .pop _ => false
  | .push _ _ _ _ => true

/-! ## The threads -/

/-- Where a thread is in its call. -/
inductive LockPhase
  | idle
  /-- In front of `if (!call_config_lock_init)`. -/
  | check (c : LaunchCall)
  /-- In front of `InitializeCriticalSection`. -/
  | initSection (c : LaunchCall)
  /-- In front of `call_config_lock_init = TRUE`. -/
  | setInit (c : LaunchCall)
  /-- In front of `EnterCriticalSection`. -/
  | enter (c : LaunchCall)
  /-- In the section. -/
  | read (c : LaunchCall)
  /-- In the section, with the stack as it was read. -/
  | write (c : LaunchCall) (seen : SlotTable CallConfig callConfigStackSize)
  /-- In the section, in front of `LeaveCriticalSection`. -/
  | leave

/-- Whether the thread is in the section. -/
def LockPhase.inside : LockPhase → Bool
  | .read _ | .write _ _ | .leave => true
  | _ => false

/-- Whether the thread is about to initialise the section. -/
def LockPhase.resets : LockPhase → Bool
  | .initSection _ => true
  | _ => false

/-- The call that has not come to its end. -/
def LockPhase.pending : LockPhase → List LaunchCall
  | .idle | .leave => []
  | .check c | .initSection c | .setInit c | .enter c | .read c | .write c _ => [c]

/-- The statics of the pair, and the threads. -/
structure ConfigThreads (T : Type*) where
  callConfigLockInit : Bool
  /-- The owner of `call_config_lock`. -/
  owner : Option T
  stack : SlotTable CallConfig callConfigStackSize
  phase : T → LockPhase
  /-- What the calls return and have written, in the order in which that was settled. -/
  results : List (T × Int32 × PoppedConfig)

variable {T : Type*}

/-- Right after the library is loaded. -/
def ConfigThreads.init (env : Env) : ConfigThreads T :=
  ⟨false, none, (Process.init env).callConfigStack, fun _ => .idle, []⟩

/-- A thread makes a call, or gets on with it. -/
inductive ConfigAct
  | call (c : LaunchCall)
  | next

variable [DecidableEq T]

def ConfigThreads.moved (s : ConfigThreads T) (t : T) (p : LockPhase) : ConfigThreads T :=
  { s with phase := Function.update s.phase t p }

/-- What a call does to the stack is settled. -/
def ConfigThreads.settles (s : ConfigThreads T) (t : T) (c : LaunchCall)
    (seen : SlotTable CallConfig callConfigStackSize) : ConfigThreads T :=
  { s with
    stack := (c.onStack seen).2.2
    results := s.results ++ [(t, (c.onStack seen).1, (c.onStack seen).2.1)] }

def configStep (s : ConfigThreads T) : T × ConfigAct → ConfigThreads T
  | (t, .call c) =>
    match s.phase t with
    | .idle => if c.refused then s.settles t c s.stack else s.moved t (.check c)
    | _ => s
  | (t, .next) =>
    match s.phase t with
    | .idle => s
    | .check c => s.moved t (if s.callConfigLockInit then .enter c else .initSection c)
    -- a new section: whoever was in the old one does not own it
    | .initSection c => { s.moved t (.setInit c) with owner := none }
    | .setInit c => { s.moved t (.enter c) with callConfigLockInit := true }
    | .enter c =>
      match s.owner with
      | none => { s.moved t (.read c) with owner := some t }
      | some _ => s
    | .read c => s.moved t (.write c s.stack)
    | .write c seen => (s.settles t c seen).moved t .leave
    | .leave => { s.moved t .idle with owner := none }

/-- The thread that is in the section owns it. -/
def Held (s : ConfigThreads T) : Prop := ∀ t, (s.phase t).inside = true → s.owner = some t

/-- The step does not initialise the section while a thread is in it. -/
def NotReset (s : ConfigThreads T) : T × ConfigAct → Prop
  | (t, .next) => (s.phase t).resets = true → ∀ u, (s.phase u).inside = false
  | (_, .call _) => True

/-- The first call is through, and no other thread took itself for the first. -/
def Settled (s : ConfigThreads T) : Prop :=
  s.callConfigLockInit = true ∧ ∀ t, (s.phase t).resets = false

/-! ## Who is in the section -/

@[simp] theorem phase_moved (s : ConfigThreads T) (t : T) (p : LockPhase) :
    (s.moved t p).phase = Function.update s.phase t p := rfl

omit [DecidableEq T] in
@[simp] theorem phase_settles (s : ConfigThreads T) (t : T) (c : LaunchCall)
    (seen : SlotTable CallConfig callConfigStackSize) : (s.settles t c seen).phase = s.phase := rfl

/-- One thread moves, and stays on its side of the lock. -/
theorem Held.moved {s s' : ConfigThreads T} {t : T} {p : LockPhase} (h : Held s)
    (hphase : s'.phase = Function.update s.phase t p) (hside : p.inside = (s.phase t).inside)
    (howner : s'.owner = s.owner) : Held s' := by
  intro u hu
  rw [howner]
  apply h
  rw [hphase] at hu
  by_cases hut : u = t
  · subst hut
    rw [Function.update_self, hside] at hu
    exact hu
  · rw [Function.update_of_ne hut] at hu
    exact hu

omit [DecidableEq T] in
/-- Nobody is in a section that is free. -/
theorem Held.empty {s : ConfigThreads T} (h : Held s) (hfree : s.owner = none) (u : T) :
    (s.phase u).inside = false := by
  cases hu : (s.phase u).inside with
  | false => rfl
  | true =>
    have howner := h u hu
    rw [hfree] at howner
    cases howner

omit [DecidableEq T] in
/-- The threads in the section are one thread. -/
theorem Held.eq {s : ConfigThreads T} (h : Held s) {t u : T} (ht : (s.phase t).inside = true)
    (hu : (s.phase u).inside = true) : u = t := by
  have howner := h t ht
  rw [h u hu] at howner
  exact Option.some.inj howner

/-- A thread comes into a free section, or the one that is in it goes. -/
theorem held_step {s : ConfigThreads T} {a : T × ConfigAct} (h : Held s) (hreset : NotReset s a) :
    Held (configStep s a) := by
  obtain ⟨t, act⟩ := a
  cases act with
  | call c =>
    cases hp : s.phase t with
    | idle =>
      simp only [configStep, hp]
      split
      · exact h
      · exact h.moved (p := .check c) rfl (by rw [hp]; rfl) rfl
    | _ => simpa only [configStep, hp] using h
  | next =>
    cases hp : s.phase t with
    | idle => simpa only [configStep, hp] using h
    | check c =>
      simp only [configStep, hp]
      refine h.moved rfl ?_ rfl
      rw [hp]
      split <;> rfl
    | initSection c =>
      have hempty := hreset (by rw [hp]; rfl)
      simp only [configStep, hp]
      -- nobody is in it, so nobody loses it
      intro u hu
      have hphase : (Function.update s.phase t (.setInit c) u).inside = true := hu
      by_cases hut : u = t
      · subst hut
        rw [Function.update_self] at hphase
        cases hphase
      · rw [Function.update_of_ne hut, hempty u] at hphase
        cases hphase
    | setInit c =>
      simp only [configStep, hp]
      exact h.moved (p := .enter c) rfl (by rw [hp]; rfl) rfl
    | enter c =>
      cases hfree : s.owner with
      | some owner => simpa only [configStep, hp, hfree] using h
      | none =>
        simp only [configStep, hp, hfree]
        -- the section is free, so the one that comes in is alone
        intro u hu
        have hphase : (Function.update s.phase t (.read c) u).inside = true := hu
        by_cases hut : u = t
        · rw [hut]
        · rw [Function.update_of_ne hut, h.empty hfree u] at hphase
          cases hphase
    | read c =>
      simp only [configStep, hp]
      exact h.moved (p := .write c s.stack) rfl (by rw [hp]; rfl) rfl
    | write c seen =>
      simp only [configStep, hp]
      exact h.moved (p := .leave) rfl (by rw [hp]; rfl) rfl
    | leave =>
      simp only [configStep, hp]
      intro u hu
      have hphase : (Function.update s.phase t .idle u).inside = true := hu
      by_cases hut : u = t
      · subst hut
        rw [Function.update_self] at hphase
        cases hphase
      · -- the one that goes was the only one
        rw [Function.update_of_ne hut] at hphase
        exact absurd (h.eq (by rw [hp]; rfl) hphase) hut

/-- A thread that is in the section when it is initialised does not own it any more. -/
theorem not_held_of_reset {s : ConfigThreads T} {a : T × ConfigAct} (hreset : ¬ NotReset s a) :
    ¬ Held (configStep s a) := by
  obtain ⟨t, act⟩ := a
  cases act with
  | call c => exact absurd trivial hreset
  | next =>
    simp only [NotReset, Classical.not_imp, not_forall, Bool.not_eq_false] at hreset
    obtain ⟨hresets, u, hu⟩ := hreset
    cases hp : s.phase t with
    | initSection c =>
      -- `u` is still inside, and the fresh section has no owner
      have hut : u ≠ t := by
        intro h
        rw [h, hp] at hu
        cases hu
      intro h
      have howner := h u
      simp only [configStep, hp, phase_moved, Function.update_of_ne hut] at howner
      exact absurd (howner hu) (by simp)
    | _ =>
      rw [hp] at hresets
      cases hresets

/-! ## When the first call is through -/

/-- Nobody takes itself for the first any more. -/
theorem Settled.step {s : ConfigThreads T} (h : Settled s) (a : T × ConfigAct) :
    Settled (configStep s a) := by
  obtain ⟨hinit, hphase⟩ := h
  have hmoved : ∀ t p, p.resets = false → ∀ u, (Function.update s.phase t p u).resets = false := by
    intro t p hp u
    by_cases hut : u = t
    · subst hut
      rw [Function.update_self]
      exact hp
    · rw [Function.update_of_ne hut]
      exact hphase u
  obtain ⟨t, act⟩ := a
  cases act with
  | call c =>
    cases hp : s.phase t with
    | idle =>
      simp only [configStep, hp]
      split
      · exact ⟨hinit, hphase⟩
      · exact ⟨hinit, hmoved t (.check c) rfl⟩
    | _ => simpa only [configStep, hp] using ⟨hinit, hphase⟩
  | next =>
    cases hp : s.phase t with
    | idle => simpa only [configStep, hp] using ⟨hinit, hphase⟩
    | check c =>
      -- the flag is set, so it goes past the initialisation
      simp only [configStep, hp, hinit, if_true]
      exact ⟨hinit, hmoved t (.enter c) rfl⟩
    | initSection c =>
      have hnone := hphase t
      rw [hp] at hnone
      cases hnone
    | setInit c =>
      simp only [configStep, hp]
      exact ⟨rfl, hmoved t (.enter c) rfl⟩
    | enter c =>
      cases hfree : s.owner with
      | some owner => simpa only [configStep, hp, hfree] using ⟨hinit, hphase⟩
      | none =>
        simp only [configStep, hp, hfree]
        exact ⟨hinit, hmoved t (.read c) rfl⟩
    | read c =>
      simp only [configStep, hp]
      exact ⟨hinit, hmoved t (.write c s.stack) rfl⟩
    | write c seen =>
      simp only [configStep, hp]
      exact ⟨hinit, hmoved t .leave rfl⟩
    | leave =>
      simp only [configStep, hp]
      exact ⟨hinit, hmoved t .idle rfl⟩

omit [DecidableEq T] in
theorem Settled.notReset {s : ConfigThreads T} (h : Settled s) (a : T × ConfigAct) :
    NotReset s a := by
  obtain ⟨t, act⟩ := a
  cases act with
  | call c => trivial
  | next =>
    intro hreset
    rw [h.2 t] at hreset
    cases hreset

/-- **When the section keeps the threads apart.** From the load of the library on, the thread that
is in the section owns it, and so is the only one, exactly as long as no thread initialises the
section while another is in it. Once a first call is through, and no other thread is on its way to
initialise the section again, that happens no more, whatever the threads do. -/
theorem held_iff_notReset (env : Env) (acts : List (T × ConfigAct)) :
    (Always configStep Held (ConfigThreads.init env) acts ↔
      Along configStep NotReset (ConfigThreads.init env) acts) ∧
    (Settled (run configStep (ConfigThreads.init env) acts) →
      ∀ more, Along configStep NotReset (run configStep (ConfigThreads.init env) acts) more) := by
  constructor
  · have hheld : Held (ConfigThreads.init env : ConfigThreads T) := nofun
    have hany : Along configStep (fun _ _ => True) (ConfigThreads.init env) acts :=
      along_of_forall (fun _ _ => trivial) acts
    exact always_iff_along (I := Held) (fun _ h => h) (fun _ _ h _ hP => held_step h hP)
      (fun _ _ _ _ hP => not_held_of_reset hP) hheld hany
  · intro hsettled more
    have hany : Along configStep (fun _ _ => True) (run configStep (ConfigThreads.init env) acts)
        more := along_of_forall (fun _ _ => trivial) more
    exact along_of_inv (I := Settled) (fun _ a h _ => h.step a) (fun _ a h _ => h.notReset a)
      hsettled hany

/-! ## Whole calls -/

/-- What is settled of the pair: the process, and what the calls returned and wrote. -/
abbrev SettledCalls (T : Type*) := Process × List (T × Int32 × PoppedConfig)

/-- A whole call. -/
def LaunchCall.whole (s : SettledCalls T) : T × LaunchCall → SettledCalls T
  | (t, c) => ((c.exec s.1).proc, s.2 ++ [(t, (c.exec s.1).ret, (c.exec s.1).out)])

/-- A whole call, on the stack alone. -/
def LaunchCall.wholeOnStack
    (s : SlotTable CallConfig callConfigStackSize × List (T × Int32 × PoppedConfig)) :
    T × LaunchCall → SlotTable CallConfig callConfigStackSize × List (T × Int32 × PoppedConfig)
  | (t, c) => ((c.onStack s.1).2.2, s.2 ++ [(t, (c.onStack s.1).1, (c.onStack s.1).2.1)])

omit [DecidableEq T] in
/-- The calls come to the stack through nothing else of the process. -/
theorem run_wholeOnStack (s : SettledCalls T) (calls : List (T × LaunchCall)) :
    run LaunchCall.wholeOnStack (s.1.callConfigStack, s.2) calls
      = ((run LaunchCall.whole s calls).1.callConfigStack, (run LaunchCall.whole s calls).2) := by
  induction calls generalizing s with
  | nil => rfl
  | cons a calls ih =>
    obtain ⟨t, c⟩ := a
    rw [run_cons, run_cons, ← ih]
    show run _ ((c.onStack _).2.2, _ ++ [(t, (c.onStack _).1, (c.onStack _).2.1)]) calls = _
    rw [← LaunchCall.exec_onStack]
    rfl

/-- The call a step settles. -/
def settledCall (s : ConfigThreads T) : T × ConfigAct → List (T × LaunchCall)
  | (t, .call c) =>
    match s.phase t with
    | .idle => if c.refused then [(t, c)] else []
    | _ => []
  | (t, .next) =>
    match s.phase t with
    | .write c _ => [(t, c)]
    | _ => []

/-- The call of a thread that a step begins. -/
def begunCall (t : T) (s : ConfigThreads T) : T × ConfigAct → List LaunchCall
  | (u, .call c) =>
    match s.phase u with
    | .idle => if u = t then [c] else []
    | _ => []
  | (_, .next) => []

/-- The calls of a thread among those of all. -/
def callsBy (t : T) (calls : List (T × LaunchCall)) : List LaunchCall :=
  calls.filterMap fun a => if a.1 = t then some a.2 else none

/-- What a thread has read is still on the stack. -/
def ReadCurrent (s : ConfigThreads T) : Prop :=
  ∀ t c seen, s.phase t = .write c seen → seen = s.stack

theorem onStack_refused {c : LaunchCall} (h : c.refused = true)
    (stack : SlotTable CallConfig callConfigStackSize) : (c.onStack stack).2.2 = stack := by
  cases c with
  | push gridDim blockDim sharedMem stream =>
    cases gridDim with
    | none => rfl
    | some grid =>
      cases blockDim with
      | none => rfl
      | some block => cases h
  | pop ptrs => cases h

/-- One thread moves, and the stack stays. -/
theorem ReadCurrent.moved {s s' : ConfigThreads T} {t : T} {p : LockPhase} (h : ReadCurrent s)
    (hphase : s'.phase = Function.update s.phase t p) (hstack : s'.stack = s.stack)
    (hp : ∀ c seen, p = .write c seen → seen = s.stack) : ReadCurrent s' := by
  intro u c seen hu
  rw [hstack]
  rw [hphase] at hu
  by_cases hut : u = t
  · subst hut
    rw [Function.update_self] at hu
    exact hp c seen hu
  · rw [Function.update_of_ne hut] at hu
    exact h u c seen hu

/-- **One step** keeps what the threads have read, and does to the stack what its call does. -/
theorem configStep_effect {s : ConfigThreads T} (a : T × ConfigAct) (hheld : Held s)
    (hread : ReadCurrent s) :
    ReadCurrent (configStep s a) ∧
      ((configStep s a).stack, (configStep s a).results)
        = run LaunchCall.wholeOnStack (s.stack, s.results) (settledCall s a) := by
  obtain ⟨t, act⟩ := a
  cases act with
  | call c =>
    cases hp : s.phase t with
    | idle =>
      simp only [configStep, settledCall, hp]
      split
      case isTrue hrefused =>
        -- a refused call comes to no lock, and leaves the stack as it is
        refine ⟨?_, rfl⟩
        intro u c' seen hu
        show seen = (c.onStack s.stack).2.2
        rw [onStack_refused hrefused]
        exact hread u c' seen hu
      case isFalse => exact ⟨hread.moved (p := .check c) rfl rfl nofun, rfl⟩
    | _ => simpa [configStep, settledCall, hp] using hread
  | next =>
    cases hp : s.phase t with
    | idle => simpa [configStep, settledCall, hp] using hread
    | check c =>
      simp only [configStep, settledCall, hp]
      refine ⟨hread.moved rfl rfl ?_, rfl⟩
      split <;> exact nofun
    | initSection c =>
      simp only [configStep, settledCall, hp]
      exact ⟨hread.moved (p := .setInit c) rfl rfl nofun, rfl⟩
    | setInit c =>
      simp only [configStep, settledCall, hp]
      exact ⟨hread.moved (p := .enter c) rfl rfl nofun, rfl⟩
    | enter c =>
      cases hfree : s.owner with
      | some owner => simpa [configStep, settledCall, hp, hfree] using hread
      | none =>
        simp only [configStep, settledCall, hp, hfree]
        exact ⟨hread.moved (p := .read c) rfl rfl nofun, rfl⟩
    | read c =>
      simp only [configStep, settledCall, hp]
      refine ⟨hread.moved (p := .write c s.stack) rfl rfl ?_, rfl⟩
      intro c' seen heq
      exact (LockPhase.write.inj heq).2.symm
    | write c seen =>
      -- what the call was computed from is the stack as it stands: the call is whole
      have hseen := hread t c seen hp
      subst hseen
      simp only [configStep, settledCall, hp]
      refine ⟨?_, rfl⟩
      intro u c' seen' hu
      have hphase : Function.update s.phase t .leave u = .write c' seen' := hu
      by_cases hut : u = t
      · subst hut
        rw [Function.update_self] at hphase
        cases hphase
      · -- nobody else is in the section with a stack that was read before
        rw [Function.update_of_ne hut] at hphase
        exact absurd (hheld.eq (by rw [hp]; rfl) (by rw [hphase]; rfl)) hut
    | leave =>
      simp only [configStep, settledCall, hp]
      exact ⟨hread.moved (p := .idle) rfl rfl nofun, rfl⟩

/-- **One step**, for one thread: the call it is in, or begins, is settled, or it is in it still. -/
theorem pendingCall_step (t : T) (s : ConfigThreads T) (a : T × ConfigAct) :
    (s.phase t).pending ++ begunCall t s a
      = callsBy t (settledCall s a) ++ ((configStep s a).phase t).pending := by
  obtain ⟨u, act⟩ := a
  by_cases hut : t = u
  case neg =>
    -- a step of another thread is none of this one's
    have hother : ∀ p, Function.update s.phase u p t = s.phase t :=
      fun p => Function.update_of_ne hut p s.phase
    have hne : ¬ u = t := fun h => hut h.symm
    cases act with
    | call c =>
      cases hp : s.phase u with
      | idle =>
        simp only [configStep, settledCall, begunCall, hp, if_neg hne]
        split
        · simp [callsBy, hne]
        · simp [callsBy, hother]
      | _ => simp [configStep, settledCall, begunCall, callsBy, hp]
    | next =>
      cases hp : s.phase u with
      | idle => simp [configStep, settledCall, begunCall, callsBy, hp]
      | enter c =>
        cases hfree : s.owner with
        | none => simp [configStep, settledCall, begunCall, callsBy, hp, hfree, hother]
        | some owner => simp [configStep, settledCall, begunCall, callsBy, hp, hfree]
      | write c seen => simp [configStep, settledCall, begunCall, callsBy, hp, hother, hne]
      | _ => simp [configStep, settledCall, begunCall, callsBy, hp, hother]
  case pos =>
    subst hut
    cases act with
    | call c =>
      cases hp : s.phase t with
      | idle =>
        simp only [configStep, settledCall, begunCall, hp, if_true]
        split
        · simp [callsBy, LockPhase.pending, hp]
        · simp [callsBy, LockPhase.pending]
      | _ => simp [configStep, settledCall, begunCall, callsBy, hp]
    | next =>
      cases hp : s.phase t with
      | idle => simp [configStep, settledCall, begunCall, callsBy, hp]
      | check c =>
        simp only [configStep, settledCall, begunCall, hp, phase_moved, Function.update_self]
        split <;> simp [callsBy, LockPhase.pending]
      | enter c =>
        cases hfree : s.owner with
        | none => simp [configStep, settledCall, begunCall, callsBy, hp, hfree, LockPhase.pending]
        | some owner => simp [configStep, settledCall, begunCall, callsBy, hp, hfree]
      | _ => simp [configStep, settledCall, begunCall, callsBy, hp, LockPhase.pending]

/-- **Under the section the calls are whole.** In a run in which no thread initialises the section
while another is in it, the stack, the codes the calls return and what they write through their
pointers are those of whole calls, one after the other. The last error is left out: `set_last_error`
is outside the section, so two threads may store their codes in the other order. For each thread
these are the calls it made, in its order, less the one whose end is still to come; as that holds
after every step, a call comes between its beginning and its end. -/
theorem pushPop_linearize (env : Env) (acts : List (T × ConfigAct))
    (hreset : Along configStep NotReset (ConfigThreads.init env) acts) :
    let start : ConfigThreads T := ConfigThreads.init env
    let calls := history configStep settledCall start acts
    let s := run configStep start acts
    let whole := run LaunchCall.whole (Process.init env, []) calls
    (s.stack, s.results) = (whole.1.callConfigStack, whole.2) ∧
      ∀ t, history configStep (begunCall t) start acts
        = callsBy t calls ++ (s.phase t).pending := by
  intro start calls s whole
  have hheld : Held start := nofun
  have hread : ReadCurrent start := nofun
  have hstep : ∀ (s : ConfigThreads T) (a : T × ConfigAct), Held s ∧ ReadCurrent s →
      NotReset s a →
      (Held (configStep s a) ∧ ReadCurrent (configStep s a)) ∧
        ((configStep s a).stack, (configStep s a).results)
          = run LaunchCall.wholeOnStack (s.stack, s.results) (settledCall s a) := by
    intro s a h hnotReset
    obtain ⟨hcurrent, hseen⟩ := configStep_effect a h.1 h.2
    exact ⟨⟨held_step h.1 hnotReset, hcurrent⟩, hseen⟩
  refine ⟨?_, fun t => ?_⟩
  · have hwhole : (s.stack, s.results)
        = run LaunchCall.wholeOnStack (start.stack, start.results) calls :=
      linearize (fun s => (s.stack, s.results)) hstep ⟨hheld, hread⟩ hreset
    rw [hwhole]
    exact run_wholeOnStack (Process.init env, []) calls
  · have hbalance := history_balance (pendingCall_step t) start acts
    rw [callsBy, history_filterMap]
    exact hbalance

/-- A thread gets on with its call, `n` steps. -/
def nextSteps (t : T) (n : Nat) : List (T × ConfigAct) := List.replicate n (t, .next)

instance (s : ConfigThreads Bool) : ∀ a, Decidable (NotReset s a)
  | (t, .next) =>
    inferInstanceAs (Decidable ((s.phase t).resets = true → ∀ u, (s.phase u).inside = false))
  | (_, .call _) => .isTrue trivial

theorem pushPop_linearize_contended :
    let env : Env := ⟨none, none⟩
    let push : LaunchCall := .push (some ⟨1, 1, 1⟩) (some ⟨64, 1, 1⟩) 0 0
    let pop : LaunchCall := .pop ⟨true, true, true, true⟩
    -- the pop comes to the lock while the push is in the section, and waits
    let acts := (true, .call push) :: nextSteps true 5 ++ (false, .call pop) :: nextSteps false 3 ++
      nextSteps true 2 ++ nextSteps false 4
    Along configStep NotReset (ConfigThreads.init env) acts ∧
      (run configStep (ConfigThreads.init env) acts).results
        = (run LaunchCall.whole (Process.init env, []) [(true, push), (false, pop)]).2 := by
  intro env push pop acts
  have hreset : Along configStep NotReset (ConfigThreads.init env) acts := by decide +kernel
  have hcalls : history configStep settledCall (ConfigThreads.init env) acts
      = [(true, push), (false, pop)] := by decide +kernel
  obtain ⟨hwhole, -⟩ := pushPop_linearize env acts hreset
  rw [hcalls] at hwhole
  exact ⟨hreset, (Prod.mk.inj hwhole).2⟩

/-- Two threads that both find the flag clear: both pushes succeed, and one is lost. -/
example :
    let push : LaunchCall := .push (some ⟨1, 1, 1⟩) (some ⟨64, 1, 1⟩) 0 0
    let acts := (true, .call push) :: nextSteps true 1 ++ (false, .call push) ::
      nextSteps false 1 ++ nextSteps true 4 ++ nextSteps false 4 ++ nextSteps true 2 ++
      nextSteps false 2
    let s := run configStep (ConfigThreads.init ⟨none, none⟩) acts
    s.results.map (·.2.1) = [hipSuccess, hipSuccess] ∧ s.stack.count = 1 := by
  decide +kernel

end HipBridge.Unixlib
