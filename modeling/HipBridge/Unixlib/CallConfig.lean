import HipBridge.Lib.Run
import HipBridge.Stub.CallConfig
import Mathlib.Data.List.Nodup

/-!
# Whose configuration a pop returns

Threads `T` make **`LaunchCall`**s in any order; each call is one step, as it runs under
`call_config_lock`. A run is the list of calls with the thread that made each.

* **`Isolated`** — every pop writes what the popping thread's own most recent push that has
  not been popped yet configured.
* **`Parity`** — every call shows what the same call shows in `hip-stub`, whose stack is
  thread-local. Under well-nested use the two mean the same (`isolated_iff_parity`).
* **`LastPushOwn`** — every pop follows a push of its own thread, once pushes that have been
  popped are left out of the interleaving.
* **`isolated_of_lastPushOwn`** — the single stack isolates the threads of such runs, and of
  no others in which the pushes can be told apart.
-/

namespace HipBridge.Unixlib

open Lib

/-- A call of the pair; what is passed to push is `none` for a null pointer. -/
inductive LaunchCall
  | push (gridDim blockDim : Option Dim3) (sharedMem : UInt64) (stream : Ptr)
  | pop (ptrs : PopPointers)
deriving DecidableEq

/-- The call in `pe_shim.c`. -/
def LaunchCall.exec (p : Process) : LaunchCall → PeResult PoppedConfig
  | .push gridDim blockDim sharedMem stream =>
    let r := hipPushCallConfiguration p gridDim blockDim sharedMem stream
    { ret := r.ret, out := .none, proc := r.proc }
  | .pop ptrs => hipPopCallConfiguration p ptrs

def LaunchCall.pushed : LaunchCall → Option CallConfig
  | .push (some grid) (some block) sharedMem stream => some ⟨grid, block, sharedMem, stream⟩
  | .push _ _ _ _ => none
  | .pop _ => none

variable {T : Type*}

/-! ## Runs of several threads -/

def processAfter (env : Env) (calls : List (T × LaunchCall)) : Process :=
  run (fun p a => (a.2.exec p).proc) (Process.init env) calls

/-- What a call does to the pushes that have not been popped yet, most recent first: a push
adds one under its tag, a pop takes the most recent one. -/
def nextUnpopped {τ : Type*} (pending : List (τ × CallConfig)) :
    τ × LaunchCall → List (τ × CallConfig)
  | (t, .push (some grid) (some block) sharedMem stream) =>
    (t, ⟨grid, block, sharedMem, stream⟩) :: pending
  | (_, .push _ _ _ _) => pending
  | (_, .pop _) => pending.tail

/-- The pushes of all threads that have not been popped yet. -/
def unpopped {τ : Type*} (calls : List (τ × LaunchCall)) : List (τ × CallConfig) :=
  run nextUnpopped [] calls

def AllSucceed (env : Env) : List (T × LaunchCall) → Prop :=
  AtEach fun pre a => (a.2.exec (processAfter env pre)).ret = hipSuccess

/-- At every pop, the most recent push of any thread that has not been popped yet is one of
the popping thread. -/
def LastPushOwn : List (T × LaunchCall) → Prop :=
  AtEach fun pre a => ∀ ptrs, a.2 = .pop ptrs →
    (unpopped pre).head?.map Prod.fst = some a.1

/-- No two pushes carry the same configuration, and every pop asks for all of it. -/
def Distinguishable (calls : List (T × LaunchCall)) : Prop :=
  (calls.filterMap (·.2.pushed)).Nodup ∧
    ∀ a ∈ calls, ∀ ptrs, a.2 = .pop ptrs → ptrs = ⟨true, true, true, true⟩

/-! ## The shared stack -/

/-- Everything a successful call can do: append a configuration to the stack, or take the
last one off it and write it. -/
theorem LaunchCall.exec_success {p : Process} {c : LaunchCall}
    (h : (c.exec p).ret = hipSuccess) :
    (∃ grid block sharedMem stream, c = .push (some grid) (some block) sharedMem stream ∧
      (c.exec p).out = .none ∧
      (c.exec p).proc.callConfigStack.live
        = p.callConfigStack.live ++ [⟨grid, block, sharedMem, stream⟩]) ∨
    (∃ ptrs cfg, c = .pop ptrs ∧ (c.exec p).out = ptrs.write cfg ∧
      p.callConfigStack.live = (c.exec p).proc.callConfigStack.live ++ [cfg]) := by
  have hreject : hipErrorNotSupported ≠ hipSuccess := by decide
  cases c with
  | push gridDim blockDim sharedMem stream =>
    -- a null pointer and a full stack are both rejected, so neither is a success
    refine Or.inl ?_
    cases gridDim with
    | none => exact absurd h hreject
    | some grid =>
      cases blockDim with
      | none => exact absurd h hreject
      | some block =>
        refine ⟨grid, block, sharedMem, stream, rfl, rfl, ?_⟩
        simp only [LaunchCall.exec, hipPushCallConfiguration] at h ⊢
        split at h
        case isTrue hfull => exact absurd h hreject
        case isFalse hroom => simp [hroom]
  | pop ptrs =>
    by_cases hempty : p.callConfigStack.count = 0
    · have hret : ((LaunchCall.pop ptrs).exec p).ret = hipErrorNotSupported := by
        simp [LaunchCall.exec, hipPopCallConfiguration, hempty, reject]
      exact absurd (hret.symm.trans h) hreject
    · have hlive := p.callConfigStack.live_eq_dropLast_append (by omega)
      refine Or.inr ⟨ptrs, p.callConfigStack.last (by omega), rfl, ?_, ?_⟩
      · simp only [LaunchCall.exec, hipPopCallConfiguration, dif_neg hempty]
      · simpa only [LaunchCall.exec, hipPopCallConfiguration, dif_neg hempty] using hlive

@[simp] theorem processAfter_concat (env : Env) (calls : List (T × LaunchCall))
    (a : T × LaunchCall) :
    processAfter env (calls ++ [a]) = (a.2.exec (processAfter env calls)).proc := by
  simp [processAfter]

@[simp] theorem unpopped_concat {τ : Type*} (calls : List (τ × LaunchCall))
    (a : τ × LaunchCall) : unpopped (calls ++ [a]) = nextUnpopped (unpopped calls) a := by
  simp [unpopped]

/-- The shared stack holds the pushes of all threads that have not been popped yet.
Induction on the history. -/
theorem live_processAfter {env : Env} {calls : List (T × LaunchCall)}
    (hsucc : AllSucceed env calls) :
    (processAfter env calls).callConfigStack.live
      = ((unpopped calls).map Prod.snd).reverse := by
  induction calls using List.reverseRecOn with
  | nil => rfl
  | append_singleton calls a ih =>
    obtain ⟨hcalls, ha⟩ := atEach_concat.mp hsucc
    have hlive := ih hcalls
    obtain ⟨t, c⟩ := a
    rw [processAfter_concat, unpopped_concat]
    rcases LaunchCall.exec_success ha with
      ⟨grid, block, sharedMem, stream, rfl, -, hpush⟩ | ⟨ptrs, cfg, rfl, -, hpop⟩
    · rw [hpush, hlive]
      simp [nextUnpopped]
    · -- the last live slot is the head of the list, which lists the most recent push first
      have hrev : (unpopped calls).map Prod.snd = cfg ::
          ((LaunchCall.pop ptrs).exec
            (processAfter env calls)).proc.callConfigStack.live.reverse := by
        rw [← List.reverse_reverse ((unpopped calls).map Prod.snd), ← hlive, hpop]
        simp
      simp [nextUnpopped, List.map_tail, hrev]

/-- What a successful pop writes is the top of the shared stack. -/
theorem exec_pop_out {env : Env} {calls : List (T × LaunchCall)} (hsucc : AllSucceed env calls)
    {ptrs : PopPointers}
    (hret : ((LaunchCall.pop ptrs).exec (processAfter env calls)).ret = hipSuccess) :
    ∃ entry, (unpopped calls).head? = some entry ∧
      ((LaunchCall.pop ptrs).exec (processAfter env calls)).out = ptrs.write entry.2 := by
  rcases LaunchCall.exec_success hret with ⟨_, _, _, _, hc, -⟩ | ⟨_, cfg, hc, hout, hlive⟩
  · cases hc
  · cases hc
    rw [live_processAfter hsucc] at hlive
    cases hpending : unpopped calls with
    | nil => simp [hpending] at hlive
    | cons entry rest =>
      refine ⟨entry, rfl, ?_⟩
      rw [hpending, List.map_cons, List.reverse_cons] at hlive
      rw [hout, List.singleton_inj.mp (List.append_inj' hlive rfl).2]

/-- The pushes not popped yet are among those made. -/
theorem unpopped_sublist (calls : List (T × LaunchCall)) :
    ((unpopped calls).map Prod.snd).Sublist (calls.filterMap (·.2.pushed)).reverse := by
  induction calls using List.reverseRecOn with
  | nil => exact List.Sublist.slnil
  | append_singleton calls a ih =>
    obtain ⟨t, c⟩ := a
    rw [unpopped_concat, List.filterMap_append, List.reverse_append]
    cases c with
    | push gridDim blockDim sharedMem stream =>
      cases gridDim <;> cases blockDim <;>
        simpa [nextUnpopped, LaunchCall.pushed] using ih
    | pop ptrs =>
      rw [nextUnpopped, List.map_tail]
      exact (List.tail_sublist _).trans (by simpa [LaunchCall.pushed] using ih)

/-- The pushes on the shared stack can be told apart. -/
theorem owner_unique {calls : List (T × LaunchCall)} (hdist : Distinguishable calls)
    {x y : T × CallConfig} (hx : x ∈ unpopped calls) (hy : y ∈ unpopped calls)
    (hcfg : x.2 = y.2) : x.1 = y.1 := by
  have hnodup : ((unpopped calls).map Prod.snd).Nodup :=
    (unpopped_sublist calls).nodup (List.nodup_reverse.mpr hdist.1)
  exact congrArg Prod.fst (List.inj_on_of_nodup_map hnodup hx hy hcfg)

theorem Distinguishable.of_append {calls more : List (T × LaunchCall)}
    (h : Distinguishable (calls ++ more)) : Distinguishable calls := by
  refine ⟨?_, fun a ha => h.2 a (List.mem_append_left more ha)⟩
  have hall := h.1
  rw [List.filterMap_append] at hall
  exact (List.nodup_append.mp hall).1

/-! ## Each thread's own stack -/

variable [DecidableEq T]

/-- The call in `hip-stub`, made by thread `t`. -/
def LaunchCall.execStub (tls : Stub.CallConfigStacks T) (t : T) :
    LaunchCall → Int32 × PoppedConfig × Stub.CallConfigStacks T
  | .push gridDim blockDim sharedMem stream =>
    let r := Stub.hipPushCallConfiguration tls t gridDim blockDim sharedMem stream
    (r.1, .none, r.2)
  | .pop ptrs => Stub.hipPopCallConfiguration tls t ptrs

/-- The stacks of `hip-stub` after the same calls. -/
def stacksAfter (calls : List (T × LaunchCall)) : Stub.CallConfigStacks T :=
  run (fun tls a => (a.2.execStub tls a.1).2.2) (fun _ => []) calls

def callsOf (t : T) (calls : List (T × LaunchCall)) : List (T × LaunchCall) :=
  calls.filter (·.1 = t)

/-- The configurations thread `t` has pushed and not popped yet, most recent first. -/
def ownUnpopped (t : T) (calls : List (T × LaunchCall)) : List CallConfig :=
  (unpopped (callsOf t calls)).map Prod.snd

/-- Every pop of a thread has a push of that thread to pop. -/
def WellNested : List (T × LaunchCall) → Prop :=
  AtEach fun pre a => ∀ ptrs, a.2 = .pop ptrs → ownUnpopped a.1 pre ≠ []

/-- Every pop writes the configuration of its thread's own most recent push not yet popped. -/
def Isolated (env : Env) : List (T × LaunchCall) → Prop :=
  AtEach fun pre a => ∀ ptrs, a.2 = .pop ptrs → ∃ cfg, (ownUnpopped a.1 pre).head? = some cfg ∧
    (a.2.exec (processAfter env pre)).out = ptrs.write cfg

/-- Every call returns and writes what it does in `hip-stub`. -/
def Parity (env : Env) : List (T × LaunchCall) → Prop :=
  AtEach fun pre a =>
    (a.2.exec (processAfter env pre)).ret = (a.2.execStub (stacksAfter pre) a.1).1 ∧
    (a.2.exec (processAfter env pre)).out = (a.2.execStub (stacksAfter pre) a.1).2.1

@[simp] theorem stacksAfter_concat (calls : List (T × LaunchCall)) (a : T × LaunchCall) :
    stacksAfter (calls ++ [a]) = (a.2.execStub (stacksAfter calls) a.1).2.2 := by
  simp [stacksAfter]

theorem callsOf_concat (t : T) (calls : List (T × LaunchCall)) (a : T × LaunchCall) :
    callsOf t (calls ++ [a]) = callsOf t calls ++ if a.1 = t then [a] else [] := by
  by_cases h : a.1 = t <;> simp [callsOf, h]

/-- Each thread's stack in `hip-stub` holds that thread's own pushes that have not been
popped yet, whatever the other threads do. -/
theorem stacksAfter_eq (calls : List (T × LaunchCall)) (t : T) :
    stacksAfter calls t = ownUnpopped t calls := by
  induction calls using List.reverseRecOn generalizing t with
  | nil => rfl
  | append_singleton calls a ih =>
    obtain ⟨t', c⟩ := a
    rw [stacksAfter_concat, ownUnpopped, callsOf_concat]
    by_cases ht : t' = t
    · -- a call of `t` itself moves both sides by the same step
      subst ht
      have ih' := ih t'
      rw [ownUnpopped] at ih'
      rw [if_pos rfl, unpopped_concat]
      cases c with
      | push gridDim blockDim sharedMem stream =>
        cases gridDim <;> cases blockDim <;>
          simp [LaunchCall.execStub, Stub.hipPushCallConfiguration, nextUnpopped, ih']
      | pop ptrs =>
        rw [nextUnpopped, List.map_tail, ← ih']
        simp only [LaunchCall.execStub, Stub.hipPopCallConfiguration]
        split
        case h_1 cfg rest hstack => simp [hstack]
        case h_2 hstack => simp [hstack]
    · -- a call of another thread is filtered out on one side and updates elsewhere on the other
      have hother : (c.execStub (stacksAfter calls) t').2.2 t = stacksAfter calls t := by
        cases c with
        | push gridDim blockDim sharedMem stream =>
          cases gridDim <;> cases blockDim <;>
            simp [LaunchCall.execStub, Stub.hipPushCallConfiguration, Ne.symm ht]
        | pop ptrs =>
          simp only [LaunchCall.execStub, Stub.hipPopCallConfiguration]
          split <;> simp [Ne.symm ht]
      rw [hother, ih t, if_neg ht, List.append_nil, ownUnpopped]

/-- As long as every pop follows a push of its own thread, a thread's pushes lie on the
shared stack in the order of its own stack. -/
theorem unpopped_callsOf {calls : List (T × LaunchCall)} (hown : LastPushOwn calls) (t : T) :
    unpopped (callsOf t calls) = (unpopped calls).filter (·.1 = t) := by
  induction calls using List.reverseRecOn with
  | nil => rfl
  | append_singleton calls a ih =>
    obtain ⟨hcalls, ha⟩ := atEach_concat.mp hown
    obtain ⟨t', c⟩ := a
    have ih := ih hcalls
    rw [callsOf_concat, unpopped_concat]
    cases c with
    | push gridDim blockDim sharedMem stream =>
      by_cases ht : t' = t <;> cases gridDim <;> cases blockDim <;>
        simp [nextUnpopped, ht, ih]
    | pop ptrs =>
      -- the entry taken off the shared stack is one of the popping thread
      obtain ⟨⟨owner, cfg⟩, hhead, howner⟩ := Option.map_eq_some_iff.mp (ha ptrs rfl)
      obtain ⟨rest, hpending⟩ := List.head?_eq_some_iff.mp hhead
      obtain rfl : owner = t' := howner
      by_cases ht : owner = t <;> simp [nextUnpopped, ht, ih, hpending]

/-! ## Isolation -/

/-- For well-nested threads, isolation is agreement with the thread-local stacks of
`hip-stub`. -/
theorem isolated_iff_parity {env : Env} {calls : List (T × LaunchCall)}
    (hnested : WellNested calls) (hsucc : AllSucceed env calls) :
    Isolated env calls ↔ Parity env calls := by
  suffices hcall : ∀ pre a post, calls = pre ++ a :: post →
      ((∀ ptrs, a.2 = .pop ptrs → ∃ cfg, (ownUnpopped a.1 pre).head? = some cfg ∧
        (a.2.exec (processAfter env pre)).out = ptrs.write cfg) ↔
      (a.2.exec (processAfter env pre)).ret = (a.2.execStub (stacksAfter pre) a.1).1 ∧
      (a.2.exec (processAfter env pre)).out = (a.2.execStub (stacksAfter pre) a.1).2.1) by
    exact ⟨fun h pre a post hsplit => (hcall pre a post hsplit).mp (h pre a post hsplit),
      fun h pre a post hsplit => (hcall pre a post hsplit).mpr (h pre a post hsplit)⟩
  intro pre a post hsplit
  have hret := hsucc pre a post hsplit
  have hne := hnested pre a post hsplit
  obtain ⟨t, c⟩ := a
  rcases LaunchCall.exec_success hret with
    ⟨grid, block, sharedMem, stream, rfl, hout, -⟩ | ⟨ptrs, cfg, rfl, hout, -⟩
  · simp [hret, hout, LaunchCall.execStub, Stub.hipPushCallConfiguration]
  · obtain ⟨top, rest, hown⟩ := List.exists_cons_of_ne_nil (hne ptrs rfl)
    have hstub : stacksAfter pre t = top :: rest := (stacksAfter_eq pre t).trans hown
    simp only at hret hown ⊢
    simp [hret, hown, LaunchCall.execStub, Stub.hipPopCallConfiguration, hstub]

/-- Isolation forces every pop to follow a push of its own thread when the pushes can be told
apart: the thread's own configuration lies on the shared stack too, and only once. -/
theorem lastPushOwn_of_isolated {env : Env} {calls : List (T × LaunchCall)}
    (hsucc : AllSucceed env calls) (hdist : Distinguishable calls)
    (hiso : Isolated env calls) : LastPushOwn calls := by
  induction calls using List.reverseRecOn with
  | nil => exact fun pre a post hsplit => by simp at hsplit
  | append_singleton calls a ih =>
    obtain ⟨hsuccs, hret⟩ := atEach_concat.mp hsucc
    obtain ⟨hisos, hpop⟩ := atEach_concat.mp hiso
    have hown := ih hsuccs hdist.of_append hisos
    refine atEach_concat.mpr ⟨hown, fun ptrs hc => ?_⟩
    obtain ⟨t, c⟩ := a
    subst hc
    obtain ⟨top, hhead, hout⟩ := exec_pop_out hsuccs hret
    obtain ⟨cfg, hcfg, hout'⟩ := hpop ptrs rfl
    -- all four outputs are written, so equal outputs mean equal configurations
    have hsame : top.2 = cfg := by
      have hall : ptrs = ⟨true, true, true, true⟩ := hdist.2 (t, .pop ptrs) (by simp) ptrs rfl
      have hwrite : ptrs.write top.2 = ptrs.write cfg := hout.symm.trans hout'
      obtain ⟨hgrid, hblock, hmem, hstream⟩ := by
        simpa [hall, PopPointers.write, writeIf] using hwrite
      exact CallConfig.ext hgrid hblock hmem hstream
    -- `cfg` is on the shared stack under the popping thread, and the top is the same entry
    rw [ownUnpopped, unpopped_callsOf hown, List.head?_map] at hcfg
    obtain ⟨own, hownHead, rfl⟩ := Option.map_eq_some_iff.mp hcfg
    obtain ⟨hmem, ht⟩ := List.mem_filter.mp (List.mem_of_head? hownHead)
    have hfst := owner_unique hdist.of_append (List.mem_of_head? hhead) hmem hsame
    rw [hhead, Option.map_some, hfst, of_decide_eq_true ht]

/-- **When a pop returns its own thread's configuration.** In every interleaving of
well-nested threads whose calls all succeed, isolation means agreement with the thread-local
stacks of `hip-stub`; it holds if at every pop the most recent push not popped yet is one of
the popping thread, and only then if the pushes can be told apart. -/
theorem isolated_of_lastPushOwn (env : Env) (calls : List (T × LaunchCall))
    (hnested : WellNested calls) (hsucc : AllSucceed env calls) :
    (Isolated env calls ↔ Parity env calls) ∧
    (LastPushOwn calls → Isolated env calls) ∧
    (Distinguishable calls → Isolated env calls → LastPushOwn calls) := by
  refine ⟨isolated_iff_parity hnested hsucc, fun hown pre a post hsplit ptrs hc => ?_,
    lastPushOwn_of_isolated hsucc⟩
  obtain ⟨t, c⟩ := a
  subst hc
  have hret := hsucc pre _ post hsplit
  rw [hsplit] at hsucc hown
  obtain ⟨top, hhead, hout⟩ := exec_pop_out hsucc.of_append hret
  obtain ⟨rest, hpending⟩ := List.head?_eq_some_iff.mp hhead
  have howner : top.1 = t := by
    simpa [hhead] using hown pre _ post rfl ptrs rfl
  -- the top of the shared stack is then also the head of the thread's own pushes
  refine ⟨top.2, ?_, hout⟩
  rw [ownUnpopped, unpopped_callsOf hown.of_append, hpending]
  simp [howner]

/-- A launch of thread `true` between the push and the pop of thread `false`. -/
def nestedLaunches : List (Bool × LaunchCall) :=
  [ (false, .push (some ⟨1, 1, 1⟩) (some ⟨64, 1, 1⟩) 0 0)
  , (true, .push (some ⟨2, 1, 1⟩) (some ⟨32, 1, 1⟩) 0 8)
  , (true, .pop ⟨true, true, true, true⟩)
  , (false, .pop ⟨true, true, true, true⟩) ]

theorem nestedLaunches_isolated :
    Isolated ⟨none, none⟩ nestedLaunches ∧ Parity ⟨none, none⟩ nestedLaunches := by
  have hnested : WellNested nestedLaunches := by
    rw [WellNested, atEach_iff_along]
    simp [nestedLaunches, Along, ownUnpopped, unpopped, callsOf, nextUnpopped]
  have hsucc : AllSucceed ⟨none, none⟩ nestedLaunches := by
    rw [AllSucceed, atEach_iff_along]
    exact ⟨rfl, rfl, rfl, rfl, trivial⟩
  have hown : LastPushOwn nestedLaunches := by
    rw [LastPushOwn, atEach_iff_along]
    simp [nestedLaunches, Along, unpopped, nextUnpopped]
  obtain ⟨hparity, hisolated, -⟩ :=
    isolated_of_lastPushOwn ⟨none, none⟩ nestedLaunches hnested hsucc
  exact ⟨hisolated hown, hparity.mp (hisolated hown)⟩

/-- Two threads whose launches overlap without being nested. -/
def overlappingLaunches : List (Bool × LaunchCall) :=
  [ (false, .push (some ⟨1, 1, 1⟩) (some ⟨64, 1, 1⟩) 0 0)
  , (true, .push (some ⟨2, 1, 1⟩) (some ⟨32, 1, 1⟩) 0 8)
  , (false, .pop ⟨true, true, true, true⟩)
  , (true, .pop ⟨true, true, true, true⟩) ]

/-- The first pop of `overlappingLaunches`, made by thread `false`, returns the configuration
thread `true` pushed, although both threads are well nested and every call succeeds. -/
theorem overlappingLaunches_not_isolated :
    ¬ ∀ calls : List (Bool × LaunchCall), WellNested calls → AllSucceed ⟨none, none⟩ calls →
      Isolated ⟨none, none⟩ calls := by
  intro h
  have hnested : WellNested overlappingLaunches := by
    rw [WellNested, atEach_iff_along]
    simp [overlappingLaunches, Along, ownUnpopped, unpopped, callsOf, nextUnpopped]
  have hsucc : AllSucceed ⟨none, none⟩ overlappingLaunches := by
    rw [AllSucceed, atEach_iff_along]
    exact ⟨rfl, rfl, rfl, rfl, trivial⟩
  obtain ⟨cfg, hcfg, hout⟩ :=
    h _ hnested hsucc (overlappingLaunches.take 2) _ (overlappingLaunches.drop 3) rfl _ rfl
  obtain rfl : cfg = ⟨⟨1, 1, 1⟩, ⟨64, 1, 1⟩, 0, 0⟩ := by
    simpa [overlappingLaunches, ownUnpopped, unpopped, callsOf, nextUnpopped] using hcfg.symm
  have hout' : PoppedConfig.mk (some ⟨2, 1, 1⟩) (some ⟨32, 1, 1⟩) (some 0) (some 8)
      = PopPointers.write ⟨true, true, true, true⟩ ⟨⟨1, 1, 1⟩, ⟨64, 1, 1⟩, 0, 0⟩ := hout
  revert hout'
  decide

end HipBridge.Unixlib
