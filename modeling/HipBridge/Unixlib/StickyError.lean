import HipBridge.Unixlib.NoFabrication
import Mathlib.Data.List.Induction
import Mathlib.Data.List.TakeWhile

/-!
# The sticky last error

A thread's calls into `pe_shim.c` are a list of **`PeEvent`**s, exports without an error
code included. **`observe`** records, for each call that returns a `hipError_t`, what it
returned and the sticky state it left.

* **`StepLaw`** — what one call does to the sticky state it starts from.
* **`observe_chained`** — every run obeys it call by call.
* **`hipGetLastError_trace_law`** — the law of whole traces: each read returns the code of the
  last failing call since the previous read, so each failure is read at most once.
-/

namespace HipBridge.Unixlib

open Lib

/-- A call into the PE side: one that returns a `hipError_t`, or one of the five that do not. -/
inductive PeEvent
  | call (c : PeCall)
  | registerFatBinary (data : Ptr)
  | registerFunction (fatbinToken hostFn : Ptr) (deviceName : Option CString)
  | registerVar (fatbinToken hostVar : Ptr) (deviceName : Option CString)
  | unregisterFatBinary (fatbinToken : Ptr)
  | getErrorString (error : Int32)

/-- What one call that returns a `hipError_t` shows: its result and the sticky state after it. -/
structure Observation where
  call : PeCall
  ret : Int32
  sticky : Int32

/-- Whether this is a read of the sticky state. -/
def Observation.isRead (o : Observation) : Bool :=
  match o.call with
  | .getLastError => true
  | _ => false

theorem Observation.isRead_iff (o : Observation) : o.isRead = true ↔ o.call = .getLastError := by
  unfold Observation.isRead
  cases o.call <;> simp

/-- The process after an event. -/
def PeEvent.next (p : Process) (w : World) : PeEvent → Process
  | .call c => (c.exec w p).proc
  | .registerFatBinary data => (hipRegisterFatBinary w p data).2
  | .registerFunction fatbinToken hostFn name => hipRegisterFunction w p fatbinToken hostFn name
  | .registerVar fatbinToken hostVar name => hipRegisterVar w p fatbinToken hostVar name
  | .unregisterFatBinary fatbinToken => hipUnregisterFatBinary w p fatbinToken
  | .getErrorString error => (hipGetErrorString w p error).2

/-- What an event shows. -/
def PeEvent.observation (p : Process) (w : World) : PeEvent → Option Observation
  | .call c => some ⟨c, (c.exec w p).ret, (c.exec w p).proc.lastError⟩
  | _ => none

/-- The observations of a run, oldest first; the native side meets a `World` of its own in
every call. -/
def observe (p : Process) : List (PeEvent × World) → List Observation
  | [] => []
  | (e, w) :: events => (e.observation p w).toList ++ observe (e.next p w) events

/-! ## One call -/

/-- What a call does to the sticky state `before` it starts from. -/
def StepLaw (before : Int32) (o : Observation) : Prop :=
  if o.isRead then o.ret = before ∧ o.sticky = hipSuccess
  else if o.ret = hipSuccess then o.sticky = before
  else o.sticky = o.ret

theorem Ending.stepLaw {p : Process} {r : PeResult Unit} (h : Ending p r) {c : PeCall}
    (hc : c ≠ .getLastError) : StepLaw p.lastError ⟨c, r.ret, r.proc.lastError⟩ := by
  have hread : (⟨c, r.ret, r.proc.lastError⟩ : Observation).isRead = false := by
    rw [← Bool.not_eq_true, Observation.isRead_iff]
    exact hc
  unfold StepLaw
  rw [if_neg (by simp [hread])]
  cases h with
  | mapped p' unixRet code hlast hcode =>
    unfold mapRet
    split
    · simpa using hlast
    · simp
  | rejected code hcode => simp [reject, hcode]
  | succeeded r hret hunix hlast => simpa [hret] using hlast

/-- Every export obeys the law. -/
theorem exec_stepLaw (w : World) (p : Process) (c : PeCall) :
    StepLaw p.lastError ⟨c, (c.exec w p).ret, (c.exec w p).proc.lastError⟩ := by
  by_cases hget : c = .getLastError
  · subst hget
    exact ⟨rfl, rfl⟩
  cases hversion : c.versionQuery with
  | none => exact (exec_ending w p c hget hversion).stepLaw hget
  | some query =>
    obtain ⟨sym, call⟩ := query
    obtain ⟨hret, hlast, -⟩ := exec_versionQuery hversion w p
    have hread : (⟨c, (c.exec w p).ret, (c.exec w p).proc.lastError⟩ : Observation).isRead
        = false := by
      rw [← Bool.not_eq_true, Observation.isRead_iff]
      exact hget
    unfold StepLaw
    rw [if_neg (by simp [hread]), if_pos hret]
    exact hlast

/-- The exports without an error code leave the sticky state alone. -/
theorem next_lastError {p : Process} {w : World} {e : PeEvent}
    (h : e.observation p w = none) : (e.next p w).lastError = p.lastError := by
  cases e with
  | call c => cases h
  | registerFatBinary | registerFunction | registerVar | unregisterFatBinary | getErrorString => rfl

/-! ## Whole traces -/

/-- Observations that obey the law one after the other, from the sticky state `before` on. -/
def Chained : (before : Int32) → List Observation → Prop
  | _, [] => True
  | before, o :: os => StepLaw before o ∧ Chained o.sticky os

/-- Every run obeys the law call by call. Induction on the run. -/
theorem observe_chained (events : List (PeEvent × World)) (p : Process) :
    Chained p.lastError (observe p events) := by
  induction events generalizing p with
  | nil => trivial
  | cons event events ih =>
    obtain ⟨e, w⟩ := event
    have hrest := ih (e.next p w)
    cases hobs : e.observation p w with
    | none =>
      rw [next_lastError hobs] at hrest
      simpa [observe, hobs] using hrest
    | some o =>
      have hlaw : StepLaw p.lastError o ∧ o.sticky = (e.next p w).lastError := by
        cases e with
        | call c => cases hobs; exact ⟨exec_stepLaw w p c, rfl⟩
        | registerFatBinary | registerFunction | registerVar | unregisterFatBinary
        | getErrorString => cases hobs
      rw [← hlaw.2] at hrest
      simp only [observe, hobs, Option.toList_some, List.singleton_append]
      exact ⟨hlaw.1, hrest⟩

/-- The sticky state after a list of observations. -/
def stickyAfter (before : Int32) (os : List Observation) : Int32 :=
  (os.getLast?.map Observation.sticky).getD before

/-- The calls made since the last read, oldest first. -/
def sinceRead (os : List Observation) : List Observation :=
  (os.reverse.takeWhile (!·.isRead)).reverse

/-- The code of the last failing call since the last read, or `HIP_SUCCESS`. -/
def lastFailure (os : List Observation) : Int32 :=
  (((sinceRead os).reverse.find? (·.ret ≠ hipSuccess)).map Observation.ret).getD hipSuccess

theorem stickyAfter_append (before : Int32) (os : List Observation) (o : Observation) :
    stickyAfter before (os ++ [o]) = o.sticky := by
  simp [stickyAfter]

theorem chained_append {before : Int32} {os more : List Observation} :
    Chained before (os ++ more) ↔ Chained before os ∧ Chained (stickyAfter before os) more := by
  induction os generalizing before with
  | nil => simp [Chained, stickyAfter]
  | cons o os ih =>
    have hafter : stickyAfter before (o :: os) = stickyAfter o.sticky os := by
      cases os <;> simp [stickyAfter, List.getLast?_cons]
    rw [List.cons_append, Chained, Chained, ih, hafter, and_assoc]

/-- Along a lawful trace from a clean state, the sticky state is the last failure not yet
read. Induction on the trace from its end. -/
theorem stickyAfter_eq_lastFailure {os : List Observation} (h : Chained hipSuccess os) :
    stickyAfter hipSuccess os = lastFailure os := by
  induction os using List.reverseRecOn with
  | nil => rfl
  | append_singleton os o ih =>
    obtain ⟨hos, ho, -⟩ := chained_append.mp h
    have hbefore := ih hos
    rw [stickyAfter_append]
    unfold StepLaw at ho
    split at ho
    -- a read clears the state; nothing was called since
    case isTrue hread => simp [lastFailure, sinceRead, hread, ho.2]
    case isFalse hread =>
      -- any other call is one more since the last read
      have hsince : sinceRead (os ++ [o]) = sinceRead os ++ [o] := by
        simp [sinceRead, hread]
      split at ho
      case isTrue hret => simp [lastFailure, hsince, hret, ho, hbefore]
      case isFalse hret => simp [lastFailure, hsince, hret, ho]

theorem mem_sinceRead {pre mid : List Observation} {o : Observation} (hread : o.isRead = true)
    {x : Observation} (hx : x ∈ sinceRead (pre ++ o :: mid)) : x ∈ mid := by
  rw [sinceRead, List.mem_reverse, List.reverse_append, List.reverse_cons, List.append_assoc,
    List.takeWhile_append] at hx
  split at hx
  · have htail : ([o] ++ pre.reverse).takeWhile (!·.isRead) = [] := by simp [hread]
    rw [htail, List.append_nil] at hx
    simpa using hx
  · simpa using List.takeWhile_subset _ hx

/-- **The trace law of the sticky error.** In every run from load: a failing call leaves its
code as the sticky state and a successful one leaves the state as it was; a read returns the
code of the last failing call since the previous read, or success, and clears the state; and
of two reads, the later one returns an error only if a call between them failed with it. -/
theorem hipGetLastError_trace_law (env : Env) (events : List (PeEvent × World)) :
    (∀ pre o post, observe (Process.init env) events = pre ++ o :: post →
      (o.call ≠ .getLastError → o.ret ≠ hipSuccess → o.sticky = o.ret) ∧
      (o.call ≠ .getLastError → o.ret = hipSuccess →
        o.sticky = stickyAfter hipSuccess pre) ∧
      (o.call = .getLastError → o.ret = lastFailure pre ∧ o.sticky = hipSuccess)) ∧
    (∀ pre r₁ mid r₂ post, observe (Process.init env) events = pre ++ r₁ :: mid ++ r₂ :: post →
      r₁.call = .getLastError → r₂.call = .getLastError → r₂.ret ≠ hipSuccess →
      ∃ o ∈ mid, o.call ≠ .getLastError ∧ o.ret = r₂.ret) := by
  have hchain : Chained hipSuccess (observe (Process.init env) events) :=
    observe_chained events (Process.init env)
  have hlaw : ∀ pre o post, observe (Process.init env) events = pre ++ o :: post →
      StepLaw (stickyAfter hipSuccess pre) o ∧ stickyAfter hipSuccess pre = lastFailure pre := by
    intro pre o post hsplit
    rw [hsplit] at hchain
    obtain ⟨hpre, ho, -⟩ := chained_append.mp hchain
    exact ⟨ho, stickyAfter_eq_lastFailure hpre⟩
  refine ⟨?_, ?_⟩
  · intro pre o post hsplit
    obtain ⟨hstep, hsticky⟩ := hlaw pre o post hsplit
    unfold StepLaw at hstep
    refine ⟨fun hcall hret => ?_, fun hcall hret => ?_, fun hcall => ?_⟩
    · rwa [if_neg (by simpa [Observation.isRead_iff] using hcall), if_neg hret] at hstep
    · rwa [if_neg (by simpa [Observation.isRead_iff] using hcall), if_pos hret] at hstep
    · rw [if_pos (o.isRead_iff.mpr hcall)] at hstep
      exact ⟨hstep.1.trans hsticky, hstep.2⟩
  · intro pre r₁ mid r₂ post hsplit hr₁ hr₂ hne
    obtain ⟨hstep, hsticky⟩ := hlaw (pre ++ r₁ :: mid) r₂ post hsplit
    unfold StepLaw at hstep
    rw [if_pos (r₂.isRead_iff.mpr hr₂), hsticky] at hstep
    -- the code read is that of some call since `r₁`
    cases hfind : (sinceRead (pre ++ r₁ :: mid)).reverse.find? (·.ret ≠ hipSuccess) with
    | none =>
      rw [lastFailure, hfind] at hstep
      exact absurd hstep.1 hne
    | some o =>
      have hmem : o ∈ sinceRead (pre ++ r₁ :: mid) :=
        List.mem_reverse.mp (List.mem_of_find?_eq_some hfind)
      have hnot : o.isRead = false := by
        have := List.mem_takeWhile_imp (List.mem_reverse.mp hmem)
        simpa using this
      rw [lastFailure, hfind] at hstep
      refine ⟨o, mem_sinceRead (r₁.isRead_iff.mpr hr₁) hmem, ?_, hstep.1.symm⟩
      rw [Ne, ← o.isRead_iff, hnot]
      exact Bool.false_ne_true

end HipBridge.Unixlib
