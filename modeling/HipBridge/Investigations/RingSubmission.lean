import HipBridge.Lib.CString
import HipBridge.Lib.Run
import Mathlib.Logic.Function.Basic

/-!
# The submission ring (`investigations/faithful_submission_probe.c`)

Command lists are submitted through a ring of eight slots. The CPU waits for the GPU only when a
slot comes round again, and in `ring_flush`. One CPU thread makes the calls; between any two of
its steps the GPU may get on with the queue.

* **`snapshotBatchMatch`** — the gate every submission is put to.
* **`ringStep`** — the steps of `ring_submit` and `ring_flush`, and the progress of the GPU.
* **`QueuePromise`** — what is assumed of the queue: it completes submissions in order, and its
  fence never goes back, nor past what was signalled, nor ahead of the submissions.
* **`RingInv`** — the invariant: the `k`-th submission goes through slot `k % 8` and its signal is
  `k + 1`, so the value a slot was left with is that of eight submissions ago.
* **`RingSafe`** — no slot is reset early, and what the calls leave behind and return.
* **`always_gatePassed`** — every submission passes the gate.
-/

namespace HipBridge.Investigations

open Lib

/-- `RING_SLOTS`. -/
def ringSlots : Nat := 8

/-- `snapshot_batch_match`: the producer's list closes the batch and is in it once. -/
def snapshotBatchMatch (producerThread currentThread : UInt32) (producerList : Ptr)
    (lists : List Ptr) : Bool :=
  if producerList = 0 ∨ lists = [] ∨ 64 < lists.length ∨ producerThread ≠ currentThread then false
  else if lists.getLast? ≠ some producerList then false
  else !lists.dropLast.contains producerList

/-- A batch of one list passes on the thread that recorded it. -/
theorem snapshotBatchMatch_singleton (thread : UInt32) {list : Ptr} (hlist : list ≠ 0) :
    snapshotBatchMatch thread thread list [list] = true := by
  simp [snapshotBatchMatch, hlist]

/-- `struct RingSubmission`, without the objects of the device it holds on to. -/
structure RingSubmission where
  value : UInt64
  lists : Fin ringSlots → Ptr
  ringValues : Fin ringSlots → UInt64

/-- `r->value % RING_SLOTS`. -/
def slotOf (value : UInt64) : Fin ringSlots :=
  ⟨value.toNat % ringSlots, Nat.mod_lt _ (by decide)⟩

/-- A command list given to the queue: the slot it was recorded in, and the offset it copies. -/
structure Submission where
  slot : Fin ringSlots
  offset : UInt64
deriving DecidableEq

/-- Where the CPU is: outside, in front of a call of D3D12, or in front of the `return`. -/
inductive RingPhase
  | idle
  | waitSlot (slot : Fin ringSlots) (offset target : UInt64)
  /-- In front of the two calls of `Reset`. -/
  | reset (slot : Fin ringSlots) (offset : UInt64)
  | executeCommandLists (slot : Fin ringSlots) (offset : UInt64)
  | signal (slot : Fin ringSlots) (gateOk : Bool)
  | submitted (value : UInt64) (gateOk : Bool)
  | waitFlush (target : UInt64)
  | flushed
  /-- After `exit(1)`. -/
  | exited

inductive RingAct
  | submit (offset : UInt64)
  | flush
  | wait
  | reset
  | executeCommandLists (thread : UInt32)
  | signal
  | ret
  /-- A call failed or a wait ran out of time. -/
  | fatal
  /-- The GPU: how many submissions it has completed, and the fence's completed value. -/
  | progress (done : Nat) (completed : UInt64)

structure RingRun where
  ring : RingSubmission
  phase : RingPhase
  /-- The submissions, oldest first. -/
  executed : List Submission
  /-- The fence values signalled behind them, oldest first. -/
  signalled : List UInt64
  done : Nat
  completed : UInt64

/-- After `ring_create`. -/
def RingRun.init (lists : Fin ringSlots → Ptr) : RingRun :=
  ⟨⟨0, lists, fun _ => 0⟩, .idle, [], [], 0, 0⟩

/-- The CPU moves on without touching anything else. -/
def RingRun.moved (s : RingRun) (p : RingPhase) : RingRun := { s with phase := p }

/-- A step. One that the CPU is not in front of does nothing. -/
def ringStep (s : RingRun) : RingAct → RingRun
  | .submit offset =>
    match s.phase with
    | .idle =>
      let slot := slotOf s.ring.value
      if s.ring.ringValues slot ≠ 0 then s.moved (.waitSlot slot offset (s.ring.ringValues slot))
      else s.moved (.reset slot offset)
    | _ => s
  | .flush =>
    match s.phase with
    | .idle => if s.ring.value ≠ 0 then s.moved (.waitFlush s.ring.value) else s.moved .flushed
    | _ => s
  -- `ring_wait_value` returns once the fence has reached the target
  | .wait =>
    match s.phase with
    | .waitSlot slot offset target =>
      if s.completed ≥ target then s.moved (.reset slot offset) else s
    | .waitFlush target => if s.completed ≥ target then s.moved .flushed else s
    | _ => s
  | .reset =>
    match s.phase with
    | .reset slot offset => s.moved (.executeCommandLists slot offset)
    | _ => s
  | .executeCommandLists thread =>
    match s.phase with
    | .executeCommandLists slot offset =>
      let list := s.ring.lists slot
      { s.moved (.signal slot (snapshotBatchMatch thread thread list [list])) with
        executed := s.executed ++ [⟨slot, offset⟩] }
    | _ => s
  | .signal =>
    match s.phase with
    | .signal slot gateOk =>
      let value := s.ring.value + 1
      { s.moved (.submitted value gateOk) with
        ring := { s.ring with value, ringValues := Function.update s.ring.ringValues slot value }
        signalled := s.signalled ++ [value] }
    | _ => s
  | .ret =>
    match s.phase with
    | .submitted _ _ | .flushed => s.moved .idle
    | _ => s
  | .fatal => s.moved .exited
  | .progress done completed => { s with done, completed }

/-- What is assumed of the queue and its fence. -/
def QueuePromise (s : RingRun) : RingAct → Prop
  | .progress done completed =>
    s.done ≤ done ∧ done ≤ s.executed.length ∧
      s.completed ≤ completed ∧ completed ≤ s.signalled.getLastD 0 ∧
      -- a value is reached behind the submission it was signalled behind
      ∀ k : Fin s.signalled.length, s.signalled[k] ≤ completed → k < done
  | _ => True

instance (s : RingRun) : ∀ a, Decidable (QueuePromise s a)
  | .progress done completed => inferInstanceAs (Decidable (
    s.done ≤ done ∧ done ≤ s.executed.length ∧ s.completed ≤ completed ∧
      completed ≤ s.signalled.getLastD 0 ∧
      ∀ k : Fin s.signalled.length, s.signalled[k] ≤ completed → k < done))
  | .submit _ | .flush | .wait | .reset | .executeCommandLists _ | .signal | .ret | .fatal =>
    .isTrue trivial

/-- The fence value of the last submission through a slot, `0` if there is none. -/
def fenceOf (submissions : List (Submission × UInt64)) (slot : Fin ringSlots) : UInt64 :=
  ((submissions.reverse.find? (·.1.slot = slot)).map (·.2)).getD 0

/-- The fence value of the most recent submission through a slot. -/
def latestFence (s : RingRun) (slot : Fin ringSlots) : UInt64 :=
  fenceOf (s.executed.zip s.signalled) slot

/-- What the ring is there for. -/
structure RingSafe (s : RingRun) : Prop where
  /-- In front of a reset every submission through the slot is completed. -/
  reset : ∀ slot offset, s.phase = .reset slot offset →
    ∀ k submission, s.executed[k]? = some submission → submission.slot = slot → k < s.done
  /-- After a call a slot has the fence value of its most recent submission. -/
  ringValues : (s.phase = .idle ∨ (∃ value gateOk, s.phase = .submitted value gateOk) ∨
    s.phase = .flushed) → ∀ slot, s.ring.ringValues slot = latestFence s slot
  inFlight : s.done ≤ s.executed.length ∧ s.executed.length - s.done ≤ ringSlots
  /-- `ring_submit` returns the value it signalled last. -/
  returned : ∀ value gateOk, s.phase = .submitted value gateOk →
    s.signalled.getLast? = some value
  increasing : s.signalled.Pairwise (· < ·)
  /-- When `ring_flush` returns every submission is completed. -/
  flushed : s.phase = .flushed → s.done = s.executed.length

/-! ## The invariant -/

/-- After `n` submissions a slot was left with `fence`: by the last of the first `n` that went
through it, or by none. -/
def LeftWith (n slot fence : Nat) : Prop :=
  (fence = 0 ∧ n ≤ slot) ∨
    (1 ≤ fence ∧ fence ≤ n ∧ (fence - 1) % ringSlots = slot ∧ n < fence + ringSlots)

/-- What holds where the CPU is. -/
def PhaseInv (s : RingRun) : Prop :=
  match s.phase with
  | .idle => s.executed.length = s.signalled.length
  | .waitSlot slot _ target =>
    s.executed.length = s.signalled.length ∧ slot = slotOf s.ring.value ∧
      target = s.ring.ringValues slot
  | .reset slot _ | .executeCommandLists slot _ =>
    s.executed.length = s.signalled.length ∧ slot = slotOf s.ring.value ∧
      (s.ring.ringValues slot).toNat ≤ s.done
  | .signal slot _ =>
    s.executed.length = s.signalled.length + 1 ∧ slot = slotOf s.ring.value ∧
      s.executed.getLast?.map (·.slot) = some slot
  | .submitted value _ =>
    s.executed.length = s.signalled.length ∧ s.signalled.getLast? = some value
  | .waitFlush target => s.executed.length = s.signalled.length ∧ target = s.ring.value
  | .flushed => s.executed.length = s.signalled.length ∧ s.executed.length ≤ s.done
  | .exited => True

structure RingInv (s : RingRun) : Prop where
  value : s.ring.value.toNat = s.signalled.length
  /-- The fence values are `1, 2, …`. -/
  signalled : ∀ k v, s.signalled[k]? = some v → v.toNat = k + 1
  /-- The slots are taken round and round. -/
  slots : ∀ k submission, s.executed[k]? = some submission → submission.slot.val = k % ringSlots
  leftWith : ∀ slot, LeftWith s.signalled.length slot.val (s.ring.ringValues slot).toNat
  latest : ∀ slot, s.ring.ringValues slot = latestFence s slot
  done : s.done ≤ s.executed.length
  fence : s.completed.toNat ≤ s.done
  inFlight : s.executed.length ≤ s.done + ringSlots
  phase : PhaseInv s

theorem ringInv_init (lists : Fin ringSlots → Ptr) : RingInv (.init lists) := by
  refine ⟨rfl, ?_, ?_, ?_, fun _ => rfl, Nat.le_refl _, Nat.le_refl _, Nat.zero_le _, rfl⟩
  · intro k v hk
    cases hk
  · intro k submission hk
    cases hk
  · intro slot
    exact Or.inl ⟨rfl, Nat.zero_le _⟩

/-- What holds where the CPU is, said of a known place. -/
theorem RingInv.at_phase {s : RingRun} (h : RingInv s) {p : RingPhase} (hphase : s.phase = p) :
    PhaseInv (s.moved p) := by
  subst hphase
  exact h.phase

/-- Moving on keeps what does not depend on where the CPU is. -/
theorem RingInv.moved {s : RingRun} (h : RingInv s) {p : RingPhase}
    (hphase : PhaseInv (s.moved p)) : RingInv (s.moved p) :=
  ⟨h.value, h.signalled, h.slots, h.leftWith, h.latest, h.done, h.fence, h.inFlight, hphase⟩

theorem toNat_getLastD_le {s : RingRun} (h : RingInv s) :
    (s.signalled.getLastD 0).toNat ≤ s.signalled.length := by
  rw [List.getLastD_eq_getLast?, List.getLast?_eq_getElem?]
  cases hlast : s.signalled[s.signalled.length - 1]? with
  | none => exact Nat.zero_le _
  | some v =>
    have hv := h.signalled _ v hlast
    have hlt := (List.getElem?_eq_some_iff.mp hlast).1
    show v.toNat ≤ _
    omega

/-- The GPU gets on: the fence still only covers what is completed. -/
theorem RingInv.progress {s : RingRun} (h : RingInv s) {done : Nat} {completed : UInt64}
    (hpromise : QueuePromise s (.progress done completed)) :
    RingInv { s with done, completed } := by
  obtain ⟨hdone, hexecuted, -, hlast, hreached⟩ := hpromise
  have hfence : completed.toNat ≤ done := by
    by_contra hahead
    have hle := Nat.le_trans (UInt64.le_iff_toNat_le.mp hlast) (toNat_getLastD_le h)
    -- the submission the value was signalled behind
    have hk : completed.toNat - 1 < s.signalled.length := by omega
    have hv := h.signalled _ _ (List.getElem?_eq_getElem hk)
    have hlt := hreached ⟨completed.toNat - 1, hk⟩ (UInt64.le_iff_toNat_le.mpr (by
      show s.signalled[completed.toNat - 1].toNat ≤ _
      omega))
    change completed.toNat - 1 < done at hlt
    omega
  have hinFlight := h.inFlight
  refine ⟨h.value, h.signalled, h.slots, h.leftWith, h.latest, hexecuted, hfence, ?_, ?_⟩
  · show s.executed.length ≤ done + ringSlots
    omega
  · have hphase := h.phase
    unfold PhaseInv at hphase ⊢
    cases hp : s.phase <;> simp only [hp] at hphase ⊢ <;> omega

theorem slotOf_value {s : RingRun} (h : RingInv s) :
    (slotOf s.ring.value).val = s.signalled.length % ringSlots := by
  rw [← h.value]
  rfl

theorem fenceOf_concat (submissions : List (Submission × UInt64)) (submission : Submission)
    (fence : UInt64) :
    fenceOf (submissions ++ [(submission, fence)])
      = Function.update (fenceOf submissions) submission.slot fence := by
  funext slot
  unfold fenceOf
  rw [List.reverse_append]
  by_cases hself : slot = submission.slot
  · rw [hself, Function.update_self]
    simp
  · rw [Function.update_of_ne hself]
    simp [Ne.symm hself]

/-- A submission that has no fence value yet is not looked at. -/
theorem zip_concat_left {α β : Type*} {xs : List α} {ys : List β} (h : xs.length = ys.length)
    (x : α) : (xs ++ [x]).zip ys = xs.zip ys := by
  conv_lhs => rw [← List.append_nil ys]
  rw [List.zip_append h]
  exact List.append_nil _

/-- **The next submission.** The slot was last used eight submissions ago, and that one is
completed. -/
theorem RingInv.executed {s : RingRun} (h : RingInv s) {slot : Fin ringSlots} {offset : UInt64}
    (hphase : s.phase = .executeCommandLists slot offset) (gateOk : Bool) :
    RingInv { s.moved (.signal slot gateOk) with executed := s.executed ++ [⟨slot, offset⟩] } := by
  obtain ⟨hlength, hslot, hreused⟩ : s.executed.length = s.signalled.length ∧
      slot = slotOf s.ring.value ∧ (s.ring.ringValues slot).toNat ≤ s.done := h.at_phase hphase
  have hval : slot.val = s.signalled.length % ringSlots := by
    rw [hslot]
    exact slotOf_value h
  have hlatest : ∀ slot', latestFence { s.moved (.signal slot gateOk) with
      executed := s.executed ++ [⟨slot, offset⟩] } slot' = latestFence s slot' := by
    intro slot'
    show fenceOf ((s.executed ++ [(⟨slot, offset⟩ : Submission)]).zip s.signalled) slot' = _
    rw [zip_concat_left hlength]
    rfl
  have hdone := h.done
  constructor
  case value => exact h.value
  case signalled => exact h.signalled
  case slots =>
    intro k submission hk
    rw [List.getElem?_append] at hk
    split at hk
    case isTrue => exact h.slots k submission hk
    case isFalse hnew =>
      obtain ⟨hlt, rfl⟩ := List.getElem?_eq_some_iff.mp hk
      rw [List.length_singleton] at hlt
      have hlast : k = s.signalled.length := by omega
      simp only [List.getElem_singleton, hlast]
      exact hval
  case leftWith => exact h.leftWith
  case latest =>
    intro slot'
    rw [hlatest slot']
    exact h.latest slot'
  case done =>
    rw [List.length_append]
    exact Nat.le_add_right_of_le hdone
  case fence => exact h.fence
  case inFlight =>
    rw [List.length_append, List.length_singleton]
    show _ ≤ s.done + ringSlots
    have hleft := h.leftWith slot
    unfold LeftWith at hleft
    unfold ringSlots at *
    omega
  case phase =>
    show _ ∧ _ ∧ _
    rw [List.length_append, List.getLast?_append]
    exact ⟨by rw [hlength]; rfl, hslot, rfl⟩

/-- One more submission through `n % 8` leaves the other slots as they were. -/
theorem LeftWith.succ_of_ne {n slot fence : Nat} (h : LeftWith n slot fence)
    (hlt : slot < ringSlots) (hne : slot ≠ n % ringSlots) : LeftWith (n + 1) slot fence := by
  unfold LeftWith ringSlots at *
  omega

theorem leftWith_self (n : Nat) : LeftWith (n + 1) (n % ringSlots) (n + 1) := by
  unfold LeftWith ringSlots
  omega

/-- **Its signal.** The slot keeps the value behind the submission, as long as the counter does
not wrap. -/
theorem RingInv.signal {s : RingRun} (h : RingInv s) {slot : Fin ringSlots} {gateOk : Bool}
    (hphase : s.phase = .signal slot gateOk) (hfew : s.executed.length < 2 ^ 64) :
    RingInv
      { s.moved (.submitted (s.ring.value + 1) gateOk) with
        ring := { s.ring with
          value := s.ring.value + 1
          ringValues := Function.update s.ring.ringValues slot (s.ring.value + 1) }
        signalled := s.signalled ++ [s.ring.value + 1] } := by
  obtain ⟨hlength, hslot, hlast⟩ : s.executed.length = s.signalled.length + 1 ∧
      slot = slotOf s.ring.value ∧ s.executed.getLast?.map (·.slot) = some slot :=
    h.at_phase hphase
  have hnext : (s.ring.value + 1).toNat = s.signalled.length + 1 := by
    rw [← h.value]
    show (s.ring.value.toNat + 1) % 2 ^ 64 = _
    have hvalue := h.value
    exact Nat.mod_eq_of_lt (by omega)
  have hval : slot.val = s.signalled.length % ringSlots := by
    rw [hslot]
    exact slotOf_value h
  constructor
  case value =>
    rw [List.length_append]
    exact hnext
  case signalled =>
    intro k v hk
    rw [List.getElem?_append] at hk
    split at hk
    case isTrue => exact h.signalled k v hk
    case isFalse hnew =>
      obtain ⟨hlt, rfl⟩ := List.getElem?_eq_some_iff.mp hk
      rw [List.length_singleton] at hlt
      have hk' : k = s.signalled.length := by omega
      rw [List.getElem_singleton, hnext, hk']
  case slots => exact h.slots
  case leftWith =>
    intro slot'
    rw [List.length_append]
    show LeftWith (s.signalled.length + 1) slot'.val
      (Function.update s.ring.ringValues slot (s.ring.value + 1) slot').toNat
    by_cases hself : slot' = slot
    · rw [hself, Function.update_self, hnext, hval]
      exact leftWith_self _
    · rw [Function.update_of_ne hself]
      apply (h.leftWith slot').succ_of_ne slot'.isLt
      rw [← hval]
      exact fun heq => hself (Fin.ext heq)
  case latest =>
    intro slot'
    obtain ⟨submission, hsubmission, rfl⟩ := Option.map_eq_some_iff.mp hlast
    obtain ⟨before, hexecuted⟩ := List.getLast?_eq_some_iff.mp hsubmission
    have hbefore : before.length = s.signalled.length := by
      rw [hexecuted, List.length_append, List.length_singleton] at hlength
      omega
    have hold : s.ring.ringValues = fenceOf (before.zip s.signalled) := by
      funext slot₀
      rw [h.latest slot₀, latestFence, hexecuted, zip_concat_left hbefore]
    show Function.update s.ring.ringValues submission.slot (s.ring.value + 1) slot'
      = fenceOf (s.executed.zip (s.signalled ++ [s.ring.value + 1])) slot'
    rw [hexecuted, List.zip_append hbefore, hold]
    exact (congrFun (fenceOf_concat _ submission _) slot').symm
  case done => exact h.done
  case fence => exact h.fence
  case inFlight => exact h.inFlight
  case phase =>
    show _ ∧ _
    rw [List.length_append, List.getLast?_append]
    exact ⟨hlength, rfl⟩

theorem executed_length_le (s : RingRun) (a : RingAct) :
    s.executed.length ≤ (ringStep s a).executed.length := by
  cases a with
  | executeCommandLists thread =>
    rw [ringStep]
    split
    case h_1 =>
      rw [List.length_append]
      exact Nat.le_add_right _ _
    case h_2 => exact Nat.le_refl _
  | submit offset =>
    rw [ringStep]
    split
    case h_1 =>
      dsimp only
      split <;> exact Nat.le_refl _
    case h_2 => exact Nat.le_refl _
  | flush =>
    rw [ringStep]
    split
    case h_1 => split <;> exact Nat.le_refl _
    case h_2 => exact Nat.le_refl _
  | wait =>
    rw [ringStep]
    split
    case h_1 | h_2 => split <;> exact Nat.le_refl _
    case h_3 => exact Nat.le_refl _
  | reset | signal | ret =>
    rw [ringStep]
    split <;> exact Nat.le_refl _
  | fatal | progress _ _ => exact Nat.le_refl _

/-- What the fence has reached is completed. -/
theorem RingInv.reached {s : RingRun} (h : RingInv s) {target : UInt64}
    (hreached : s.completed ≥ target) : target.toNat ≤ s.done :=
  Nat.le_trans (UInt64.le_iff_toNat_le.mp hreached) h.fence

theorem RingInv.submit_step {s : RingRun} (h : RingInv s) (offset : UInt64) :
    RingInv (ringStep s (.submit offset)) := by
  rw [ringStep]
  split
  case h_1 hidle =>
    have hlength : s.executed.length = s.signalled.length := h.at_phase hidle
    dsimp only
    -- a slot without a value was not used yet
    split
    case isTrue => exact h.moved ⟨hlength, rfl, rfl⟩
    case isFalse hzero =>
      refine h.moved ⟨hlength, rfl, ?_⟩
      show (s.ring.ringValues (slotOf s.ring.value)).toNat ≤ s.done
      rw [not_not.mp hzero]
      exact Nat.zero_le _
  case h_2 => exact h

theorem RingInv.flush_step {s : RingRun} (h : RingInv s) : RingInv (ringStep s .flush) := by
  rw [ringStep]
  split
  case h_1 hidle =>
    have hlength : s.executed.length = s.signalled.length := h.at_phase hidle
    split
    case isTrue => exact h.moved ⟨hlength, rfl⟩
    case isFalse hzero =>
      have hvalue := h.value
      rw [not_not.mp hzero] at hvalue
      refine h.moved ⟨hlength, ?_⟩
      show s.executed.length ≤ s.done
      rw [hlength, ← hvalue]
      exact Nat.zero_le _
  case h_2 => exact h

theorem RingInv.wait_step {s : RingRun} (h : RingInv s) : RingInv (ringStep s .wait) := by
  rw [ringStep]
  split
  case h_1 slot offset target hwait =>
    obtain ⟨hlength, hslot, htarget⟩ : s.executed.length = s.signalled.length ∧
        slot = slotOf s.ring.value ∧ target = s.ring.ringValues slot := h.at_phase hwait
    split
    case isTrue hreached =>
      refine h.moved ⟨hlength, hslot, ?_⟩
      show (s.ring.ringValues slot).toNat ≤ s.done
      rw [← htarget]
      exact h.reached hreached
    case isFalse => exact h
  case h_2 target hwait =>
    obtain ⟨hlength, htarget⟩ : s.executed.length = s.signalled.length ∧
        target = s.ring.value := h.at_phase hwait
    split
    case isTrue hreached =>
      refine h.moved ⟨hlength, ?_⟩
      show s.executed.length ≤ s.done
      rw [hlength, ← h.value, ← htarget]
      exact h.reached hreached
    case isFalse => exact h
  case h_3 => exact h

/-- A step keeps the invariant as long as the counter does not wrap. -/
theorem RingInv.step {s : RingRun} (h : RingInv s) {a : RingAct} (hpromise : QueuePromise s a)
    (hfew : (ringStep s a).executed.length < 2 ^ 64) : RingInv (ringStep s a) := by
  cases a with
  | submit offset => exact h.submit_step offset
  | flush => exact h.flush_step
  | wait => exact h.wait_step
  | reset =>
    rw [ringStep]
    split
    case h_1 slot offset hreset =>
      have hinv := h.at_phase hreset
      exact h.moved hinv
    case h_2 => exact h
  | executeCommandLists thread =>
    rw [ringStep]
    split
    case h_1 slot offset hexecute => exact h.executed hexecute _
    case h_2 => exact h
  | signal =>
    have hle := executed_length_le s .signal
    rw [ringStep]
    split
    case h_1 slot gateOk hsignal => exact h.signal hsignal (by omega)
    case h_2 => exact h
  | ret =>
    rw [ringStep]
    split
    case h_1 value gateOk hsubmitted => exact h.moved (h.at_phase hsubmitted).1
    case h_2 hflushed => exact h.moved (h.at_phase hflushed).1
    case h_3 => exact h
  | fatal => exact h.moved trivial
  | progress done completed => exact h.progress hpromise

/-! ## Slots are not reset early -/

/-- A slot that was left with a completed value has no other submission under way. -/
theorem completed_of_leftWith {n slot fence done k : Nat} (h : LeftWith n slot fence)
    (hdone : fence ≤ done) (hk : k < n) (hslot : slot = k % ringSlots) : k < done := by
  unfold LeftWith ringSlots at *
  omega

theorem RingInv.safe {s : RingRun} (h : RingInv s) : RingSafe s := by
  constructor
  case reset =>
    intro slot offset hreset k submission hk hslot
    obtain ⟨hlength, -, hreused⟩ : s.executed.length = s.signalled.length ∧
        slot = slotOf s.ring.value ∧ (s.ring.ringValues slot).toNat ≤ s.done :=
      h.at_phase hreset
    have hlt := (List.getElem?_eq_some_iff.mp hk).1
    have hmod := h.slots k submission hk
    rw [hslot] at hmod
    exact completed_of_leftWith (h.leftWith slot) hreused (by omega) hmod
  case ringValues => exact fun _ => h.latest
  case inFlight =>
    have hinFlight := h.inFlight
    exact ⟨h.done, by omega⟩
  case returned =>
    intro value gateOk hsubmitted
    exact (h.at_phase hsubmitted).2
  case increasing =>
    rw [List.pairwise_iff_getElem]
    intro i j hi hj hij
    have hvi := h.signalled i _ (List.getElem?_eq_getElem hi)
    have hvj := h.signalled j _ (List.getElem?_eq_getElem hj)
    apply UInt64.lt_iff_toNat_lt.mpr
    omega
  case flushed =>
    intro hflushed
    exact Nat.le_antisymm h.done (h.at_phase hflushed).2

/-- **Ring slots are never reused early.** In every state of every run, whatever calls are made
and however the GPU gets on, with fewer than `2^64` submissions. -/
theorem ring_safe (lists : Fin ringSlots → Ptr) (acts : List RingAct)
    (hgpu : Along ringStep QueuePromise (.init lists) acts)
    (hfew : (run ringStep (.init lists) acts).executed.length < 2 ^ 64) :
    Always ringStep RingSafe (.init lists) acts := by
  have hinv := always_of_below executed_length_le (fun _ _ h hpromise hfew => h.step hpromise hfew)
    (ringInv_init lists) hgpu hfew
  exact hinv.imp fun _ h => h.safe

/-- A call of `ring_submit`, with the wait if the slot was used before. -/
def submitSteps (offset : UInt64) : List RingAct :=
  [.submit offset, .wait, .reset, .executeCommandLists 1, .signal, .ret]

/-- Eight submissions with the GPU idle; the ninth waits for the first, and the flush for all. -/
def ninthWaits : List RingAct :=
  (List.range 8).flatMap (fun i => submitSteps (4 * i.toUInt64)) ++
    [.submit 32, .wait, .progress 3 1] ++
    [.wait, .reset, .executeCommandLists 1, .signal, .ret, .flush, .wait, .progress 9 9, .wait]

theorem ring_safe_ninthWaits :
    Always ringStep RingSafe (.init fun _ => 0x1000) ninthWaits ∧
      (run ringStep (.init fun _ => 0x1000) ninthWaits).executed.length = 9 ∧
      (run ringStep (.init fun _ => 0x1000) ninthWaits).signalled = [1, 2, 3, 4, 5, 6, 7, 8, 9] ∧
      (run ringStep (.init fun _ => 0x1000) ninthWaits).ring.ringValues (slotOf 8) = 9 :=
  ⟨ring_safe (fun _ => 0x1000) ninthWaits (by decide +kernel) (by decide +kernel),
    by decide +kernel, by decide +kernel, by decide +kernel⟩

/-! ## The gate -/

/-- The lists exist, and the submission under way passed the gate. -/
def GatePassed (s : RingRun) : Prop :=
  (∀ slot, s.ring.lists slot ≠ 0) ∧
    match s.phase with
    | .signal _ gateOk | .submitted _ gateOk => gateOk = true
    | _ => True

theorem GatePassed.step {s : RingRun} (h : GatePassed s) (a : RingAct) :
    GatePassed (ringStep s a) := by
  have hlists := h.1
  have hgate := h.2
  cases a with
  | submit offset =>
    rw [ringStep]
    split
    case h_1 =>
      dsimp only
      split <;> exact ⟨hlists, trivial⟩
    case h_2 => exact h
  | flush =>
    rw [ringStep]
    split
    case h_1 => split <;> exact ⟨hlists, trivial⟩
    case h_2 => exact h
  | wait =>
    rw [ringStep]
    split
    case h_1 | h_2 =>
      split
      case isTrue => exact ⟨hlists, trivial⟩
      case isFalse => exact h
    case h_3 => exact h
  | executeCommandLists thread =>
    rw [ringStep]
    split
    case h_1 slot offset _ => exact ⟨hlists, snapshotBatchMatch_singleton thread (hlists slot)⟩
    case h_2 => exact h
  | signal =>
    rw [ringStep]
    split
    case h_1 slot gateOk hsignal =>
      rw [hsignal] at hgate
      exact ⟨hlists, hgate⟩
    case h_2 => exact h
  | reset | ret =>
    rw [ringStep]
    split
    case h_1 => exact ⟨hlists, trivial⟩
    all_goals first | exact h | exact ⟨hlists, trivial⟩
  | fatal => exact ⟨hlists, trivial⟩
  | progress done completed => exact h

/-- No submission fails the gate, whatever the GPU does. -/
theorem always_gatePassed {lists : Fin ringSlots → Ptr} (hlists : ∀ slot, lists slot ≠ 0)
    (acts : List RingAct) : Always ringStep GatePassed (.init lists) acts := by
  have hfree : Along ringStep (fun _ _ => True) (.init lists) acts :=
    along_of_forall (fun _ _ => trivial) acts
  exact always_of_along (fun _ a h _ => h.step a) ⟨hlists, trivial⟩ hfree

end HipBridge.Investigations
