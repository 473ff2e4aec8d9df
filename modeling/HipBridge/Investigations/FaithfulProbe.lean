import HipBridge.Investigations.RingSubmission

/-!
# The probe over the ring (`main` of `investigations/faithful_submission_probe.c`)

`main` submits forty copies of one word through the ring, flushes, and compares what was read back.
The GPU reads a command list when it executes it, so that a list recorded anew before its turn
copies to the wrong place: the readback shows whether the ring's waits are enough.

* **`probeStep`** — the steps of `main`, and the progress of the GPU.
* **`ProbeInv`** — the invariant: the lists of the submissions under way are as they were recorded,
  and what is completed was copied.
* **`probe_passes`** — on a queue that keeps its promise the probe passes, and never waits for what
  does not come.
-/

namespace HipBridge.Investigations

open Lib

/-- `TOTAL_SUBMISSIONS`. -/
def totalSubmissions : Nat := 40

/-- `MARKER_BASE`. -/
def markerBase : UInt32 := 9000

/-- A buffer of 32-bit words, by index. -/
abbrev Words := Nat → UInt32

/-- What `main` writes to the upload buffer. -/
def uploadMapped : Words := fun i => markerBase + i.toUInt32

/-- `CopyBufferRegion` of one word, from the upload buffer to the same offset. -/
def copyWord (readback : Words) (offset : UInt64) : Words :=
  Function.update readback (offset.toNat / 4) (uploadMapped (offset.toNat / 4))

/-- The ring's run, the lists and the readback buffer, and what `main` keeps. -/
structure Probe where
  ring : RingRun
  /-- The offset at which the list of a slot copies, as it was recorded last. -/
  recorded : Fin ringSlots → UInt64
  readback : Words
  i : Nat
  gateFailures : Nat

/-- In front of the loop; nothing is known of the readback buffer. -/
def Probe.init (lists : Fin ringSlots → Ptr) (readback : Words) : Probe :=
  ⟨.init lists, fun _ => 0, readback, 0, 0⟩

/-- The readback buffer once the GPU has completed `done` submissions: it copies at the offsets the
lists have when it comes to them. -/
def Probe.copied (s : Probe) (done : Nat) : Words :=
  ((s.ring.executed.take done).drop s.ring.done).foldl
    (fun readback submission => copyWord readback (s.recorded submission.slot)) s.readback

inductive ProbeAct
  /-- The next step of `main`. -/
  | next
  /-- A call failed or a wait ran out of time. -/
  | fatal
  | progress (done : Nat) (completed : UInt64)

/-- The next step of the ring, in the thread of `main`. -/
def Probe.nextRing (thread : UInt32) (s : Probe) : RingAct :=
  match s.ring.phase with
  | .idle => if s.i < totalSubmissions then .submit (s.i.toUInt64 * 4) else .flush
  | .waitSlot _ _ _ | .waitFlush _ => .wait
  | .reset _ _ => .reset
  | .executeCommandLists _ _ => .executeCommandLists thread
  | .signal _ _ => .signal
  | .submitted _ _ | .flushed => .ret
  | .exited => .fatal

def probeStep (thread : UInt32) (s : Probe) : ProbeAct → Probe
  | .next =>
    let ring := ringStep s.ring (s.nextRing thread)
    match s.ring.phase with
    | .reset slot offset =>
      { s with ring, recorded := Function.update s.recorded slot offset }
    | .submitted _ gateOk =>
      { s with ring, i := s.i + 1, gateFailures := s.gateFailures + if gateOk then 0 else 1 }
    -- `main` is at its comparison
    | .flushed => s
    | _ => { s with ring }
  | .fatal => { s with ring := ringStep s.ring .fatal }
  | .progress done completed =>
    { s with
      ring := ringStep s.ring (.progress done completed)
      readback := s.copied done }

/-- What is assumed of the queue. -/
def ProbePromise (s : Probe) : ProbeAct → Prop
  | .progress done completed => QueuePromise s.ring (.progress done completed)
  | _ => True

/-! ## The comparison -/

structure Comparison where
  mismatches : Nat
  /-- `first_mismatch`, `first_expected` and `first_got`. -/
  first : Option (Nat × UInt32 × UInt32)
deriving DecidableEq

/-- One word is compared. -/
def Comparison.note (c : Comparison) (i : Nat) (expected got : UInt32) : Comparison :=
  if got ≠ expected then
    { mismatches := c.mismatches + 1
      first := if c.mismatches = 0 then some (i, expected, got) else c.first }
  else c

/-- One turn of the comparison. -/
def Comparison.turn (readback : Words) (c : Comparison) (i : Nat) : Comparison :=
  c.note i (markerBase + i.toUInt32) (readback i)

def compareReadback (readback : Words) : Comparison :=
  (List.range totalSubmissions).foldl (Comparison.turn readback) ⟨0, none⟩

/-- What `main` returns. -/
def Probe.exitCode (s : Probe) : Int32 :=
  if (compareReadback s.readback).mismatches ≠ 0 ∨ s.gateFailures ≠ 0 then 1 else 0

theorem compareReadback_of_copied {readback : Words}
    (h : ∀ i < totalSubmissions, readback i = uploadMapped i) :
    compareReadback readback = ⟨0, none⟩ := by
  unfold compareReadback
  -- induction on the number of turns
  have hturns : ∀ n ≤ totalSubmissions,
      (List.range n).foldl (Comparison.turn readback) ⟨0, none⟩ = ⟨0, none⟩ := by
    intro n
    induction n with
    | zero => exact fun _ => rfl
    | succ n ih =>
      intro hn
      rw [List.range_succ, List.foldl_append, ih (by omega)]
      show Comparison.turn readback ⟨0, none⟩ n = _
      unfold Comparison.turn Comparison.note
      rw [h n (by omega)]
      exact if_neg (fun hne => hne rfl)
  exact hturns totalSubmissions (Nat.le_refl _)

/-! ## The invariant -/

/-- Where the loop is. -/
def LoopInv (s : Probe) : Prop :=
  match s.ring.phase with
  | .idle => s.ring.executed.length = s.i
  | .waitSlot _ offset _ | .reset _ offset =>
    s.ring.executed.length = s.i ∧ s.i < totalSubmissions ∧ offset.toNat = 4 * s.i
  | .executeCommandLists slot offset =>
    s.ring.executed.length = s.i ∧ s.i < totalSubmissions ∧ offset.toNat = 4 * s.i ∧
      s.recorded slot = offset
  | .signal _ _ | .submitted _ _ => s.ring.executed.length = s.i + 1
  | .waitFlush _ | .flushed => s.ring.executed.length = s.i ∧ s.i = totalSubmissions
  | .exited => True

structure ProbeInv (s : Probe) : Prop where
  ring : RingInv s.ring
  gate : GatePassed s.ring
  loop : LoopInv s
  few : s.ring.executed.length ≤ totalSubmissions
  /-- The submissions copy one word after the other. -/
  offsets : ∀ k submission, s.ring.executed[k]? = some submission →
    submission.offset.toNat = 4 * k
  /-- The lists of the submissions under way are as they were recorded. -/
  recorded : ∀ k submission, s.ring.done ≤ k → s.ring.executed[k]? = some submission →
    s.recorded submission.slot = submission.offset
  copied : ∀ k < s.ring.done, s.readback k = uploadMapped k
  fence : s.ring.completed.toNat ≤ s.ring.signalled.length
  gateFailures : s.gateFailures = 0

theorem probeInv_init {lists : Fin ringSlots → Ptr} (hlists : ∀ slot, lists slot ≠ 0)
    (readback : Words) : ProbeInv (.init lists readback) := by
  refine ⟨ringInv_init lists, ⟨hlists, trivial⟩, rfl, Nat.zero_le _, ?_, ?_, ?_, Nat.le_refl _, rfl⟩
  · intro k submission hk
    cases hk
  · intro k submission _ hk
    cases hk
  · intro k hk
    exact absurd hk (Nat.not_lt_zero k)

theorem ProbeInv.at_phase {s : Probe} (h : ProbeInv s) {p : RingPhase} (hphase : s.ring.phase = p) :
    LoopInv { s with ring := s.ring.moved p } := by
  subst hphase
  exact h.loop

/-- The CPU moves on without touching anything else. -/
theorem ProbeInv.moved {s : Probe} (h : ProbeInv s) {p : RingPhase}
    (hring : RingInv (s.ring.moved p)) (hgate : GatePassed (s.ring.moved p))
    (hloop : LoopInv { s with ring := s.ring.moved p }) :
    ProbeInv { s with ring := s.ring.moved p } :=
  ⟨hring, hgate, hloop, h.few, h.offsets, h.recorded, h.copied, h.fence, h.gateFailures⟩

/-! ### The copies -/

theorem copied_done (s : Probe) : s.copied s.ring.done = s.readback := by
  unfold Probe.copied
  rw [List.drop_eq_nil_of_le (List.length_take_le _ _)]
  rfl

/-- One more submission, and its word is copied. -/
theorem ProbeInv.copied_succ {s : Probe} (h : ProbeInv s) {k : Nat} (hdone : s.ring.done ≤ k)
    (hk : k < s.ring.executed.length) :
    s.copied (k + 1) = Function.update (s.copied k) k (uploadMapped k) := by
  have hsubmission := List.getElem?_eq_getElem hk
  have hoffset := h.offsets k _ hsubmission
  have hindex : s.ring.executed[k].offset.toNat / 4 = k := by omega
  have hmore : (s.ring.executed.take (k + 1)).drop s.ring.done
      = (s.ring.executed.take k).drop s.ring.done ++ [s.ring.executed[k]] := by
    rw [List.take_succ_eq_append_getElem hk, List.drop_append_of_le_length]
    rw [List.length_take]
    omega
  unfold Probe.copied
  rw [hmore, List.foldl_append]
  show copyWord _ (s.recorded s.ring.executed[k].slot) = _
  rw [h.recorded k _ hdone hsubmission, copyWord, hindex]

/-- What is completed was copied. Induction on the submissions completed since. -/
theorem ProbeInv.copied_of_lt {s : Probe} (h : ProbeInv s) {done : Nat} (hdone : s.ring.done ≤ done)
    (hexecuted : done ≤ s.ring.executed.length) :
    ∀ k < done, s.copied done k = uploadMapped k := by
  induction done, hdone using Nat.le_induction with
  | base =>
    rw [copied_done]
    exact h.copied
  | succ done hdone ih =>
    intro k hk
    rw [h.copied_succ hdone (by omega)]
    by_cases hlast : k = done
    · rw [hlast, Function.update_self]
    · rw [Function.update_of_ne hlast]
      exact ih (by omega) k (by omega)

theorem ProbeInv.progress {s : Probe} (h : ProbeInv s) {done : Nat} {completed : UInt64}
    (hpromise : QueuePromise s.ring (.progress done completed)) (thread : UInt32) :
    ProbeInv (probeStep thread s (.progress done completed)) := by
  obtain ⟨hdone, hexecuted, -, hlast, -⟩ := id hpromise
  have hfence := Nat.le_trans (UInt64.le_iff_toNat_le.mp hlast) (toNat_getLastD_le h.ring)
  refine ⟨h.ring.progress hpromise, h.gate, h.loop, h.few, h.offsets, ?_,
    h.copied_of_lt hdone hexecuted, hfence, h.gateFailures⟩
  intro k submission hk
  exact h.recorded k submission (Nat.le_trans hdone hk)

/-! ### The steps of `main` -/

theorem toNat_offset {i : Nat} (h : i < totalSubmissions) : (i.toUInt64 * 4).toNat = 4 * i := by
  unfold totalSubmissions at h
  rw [UInt64.toNat_mul]
  show i % 2 ^ 64 * 4 % 2 ^ 64 = 4 * i
  omega

/-- What the ring and the gate keep in a step of `main`. -/
theorem ProbeInv.ring_next {s : Probe} (h : ProbeInv s) (thread : UInt32)
    (hfew : (ringStep s.ring (s.nextRing thread)).executed.length < 2 ^ 64) :
    RingInv (ringStep s.ring (s.nextRing thread)) ∧
      GatePassed (ringStep s.ring (s.nextRing thread)) := by
  refine ⟨h.ring.step ?_ hfew, h.gate.step _⟩
  unfold Probe.nextRing
  split
  case h_1 => split <;> trivial
  all_goals trivial

theorem ProbeInv.few_lt {s : Probe} (h : ProbeInv s) : s.ring.executed.length < 2 ^ 64 :=
  Nat.lt_of_le_of_lt h.few (by decide)

theorem ProbeInv.submit_step {s : Probe} (h : ProbeInv s) (thread : UInt32)
    (hidle : s.ring.phase = .idle) : ProbeInv (probeStep thread s .next) := by
  have hi : s.ring.executed.length = s.i := h.at_phase hidle
  have hfew := h.few
  have hnext := h.ring_next thread
  unfold probeStep
  simp only [Probe.nextRing, hidle] at hnext ⊢
  split
  case isTrue hmore =>
    rw [if_pos hmore] at hnext
    simp only [ringStep, hidle] at hnext ⊢
    split
    case isTrue hused =>
      rw [if_pos hused] at hnext
      obtain ⟨hring, hgate⟩ := hnext h.few_lt
      exact h.moved hring hgate ⟨hi, hmore, toNat_offset hmore⟩
    case isFalse hunused =>
      rw [if_neg hunused] at hnext
      obtain ⟨hring, hgate⟩ := hnext h.few_lt
      exact h.moved hring hgate ⟨hi, hmore, toNat_offset hmore⟩
  case isFalse hall =>
    rw [if_neg hall] at hnext
    simp only [ringStep, hidle] at hnext ⊢
    have hlast : s.i = totalSubmissions := by omega
    split
    case isTrue hused =>
      rw [if_pos hused] at hnext
      obtain ⟨hring, hgate⟩ := hnext h.few_lt
      exact h.moved hring hgate ⟨hi, hlast⟩
    case isFalse hunused =>
      rw [if_neg hunused] at hnext
      obtain ⟨hring, hgate⟩ := hnext h.few_lt
      exact h.moved hring hgate ⟨hi, hlast⟩

theorem ProbeInv.waitSlot_step {s : Probe} (h : ProbeInv s) (thread : UInt32)
    {slot : Fin ringSlots} {offset target : UInt64}
    (hwait : s.ring.phase = .waitSlot slot offset target) :
    ProbeInv (probeStep thread s .next) := by
  have hloop := h.at_phase hwait
  have hnext := h.ring_next thread
  unfold probeStep
  simp only [Probe.nextRing, hwait, ringStep] at hnext ⊢
  split
  case isTrue hreached =>
    rw [if_pos hreached] at hnext
    obtain ⟨hring, hgate⟩ := hnext h.few_lt
    exact h.moved hring hgate hloop
  case isFalse => exact h

theorem ProbeInv.waitFlush_step {s : Probe} (h : ProbeInv s) (thread : UInt32) {target : UInt64}
    (hwait : s.ring.phase = .waitFlush target) : ProbeInv (probeStep thread s .next) := by
  have hloop := h.at_phase hwait
  have hnext := h.ring_next thread
  unfold probeStep
  simp only [Probe.nextRing, hwait, ringStep] at hnext ⊢
  split
  case isTrue hreached =>
    rw [if_pos hreached] at hnext
    obtain ⟨hring, hgate⟩ := hnext h.few_lt
    exact h.moved hring hgate hloop
  case isFalse => exact h

/-- The list is recorded anew: what went through the slot before is completed. -/
theorem ProbeInv.reset_step {s : Probe} (h : ProbeInv s) (thread : UInt32)
    {slot : Fin ringSlots} {offset : UInt64} (hreset : s.ring.phase = .reset slot offset) :
    ProbeInv (probeStep thread s .next) := by
  obtain ⟨hi, hmore, hoffset⟩ : s.ring.executed.length = s.i ∧ s.i < totalSubmissions ∧
      offset.toNat = 4 * s.i := h.at_phase hreset
  have hcompleted := h.ring.safe.reset slot offset hreset
  have hnext := h.ring_next thread
  unfold probeStep
  simp only [Probe.nextRing, hreset, ringStep] at hnext ⊢
  obtain ⟨hring, hgate⟩ := hnext h.few_lt
  refine ⟨hring, hgate, ⟨hi, hmore, hoffset, Function.update_self _ _ _⟩, h.few, h.offsets, ?_,
    h.copied, h.fence, h.gateFailures⟩
  intro k submission hk hsubmission
  have hother : submission.slot ≠ slot := by
    intro hsame
    exact absurd (hcompleted k submission hsubmission hsame) (Nat.not_lt.mpr hk)
  show Function.update s.recorded slot offset submission.slot = _
  rw [Function.update_of_ne hother]
  exact h.recorded k submission hk hsubmission

theorem ProbeInv.execute_step {s : Probe} (h : ProbeInv s) (thread : UInt32)
    {slot : Fin ringSlots} {offset : UInt64}
    (hexecute : s.ring.phase = .executeCommandLists slot offset) :
    ProbeInv (probeStep thread s .next) := by
  obtain ⟨hi, hmore, hoffset, hrecorded⟩ : s.ring.executed.length = s.i ∧
      s.i < totalSubmissions ∧ offset.toNat = 4 * s.i ∧ s.recorded slot = offset :=
    h.at_phase hexecute
  have hnext := h.ring_next thread
  unfold probeStep
  simp only [Probe.nextRing, hexecute, ringStep] at hnext ⊢
  have hlength : (s.ring.executed ++ [(⟨slot, offset⟩ : Submission)]).length = s.i + 1 := by
    rw [List.length_append, hi]
    rfl
  -- the last submission is the one that was recorded just now
  have hsplit : ∀ k submission,
      (s.ring.executed ++ [(⟨slot, offset⟩ : Submission)])[k]? = some submission →
        s.ring.executed[k]? = some submission ∨ (k = s.i ∧ submission = ⟨slot, offset⟩) := by
    intro k submission hk
    rw [List.getElem?_append] at hk
    split at hk
    case isTrue => exact Or.inl hk
    case isFalse hnew =>
      obtain ⟨hlt, rfl⟩ := List.getElem?_eq_some_iff.mp hk
      rw [List.length_singleton] at hlt
      exact Or.inr ⟨by omega, List.getElem_singleton hlt⟩
  obtain ⟨hring, hgate⟩ := hnext (by
    show (s.ring.executed ++ [(⟨slot, offset⟩ : Submission)]).length < _
    have hfew := h.few_lt
    unfold totalSubmissions at hmore
    omega)
  refine ⟨hring, hgate, hlength, ?_, ?_, ?_, h.copied, h.fence, h.gateFailures⟩
  · show (s.ring.executed ++ [(⟨slot, offset⟩ : Submission)]).length ≤ _
    omega
  · intro k submission hk
    rcases hsplit k submission hk with hold | ⟨rfl, rfl⟩
    · exact h.offsets k submission hold
    · exact hoffset
  · intro k submission hk hsubmission
    rcases hsplit k submission hsubmission with hold | ⟨rfl, rfl⟩
    · exact h.recorded k submission hk hold
    · exact hrecorded

theorem ProbeInv.signal_step {s : Probe} (h : ProbeInv s) (thread : UInt32)
    {slot : Fin ringSlots} {gateOk : Bool} (hsignal : s.ring.phase = .signal slot gateOk) :
    ProbeInv (probeStep thread s .next) := by
  have hloop := h.at_phase hsignal
  have hnext := h.ring_next thread
  unfold probeStep
  simp only [Probe.nextRing, hsignal, ringStep] at hnext ⊢
  obtain ⟨hring, hgate⟩ := hnext h.few_lt
  refine ⟨hring, hgate, hloop, h.few, h.offsets, h.recorded, h.copied, ?_, h.gateFailures⟩
  show s.ring.completed.toNat ≤ (s.ring.signalled ++ [s.ring.ring.value + 1]).length
  rw [List.length_append]
  exact Nat.le_add_right_of_le h.fence

theorem ProbeInv.submitted_step {s : Probe} (h : ProbeInv s) (thread : UInt32)
    {value : UInt64} {gateOk : Bool} (hsubmitted : s.ring.phase = .submitted value gateOk) :
    ProbeInv (probeStep thread s .next) := by
  have hloop := h.at_phase hsubmitted
  have hgateOk := h.gate.2
  rw [hsubmitted] at hgateOk
  have hnext := h.ring_next thread
  unfold probeStep
  simp only [Probe.nextRing, hsubmitted, ringStep] at hnext ⊢
  obtain ⟨hring, hgate⟩ := hnext h.few_lt
  refine ⟨hring, hgate, hloop, h.few, h.offsets, h.recorded, h.copied, h.fence, ?_⟩
  show s.gateFailures + (if gateOk then 0 else 1) = 0
  rw [h.gateFailures, if_pos hgateOk]

/-- **One step** keeps the invariant. -/
theorem ProbeInv.step {s : Probe} (h : ProbeInv s) (thread : UInt32) {a : ProbeAct}
    (hpromise : ProbePromise s a) : ProbeInv (probeStep thread s a) := by
  cases a with
  | next =>
    cases hp : s.ring.phase with
    | idle => exact h.submit_step thread hp
    | waitSlot slot offset target => exact h.waitSlot_step thread hp
    | reset slot offset => exact h.reset_step thread hp
    | executeCommandLists slot offset => exact h.execute_step thread hp
    | signal slot gateOk => exact h.signal_step thread hp
    | submitted value gateOk => exact h.submitted_step thread hp
    | waitFlush target => exact h.waitFlush_step thread hp
    | flushed => simpa only [probeStep, hp] using h
    | exited =>
      have hnext := h.ring_next thread
      unfold probeStep
      simp only [Probe.nextRing, hp, ringStep] at hnext ⊢
      obtain ⟨hring, hgate⟩ := hnext h.few_lt
      exact h.moved hring hgate trivial
  | fatal => exact h.moved (h.ring.moved trivial) (h.gate.step .fatal) trivial
  | progress done completed => exact h.progress hpromise thread

/-! ## The check is reached -/

/-- The steps left of a call. -/
def RingPhase.left : RingPhase → Nat
  | .idle => 6
  | .waitSlot _ _ _ | .waitFlush _ => 5
  | .reset _ _ => 4
  | .executeCommandLists _ _ => 3
  | .signal _ _ => 2
  | .submitted _ _ => 1
  | .flushed | .exited => 0

/-- The steps left of `main`, as long as the GPU keeps up. -/
def Probe.left (s : Probe) : Nat := 8 * (totalSubmissions - s.i) + s.ring.phase.left

/-- The GPU has completed everything, and its fence is at the last value. -/
def Probe.KeptUp (s : Probe) : Prop := s.ring.signalled.length ≤ s.ring.completed.toNat

/-- A value that was signalled is reached. -/
theorem Probe.KeptUp.reached {s : Probe} (hup : s.KeptUp) {target : UInt64}
    (htarget : target.toNat ≤ s.ring.signalled.length) : s.ring.completed ≥ target :=
  UInt64.le_iff_toNat_le.mpr (Nat.le_trans htarget hup)

theorem ProbeInv.ringValues_le {s : Probe} (h : ProbeInv s) (slot : Fin ringSlots) :
    (s.ring.ring.ringValues slot).toNat ≤ s.ring.signalled.length := by
  have hleft := h.ring.leftWith slot
  unfold LeftWith at hleft
  omega

/-- When the GPU has kept up, `main` gets on. -/
theorem ProbeInv.left_lt {s : Probe} (h : ProbeInv s) (hup : s.KeptUp) (thread : UInt32)
    (hcheck : s.ring.phase ≠ .flushed) (hexited : s.ring.phase ≠ .exited) :
    (probeStep thread s .next).left < s.left ∧
      (probeStep thread s .next).ring.phase ≠ .exited := by
  have hfew := h.few
  cases hp : s.ring.phase with
  | idle =>
    simp only [probeStep, Probe.left, Probe.nextRing, hp]
    by_cases hmore : s.i < totalSubmissions
    · simp only [if_pos hmore, ringStep, hp]
      split <;> simp [RingRun.moved, RingPhase.left]
    · simp only [if_neg hmore, ringStep, hp]
      split <;> simp [RingRun.moved, RingPhase.left]
  | waitSlot slot offset target =>
    obtain ⟨-, hslot, htarget⟩ : s.ring.executed.length = s.ring.signalled.length ∧
      slot = slotOf s.ring.ring.value ∧ target = s.ring.ring.ringValues slot := h.ring.at_phase hp
    have hreached : s.ring.completed ≥ target :=
      hup.reached (by rw [htarget]; exact h.ringValues_le slot)
    simp [probeStep, Probe.left, Probe.nextRing, hp, ringStep, hreached, RingRun.moved,
      RingPhase.left]
  | waitFlush target =>
    obtain ⟨-, htarget⟩ : s.ring.executed.length = s.ring.signalled.length ∧
      target = s.ring.ring.value := h.ring.at_phase hp
    have hreached : s.ring.completed ≥ target :=
      hup.reached (by rw [htarget, h.ring.value])
    simp [probeStep, Probe.left, Probe.nextRing, hp, ringStep, hreached, RingRun.moved,
      RingPhase.left]
  | reset slot offset =>
    simp [probeStep, Probe.left, Probe.nextRing, hp, ringStep, RingRun.moved, RingPhase.left]
  | executeCommandLists slot offset =>
    simp [probeStep, Probe.left, Probe.nextRing, hp, ringStep, RingRun.moved, RingPhase.left]
  | signal slot gateOk =>
    simp [probeStep, Probe.left, Probe.nextRing, hp, ringStep, RingRun.moved, RingPhase.left]
  | submitted value gateOk =>
    have hi : s.ring.executed.length = s.i + 1 := h.at_phase hp
    simp only [probeStep, Probe.left, Probe.nextRing, hp, ringStep, RingRun.moved,
      RingPhase.left]
    refine ⟨by omega, ?_⟩
    intro hnever
    cases hnever
  | flushed => exact absurd hp hcheck
  | exited => exact absurd hp hexited

/-- The GPU catches up. -/
def Probe.catchUp (s : Probe) : ProbeAct :=
  .progress s.ring.executed.length s.ring.ring.value

theorem ProbeInv.catchUp {s : Probe} (h : ProbeInv s) (hexited : s.ring.phase ≠ .exited) :
    ProbePromise s s.catchUp := by
  have hlength : s.ring.signalled.length ≤ s.ring.executed.length := by
    have hphase := h.ring.phase
    unfold PhaseInv at hphase
    cases hp : s.ring.phase <;> simp only [hp] at hphase <;> first | omega | exact absurd hp hexited
  have hlast : s.ring.ring.value ≤ s.ring.signalled.getLastD 0 := by
    rw [List.getLastD_eq_getLast?, List.getLast?_eq_getElem?]
    have hvalue := h.ring.value
    cases hlast : s.ring.signalled[s.ring.signalled.length - 1]? with
    | none =>
      have hnone := List.getElem?_eq_none_iff.mp hlast
      apply UInt64.le_iff_toNat_le.mpr
      omega
    | some v =>
      have hv := h.ring.signalled _ v hlast
      apply UInt64.le_iff_toNat_le.mpr
      show s.ring.ring.value.toNat ≤ v.toNat
      omega
  refine ⟨h.ring.done, Nat.le_refl _, ?_, hlast, fun k _ => Nat.lt_of_lt_of_le k.isLt hlength⟩
  apply UInt64.le_iff_toNat_le.mpr
  rw [h.ring.value]
  exact h.fence

/-- There is a way to the check. Induction on the steps left. -/
theorem ProbeInv.finishes {s : Probe} (h : ProbeInv s) (thread : UInt32)
    (hexited : s.ring.phase ≠ .exited) :
    ∃ more, Along (probeStep thread) ProbePromise s more ∧
      (run (probeStep thread) s more).ring.phase = .flushed := by
  by_cases hcheck : s.ring.phase = .flushed
  · exact ⟨[], trivial, hcheck⟩
  · have hpromise := h.catchUp hexited
    have hcaught := h.step thread hpromise
    have hup : (probeStep thread s s.catchUp).KeptUp := by
      show s.ring.signalled.length ≤ s.ring.ring.value.toNat
      rw [h.ring.value]
    obtain ⟨hleft, hnext⟩ := hcaught.left_lt hup thread hcheck hexited
    have hless : (probeStep thread (probeStep thread s s.catchUp) .next).left < s.left := hleft
    obtain ⟨more, halong, hflushed⟩ := (hcaught.step thread (a := .next) trivial).finishes thread
      hnext
    exact ⟨s.catchUp :: .next :: more, ⟨hpromise, trivial, halong⟩, hflushed⟩
termination_by s.left

/-- What `main` finds at its comparison. -/
structure ProbePasses (s : Probe) : Prop where
  submitted : s.ring.executed.length = totalSubmissions
  compared : compareReadback s.readback = ⟨0, none⟩
  exitCode : s.exitCode = 0

theorem ProbeInv.passes {s : Probe} (h : ProbeInv s) (hflushed : s.ring.phase = .flushed) :
    ProbePasses s := by
  obtain ⟨hi, hall⟩ : s.ring.executed.length = s.i ∧ s.i = totalSubmissions := h.at_phase hflushed
  have hdone := h.ring.safe.flushed hflushed
  have hcompared : compareReadback s.readback = ⟨0, none⟩ := by
    apply compareReadback_of_copied
    intro k hk
    exact h.copied k (by omega)
  refine ⟨by omega, hcompared, ?_⟩
  unfold Probe.exitCode
  rw [hcompared, h.gateFailures]
  rfl

/-- **A queue that keeps its promise passes the probe.** However it gets on between the steps of
`main`, the comparison finds all forty words copied, and no submission failed the gate; so a failure
is the queue's. The waits do not hang: unless a call has failed, there is always a way on to the
comparison. -/
theorem probe_passes {lists : Fin ringSlots → Ptr} (hlists : ∀ slot, lists slot ≠ 0)
    (readback : Words) (thread : UInt32) (acts : List ProbeAct)
    (hgpu : Along (probeStep thread) ProbePromise (.init lists readback) acts) :
    let s := run (probeStep thread) (.init lists readback) acts
    (s.ring.phase = .flushed → ProbePasses s) ∧
      (s.ring.phase ≠ .exited →
        ∃ more, Along (probeStep thread) ProbePromise s more ∧
          (run (probeStep thread) s more).ring.phase = .flushed) := by
  intro s
  have hinv : ProbeInv s :=
    (always_of_along (fun _ _ h hpromise => h.step thread hpromise)
      (probeInv_init hlists readback) hgpu).last
  exact ⟨hinv.passes, hinv.finishes thread⟩

theorem probe_passes_atTheEnd :
    let start : Probe := .init (fun _ => 0x1000) fun _ => 0
    ∃ acts, Along (probeStep 1) ProbePromise start acts ∧
      ProbePasses (run (probeStep 1) start acts) := by
  intro start
  have hlists : ∀ _ : Fin ringSlots, (0x1000 : Ptr) ≠ 0 := fun _ => by decide
  have hexited : start.ring.phase ≠ .exited := nofun
  obtain ⟨acts, hgpu, hflushed⟩ := (probe_passes hlists (fun _ => 0) 1 [] trivial).2 hexited
  exact ⟨acts, hgpu, (probe_passes hlists (fun _ => 0) 1 acts hgpu).1 hflushed⟩

end HipBridge.Investigations
