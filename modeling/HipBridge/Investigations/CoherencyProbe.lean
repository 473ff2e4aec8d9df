import HipBridge.Investigations.FaithfulProbe
import HipBridge.Lib.Simulation
import Mathlib.Data.List.Nodup

/-!
# The coherency probe (`investigations/readback_coherency_probe.c`)

Two hundred times `main` writes a marker, has the GPU copy it to a readback buffer, waits for the
fence, and compares what the CPU sees there. The CPU may see something else than what is in the
buffer; the probe is to tell that, and only that.

* **`coherencyStep`** — the steps of `main`, and the progress of the GPU.
* **`observe`** — what someone who can look into the buffer would note.
* **`CoherencyInv`** — the invariant: where `main` reads, the marker is in the buffer.
* **`coherency_verdict`** — on a queue that keeps its promise the probe notes exactly the readings
  in which the CPU saw something else than what was there.
-/

namespace HipBridge.Investigations.CoherencyProbe

open Lib

/-- `ITERATIONS`. -/
def iterations : Nat := 200

/-- The marker of an iteration. -/
def marker (i : Nat) : UInt32 := 1000 + i.toUInt32

/-- Where `main` is: at the head of its loop, or in front of a call of D3D12. -/
inductive Phase
  | idle
  /-- In front of the two calls of `Reset`, with the marker written. -/
  | reset
  | executeCommandLists
  /-- In `wait_for_queue`. -/
  | signal
  | wait
  | map
  | finished
  /-- After `exit(1)`. -/
  | exited
deriving DecidableEq

structure Coherency where
  phase : Phase
  i : Nat
  /-- The word of the upload buffer. -/
  upload : UInt32
  /-- The word of the readback buffer, as the GPU has it. -/
  readback : UInt32
  fenceValue : UInt64
  /-- How many lists the queue has been given. -/
  executed : Nat
  /-- The fence values signalled behind them, oldest first. -/
  signalled : List UInt64
  done : Nat
  completed : UInt64
  verdict : Comparison

/-- In front of the loop; nothing is known of the two buffers. -/
def Coherency.init (upload readback : UInt32) : Coherency :=
  ⟨.idle, 0, upload, readback, 0, 0, [], 0, 0, ⟨0, none⟩⟩

inductive CoherencyAct
  /-- The next step of `main`, unless it is to read. -/
  | next
  /-- `main` reads the readback buffer, and this is what it sees. -/
  | read (got : UInt32)
  /-- A call failed. -/
  | fatal
  /-- The GPU: how many lists it has completed, and the fence's completed value. -/
  | progress (done : Nat) (completed : UInt64)

def coherencyStep (s : Coherency) : CoherencyAct → Coherency
  | .next =>
    match s.phase with
    | .idle =>
      if s.i < iterations then { s with upload := marker s.i, phase := .reset }
      else { s with phase := .finished }
    -- every iteration records the same copy
    | .reset => { s with phase := .executeCommandLists }
    | .executeCommandLists => { s with executed := s.executed + 1, phase := .signal }
    | .signal =>
      let value := s.fenceValue + 1
      { s with fenceValue := value, signalled := s.signalled ++ [value], phase := .wait }
    | .wait => if s.completed < s.fenceValue then s else { s with phase := .map }
    | .map | .finished | .exited => s
  | .read got =>
    match s.phase with
    | .map =>
      { s with verdict := s.verdict.note s.i (marker s.i) got, i := s.i + 1, phase := .idle }
    | _ => s
  | .fatal => { s with phase := .exited }
  | .progress done completed =>
    { s with
      done
      completed
      readback := if s.done < done then s.upload else s.readback }

/-- What `main` returns. -/
def Coherency.exitCode (s : Coherency) : Int32 := if s.verdict.mismatches ≠ 0 then 1 else 0

/-- What is assumed of the queue and its fence. -/
def CopyPromise (s : Coherency) : CoherencyAct → Prop
  | .progress done completed =>
    s.done ≤ done ∧ done ≤ s.executed ∧ s.completed ≤ completed ∧
      completed ≤ s.signalled.getLastD 0 ∧
      -- a value is reached behind the list it was signalled behind
      ∀ k : Fin s.signalled.length, s.signalled[k] ≤ completed → k < done
  | _ => True

instance (s : Coherency) : ∀ a, Decidable (CopyPromise s a)
  | .progress done completed => inferInstanceAs (Decidable (
    s.done ≤ done ∧ done ≤ s.executed ∧ s.completed ≤ completed ∧
      completed ≤ s.signalled.getLastD 0 ∧
      ∀ k : Fin s.signalled.length, s.signalled[k] ≤ completed → k < done))
  | .next | .read _ | .fatal => .isTrue trivial

/-! ## The readings -/

/-- What the CPU sees, and what is in the buffer. -/
structure Reading where
  got : UInt32
  readback : UInt32

def Reading.stale (r : Reading) : Bool := r.got ≠ r.readback

/-- The readings of a step. -/
def readings (s : Coherency) : CoherencyAct → List Reading
  | .read got =>
    match s.phase with
    | .map => [⟨got, s.readback⟩]
    | _ => []
  | _ => []

/-- What someone who can look into the buffer notes: what is there, and where the CPU sees something
else. -/
def observe (o : List UInt32 × Comparison) (r : Reading) : List UInt32 × Comparison :=
  (o.1 ++ [r.readback], o.2.note o.1.length r.readback r.got)

/-- The first reading in which the CPU saw something else. -/
def firstStale (rs : List Reading) : Option (Nat × UInt32 × UInt32) :=
  (rs.zipIdx.find? (·.1.stale)).map fun r => (r.2, r.1.readback, r.1.got)

theorem firstStale_eq_none {rs : List Reading} (h : rs.countP Reading.stale = 0) :
    firstStale rs = none := by
  rw [List.countP_eq_zero] at h
  unfold firstStale
  rw [Option.map_eq_none_iff, List.find?_eq_none]
  intro r hr
  exact h r.1 (List.fst_mem_of_mem_zipIdx hr)

theorem firstStale_ne_none {rs : List Reading} (h : rs.countP Reading.stale ≠ 0) :
    ∃ r, firstStale rs = some r := by
  obtain ⟨r, hr, hstale⟩ := List.countP_pos_iff.mp (Nat.pos_of_ne_zero h)
  obtain ⟨i, hi, hget⟩ := List.getElem_of_mem hr
  have hmem : (r, i) ∈ rs.zipIdx := by
    rw [List.mem_zipIdx_iff_getElem?, ← hget]
    exact List.getElem?_eq_getElem hi
  have hsome : (rs.zipIdx.find? (·.1.stale)).isSome := List.find?_isSome.mpr ⟨_, hmem, hstale⟩
  obtain ⟨x, hx⟩ := Option.isSome_iff_exists.mp hsome
  exact ⟨_, by rw [firstStale, hx]; rfl⟩

theorem firstStale_concat (rs : List Reading) (r : Reading) :
    firstStale (rs ++ [r])
      = (firstStale rs).or (if r.stale then some (rs.length, r.readback, r.got) else none) := by
  unfold firstStale
  rw [List.zipIdx_append, List.find?_append, Option.map_or]
  congr 1
  cases hstale : r.stale <;> simp [hstale]

/-- Induction from the last reading. -/
theorem run_observe (rs : List Reading) :
    run observe ([], ⟨0, none⟩) rs
      = (rs.map Reading.readback, ⟨rs.countP Reading.stale, firstStale rs⟩) := by
  induction rs using List.reverseRecOn with
  | nil => rfl
  | append_singleton rs r ih =>
    rw [run_append, ih, firstStale_concat, List.map_append, List.countP_append]
    show (_ ++ [r.readback], Comparison.note _ (rs.map Reading.readback).length _ _) = _
    rw [List.length_map, Comparison.note]
    by_cases hstale : r.got ≠ r.readback
    · have hr : r.stale = true := decide_eq_true hstale
      rw [if_pos hstale, hr, if_pos rfl]
      by_cases hnone : rs.countP Reading.stale = 0
      · rw [if_pos hnone, firstStale_eq_none hnone, List.countP_singleton, hr]
        rfl
      · obtain ⟨first, hfirst⟩ := firstStale_ne_none hnone
        rw [if_neg hnone, hfirst, List.countP_singleton, hr]
        rfl
    · have hr : r.stale = false := decide_eq_false hstale
      rw [if_neg hstale, hr, List.countP_singleton, hr]
      simp

/-! ## The invariant -/

/-- A list is with the queue; once it is completed the marker is in the buffer. -/
structure UnderWay (s : Coherency) : Prop where
  executed : s.executed = s.i + 1
  i : s.i < iterations
  upload : s.upload = marker s.i
  done : s.i ≤ s.done ∧ s.done ≤ s.i + 1
  readback : s.done = s.i + 1 → s.readback = marker s.i

/-- What holds when `main` is there. -/
def PhaseInv (s : Coherency) : Phase → Prop
  | .idle => s.signalled.length = s.i ∧ s.executed = s.i ∧ s.done = s.i
  | .reset | .executeCommandLists =>
    s.signalled.length = s.i ∧ s.executed = s.i ∧ s.done = s.i ∧ s.i < iterations ∧
      s.upload = marker s.i
  | .signal => s.signalled.length = s.i ∧ UnderWay s
  | .wait => s.signalled.length = s.i + 1 ∧ UnderWay s
  | .map => s.signalled.length = s.i + 1 ∧ s.done = s.i + 1 ∧ UnderWay s
  | .finished => s.i = iterations
  | .exited => True

structure CoherencyInv (s : Coherency) : Prop where
  value : s.fenceValue.toNat = s.signalled.length
  /-- The fence values are `1, 2, …`. -/
  signalled : ∀ k v, s.signalled[k]? = some v → v.toNat = k + 1
  last : s.signalled.getLastD 0 = s.fenceValue
  fence : s.completed.toNat ≤ s.done ∧ s.completed ≤ s.fenceValue
  few : s.i ≤ iterations
  phase : PhaseInv s s.phase

theorem coherencyInv_init (upload readback : UInt32) : CoherencyInv (.init upload readback) := by
  refine ⟨rfl, ?_, rfl, ⟨Nat.le_refl _, UInt64.le_refl _⟩, Nat.zero_le _, rfl, rfl, rfl⟩
  intro k v hk
  cases hk

theorem CoherencyInv.at_phase {s : Coherency} (h : CoherencyInv s) {p : Phase}
    (hphase : s.phase = p) : PhaseInv s p := by
  subst hphase
  exact h.phase

/-- `main` moves on without touching anything else. -/
theorem CoherencyInv.moved {s : Coherency} (h : CoherencyInv s) {p : Phase}
    (hphase : PhaseInv { s with phase := p } p) : CoherencyInv { s with phase := p } :=
  ⟨h.value, h.signalled, h.last, h.fence, h.few, hphase⟩

/-- What the fence has reached is completed. -/
theorem CoherencyInv.reached {s : Coherency} (h : CoherencyInv s) {done : Nat} {completed : UInt64}
    (hpromise : CopyPromise s (.progress done completed)) :
    completed.toNat ≤ done ∧ completed ≤ s.fenceValue := by
  obtain ⟨-, -, -, hlast, hreached⟩ := hpromise
  rw [h.last] at hlast
  refine ⟨?_, hlast⟩
  have hvalue := h.value
  have hle := UInt64.le_iff_toNat_le.mp hlast
  by_contra hahead
  -- the list the value was signalled behind
  have hk : completed.toNat - 1 < s.signalled.length := by omega
  have hv := h.signalled _ _ (List.getElem?_eq_getElem hk)
  have hlt : completed.toNat - 1 < done := by
    apply hreached ⟨completed.toNat - 1, hk⟩
    apply UInt64.le_iff_toNat_le.mpr
    show s.signalled[completed.toNat - 1].toNat ≤ _
    omega
  omega

/-- The GPU gets on with the list: the marker is in the buffer once it is done. -/
theorem UnderWay.progress {s : Coherency} (h : UnderWay s) {done : Nat} {completed : UInt64}
    (hpromise : CopyPromise s (.progress done completed)) :
    UnderWay (coherencyStep s (.progress done completed)) := by
  obtain ⟨hdone, hexecuted, -⟩ := hpromise
  have hlist := h.executed
  have hbetween := h.done
  refine ⟨hlist, h.i, h.upload, ?_, ?_⟩
  · show s.i ≤ done ∧ done ≤ s.i + 1
    omega
  · intro hcompleted
    change done = s.i + 1 at hcompleted
    show (if s.done < done then s.upload else s.readback) = marker s.i
    split
    case isTrue => exact h.upload
    case isFalse => exact h.readback (by omega)

theorem CoherencyInv.progress {s : Coherency} (h : CoherencyInv s) {done : Nat} {completed : UInt64}
    (hpromise : CopyPromise s (.progress done completed)) :
    CoherencyInv (coherencyStep s (.progress done completed)) := by
  obtain ⟨hdone, hexecuted, -⟩ := id hpromise
  refine ⟨h.value, h.signalled, h.last, h.reached hpromise, h.few, ?_⟩
  show PhaseInv (coherencyStep s (.progress done completed)) s.phase
  cases hp : s.phase with
  | idle =>
    obtain ⟨hsignalled, hlists, hcompleted⟩ := h.at_phase hp
    refine ⟨hsignalled, hlists, ?_⟩
    show done = s.i
    omega
  | reset | executeCommandLists =>
    obtain ⟨hsignalled, hlists, hcompleted, hwritten⟩ := h.at_phase hp
    refine ⟨hsignalled, hlists, ?_, hwritten⟩
    show done = s.i
    omega
  | signal | wait =>
    obtain ⟨hsignalled, hway⟩ := h.at_phase hp
    exact ⟨hsignalled, hway.progress hpromise⟩
  | map =>
    obtain ⟨hsignalled, hcompleted, hway⟩ := h.at_phase hp
    have hlist := hway.executed
    refine ⟨hsignalled, ?_, hway.progress hpromise⟩
    show done = s.i + 1
    omega
  | finished | exited => exact h.at_phase hp

theorem CoherencyInv.step {s : Coherency} (h : CoherencyInv s) {a : CoherencyAct}
    (hpromise : CopyPromise s a) : CoherencyInv (coherencyStep s a) := by
  cases a with
  | next =>
    unfold coherencyStep
    cases hp : s.phase with
    | idle =>
      obtain ⟨hsignalled, hexecuted, hdone⟩ := h.at_phase hp
      have hfew := h.few
      dsimp only
      split
      case isTrue hmore =>
        exact ⟨h.value, h.signalled, h.last, h.fence, h.few, hsignalled, hexecuted, hdone, hmore,
          rfl⟩
      case isFalse hlast =>
        apply h.moved
        show s.i = iterations
        omega
    | reset => exact h.moved (h.at_phase hp)
    | executeCommandLists =>
      obtain ⟨hsignalled, hexecuted, hdone, hi, hupload⟩ := h.at_phase hp
      refine ⟨h.value, h.signalled, h.last, h.fence, h.few, hsignalled, ?_, hi, hupload, ?_, ?_⟩
      · show s.executed + 1 = s.i + 1
        omega
      · show s.i ≤ s.done ∧ s.done ≤ s.i + 1
        omega
      · intro hcompleted
        change s.done = s.i + 1 at hcompleted
        omega
    | signal =>
      obtain ⟨hsignalled, hway⟩ := h.at_phase hp
      have hi := hway.i
      have hnext : (s.fenceValue + 1).toNat = s.signalled.length + 1 := by
        have hvalue := h.value
        unfold iterations at hi
        rw [UInt64.toNat_add]
        show (s.fenceValue.toNat + 1) % 2 ^ 64 = _
        omega
      have hlength : (s.signalled ++ [s.fenceValue + 1]).length = s.signalled.length + 1 :=
        List.length_append
      have hmore : s.fenceValue ≤ s.fenceValue + 1 := by
        have hvalue := h.value
        apply UInt64.le_iff_toNat_le.mpr
        omega
      refine ⟨hnext.trans hlength.symm, ?_, List.getLastD_concat, ?_, h.few, ?_, hway.executed,
        hway.i, hway.upload, hway.done, hway.readback⟩
      · intro k v hk
        rw [List.getElem?_append] at hk
        split at hk
        case isTrue => exact h.signalled k v hk
        case isFalse hlast =>
          obtain ⟨hzero, hv⟩ := List.getElem?_eq_some_iff.mp hk
          change k - s.signalled.length < 1 at hzero
          rw [List.getElem_singleton] at hv
          rw [← hv, hnext]
          omega
      · exact ⟨h.fence.1, UInt64.le_trans h.fence.2 hmore⟩
      · show (s.signalled ++ [s.fenceValue + 1]).length = s.i + 1
        omega
    | wait =>
      obtain ⟨hsignalled, hway⟩ := h.at_phase hp
      dsimp only
      split
      case isTrue => exact h
      case isFalse hreached =>
        apply h.moved
        have hfence := h.fence.1
        have hvalue := h.value
        have hle := UInt64.le_iff_toNat_le.mp (UInt64.not_lt.mp hreached)
        have hdone := hway.done
        refine ⟨hsignalled, ?_, hway.executed, hway.i, hway.upload, hway.done, hway.readback⟩
        show s.done = s.i + 1
        omega
    | map | finished | exited =>
      dsimp only
      exact h
  | read got =>
    unfold coherencyStep
    cases hp : s.phase with
    | map =>
      obtain ⟨hsignalled, hdone, hway⟩ := h.at_phase hp
      exact ⟨h.value, h.signalled, h.last, h.fence, hway.i, hsignalled, hway.executed, hdone⟩
    | idle | reset | executeCommandLists | signal | wait | finished | exited => exact h
  | fatal => exact h.moved trivial
  | progress done completed => exact h.progress hpromise

/-- **Where `main` reads, the marker is in the buffer**: it notes what an observer would. -/
theorem CoherencyInv.observed {s : Coherency} (h : CoherencyInv s) (a : CoherencyAct) :
    ((List.range (coherencyStep s a).i).map marker, (coherencyStep s a).verdict)
      = run observe ((List.range s.i).map marker, s.verdict) (readings s a) := by
  cases a with
  | next =>
    unfold coherencyStep
    cases s.phase with
    | idle | wait =>
      dsimp only
      split <;> rfl
    | reset | executeCommandLists | signal | map | finished | exited => rfl
  | read got =>
    unfold coherencyStep readings
    cases hp : s.phase with
    | map =>
      obtain ⟨-, hdone, hway⟩ := h.at_phase hp
      have hreadback : s.readback = marker s.i := hway.readback hdone
      show ((List.range (s.i + 1)).map marker, s.verdict.note s.i (marker s.i) got)
        = ((List.range s.i).map marker ++ [s.readback],
            s.verdict.note ((List.range s.i).map marker).length s.readback got)
      rw [List.range_succ, List.map_append, List.length_map, List.length_range, hreadback]
      rfl
    | idle | reset | executeCommandLists | signal | wait | finished | exited => rfl
  | fatal | progress => rfl

/-! ## The end is reached -/

/-- The steps left of an iteration. -/
def Phase.left : Phase → Nat
  | .idle => 6
  | .reset => 5
  | .executeCommandLists => 4
  | .signal => 3
  | .wait => 2
  | .map => 1
  | .finished | .exited => 0

/-- The steps left of `main`, as long as the GPU keeps up. -/
def Coherency.left (s : Coherency) : Nat := 7 * (iterations - s.i) + s.phase.left

/-- The next step of `main`, when the CPU sees what is there. -/
def Coherency.onward (s : Coherency) : CoherencyAct :=
  match s.phase with
  | .map => .read s.readback
  | _ => .next

/-- The GPU catches up. -/
def Coherency.catchUp (s : Coherency) : CoherencyAct := .progress s.executed s.fenceValue

theorem CoherencyInv.catchUp {s : Coherency} (h : CoherencyInv s) (hfinished : s.phase ≠ .finished)
    (hexited : s.phase ≠ .exited) : CopyPromise s s.catchUp := by
  have hlists : s.done ≤ s.executed ∧ s.signalled.length ≤ s.executed := by
    have hphase := h.phase
    cases hp : s.phase with
    | idle | reset | executeCommandLists =>
      rw [hp] at hphase
      obtain ⟨hsignalled, hexecuted, hdone⟩ := hphase
      omega
    | signal | wait =>
      rw [hp] at hphase
      obtain ⟨hsignalled, hway⟩ := hphase
      have hexecuted := hway.executed
      have hdone := hway.done
      omega
    | map =>
      rw [hp] at hphase
      obtain ⟨hsignalled, hdone, hway⟩ := hphase
      have hexecuted := hway.executed
      omega
    | finished => exact absurd hp hfinished
    | exited => exact absurd hp hexited
  refine ⟨hlists.1, Nat.le_refl _, h.fence.2, ?_, fun k _ => Nat.lt_of_lt_of_le k.isLt hlists.2⟩
  rw [h.last]
  exact UInt64.le_refl _

/-- When the GPU has kept up, `main` gets on. -/
theorem CoherencyInv.left_lt {s : Coherency} (h : CoherencyInv s)
    (hup : s.completed = s.fenceValue) (hfinished : s.phase ≠ .finished)
    (hexited : s.phase ≠ .exited) :
    CopyPromise s s.onward ∧ (coherencyStep s s.onward).left < s.left ∧
      (coherencyStep s s.onward).phase ≠ .exited := by
  have hfew := h.few
  unfold Coherency.onward Coherency.left
  cases hp : s.phase with
  | idle =>
    refine ⟨trivial, ?_⟩
    simp only [coherencyStep, hp]
    split <;> simp [Phase.left]
  | reset | executeCommandLists | signal =>
    refine ⟨trivial, ?_⟩
    simp [coherencyStep, hp, Phase.left]
  | wait =>
    refine ⟨trivial, ?_⟩
    have hreached : ¬ s.completed < s.fenceValue := by
      rw [hup]
      exact UInt64.lt_irrefl _
    simp [coherencyStep, hp, hreached, Phase.left]
  | map =>
    obtain ⟨-, -, hway⟩ := h.at_phase hp
    have hi := hway.i
    refine ⟨trivial, ?_⟩
    simp only [coherencyStep, hp, Phase.left]
    refine ⟨by omega, ?_⟩
    intro hnever
    cases hnever
  | finished => exact absurd hp hfinished
  | exited => exact absurd hp hexited

/-- There is a way to the end. Induction on the steps left. -/
theorem CoherencyInv.finishes {s : Coherency} (h : CoherencyInv s) (hexited : s.phase ≠ .exited) :
    ∃ more, Along coherencyStep CopyPromise s more ∧
      (run coherencyStep s more).phase = .finished := by
  by_cases hfinished : s.phase = .finished
  · exact ⟨[], trivial, hfinished⟩
  · have hcatchUp := h.catchUp hfinished hexited
    have hcaught := h.step hcatchUp
    obtain ⟨hpromise, hleft, hnext⟩ := hcaught.left_lt rfl hfinished hexited
    have hless : (coherencyStep _ (coherencyStep s s.catchUp).onward).left < s.left := hleft
    obtain ⟨more, halong, hend⟩ := (hcaught.step hpromise).finishes hnext
    exact ⟨s.catchUp :: (coherencyStep s s.catchUp).onward :: more, ⟨hcatchUp, hpromise, halong⟩,
      hend⟩
termination_by s.left

theorem marker_injective {i j : Nat} (hi : i < iterations) (hj : j < iterations)
    (h : marker i = marker j) : i = j := by
  unfold iterations at hi hj
  have hsum : (1000 + i) % 2 ^ 32 = (1000 + j) % 2 ^ 32 := by
    have hnat := congrArg UInt32.toNat h
    rw [marker, marker, UInt32.toNat_add, UInt32.toNat_add] at hnat
    change (1000 + i % 2 ^ 32) % 2 ^ 32 = (1000 + j % 2 ^ 32) % 2 ^ 32 at hnat
    omega
  omega

/-- **The verdict is about the CPU's view and nothing else.** On a queue that keeps its promise,
however it gets on between the steps of `main`: every reading finds the marker of its own iteration
in the buffer, no two the same, and the probe counts exactly those in which the CPU saw something
else, and keeps the first. No list is recorded anew while the GPU may still need it. Unless a call
has failed there is always a way to the end; there all two hundred readings are made. -/
theorem coherency_verdict (upload readback : UInt32) (acts : List CoherencyAct)
    (hgpu : Along coherencyStep CopyPromise (.init upload readback) acts) :
    let s := run coherencyStep (.init upload readback) acts
    let rs := history coherencyStep readings (.init upload readback) acts
    (rs.map Reading.readback = (List.range rs.length).map marker ∧
        (rs.map Reading.readback).Nodup) ∧
      s.verdict = ⟨rs.countP Reading.stale, firstStale rs⟩ ∧
      (s.phase = .reset → s.done = s.executed) ∧
      (s.phase = .finished → rs.length = iterations ∧
        (s.exitCode = 0 ↔ ∀ r ∈ rs, r.got = r.readback)) ∧
      (s.phase ≠ .exited → ∃ more, Along coherencyStep CopyPromise s more ∧
        (run coherencyStep s more).phase = .finished) := by
  intro s rs
  have hinv : CoherencyInv s :=
    (always_of_along (fun _ _ h hpromise => h.step hpromise)
      (coherencyInv_init upload readback) hgpu).last
  have hobserved : ((List.range s.i).map marker, s.verdict) = run observe ([], ⟨0, none⟩) rs :=
    linearize (fun s : Coherency => ((List.range s.i).map marker, s.verdict))
      (fun _ a h hpromise => ⟨h.step hpromise, h.observed a⟩) (coherencyInv_init upload readback)
      hgpu
  rw [run_observe] at hobserved
  obtain ⟨hmarkers, hverdict⟩ := Prod.mk.inj hobserved
  have hlength : s.i = rs.length := by
    have hboth := congrArg List.length hmarkers
    rwa [List.length_map, List.length_range, List.length_map] at hboth
  have hnodup : (rs.map Reading.readback).Nodup := by
    rw [← hmarkers]
    refine List.Nodup.map_on ?_ List.nodup_range
    intro i hi j hj
    have hfew := hinv.few
    rw [List.mem_range] at hi hj
    exact marker_injective (by omega) (by omega)
  refine ⟨⟨by rw [← hmarkers, hlength], hnodup⟩, hverdict, ?_, ?_, hinv.finishes⟩
  · intro hreset
    obtain ⟨-, hexecuted, hdone, -⟩ := hinv.at_phase hreset
    omega
  · intro hfinished
    have hall : s.i = iterations := hinv.at_phase hfinished
    refine ⟨by omega, ?_⟩
    have hexit : s.exitCode = 0 ↔ rs.countP Reading.stale = 0 := by
      unfold Coherency.exitCode
      rw [hverdict]
      split
      case isTrue hsome =>
        exact ⟨fun hone => absurd hone (by decide), fun hzero => absurd hzero hsome⟩
      case isFalse hzero => exact ⟨fun _ => not_not.mp hzero, fun _ => rfl⟩
    rw [hexit, List.countP_eq_zero]
    simp [Reading.stale]

/-- Two iterations; in the second the CPU still sees the first marker. -/
def oldMarkerSeen : List CoherencyAct :=
  [ .next, .next, .next, .progress 1 0, .next, .progress 1 1, .next, .read 1000
  , .next, .next, .next, .next, .progress 2 2, .next, .read 1000 ]

theorem coherency_verdict_oldMarker :
    (run coherencyStep (.init 0 0) oldMarkerSeen).verdict = ⟨1, some (1, 1001, 1000)⟩ := by
  have hverdict := (coherency_verdict 0 0 oldMarkerSeen (by decide +kernel)).2.1
  exact hverdict.trans (by decide +kernel)

end HipBridge.Investigations.CoherencyProbe
