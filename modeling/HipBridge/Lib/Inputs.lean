import HipBridge.Lib.Run
import Mathlib.Logic.Function.Iterate

/-!
# A machine that inputs do not hold up

A machine makes moves of its own, and inputs reach it in between. A run is any order of the two.

* **`Event`**, **`happen`** — an input or a move, and the state after it.
* **`drive`** — a move, or nothing when there is none to make.
* **`exists_drive_inputs`** — when an input takes no move away and changes nothing about its
  outcome, a run is its inputs followed by moves.
* **`rest_unique`** — so two machines given the same inputs, in any order of events, are in the
  same state once neither can move.
* **`exists_rest`** — moves that use something up come to an end.
-/

namespace Lib

inductive Event (ι : Type*)
  | input (i : ι)
  | move
deriving DecidableEq

variable {σ ι : Type*} (move : σ → Option σ) (input : σ → ι → σ)

/-- A move, or nothing when there is none to make. -/
def drive (s : σ) : σ := (move s).getD s

def happen (s : σ) : Event ι → σ
  | .input i => input s i
  | .move => drive move s

/-- The inputs of a run, in order. -/
def inputsOf : List (Event ι) → List ι
  | [] => []
  | .input i :: events => i :: inputsOf events
  | .move :: events => inputsOf events

section Rest

variable {move} {input} {s : σ}

theorem drive_some {s' : σ} (h : move s = some s') : drive move s = s' := by
  rw [drive, h, Option.getD_some]

theorem drive_none (h : move s = none) : drive move s = s := by
  rw [drive, h, Option.getD_none]

theorem run_moves (k : Nat) (s : σ) :
    run (happen move input) s (List.replicate k .move) = (drive move)^[k] s := by
  induction k generalizing s with
  | zero => rfl
  | succ k ih => exact ih (drive move s)

/-- A machine at rest stays there. -/
theorem iterate_drive_of_rest (h : move s = none) (k : Nat) : (drive move)^[k] s = s :=
  Function.iterate_fixed (drive_none h) k

/-- A machine has one state to come to rest in. -/
theorem rest_eq_of_iterate {k k' : Nat} (h : move ((drive move)^[k] s) = none)
    (h' : move ((drive move)^[k'] s) = none) : (drive move)^[k] s = (drive move)^[k'] s := by
  rcases Nat.le_total k k' with hle | hle
  · obtain ⟨d, rfl⟩ := Nat.exists_eq_add_of_le hle
    rw [Nat.add_comm, Function.iterate_add_apply, iterate_drive_of_rest h]
  · obtain ⟨d, rfl⟩ := Nat.exists_eq_add_of_le hle
    rw [Nat.add_comm, Function.iterate_add_apply, iterate_drive_of_rest h']

/-- **Coming to rest.** Every move keeps `I` and brings `left` down. Induction on what is left. -/
theorem exists_rest {I : σ → Prop} (left : σ → Nat)
    (hless : ∀ s s', I s → move s = some s' → I s' ∧ left s' < left s) {s : σ} (hI : I s) :
    ∃ k, move ((drive move)^[k] s) = none := by
  induction hn : left s using Nat.strongRecOn generalizing s with
  | ind n ih =>
    cases hmove : move s with
    | none => exact ⟨0, hmove⟩
    | some s' =>
      obtain ⟨hI', hlt⟩ := hless s s' hI hmove
      obtain ⟨k, hk⟩ := ih (left s') (by omega) hI' rfl
      refine ⟨k + 1, ?_⟩
      rw [Function.iterate_succ_apply, drive_some hmove]
      exact hk

end Rest

section Inputs

variable {move} {input}
  (hkept : ∀ s s' i, move s = some s' → move (input s i) = some (input s' i))
include hkept

/-- An input that came after some moves could have come before them. Induction on the moves. -/
theorem exists_drive_input (k : Nat) (s : σ) (i : ι) :
    ∃ k', input ((drive move)^[k] s) i = (drive move)^[k'] (input s i) := by
  induction k generalizing s with
  | zero => exact ⟨0, rfl⟩
  | succ k ih =>
    rw [Function.iterate_succ_apply]
    cases hmove : move s with
    | none =>
      rw [drive_none hmove]
      exact ih s
    | some s' =>
      obtain ⟨k', hk'⟩ := ih s'
      refine ⟨k' + 1, ?_⟩
      rw [drive_some hmove, hk', Function.iterate_succ_apply, drive_some (hkept s s' i hmove)]

/-- The same for a list of inputs. Induction on the inputs. -/
theorem exists_drive_run (k : Nat) (s : σ) (is : List ι) :
    ∃ k', run input ((drive move)^[k] s) is = (drive move)^[k'] (run input s is) := by
  induction is generalizing k s with
  | nil => exact ⟨k, rfl⟩
  | cons i is ih =>
    obtain ⟨k', hk'⟩ := exists_drive_input hkept k s i
    rw [run_cons, hk', run_cons]
    exact ih k' (input s i)

/-- **Inputs first.** Induction on the run; a move at its front goes behind the inputs. -/
theorem exists_drive_inputs (s : σ) (events : List (Event ι)) :
    ∃ k, run (happen move input) s events
      = (drive move)^[k] (run input s (inputsOf events)) := by
  induction events generalizing s with
  | nil => exact ⟨0, rfl⟩
  | cons event events ih =>
    cases event with
    | input i => exact ih (input s i)
    | move =>
      obtain ⟨k, hk⟩ := ih (drive move s)
      obtain ⟨j, hj⟩ := exists_drive_run hkept 1 s (inputsOf events)
      refine ⟨k + j, ?_⟩
      show run (happen move input) (drive move s) events = _
      rw [hk, Function.iterate_add_apply]
      exact congrArg (drive move)^[k] hj

/-- **One outcome.** Two runs that were given the same inputs end in the same state, once neither
machine can move. -/
theorem rest_unique {s : σ} {events events' : List (Event ι)}
    (hsame : run input s (inputsOf events) = run input s (inputsOf events'))
    (hrest : move (run (happen move input) s events) = none)
    (hrest' : move (run (happen move input) s events') = none) :
    run (happen move input) s events = run (happen move input) s events' := by
  obtain ⟨k, hk⟩ := exists_drive_inputs hkept s events
  obtain ⟨k', hk'⟩ := exists_drive_inputs hkept s events'
  rw [← hsame] at hk'
  rw [hk] at hrest ⊢
  rw [hk'] at hrest' ⊢
  exact rest_eq_of_iterate hrest hrest'

end Inputs

end Lib
