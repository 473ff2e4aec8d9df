import HipBridge.Lib.Run
import Mathlib.Algebra.GroupWithZero.Nat

/-!
# Two systems that answer alike

A system that answers is a step function `σ → α → β × σ`: what an action shows, and the state
after it.

* **`after`**, **`answers`** — the step with the answer left out, and what a run shows.
* **`lockstep`** — the simulation rule: two systems whose steps answer alike from related states,
  and stay related, show the same in every run. The relation may be spent: it carries how many
  steps are left for which it is kept up.
* **`lockstep_choosing`** — the rule for a system that may choose: of the choices its steps allow,
  there are some with which it shows what the other does.
* **`history`**, **`linearize`** — the operations that the steps of a run amount to, one level up;
  a run ends where its history, carried out one operation after the other, ends.
-/

namespace Lib

variable {σ τ α β : Type*}

/-- The state after an action. -/
def after (step : σ → α → β × σ) (s : σ) (a : α) : σ := (step s a).2

/-- What a run shows, action by action. -/
def answers (step : σ → α → β × σ) (s : σ) : List α → List β
  | [] => []
  | a :: acts => (step s a).1 :: answers step (step s a).2 acts

theorem answers_append (step : σ → α → β × σ) (s : σ) (acts more : List α) :
    answers step s (acts ++ more)
      = answers step s acts ++ answers step (run (after step) s acts) more := by
  induction acts generalizing s with
  | nil => rfl
  | cons a acts ih =>
    show (step s a).1 :: answers step (step s a).2 (acts ++ more) = _
    rw [ih]
    rfl

/-- **The simulation rule.** `R (n + 1)` is spent by a step and leaves `R n`. Induction on the
run. -/
theorem lockstep {concrete : σ → α → β × σ} {abstract : τ → α → β × τ} {R : Nat → σ → τ → Prop}
    {P : σ → α → Prop}
    (hstep : ∀ n s t a, R (n + 1) s t → P s a →
      (concrete s a).1 = (abstract t a).1 ∧ R n (concrete s a).2 (abstract t a).2)
    {acts : List α} {n : Nat} {s : σ} {t : τ} (hR : R (n + acts.length) s t)
    (hP : Along (after concrete) P s acts) :
    answers concrete s acts = answers abstract t acts ∧
      R n (run (after concrete) s acts) (run (after abstract) t acts) := by
  induction acts generalizing s t with
  | nil => exact ⟨rfl, hR⟩
  | cons a acts ih =>
    obtain ⟨hanswer, hnext⟩ := hstep (n + acts.length) s t a hR hP.1
    obtain ⟨hanswers, hlast⟩ := ih hnext hP.2
    refine ⟨?_, hlast⟩
    show (concrete s a).1 :: _ = (abstract t a).1 :: _
    rw [hanswer, hanswers]

/-- **The simulation rule, with choices.** The abstract system is handed a choice with each action,
out of those that `Q` allows, and what a step spends is its `cost`. Induction on the run, the choice
of each step taken from the step itself. -/
theorem lockstep_choosing {γ : Type*} {concrete : σ → α → β × σ} {abstract : τ → α × γ → β × τ}
    {R : Nat → σ → τ → Prop} {P : σ → α → Prop} {Q : τ → α × γ → Prop} (cost : α → Nat)
    (hstep : ∀ n s t a, R (n + cost a) s t → P s a →
      ∃ c, Q t (a, c) ∧ (concrete s a).1 = (abstract t (a, c)).1 ∧
        R n (concrete s a).2 (abstract t (a, c)).2)
    {acts : List α} {n : Nat} {s : σ} {t : τ} (hR : R (n + (acts.map cost).sum) s t)
    (hP : Along (after concrete) P s acts) :
    ∃ choices : List γ, choices.length = acts.length ∧
      Along (after abstract) Q t (acts.zip choices) ∧
      answers concrete s acts = answers abstract t (acts.zip choices) ∧
      R n (run (after concrete) s acts) (run (after abstract) t (acts.zip choices)) := by
  induction acts generalizing s t with
  | nil => exact ⟨[], rfl, trivial, rfl, hR⟩
  | cons a acts ih =>
    rw [List.map_cons, List.sum_cons, Nat.add_left_comm, Nat.add_comm] at hR
    obtain ⟨c, hallowed, hanswer, hnext⟩ := hstep (n + (acts.map cost).sum) s t a hR hP.1
    obtain ⟨choices, hlength, halong, hanswers, hlast⟩ := ih hnext hP.2
    refine ⟨c :: choices, congrArg Nat.succ hlength, ⟨hallowed, halong⟩, ?_, hlast⟩
    show (concrete s a).1 :: _ = (abstract t (a, c)).1 :: _
    rw [hanswer, hanswers]
    rfl

/-! ## Histories -/

section History

variable (step : σ → α → σ) (ops : σ → α → List β)

/-- The operations of a run, in the order of its steps. -/
def history (s : σ) : List α → List β
  | [] => []
  | a :: acts => ops s a ++ history (step s a) acts

variable {step ops}

/-- **One operation after the other.** Each step that meets `P` keeps `I` and does to the state
above what its operations do. Induction on the run. -/
theorem linearize {exec : τ → β → τ} (above : σ → τ) {I : σ → Prop} {P : σ → α → Prop}
    (hstep : ∀ s a, I s → P s a → I (step s a) ∧ above (step s a) = run exec (above s) (ops s a))
    {s : σ} {acts : List α} (hI : I s) (hP : Along step P s acts) :
    above (run step s acts) = run exec (above s) (history step ops s acts) := by
  induction acts generalizing s with
  | nil => rfl
  | cons a acts ih =>
    obtain ⟨hnext, habove⟩ := hstep s a hI hP.1
    show above (run step (step s a) acts) = run exec (above s) (ops s a ++ _)
    rw [ih hnext hP.2, habove, run_append]

theorem history_filterMap {γ : Type*} (f : β → Option γ) (s : σ) (acts : List α) :
    (history step ops s acts).filterMap f
      = history step (fun s a => (ops s a).filterMap f) s acts := by
  induction acts generalizing s with
  | nil => rfl
  | cons a acts ih =>
    show (ops s a ++ history step ops (step s a) acts).filterMap f = _ ++ _
    rw [List.filterMap_append, ih]

/-- What is under way, with what comes in, is what goes out and what is left. Induction on the
run. -/
theorem history_balance {enters leaves : σ → α → List β} {pending : σ → List β}
    (hstep : ∀ s a, pending s ++ enters s a = leaves s a ++ pending (step s a)) (s : σ)
    (acts : List α) :
    pending s ++ history step enters s acts
      = history step leaves s acts ++ pending (run step s acts) := by
  induction acts generalizing s with
  | nil => exact List.append_nil _
  | cons a acts ih =>
    show pending s ++ (enters s a ++ _) = leaves s a ++ _ ++ _
    rw [← List.append_assoc, hstep, List.append_assoc, ih, List.append_assoc]
    rfl

end History

end Lib
