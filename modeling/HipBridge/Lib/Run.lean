import Mathlib.Data.List.Basic
import Mathlib.Data.List.Induction
import Mathlib.Tactic.Common

/-!
# Runs of a step function

A system is a step function `step : σ → α → σ`: the state after an action, with every
outcome the environment chooses carried by the action itself. A run is a list of actions.

* **`run`** — the state a run ends in.
* **`Along P`** — every action of the run meets `P` in the state it is taken from.
* **`Always Q`** — every state of the run, first and last included, meets `Q`.
* **`AtEach P`** — every action of the run meets `P` of the actions before it.
* **`always_of_along`** — the invariant rule: an invariant kept by every admissible step
  holds in every state of an admissible run.
* **`always_of_below`** — the same for an invariant that only holds as long as something that
  never shrinks stays under a bound.
* **`always_iff_along`** — the exactness rule: if a step outside `P` leaves the safe
  states at once, then a run is safe exactly when all its steps meet `P`.
-/

namespace Lib

variable {σ α : Type*} (step : σ → α → σ)

/-- The state a run ends in. -/
def run (s : σ) (acts : List α) : σ := acts.foldl step s

/-- Every action of the run meets `P` in the state it is taken from. -/
def Along (P : σ → α → Prop) : σ → List α → Prop
  | _, [] => True
  | s, a :: acts => P s a ∧ Along P (step s a) acts

/-- Every state of the run, first and last included, meets `Q`. -/
def Always (Q : σ → Prop) : σ → List α → Prop
  | s, [] => Q s
  | s, a :: acts => Q s ∧ Always Q (step s a) acts

instance instDecidableAlong {P : σ → α → Prop} [∀ s a, Decidable (P s a)] :
    ∀ s acts, Decidable (Along step P s acts)
  | _, [] => .isTrue trivial
  | s, a :: acts =>
    have : Decidable (Along step P (step s a) acts) := instDecidableAlong (step s a) acts
    inferInstanceAs (Decidable (P s a ∧ Along step P (step s a) acts))

instance instDecidableAlways {Q : σ → Prop} [∀ s, Decidable (Q s)] :
    ∀ s acts, Decidable (Always step Q s acts)
  | s, [] => inferInstanceAs (Decidable (Q s))
  | s, a :: acts =>
    have : Decidable (Always step Q (step s a) acts) := instDecidableAlways (step s a) acts
    inferInstanceAs (Decidable (Q s ∧ Always step Q (step s a) acts))

@[simp] theorem run_nil (s : σ) : run step s [] = s := rfl

@[simp] theorem run_cons (s : σ) (a : α) (acts : List α) :
    run step s (a :: acts) = run step (step s a) acts := rfl

@[simp] theorem run_append (s : σ) (acts more : List α) :
    run step s (acts ++ more) = run step (run step s acts) more := by
  simp [run, List.foldl_append]

section Prefixes

variable {step} {P P' : σ → α → Prop} {Q Q' : σ → Prop} {s : σ}

/-- The two halves of a run are judged separately. Induction on the first half. -/
theorem along_append {acts more : List α} :
    Along step P s (acts ++ more) ↔ Along step P s acts ∧ Along step P (run step s acts) more := by
  induction acts generalizing s with
  | nil => simp [Along]
  | cons a acts ih => simp [Along, ih, and_assoc]

/-- `Along` in terms of the positions of the run. -/
theorem along_iff_forall {acts : List α} :
    Along step P s acts ↔
      ∀ pre a post, acts = pre ++ a :: post → P (run step s pre) a := by
  constructor
  · rintro h pre a post rfl
    exact (along_append.mp h).2.1
  · intro h
    induction acts generalizing s with
    | nil => trivial
    | cons a acts ih =>
      refine ⟨h [] a acts rfl, ih fun pre b post hacts => ?_⟩
      exact h (a :: pre) b post (by rw [hacts]; rfl)

/-- `Always` in terms of the prefixes of the run. -/
theorem always_iff_forall {acts : List α} :
    Always step Q s acts ↔ ∀ pre post, acts = pre ++ post → Q (run step s pre) := by
  constructor
  · intro h
    induction acts generalizing s with
    | nil =>
      intro pre post hnil
      obtain ⟨rfl, rfl⟩ := List.append_eq_nil_iff.mp hnil.symm
      exact h
    | cons a acts ih =>
      intro pre post hacts
      cases pre with
      | nil => exact h.1
      | cons b pre =>
        obtain ⟨rfl, rfl⟩ := List.cons.inj hacts
        exact ih h.2 pre post rfl
  · intro h
    induction acts generalizing s with
    | nil => exact h [] [] rfl
    | cons a acts ih =>
      refine ⟨h [] (a :: acts) rfl, ih fun pre post hacts => ?_⟩
      exact h (a :: pre) post (by rw [hacts]; rfl)

theorem along_of_forall (h : ∀ s a, P s a) (acts : List α) : Along step P s acts := by
  induction acts generalizing s with
  | nil => trivial
  | cons a acts ih => exact ⟨h s a, ih⟩

theorem Along.imp (h : ∀ s a, P s a → P' s a) {acts : List α}
    (hP : Along step P s acts) : Along step P' s acts := by
  induction acts generalizing s with
  | nil => trivial
  | cons a acts ih => exact ⟨h s a hP.1, ih hP.2⟩

theorem along_and {acts : List α} :
    Along step (fun s a => P s a ∧ P' s a) s acts ↔
      Along step P s acts ∧ Along step P' s acts := by
  induction acts generalizing s with
  | nil => simp [Along]
  | cons a acts ih => simp only [Along, ih]; tauto

theorem Always.imp (h : ∀ s, Q s → Q' s) {acts : List α}
    (hQ : Always step Q s acts) : Always step Q' s acts := by
  induction acts generalizing s with
  | nil => exact h s hQ
  | cons a acts ih => exact ⟨h s hQ.1, ih hQ.2⟩

theorem Always.head {acts : List α} (h : Always step Q s acts) : Q s := by
  cases acts with
  | nil => exact h
  | cons _ _ => exact h.1

theorem Always.last {acts : List α} (h : Always step Q s acts) : Q (run step s acts) :=
  always_iff_forall.mp h acts [] (by simp)

/-- Every action of the run meets `P` of the list of actions before it. -/
def AtEach (P : List α → α → Prop) (acts : List α) : Prop :=
  ∀ pre a post, acts = pre ++ a :: post → P pre a

/-- One more action at the end: the shape of an induction over the history. -/
theorem atEach_concat {P : List α → α → Prop} {acts : List α} {a : α} :
    AtEach P (acts ++ [a]) ↔ AtEach P acts ∧ P acts a := by
  constructor
  · intro h
    refine ⟨fun pre b post hacts => h pre b (post ++ [a]) ?_, h acts a [] rfl⟩
    rw [hacts, List.append_assoc, List.cons_append]
  · rintro ⟨hacts, ha⟩ pre b post hsplit
    rcases List.eq_nil_or_concat post with rfl | ⟨init, c, rfl⟩
    · obtain ⟨rfl, hab⟩ := List.append_inj' hsplit rfl
      exact List.singleton_inj.mp hab ▸ ha
    · rw [List.concat_eq_append, ← List.cons_append, ← List.append_assoc] at hsplit
      exact hacts pre b init (List.append_inj' hsplit rfl).1

theorem AtEach.of_append {P : List α → α → Prop} {acts more : List α}
    (h : AtEach P (acts ++ more)) : AtEach P acts := by
  intro pre a post hacts
  exact h pre a (post ++ more) (by rw [hacts, List.append_assoc, List.cons_append])

/-- `AtEach` is `Along` with the history as the state. -/
theorem atEach_iff_along {P : List α → α → Prop} {acts : List α} :
    AtEach P acts ↔ Along (fun history a => history ++ [a]) P [] acts := by
  have hrun : ∀ pre : List α, run (fun history a => history ++ [a]) [] pre = pre := by
    intro pre
    induction pre using List.reverseRecOn with
    | nil => rfl
    | append_singleton pre a ih => rw [run_append, ih]; rfl
  simp only [along_iff_forall, hrun, AtEach]

end Prefixes

section Rules

variable {step} {I Q : σ → Prop} {P R : σ → α → Prop} {s : σ}

/-- **The invariant rule.** An invariant kept by every admissible step holds in every
state of an admissible run. -/
theorem always_of_along (hkeep : ∀ s a, I s → P s a → I (step s a))
    {acts : List α} (hI : I s) (hP : Along step P s acts) : Always step I s acts := by
  induction acts generalizing s with
  | nil => exact hI
  | cons a acts ih => exact ⟨hI, ih (hkeep s a hI hP.1) hP.2⟩

/-- A measure that no step takes down is not taken down by a run. -/
theorem le_run {m : σ → Nat} (hmono : ∀ s a, m s ≤ m (step s a)) (s : σ) (acts : List α) :
    m s ≤ m (run step s acts) := by
  induction acts generalizing s with
  | nil => exact Nat.le_refl _
  | cons a acts ih =>
    rw [run_cons]
    exact Nat.le_trans (hmono s a) (ih (step s a))

/-- The invariant rule below a bound: the invariant is kept by the steps that leave the measure
under the bound, and a run that ends under it never left. -/
theorem always_of_below {m : σ → Nat} {bound : Nat} (hmono : ∀ s a, m s ≤ m (step s a))
    (hkeep : ∀ s a, I s → P s a → m (step s a) < bound → I (step s a))
    {acts : List α} (hI : I s) (hP : Along step P s acts) (hend : m (run step s acts) < bound) :
    Always step I s acts := by
  induction acts generalizing s with
  | nil => exact hI
  | cons a acts ih =>
    rw [run_cons] at hend
    have hnext : m (step s a) < bound := Nat.lt_of_le_of_lt (le_run hmono (step s a) acts) hend
    exact ⟨hI, ih (hkeep s a hI hP.1 hnext) hP.2 hend⟩

/-- What an invariant gives about the steps: if it is kept by admissible steps and turns
them into steps meeting `R`, then `R` holds all along an admissible run. -/
theorem along_of_inv (hkeep : ∀ s a, I s → P s a → I (step s a))
    (hR : ∀ s a, I s → P s a → R s a)
    {acts : List α} (hI : I s) (hP : Along step P s acts) : Along step R s acts := by
  induction acts generalizing s with
  | nil => trivial
  | cons a acts ih => exact ⟨hR s a hI hP.1, ih (hkeep s a hI hP.1) hP.2⟩

/-- **The exactness rule.** `E` is what the environment promises, `P` the condition on a
step. If steps meeting `P` keep `I`, states meeting `I` are safe, and a step outside `P`
taken from `I` ends in an unsafe state, then a run is safe exactly when every step of it
meets `P`. -/
theorem always_iff_along {E : σ → α → Prop} (hsafe : ∀ s, I s → Q s)
    (hkeep : ∀ s a, I s → E s a → P s a → I (step s a))
    (hbreak : ∀ s a, I s → E s a → ¬ P s a → ¬ Q (step s a))
    {acts : List α} (hI : I s) (hE : Along step E s acts) :
    Always step Q s acts ↔ Along step P s acts := by
  constructor
  · intro hQ
    induction acts generalizing s with
    | nil => trivial
    | cons a acts ih =>
      have hP : P s a := by
        -- a step outside `P` would make the state behind it unsafe
        by_contra hP
        exact hbreak s a hI hE.1 hP hQ.2.head
      exact ⟨hP, ih (hkeep s a hI hE.1 hP) hE.2 hQ.2⟩
  · intro hP
    have hkeep' : ∀ s a, I s → (E s a ∧ P s a) → I (step s a) :=
      fun s a hI h => hkeep s a hI h.1 h.2
    exact (always_of_along hkeep' hI (along_and.mpr ⟨hE, hP⟩)).imp hsafe

end Rules

end Lib
