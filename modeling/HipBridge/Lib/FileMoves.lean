import HipBridge.Lib.Run
import Mathlib.Logic.Function.Basic

/-!
# Moving files

A file system is a map from paths to the contents of the regular files at them, and a script
that only moves files is a list of guarded moves, `[ -e src ] && mv src dst`.

* **`moveFile`** — one guarded move, which overwrites what is at its destination.
* **`Apart`** — two moves with no path in common.
* **`run_moves_other`**, **`run_moves_src`**, **`run_moves_dst`** — what a list of moves leaves at
  a path that none of them names, and at the two ends of one of them.
-/

namespace Lib

/-- The content of the regular file at each path that has one. -/
abbrev Files (P C : Type) := P → Option C

structure Move (P : Type) where
  src : P
  dst : P
deriving DecidableEq

variable {P C : Type} [DecidableEq P]

/-- `[ -e src ] && mv src dst`. -/
def moveFile (files : Files P C) (m : Move P) : Files P C :=
  match files m.src with
  | some content => Function.update (Function.update files m.src none) m.dst (some content)
  | none => files

/-- The path is neither end of the move. -/
def Move.Spares (m : Move P) (p : P) : Prop := p ≠ m.src ∧ p ≠ m.dst

instance (m : Move P) (p : P) : Decidable (m.Spares p) :=
  inferInstanceAs (Decidable (_ ∧ _))

/-- Two moves that have no path in common. -/
def Apart (m m' : Move P) : Prop := m'.Spares m.src ∧ m'.Spares m.dst

instance (m m' : Move P) : Decidable (Apart m m') :=
  inferInstanceAs (Decidable (_ ∧ _))

variable {files files' : Files P C} {m : Move P} {moves : List (Move P)} {p : P}

theorem moveFile_of_absent (h : files m.src = none) : moveFile files m = files := by
  rw [moveFile, h]

theorem moveFile_of_present {content : C} (h : files m.src = some content) :
    moveFile files m
      = Function.update (Function.update files m.src none) m.dst (some content) := by
  rw [moveFile, h]

theorem moveFile_src (hne : m.src ≠ m.dst) : moveFile files m m.src = none := by
  cases h : files m.src with
  | none => rw [moveFile_of_absent h, h]
  | some content =>
    rw [moveFile_of_present h, Function.update_of_ne hne, Function.update_self]

/-- What is moved replaces what is there. -/
theorem moveFile_dst : moveFile files m m.dst = (files m.src).or (files m.dst) := by
  cases h : files m.src with
  | none => rw [moveFile_of_absent h, Option.none_or]
  | some content => rw [moveFile_of_present h, Function.update_self, Option.some_or]

theorem moveFile_other (h : m.Spares p) : moveFile files m p = files p := by
  cases hsrc : files m.src with
  | none => rw [moveFile_of_absent hsrc]
  | some content =>
    rw [moveFile_of_present hsrc, Function.update_of_ne h.2, Function.update_of_ne h.1]

/-- What a move leaves at its two ends depends on what was at its two ends. -/
theorem moveFile_congr (hsrc : files m.src = files' m.src) (hdst : files m.dst = files' m.dst)
    (hp : p = m.src ∨ p = m.dst) : moveFile files m p = moveFile files' m p := by
  by_cases hne : m.src = m.dst
  · have hp : p = m.dst := by
      rcases hp with rfl | rfl
      · exact hne
      · rfl
    rw [hp, moveFile_dst, moveFile_dst, hsrc, hdst]
  · rcases hp with rfl | rfl
    · rw [moveFile_src hne, moveFile_src hne]
    · rw [moveFile_dst, moveFile_dst, hsrc, hdst]

/-- A path that no move names keeps its file. Induction on the moves. -/
theorem run_moves_other (h : ∀ m ∈ moves, m.Spares p) :
    run moveFile files moves p = files p := by
  induction moves generalizing files with
  | nil => rfl
  | cons m moves ih =>
    rw [run_cons, ih fun m' hm' => h m' (List.mem_cons_of_mem m hm'),
      moveFile_other (h m List.mem_cons_self)]

/-- Among moves that are apart, each finds its two ends as they were and leaves them as it
would alone. Induction on the moves. -/
theorem run_moves_at (happart : moves.Pairwise Apart) (hm : m ∈ moves)
    (hp : p = m.src ∨ p = m.dst) : run moveFile files moves p = moveFile files m p := by
  induction moves generalizing files with
  | nil => cases hm
  | cons m' moves ih =>
    obtain ⟨hhead, htail⟩ := List.pairwise_cons.mp happart
    rw [run_cons]
    rcases List.mem_cons.mp hm with rfl | hm
    · apply run_moves_other
      intro m' hm'
      rcases hp with rfl | rfl
      · exact (hhead m' hm').1
      · exact (hhead m' hm').2
    · have hsrc : m'.Spares m.src :=
        ⟨(hhead m hm).1.1.symm, (hhead m hm).2.1.symm⟩
      have hdst : m'.Spares m.dst :=
        ⟨(hhead m hm).1.2.symm, (hhead m hm).2.2.symm⟩
      rw [ih htail hm]
      exact moveFile_congr (moveFile_other hsrc) (moveFile_other hdst) hp

theorem run_moves_src (happart : moves.Pairwise Apart) (hm : m ∈ moves) (hne : m.src ≠ m.dst) :
    run moveFile files moves m.src = none := by
  rw [run_moves_at happart hm (Or.inl rfl), moveFile_src hne]

theorem run_moves_dst (happart : moves.Pairwise Apart) (hm : m ∈ moves) :
    run moveFile files moves m.dst = (files m.src).or (files m.dst) := by
  rw [run_moves_at happart hm (Or.inr rfl), moveFile_dst]

end Lib
