import Mathlib.Data.List.Basic
import Mathlib.Data.List.Infix
import Mathlib.Tactic.Common

/-!
# A list written over and over

What becomes of a list when another is put in front of it and the end is cut off.

* **`repeated w k`** — the first `k` elements of `w`, `w`, `w`, ...
* **`prefix_append_self_iff`** — a list that is a prefix of itself with `w` in front is `w` over
  and over.
* **`suffix_take_append_iff`** — when a list is still there at the end of what was kept.
-/

namespace Lib

variable {α : Type*}

/-- The first `k` elements of `w` written over and over. -/
def repeated (w : List α) (k : Nat) : List α := ((List.replicate k w).flatten).take k

/-- Cutting twice at the same place is cutting once. -/
theorem take_append_take (n : Nat) (u v : List α) : (u ++ v.take n).take n = (u ++ v).take n := by
  rw [List.take_append, List.take_append, List.take_take]
  congr 2
  omega

/-- A copy at the end is a copy at the front. -/
theorem flatten_replicate_append (w : List α) (k : Nat) :
    (List.replicate k w).flatten ++ w = (List.replicate (k + 1) w).flatten := by
  rw [List.replicate_succ', List.flatten_append]
  simp

section Repeated

variable {w : List α} (hw : w ≠ [])
include hw

theorem le_length_flatten_replicate (k : Nat) : k ≤ (List.replicate k w).flatten.length := by
  have hpos := List.length_pos_of_ne_nil hw
  induction k with
  | zero => exact Nat.zero_le _
  | succ k ih =>
    rw [List.replicate_succ, List.flatten_cons, List.length_append]
    omega

theorem length_repeated (k : Nat) : (repeated w k).length = k := by
  rw [repeated, List.length_take, Nat.min_eq_left (le_length_flatten_replicate hw k)]

/-- One more copy in front changes none of the first elements. -/
theorem take_append_repeated (k : Nat) : (w ++ repeated w k).take k = repeated w k := by
  have hback : w ++ (List.replicate k w).flatten = (List.replicate k w).flatten ++ w := by
    rw [flatten_replicate_append, List.replicate_succ, List.flatten_cons]
  rw [repeated, take_append_take, hback,
    List.take_append_of_le_length (le_length_flatten_replicate hw k)]

/-- The first elements of a list that overlaps itself are determined by what is put in front.
Induction on how many. -/
theorem take_eq_of_prefix {u v : List α} (hu : u <+: w ++ u) (hv : v <+: w ++ v)
    (hlen : u.length = v.length) (k : Nat) (hk : k ≤ u.length) : u.take k = v.take k := by
  induction k with
  | zero => rfl
  | succ k ih =>
    have hpos := List.length_pos_of_ne_nil hw
    have hstep : ∀ x : List α, x <+: w ++ x → k + 1 ≤ x.length →
        x.take (k + 1) = (w ++ x.take k).take (k + 1) := by
      intro x hx hkx
      rw [List.prefix_iff_eq_take.mp hx, List.take_take, Nat.min_eq_left hkx, List.take_append,
        List.take_append, ← List.prefix_iff_eq_take.mp hx, List.take_take]
      congr 2
      omega
    rw [hstep u hu hk, hstep v hv (hlen ▸ hk), ih (Nat.le_of_succ_le hk)]

/-- A list that is a prefix of itself with `w` in front is `w` over and over. -/
theorem prefix_append_self_iff {v : List α} : v <+: w ++ v ↔ v = repeated w v.length := by
  have hlen := length_repeated hw v.length
  have hrepeated : repeated w v.length <+: w ++ repeated w v.length := by
    rw [List.prefix_iff_eq_take, hlen, take_append_repeated hw]
  constructor
  · intro hv
    have htake := take_eq_of_prefix hw hv hrepeated hlen.symm v.length (Nat.le_refl _)
    rwa [List.take_length, List.take_of_length_le (Nat.le_of_eq hlen)] at htake
  · intro hv
    rw [← hv] at hrepeated
    exact hrepeated

theorem take_repeated {m n : Nat} (h : m ≤ n) : (repeated w n).take m = repeated w m := by
  have hlen : ((repeated w n).take m).length = m := by
    rw [List.length_take, length_repeated hw, Nat.min_eq_left h]
  have hprefix : (repeated w n).take m <+: w ++ (repeated w n).take m := by
    rw [List.prefix_iff_eq_take, hlen, take_append_take]
    calc (repeated w n).take m
        = ((w ++ repeated w n).take n).take m := by rw [take_append_repeated hw]
      _ = (w ++ repeated w n).take m := by rw [List.take_take, Nat.min_eq_left h]
  have heq := (prefix_append_self_iff hw).mp hprefix
  rwa [hlen] at heq

/-- A list behind `w` goes on like `w` over and over as far as it does so itself. -/
theorem take_append_eq_repeated_iff {v : List α} {n : Nat} (hn : w.length ≤ n) :
    (w ++ v).take n = repeated w n ↔ repeated w (n - w.length) <+: v := by
  have hsplit : ∀ x : List α, (w ++ x).take n = w ++ x.take (n - w.length) := by
    intro x
    rw [List.take_append, List.take_of_length_le hn]
  rw [← take_append_repeated hw n, hsplit, hsplit, List.append_cancel_left_eq,
    take_repeated hw (Nat.sub_le _ _), List.prefix_iff_eq_take, length_repeated hw, eq_comm]

/-- Nor do more copies in front. -/
theorem take_replicate_append_repeated (n k : Nat) :
    ((List.replicate n w).flatten ++ repeated w k).take k = repeated w k := by
  induction n with
  | zero =>
    show (repeated w k).take k = repeated w k
    exact List.take_of_length_le (Nat.le_of_eq (length_repeated hw k))
  | succ n ih =>
    rw [List.replicate_succ, List.flatten_cons, List.append_assoc, ← take_append_take, ih,
      take_append_repeated hw]

/-- A list that is a prefix of itself with copies of `w` in front is `w` over and over as well. -/
theorem prefix_replicate_append_self_iff {v : List α} (n : Nat) :
    v <+: (List.replicate (n + 1) w).flatten ++ v ↔ v = repeated w v.length := by
  have hne : (List.replicate (n + 1) w).flatten ≠ [] := by
    rw [List.replicate_succ, List.flatten_cons]
    exact List.append_ne_nil_of_left_ne_nil hw _
  have hlen := length_repeated hw v.length
  have hboth : repeated w v.length = repeated (List.replicate (n + 1) w).flatten v.length := by
    have hprefix : repeated w v.length
        <+: (List.replicate (n + 1) w).flatten ++ repeated w v.length := by
      rw [List.prefix_iff_eq_take, hlen, take_replicate_append_repeated hw]
    have heq := (prefix_append_self_iff hne).mp hprefix
    rwa [hlen] at heq
  rw [prefix_append_self_iff hne, hboth]

end Repeated

/-- **What is put in front pushes the end out.** A list is the end of what is kept of it with `u`
in front if everything is kept, or if it repeats what stands in front of its place. -/
theorem suffix_take_append_iff {u v : List α} {n : Nat} :
    v <:+ (u ++ v).take n ↔
      u.length + v.length ≤ n ∨
        (v.length ≤ n ∧ v = repeated (u.drop (n - v.length)) v.length) := by
  by_cases hall : u.length + v.length ≤ n
  · rw [List.take_of_length_le (by rw [List.length_append]; exact hall)]
    exact iff_of_true (List.suffix_append u v) (Or.inl hall)
  · by_cases hfits : v.length ≤ n
    · have hne : u.drop (n - v.length) ≠ [] := by
        rw [ne_eq, List.drop_eq_nil_iff]
        omega
      have hlen : ((u ++ v).take n).length = n := by
        rw [List.length_take, List.length_append]
        omega
      have hend : ((u ++ v).take n).drop (n - v.length)
          = (u.drop (n - v.length) ++ v).take v.length := by
        rw [List.drop_take, List.drop_append_of_le_length (by omega)]
        congr 1
        omega
      rw [List.suffix_iff_eq_drop, hlen, hend, ← List.prefix_iff_eq_take,
        prefix_append_self_iff hne]
      simp [hall, hfits]
    · refine iff_of_false (fun hsuffix => hfits ?_) ?_
      · have hle := hsuffix.length_le
        rw [List.length_take] at hle
        omega
      · omega

end Lib
