import Mathlib.Data.Int.Order.Basic
import Mathlib.Data.List.Induction
import Mathlib.Data.Nat.Find
import Mathlib.Logic.Function.Basic
import Mathlib.Tactic.Common

/-!
# The polling loop (`main` of `investigations/submission_timing_probe.c`)

Eight copies are submitted with no wait, and `main` looks at the readback buffer slot by slot, pass
after pass, until it has seen every marker or its time is up. The clock and the GPU are in what it
reads: a list of passes, each with the words that are there when their slots come up.

* **`poll`** — the loop, with its early end; `poll_eq` — the end changes nothing.
* **`PollInv`** — the invariant, in terms of the passes in which the markers were seen first.
* **`verdict_iff`** — what the verdict says, slot by slot and as a whole.
* **`reordering_reported_iff`** — the verdict on a queue that does complete in order.
-/

namespace HipBridge.Investigations.TimingProbe

/-- `N_SUBMISSIONS`. -/
def nSubmissions : Nat := 8

/-- `MARKER_BASE`. -/
def markerBase : UInt32 := 7000

/-- What is found in a slot once its copy is there. -/
def marker (i : Nat) : UInt32 := markerBase + i.toUInt32

/-- What the loop keeps. -/
structure Poll where
  resolved : Nat → Bool
  outOfOrder : Bool
  lastResolvedIndex : Int

def Poll.init : Poll := ⟨fun _ => false, false, -1⟩

/-- Slot `i` comes up, with the word that is there. -/
def Poll.look (s : Poll) (i : Nat) (word : UInt32) : Poll :=
  if !s.resolved i && word == marker i then
    { resolved := Function.update s.resolved i true
      outOfOrder := if (i : Int) < s.lastResolvedIndex then true else s.outOfOrder
      lastResolvedIndex := if (i : Int) > s.lastResolvedIndex then i else s.lastResolvedIndex }
  else s

/-- The words a pass finds, slot by slot. -/
abbrev Pass := Nat → UInt32

/-- The first `n` slots of a pass. -/
def Poll.slots (s : Poll) (words : Pass) (n : Nat) : Poll :=
  (List.range n).foldl (fun s i => s.look i (words i)) s

def Poll.pass (s : Poll) (words : Pass) : Poll := s.slots words nSubmissions

/-- `all_done`. -/
def Poll.allDone (s : Poll) : Bool := (List.range nSubmissions).all s.resolved

/-- The passes there is time for. -/
def poll (s : Poll) : List Pass → Poll
  | [] => s
  | words :: passes => if (s.pass words).allDone then s.pass words else poll (s.pass words) passes

/-- `timed_out`. -/
def Poll.timedOut (s : Poll) : Bool := !s.allDone

/-- What `main` returns. -/
def Poll.exitCode (s : Poll) : Int32 := if s.timedOut || s.outOfOrder then 1 else 0

/-- The pass in which the marker of a slot is seen first. -/
def firstSeen (passes : List Pass) (i : Nat) : Option Nat :=
  passes.findIdx? fun words => words i = marker i

/-! ## The end of the loop -/

theorem allDone_iff (s : Poll) : s.allDone = true ↔ ∀ i < nSubmissions, s.resolved i = true := by
  simp [Poll.allDone]

theorem slots_succ (s : Poll) (words : Pass) (n : Nat) :
    s.slots words (n + 1) = (s.slots words n).look n (words n) := by
  unfold Poll.slots
  rw [List.range_succ, List.foldl_append]
  rfl

theorem look_of_resolved {s : Poll} {i : Nat} (h : s.resolved i = true) (word : UInt32) :
    s.look i word = s := by
  simp [Poll.look, h]

/-- A pass after the last marker changes nothing. -/
theorem pass_of_allDone {s : Poll} (h : s.allDone = true) (words : Pass) : s.pass words = s := by
  rw [allDone_iff] at h
  have hslots : ∀ n ≤ nSubmissions, s.slots words n = s := by
    intro n
    induction n with
    | zero => exact fun _ => rfl
    | succ n ih =>
      intro hn
      rw [slots_succ, ih (by omega)]
      exact look_of_resolved (h n (by omega)) _
  exact hslots nSubmissions (Nat.le_refl _)

theorem foldl_pass_of_allDone {s : Poll} (h : s.allDone = true) (passes : List Pass) :
    passes.foldl Poll.pass s = s := by
  induction passes with
  | nil => rfl
  | cons words passes ih =>
    rw [List.foldl_cons, pass_of_allDone h]
    exact ih

/-- The early end changes nothing. Induction on the passes. -/
theorem poll_eq (s : Poll) (passes : List Pass) : poll s passes = passes.foldl Poll.pass s := by
  induction passes generalizing s with
  | nil => rfl
  | cons words passes ih =>
    rw [poll, List.foldl_cons]
    split
    case isTrue hdone => exact (foldl_pass_of_allDone hdone passes).symm
    case isFalse => exact ih _

/-! ## A slot, and a pass -/

/-- `last_resolved_index` is the last of the slots that are resolved. -/
def TopIs (s : Poll) : Prop :=
  ∀ m : Nat, (m : Int) ≤ s.lastResolvedIndex ↔ ∃ j, m ≤ j ∧ s.resolved j = true

/-- A slot that comes up resolves, or nothing happens. -/
theorem look_cases (s : Poll) (i : Nat) (word : UInt32) :
    (s.resolved i = false ∧ word = marker i ∧ s.look i word =
      { resolved := Function.update s.resolved i true
        outOfOrder := if (i : Int) < s.lastResolvedIndex then true else s.outOfOrder
        lastResolvedIndex :=
          if (i : Int) > s.lastResolvedIndex then i else s.lastResolvedIndex }) ∨
    ((s.resolved i = true ∨ word ≠ marker i) ∧ s.look i word = s) := by
  unfold Poll.look
  split
  case isTrue hnew =>
    simp only [Bool.and_eq_true, Bool.not_eq_true', beq_iff_eq] at hnew
    exact Or.inl ⟨hnew.1, hnew.2, rfl⟩
  case isFalse hold =>
    refine Or.inr ⟨?_, rfl⟩
    cases hi : s.resolved i with
    | true => exact Or.inl rfl
    | false =>
      right
      intro hword
      exact hold (by simp [hi, hword])

theorem resolved_look (s : Poll) (i : Nat) (word : UInt32) (j : Nat) :
    (s.look i word).resolved j = true ↔ s.resolved j = true ∨ (j = i ∧ word = marker i) := by
  rcases look_cases s i word with ⟨-, hword, hlook⟩ | ⟨hsame, hlook⟩
  · rw [hlook]
    by_cases hj : j = i
    · simp [hj, hword]
    · simp [hj]
  · rw [hlook]
    constructor
    · exact Or.inl
    · intro h
      rcases h with h | ⟨rfl, hword⟩
      · exact h
      · exact hsame.resolve_right (not_not.mpr hword)

theorem topIs_look {s : Poll} (h : TopIs s) (i : Nat) (word : UInt32) : TopIs (s.look i word) := by
  intro m
  simp only [resolved_look]
  rcases look_cases s i word with ⟨-, hword, hlook⟩ | ⟨hsame, hlook⟩
  · have htop : (m : Int) ≤ (s.look i word).lastResolvedIndex ↔
        (m : Int) ≤ s.lastResolvedIndex ∨ m ≤ i := by
      rw [hlook]
      dsimp only
      split <;> omega
    rw [htop, h m]
    constructor
    · intro hor
      rcases hor with ⟨j, hj, hresolved⟩ | hi
      · exact ⟨j, hj, Or.inl hresolved⟩
      · exact ⟨i, hi, Or.inr ⟨rfl, hword⟩⟩
    · intro hex
      obtain ⟨j, hj, hresolved | ⟨rfl, -⟩⟩ := hex
      · exact Or.inl ⟨j, hj, hresolved⟩
      · exact Or.inr hj
  · rw [hlook, h m]
    constructor
    · intro hex
      obtain ⟨j, hj, hresolved⟩ := hex
      exact ⟨j, hj, Or.inl hresolved⟩
    · intro hex
      obtain ⟨j, hj, hresolved | ⟨rfl, hword⟩⟩ := hex
      · exact ⟨j, hj, hresolved⟩
      · exact ⟨j, hj, hsame.resolve_right (not_not.mpr hword)⟩

/-- The flag goes up where a slot resolves below one that has. -/
theorem outOfOrder_look {s : Poll} (h : TopIs s) (i : Nat) (word : UInt32) :
    (s.look i word).outOfOrder = true ↔ s.outOfOrder = true ∨
      (s.resolved i = false ∧ word = marker i ∧ ∃ j, i < j ∧ s.resolved j = true) := by
  have hbelow : (i : Int) < s.lastResolvedIndex ↔ ∃ j, i < j ∧ s.resolved j = true := h (i + 1)
  rcases look_cases s i word with ⟨hnew, hword, hlook⟩ | ⟨hsame, hlook⟩
  · rw [hlook, ← hbelow]
    dsimp only
    split
    case isTrue hlt => simp [hnew, hword, hlt]
    case isFalse hge => simp [hge]
  · rw [hlook]
    constructor
    · exact Or.inl
    · intro hor
      rcases hor with hflag | ⟨hnew, hword, -⟩
      · exact hflag
      · rcases hsame with hresolved | hne
        · rw [hnew] at hresolved
          cases hresolved
        · exact absurd hword hne

theorem topIs_slots {s : Poll} (h : TopIs s) (words : Pass) (n : Nat) :
    TopIs (s.slots words n) := by
  induction n with
  | zero => exact h
  | succ n ih =>
    rw [slots_succ]
    exact topIs_look ih n _

theorem resolved_slots (s : Poll) (words : Pass) (n j : Nat) :
    (s.slots words n).resolved j = true ↔
      s.resolved j = true ∨ (j < n ∧ words j = marker j) := by
  induction n with
  | zero => simp [Poll.slots]
  | succ n ih =>
    rw [slots_succ, resolved_look, ih]
    constructor
    · intro h
      rcases h with (h | ⟨hj, hword⟩) | ⟨rfl, hword⟩
      · exact Or.inl h
      · exact Or.inr ⟨by omega, hword⟩
      · exact Or.inr ⟨by omega, hword⟩
    · intro h
      rcases h with h | ⟨hj, hword⟩
      · exact Or.inl (Or.inl h)
      · by_cases hlast : j = n
        · subst hlast
          exact Or.inr ⟨rfl, hword⟩
        · exact Or.inl (Or.inr ⟨by omega, hword⟩)

/-- The flag goes up where a slot resolves below one that had before the pass: those that resolve
in the pass come up in order. Induction on the slots. -/
theorem outOfOrder_slots {s : Poll} (h : TopIs s) (words : Pass) (n : Nat) :
    (s.slots words n).outOfOrder = true ↔ s.outOfOrder = true ∨
      ∃ i < n, s.resolved i = false ∧ words i = marker i ∧ ∃ j, i < j ∧ s.resolved j = true := by
  induction n with
  | zero => simp [Poll.slots]
  | succ n ih =>
    have hbelow : (∃ j, n < j ∧ (s.slots words n).resolved j = true) ↔
        ∃ j, n < j ∧ s.resolved j = true := by
      constructor
      · intro hex
        obtain ⟨j, hj, hresolved⟩ := hex
        rcases (resolved_slots s words n j).mp hresolved with hold | ⟨hlt, -⟩
        · exact ⟨j, hj, hold⟩
        · omega
      · intro hex
        obtain ⟨j, hj, hresolved⟩ := hex
        exact ⟨j, hj, (resolved_slots s words n j).mpr (Or.inl hresolved)⟩
    have hnew : (s.slots words n).resolved n = false ↔ s.resolved n = false := by
      rw [← Bool.not_eq_true, ← Bool.not_eq_true, resolved_slots]
      simp
    rw [slots_succ, outOfOrder_look (topIs_slots h words n), ih, hbelow, hnew]
    constructor
    · intro hor
      rcases hor with (hflag | ⟨i, hi, hex⟩) | hex
      · exact Or.inl hflag
      · exact Or.inr ⟨i, by omega, hex⟩
      · exact Or.inr ⟨n, by omega, hex⟩
    · intro hor
      rcases hor with hflag | ⟨i, hi, hex⟩
      · exact Or.inl (Or.inl hflag)
      · by_cases hlast : i = n
        · subst hlast
          exact Or.inr hex
        · exact Or.inl (Or.inr ⟨i, by omega, hex⟩)

/-! ## The verdict -/

theorem firstSeen_concat (passes : List Pass) (words : Pass) (i : Nat) :
    firstSeen (passes ++ [words]) i
      = (firstSeen passes i).or (if words i = marker i then some passes.length else none) := by
  unfold firstSeen
  rw [List.findIdx?_append]
  congr 1
  by_cases h : words i = marker i <;> simp [List.findIdx?_cons, h]

theorem firstSeen_lt {passes : List Pass} {i p : Nat} (h : firstSeen passes i = some p) :
    p < passes.length := (List.findIdx?_eq_some_iff_findIdx_eq.mp h).1

/-- The marker of a slot is seen first in a later pass than that of a slot behind it. -/
def SeenOutOfOrder (passes : List Pass) : Prop :=
  ∃ i j p q, i < j ∧ j < nSubmissions ∧
    firstSeen passes i = some p ∧ firstSeen passes j = some q ∧ q < p

/-- What the loop keeps, after some passes. -/
structure PollInv (passes : List Pass) (s : Poll) : Prop where
  resolved : ∀ i, s.resolved i = true ↔ i < nSubmissions ∧ (firstSeen passes i).isSome = true
  top : TopIs s
  outOfOrder : s.outOfOrder = true ↔ SeenOutOfOrder passes

theorem pollInv_init : PollInv [] .init := by
  constructor
  case resolved =>
    intro i
    simp [Poll.init, firstSeen]
  case top =>
    intro m
    have hneg : ¬ (m : Int) ≤ -1 := by omega
    simp [Poll.init, hneg]
  case outOfOrder => simp [Poll.init, SeenOutOfOrder, firstSeen]

theorem seenOutOfOrder_concat (passes : List Pass) (words : Pass) :
    SeenOutOfOrder (passes ++ [words]) ↔ SeenOutOfOrder passes ∨
      ∃ i j, i < j ∧ j < nSubmissions ∧ firstSeen passes i = none ∧ words i = marker i ∧
        (firstSeen passes j).isSome = true := by
  unfold SeenOutOfOrder
  simp only [firstSeen_concat]
  constructor
  · intro h
    obtain ⟨i, j, p, q, hij, hj, hp, hq, hlt⟩ := h
    cases hi : firstSeen passes i with
    | some p' =>
      rw [hi] at hp
      obtain rfl : p' = p := Option.some.inj hp
      have hplt := firstSeen_lt hi
      cases hj' : firstSeen passes j with
      | some q' =>
        rw [hj'] at hq
        obtain rfl : q' = q := Option.some.inj hq
        exact Or.inl ⟨i, j, p', q', hij, hj, hi, hj', hlt⟩
      | none =>
        -- what is seen in this pass only is seen after it
        rw [hj', Option.none_or] at hq
        split at hq
        · obtain rfl := Option.some.inj hq
          omega
        · cases hq
    | none =>
      rw [hi, Option.none_or] at hp
      split at hp
      case isFalse => cases hp
      case isTrue hword =>
        obtain rfl := Option.some.inj hp
        refine Or.inr ⟨i, j, hij, hj, hi, hword, ?_⟩
        cases hj' : firstSeen passes j with
        | some q' => rfl
        | none =>
          rw [hj', Option.none_or] at hq
          split at hq
          · obtain rfl := Option.some.inj hq
            omega
          · cases hq
  · intro h
    rcases h with ⟨i, j, p, q, hij, hj, hp, hq, hlt⟩ | ⟨i, j, hij, hj, hi, hword, hq⟩
    · exact ⟨i, j, p, q, hij, hj, by rw [hp, Option.some_or], by rw [hq, Option.some_or], hlt⟩
    · obtain ⟨q, hq⟩ := Option.isSome_iff_exists.mp hq
      refine ⟨i, j, passes.length, q, hij, hj, ?_, by rw [hq, Option.some_or], firstSeen_lt hq⟩
      rw [hi, Option.none_or, if_pos hword]

/-- **One pass** keeps the invariant. -/
theorem PollInv.pass {passes : List Pass} {s : Poll} (h : PollInv passes s) (words : Pass) :
    PollInv (passes ++ [words]) (s.pass words) := by
  constructor
  case resolved =>
    intro i
    rw [Poll.pass, resolved_slots, h.resolved, firstSeen_concat, Option.isSome_or]
    by_cases hword : words i = marker i
    · simp [hword]
      omega
    · simp [hword]
  case top => exact topIs_slots h.top words _
  case outOfOrder =>
    rw [Poll.pass, outOfOrder_slots h.top, h.outOfOrder, seenOutOfOrder_concat]
    apply or_congr_right
    constructor
    · intro hex
      obtain ⟨i, hi, hunresolved, hword, j, hij, hresolved⟩ := hex
      obtain ⟨hj, hseen⟩ := (h.resolved j).mp hresolved
      refine ⟨i, j, hij, hj, ?_, hword, hseen⟩
      cases hfirst : firstSeen passes i with
      | none => rfl
      | some p =>
        have hbefore := (h.resolved i).mpr ⟨hi, by rw [hfirst]; rfl⟩
        rw [hunresolved] at hbefore
        cases hbefore
    · intro hex
      obtain ⟨i, j, hij, hj, hfirst, hword, hseen⟩ := hex
      refine ⟨i, by omega, ?_, hword, j, hij, (h.resolved j).mpr ⟨hj, hseen⟩⟩
      rw [← Bool.not_eq_true, h.resolved, hfirst]
      simp

theorem pollInv_poll (passes : List Pass) : PollInv passes (poll .init passes) := by
  rw [poll_eq]
  induction passes using List.reverseRecOn with
  | nil => exact pollInv_init
  | append_singleton passes words ih =>
    rw [List.foldl_append]
    exact ih.pass words

theorem PollInv.timedOut_iff {passes : List Pass} {s : Poll} (h : PollInv passes s) :
    s.timedOut = true ↔ ∃ i < nSubmissions, firstSeen passes i = none := by
  unfold Poll.timedOut
  rw [Bool.not_eq_true', ← Bool.not_eq_true, allDone_iff]
  constructor
  · intro hnot
    by_contra hall
    apply hnot
    intro i hi
    refine (h.resolved i).mpr ⟨hi, ?_⟩
    rw [Option.isSome_iff_ne_none]
    exact fun hnone => hall ⟨i, hi, hnone⟩
  · intro hex hall
    obtain ⟨i, hi, hnone⟩ := hex
    have hseen := ((h.resolved i).mp (hall i hi)).2
    rw [hnone] at hseen
    cases hseen

/-- A slot stays unresolved for want of a pass that saw its marker. -/
theorem PollInv.unresolved_iff {passes : List Pass} {s : Poll} (h : PollInv passes s) {i : Nat}
    (hi : i < nSubmissions) : s.resolved i = false ↔ firstSeen passes i = none := by
  rw [← Bool.not_eq_true, h.resolved i, ← Option.not_isSome_iff_eq_none]
  constructor
  · intro hnot hseen
    exact hnot ⟨hi, hseen⟩
  · intro hnone hseen
    exact hnone hseen.2

/-- **What the verdict says.** Whatever the GPU does and whenever the time is up: a slot is reported
as timed out if no pass has seen its marker, the run as a whole if there is such a slot, and
reordering is reported if some marker was seen first in a later pass than one behind it. Only a run
without either is a success. -/
theorem verdict_iff (passes : List Pass) :
    let s := poll .init passes
    (∀ i < nSubmissions, s.resolved i = false ↔ firstSeen passes i = none) ∧
      (s.timedOut = true ↔ ∃ i < nSubmissions, firstSeen passes i = none) ∧
      (s.outOfOrder = true ↔ SeenOutOfOrder passes) ∧
      (s.exitCode = 0 ↔ ∀ i j, i ≤ j → j < nSubmissions →
        ∃ p q, firstSeen passes i = some p ∧ firstSeen passes j = some q ∧ p ≤ q) := by
  intro s
  have hinv := pollInv_poll passes
  refine ⟨fun _ hi => hinv.unresolved_iff hi, hinv.timedOut_iff, hinv.outOfOrder, ?_⟩
  have hexit : s.exitCode = 0 ↔ ¬ s.timedOut = true ∧ ¬ s.outOfOrder = true := by
    unfold Poll.exitCode
    cases s.timedOut <;> cases s.outOfOrder <;> decide
  rw [hexit, hinv.timedOut_iff, hinv.outOfOrder]
  constructor
  · intro hnone i j hij hj
    obtain ⟨hseen, horder⟩ := hnone
    have hsome : ∀ i < nSubmissions, ∃ p, firstSeen passes i = some p := by
      intro i hi
      rw [← Option.isSome_iff_exists, Option.isSome_iff_ne_none]
      exact fun hnone => hseen ⟨i, hi, hnone⟩
    obtain ⟨p, hp⟩ := hsome i (by omega)
    obtain ⟨q, hq⟩ := hsome j hj
    refine ⟨p, q, hp, hq, ?_⟩
    by_contra hlt
    have hne : i ≠ j := by
      intro heq
      rw [heq, hq] at hp
      obtain rfl := Option.some.inj hp
      omega
    exact horder ⟨i, j, p, q, by omega, hj, hp, hq, by omega⟩
  · intro hall
    constructor
    · intro hex
      obtain ⟨i, hi, hnone⟩ := hex
      obtain ⟨p, -, hp, -, -⟩ := hall i i (Nat.le_refl i) hi
      rw [hnone] at hp
      cases hp
    · intro hex
      obtain ⟨i, j, p, q, hij, hj, hp, hq, hlt⟩ := hex
      obtain ⟨p', q', hp', hq', hle⟩ := hall i j (by omega) hj
      rw [hp] at hp'
      rw [hq] at hq'
      obtain rfl := Option.some.inj hp'
      obtain rfl := Option.some.inj hq'
      omega

/-! ## A queue that completes in order -/

/-- The queue completes the copies in the order of their submission: when slot `i` comes up in pass
`p`, the first `done p i` are there. -/
structure InOrder (passes : List Pass) (done : Nat → Nat → Nat) : Prop where
  visible : ∀ p words, passes[p]? = some words → ∀ i < nSubmissions,
    words i = marker i ↔ i < done p i
  slots : ∀ p i j, i ≤ j → j < nSubmissions → done p i ≤ done p j
  passes : ∀ p q i j, p < q → i < nSubmissions → j < nSubmissions → done p i ≤ done q j

theorem InOrder.firstSeen_iff {passes : List Pass} {done : Nat → Nat → Nat}
    (h : InOrder passes done) {i p : Nat} (hi : i < nSubmissions) :
    firstSeen passes i = some p ↔
      p < passes.length ∧ i < done p i ∧ ∀ q < p, done q i ≤ i := by
  unfold firstSeen
  rw [List.findIdx?_eq_some_iff_getElem]
  constructor
  · intro hex
    obtain ⟨hp, hword, hbefore⟩ := hex
    refine ⟨hp, ?_, fun q hq => ?_⟩
    · exact (h.visible p _ (List.getElem?_eq_getElem hp) i hi).mp (of_decide_eq_true hword)
    · have hnot := hbefore q hq
      by_contra hlt
      exact hnot (decide_eq_true
        ((h.visible q _ (List.getElem?_eq_getElem (by omega)) i hi).mpr (by omega)))
  · intro hex
    obtain ⟨hp, hlt, hbefore⟩ := hex
    refine ⟨hp, ?_, fun q hq => ?_⟩
    · exact decide_eq_true ((h.visible p _ (List.getElem?_eq_getElem hp) i hi).mpr hlt)
    · intro hword
      have hseen := (h.visible q _ (List.getElem?_eq_getElem (by omega)) i hi).mp
        (of_decide_eq_true hword)
      have hle := hbefore q hq
      omega

/-- What is there in some pass was seen by then. -/
theorem InOrder.firstSeen_le {passes : List Pass} {done : Nat → Nat → Nat}
    (h : InOrder passes done) {i q : Nat} (hi : i < nSubmissions) (hq : q < passes.length)
    (hthere : i < done q i) : ∃ p ≤ q, firstSeen passes i = some p := by
  have hsome : ∃ p, i < done p i := ⟨q, hthere⟩
  have hle : Nat.find hsome ≤ q := Nat.find_min' hsome hthere
  refine ⟨Nat.find hsome, hle, (h.firstSeen_iff hi).mpr ⟨by omega, Nat.find_spec hsome, ?_⟩⟩
  intro p hp
  exact Nat.not_lt.mp (Nat.find_min hsome hp)

/-- **Reordering is reported of a queue that completes in order** when a copy, and one submitted
behind it, become visible between the looks of one pass at their slots, if there is time for another
look at the first. When nothing becomes visible during a pass it is not reported. -/
theorem reordering_reported_iff {passes : List Pass} {done : Nat → Nat → Nat}
    (hqueue : InOrder passes done) :
    ((poll .init passes).outOfOrder = true ↔
      ∃ p i j, i < j ∧ j < nSubmissions ∧ done p i ≤ i ∧ j < done p j ∧
        ∃ q < passes.length, p < q ∧ i < done q i) ∧
      ((∀ p i j, i < nSubmissions → j < nSubmissions → done p i = done p j) →
        (poll .init passes).outOfOrder = false) := by
  have hreported : (poll .init passes).outOfOrder = true ↔
      ∃ p i j, i < j ∧ j < nSubmissions ∧ done p i ≤ i ∧ j < done p j ∧
        ∃ q < passes.length, p < q ∧ i < done q i := by
    rw [(pollInv_poll passes).outOfOrder]
    constructor
    · intro hex
      obtain ⟨i, j, p, q, hij, hj, hp, hq, hlt⟩ := hex
      obtain ⟨hplt, hthere, hbefore⟩ := (hqueue.firstSeen_iff (by omega)).mp hp
      obtain ⟨-, hjthere, -⟩ := (hqueue.firstSeen_iff hj).mp hq
      exact ⟨q, i, j, hij, hj, hbefore q hlt, hjthere, p, hplt, hlt, hthere⟩
    · intro hex
      obtain ⟨p, i, j, hij, hj, hnot, hthere, q, hq, hpq, hlater⟩ := hex
      have hi : i < nSubmissions := by omega
      obtain ⟨p', -, hp'⟩ := hqueue.firstSeen_le hi hq hlater
      obtain ⟨q', hq'le, hq'⟩ := hqueue.firstSeen_le hj (by omega) hthere
      obtain ⟨-, hseen, -⟩ := (hqueue.firstSeen_iff hi).mp hp'
      have hafter : p < p' := by
        by_contra hle
        by_cases hsame : p' = p
        · rw [hsame] at hseen
          omega
        · have hmono := hqueue.passes p' p i i (by omega) hi hi
          omega
      exact ⟨i, j, p', q', hij, hj, hp', hq', by omega⟩
  refine ⟨hreported, fun hstill => ?_⟩
  rw [← Bool.not_eq_true, hreported]
  intro hex
  obtain ⟨p, i, j, hij, hj, hnot, hthere, -⟩ := hex
  have hsame := hstill p i j (by omega) hj
  omega

/-- Nothing is there when slot 0 comes up first, and everything when slot 1 does. -/
theorem reordering_reported_iff_lateFirst :
    let passes : List Pass := [fun i => if i = 0 then 0 else marker i, marker]
    (poll .init passes).outOfOrder = true := by
  intro passes
  have hqueue : InOrder passes fun p i => if p = 0 ∧ i = 0 then 0 else nSubmissions := by
    constructor
    case visible =>
      intro p words hp
      match p with
      | 0 =>
        obtain rfl := Option.some.inj hp
        decide
      | 1 =>
        obtain rfl := Option.some.inj hp
        decide
      | p + 2 => cases hp
    case slots =>
      intro p i j hij _
      split <;> split <;> omega
    case passes =>
      intro p q i j hpq _ _
      split <;> split <;> omega
  exact (reordering_reported_iff hqueue).1.mpr
    ⟨0, 0, 1, by decide, by decide, by decide, by decide, 1, by decide, by decide, by decide⟩

end HipBridge.Investigations.TimingProbe
