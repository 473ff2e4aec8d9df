import HipBridge.Lib.RepeatedList
import HipBridge.Lib.Run
import HipBridge.Unixlib.Native

/-!
# What is left of `LD_LIBRARY_PATH`

Every handler starts with `ensure_loaded`, which puts the ROCm directories in front of the variable
before it tries the candidates, in a buffer of 4096 bytes, and does so again at the next call if
none of them loaded.

* **`loadStep`** — a call of `ensure_loaded`, which meets a `World` of its own.
* **`attempts`** — the calls of a run that find no library loaded. `ldPath_run` says what the
  variable is after them.
* **`PathIntact`** — the retries change nothing, and the variable ends with its first value.
* **`pathIntact_iff`** — when it is so.
-/

namespace HipBridge.Unixlib

open Lib

/-! ## Retrying -/

def loadStep (s : NativeState) (w : World) : NativeState := (ensureLoaded w s).2

/-- None of the candidates loads. -/
def CannotLoad (w : World) : Prop := (candidates.findSome? w.dlopen).isNone = true

instance (w : World) : Decidable (CannotLoad w) := inferInstanceAs (Decidable (_ = true))

/-- The calls that find no library loaded: those that fail, and the first that does not. -/
def attempts : List World → Nat
  | [] => 0
  | w :: ws => if CannotLoad w then attempts ws + 1 else 1

/-- The bytes of the variable; unset is like empty to `ensure_loaded`. -/
def NativeState.ldPath (s : NativeState) : List UInt8 := s.env.ldLibraryPath.elim [] CString.bytes

/-- What `"…:%s"` prints before the old value. -/
def newDirs : List UInt8 := rocmLibDirs.bytes ++ utf8Bytes ":"

/-- The bytes that `new_ld_path` has room for. -/
def newLdPathRoom : Nat := newLdPathSize - 1

theorem length_rocmLibDirs : rocmLibDirs.bytes.length = 151 := by decide +kernel

theorem length_newDirs : newDirs.length = 152 := by
  unfold newDirs
  rw [List.length_append, length_rocmLibDirs]
  rfl

theorem newLdPathRoom_eq : newLdPathRoom = 4095 := rfl

theorem newDirs_ne_nil : newDirs ≠ [] := by
  apply List.ne_nil_of_length_pos
  rw [length_newDirs]
  decide

/-! ## What the variable is after a run -/

/-- An attempt puts the directories in front and cuts off what does not fit. -/
theorem ldPath_loadStep {s : NativeState} (hnone : s.hipHandle = none) (w : World) :
    (loadStep s w).ldPath
      = if s.ldPath = [] then rocmLibDirs.bytes else (newDirs ++ s.ldPath).take newLdPathRoom := by
  have hpath : (loadStep s w).env.ldLibraryPath = some (newLdPath s.env.ldLibraryPath) := by
    unfold loadStep ensureLoaded
    rw [hnone]
    dsimp only
    split <;> rfl
  have hdirs : (CString.snprintfFits newLdPathSize rocmLibDirs).bytes = rocmLibDirs.bytes := by
    rw [CString.bytes_snprintfFits, List.take_of_length_le]
    rw [length_rocmLibDirs]
    decide
  unfold NativeState.ldPath
  rw [hpath]
  cases hold : s.env.ldLibraryPath with
  | none => exact hdirs
  | some path =>
    show (newLdPath (some path)).bytes = if path.bytes = [] then _ else _
    unfold newLdPath
    dsimp only
    split
    · exact hdirs
    · rfl

theorem hipHandle_loadStep_of_cannotLoad {s : NativeState} (hnone : s.hipHandle = none) {w : World}
    (h : CannotLoad w) : (loadStep s w).hipHandle = none := by
  unfold CannotLoad at h
  rw [Option.isNone_iff_eq_none] at h
  simp [loadStep, ensureLoaded, hnone, h]

/-- Once the library is loaded the variable is left alone. -/
theorem run_loadStep_of_loaded {s : NativeState} (h : s.hipHandle.isSome) (ws : List World) :
    run loadStep s ws = s := by
  obtain ⟨lib, hlib⟩ := Option.isSome_iff_exists.mp h
  have hstep : ∀ w, loadStep s w = s := by
    intro w
    simp [loadStep, ensureLoaded, hlib]
  induction ws with
  | nil => rfl
  | cons w ws ih => rw [run_cons, hstep, ih]

theorem isSome_hipHandle_loadStep {s : NativeState} {w : World} (h : ¬ CannotLoad w) :
    (loadStep s w).hipHandle.isSome := by
  unfold CannotLoad at h
  rw [Option.isNone_iff_eq_none, ← ne_eq, Option.ne_none_iff_exists'] at h
  obtain ⟨lib, hlib⟩ := h
  unfold loadStep ensureLoaded
  cases hhandle : s.hipHandle with
  | none => simp [hlib]
  | some lib' => simp [hhandle]

/-- Every attempt puts the directories in front once more. Induction on the run. -/
theorem ldPath_run {s : NativeState} (hnone : s.hipHandle = none) (hne : s.ldPath ≠ []) (w : World)
    (ws : List World) :
    (run loadStep s (w :: ws)).ldPath
      = ((List.replicate (attempts (w :: ws)) newDirs).flatten ++ s.ldPath).take newLdPathRoom := by
  induction ws generalizing s w with
  | nil =>
    have hone : attempts [w] = 1 := by
      unfold attempts attempts
      split <;> rfl
    rw [run_cons, run_nil, ldPath_loadStep hnone, if_neg hne, hone, List.replicate_one,
      List.flatten_singleton]
  | cons w' ws ih =>
    have hfirst := ldPath_loadStep hnone w
    rw [if_neg hne] at hfirst
    rw [run_cons]
    by_cases hfail : CannotLoad w
    · have hne' : (loadStep s w).ldPath ≠ [] := by
        rw [hfirst, ne_eq, List.take_eq_nil_iff, not_or]
        exact ⟨by decide, List.append_ne_nil_of_left_ne_nil newDirs_ne_nil _⟩
      rw [ih (hipHandle_loadStep_of_cannotLoad hnone hfail) hne', hfirst, take_append_take,
        ← List.append_assoc, flatten_replicate_append]
      conv_rhs => rw [attempts, if_pos hfail]
    · rw [run_loadStep_of_loaded (isSome_hipHandle_loadStep hfail), hfirst, attempts, if_neg hfail,
        List.replicate_one, List.flatten_singleton]

/-! ## When the first value survives -/

/-- What the calls leave of the variable: if every one fails, the later ones change nothing; and in
any case the variable ends with its first value. -/
def PathIntact (s : NativeState) (w : World) (ws : List World) : Prop :=
  ((∀ w' ∈ w :: ws, CannotLoad w') →
    (run loadStep s (w :: ws)).ldPath = (run loadStep s [w]).ldPath) ∧
  s.ldPath <:+ (run loadStep s (w :: ws)).ldPath

/-- There is room for the first value behind `n` copies of the directories, or it repeats the text
in front of it, so that what is pushed out does not show. -/
def RoomBehind (v : List UInt8) (n : Nat) : Prop :=
  n * newDirs.length + v.length ≤ newLdPathRoom ∨
    (v.length ≤ newLdPathRoom ∧
      v = repeated ((List.replicate n newDirs).flatten.drop (newLdPathRoom - v.length)) v.length)

/-- The first value is itself an end of the directories over and over, and so long that nothing
else is left of it. -/
def RepeatsDirs (v : List UInt8) : Prop :=
  repeated newDirs (newLdPathRoom - newDirs.length) <+: v ∧ v <:+ repeated newDirs newLdPathRoom

/-- One more round changes nothing only if the buffer is full of directories. -/
theorem retry_eq_self_iff {x : List UInt8} (hx : x.length ≤ newLdPathRoom) (n : Nat) :
    ((List.replicate (n + 1) newDirs).flatten ++ x).take newLdPathRoom = x ↔
      x = repeated newDirs newLdPathRoom := by
  have hlength : (List.replicate (n + 1) newDirs).flatten.length ≥ 152 := by
    rw [List.replicate_succ, List.flatten_cons, List.length_append, length_newDirs]
    omega
  have hroom := length_repeated newDirs_ne_nil newLdPathRoom
  constructor
  · intro heq
    have hlen := congrArg List.length heq
    rw [List.length_take, List.length_append] at hlen
    have hfull : x.length = newLdPathRoom := by
      omega
    have hprefix : x <+: (List.replicate (n + 1) newDirs).flatten ++ x := by
      rw [List.prefix_iff_eq_take, hfull]
      exact heq.symm
    have hrepeats := (prefix_replicate_append_self_iff newDirs_ne_nil n).mp hprefix
    rwa [hfull] at hrepeats
  · intro heq
    rw [heq, take_replicate_append_repeated newDirs_ne_nil]

section FirstCall

variable {s : NativeState} (hnone : s.hipHandle = none) (w : World)
include hnone

theorem ldPath_loadStep_ne_nil : (loadStep s w).ldPath ≠ [] := by
  apply List.ne_nil_of_length_pos
  rw [ldPath_loadStep hnone]
  split
  · rw [length_rocmLibDirs]
    decide
  · rw [List.length_take, List.length_append, length_newDirs, newLdPathRoom_eq]
    omega

theorem length_ldPath_loadStep_le : (loadStep s w).ldPath.length ≤ newLdPathRoom := by
  rw [ldPath_loadStep hnone]
  split
  · rw [length_rocmLibDirs]
    decide
  · exact List.length_take_le _ _

/-- The first call fills the buffer with directories only if the first value goes on with them. -/
theorem ldPath_loadStep_eq_repeated_iff :
    (loadStep s w).ldPath = repeated newDirs newLdPathRoom ↔
      repeated newDirs (newLdPathRoom - newDirs.length) <+: s.ldPath := by
  rw [ldPath_loadStep hnone]
  split
  case isTrue hnil =>
    have hlen := length_repeated newDirs_ne_nil newLdPathRoom
    have hlen' := length_repeated newDirs_ne_nil (newLdPathRoom - newDirs.length)
    rw [length_newDirs, newLdPathRoom_eq] at hlen'
    rw [newLdPathRoom_eq] at hlen
    refine iff_of_false (fun heq => ?_) (fun hprefix => ?_)
    · rw [newLdPathRoom_eq] at heq
      rw [← heq, length_rocmLibDirs] at hlen
      omega
    · have hle := hprefix.length_le
      rw [hnil, length_newDirs, newLdPathRoom_eq, hlen'] at hle
      simp at hle
  case isFalse hne =>
    apply take_append_eq_repeated_iff newDirs_ne_nil
    rw [length_newDirs]
    decide

/-- Calls that end with room for the first value, or with an end of it that looks the same. -/
theorem ldPath_suffix_iff (ws : List World) :
    s.ldPath <:+ (run loadStep s (w :: ws)).ldPath ↔
      RoomBehind s.ldPath (attempts (w :: ws)) := by
  unfold RoomBehind
  by_cases hnil : s.ldPath = []
  · rw [hnil]
    exact iff_of_true List.nil_suffix (Or.inr ⟨Nat.zero_le _, rfl⟩)
  · have hlength : ∀ n, (List.replicate n newDirs).flatten.length = n * newDirs.length := by
      intro n
      simp
    rw [ldPath_run hnone hnil, suffix_take_append_iff, hlength]

/-- Failing calls change nothing after the first only if that filled the buffer. -/
theorem ldPath_retry_iff (hfail : CannotLoad w) (w' : World) (ws : List World) :
    (run loadStep s (w :: w' :: ws)).ldPath = (loadStep s w).ldPath ↔
      (loadStep s w).ldPath = repeated newDirs newLdPathRoom := by
  have hpos : ∃ n, attempts (w' :: ws) = n + 1 := by
    unfold attempts
    split
    · exact ⟨_, rfl⟩
    · exact ⟨0, rfl⟩
  obtain ⟨n, hn⟩ := hpos
  rw [run_cons, ldPath_run (hipHandle_loadStep_of_cannotLoad hnone hfail)
    (ldPath_loadStep_ne_nil hnone w), hn]
  exact retry_eq_self_iff (length_ldPath_loadStep_le hnone w) n

end FirstCall

/-- **When the library path survives loading.** Calls that all fail, two or more of them, leave it
intact only if the first value is nothing but the directories over and over, filling the buffer;
otherwise it ends with the first value exactly when there is room behind a copy of the directories
for each attempt (or the cut does not show). -/
theorem pathIntact_iff (env : Env) (w : World) (ws : List World) :
    PathIntact (NativeState.init env) w ws ↔
      if (∀ w' ∈ w :: ws, CannotLoad w') ∧ ws ≠ [] then RepeatsDirs (NativeState.init env).ldPath
      else RoomBehind (NativeState.init env).ldPath (attempts (w :: ws)) := by
  have hnone : (NativeState.init env).hipHandle = none := rfl
  unfold PathIntact
  split
  case isTrue hretry =>
    obtain ⟨hfail, hne⟩ := hretry
    cases ws with
    | nil => exact absurd rfl hne
    | cons w' ws =>
      have hfirst : CannotLoad w := hfail w List.mem_cons_self
      have hiff := ldPath_retry_iff hnone w hfirst w' ws
      unfold RepeatsDirs
      rw [← ldPath_loadStep_eq_repeated_iff hnone w]
      constructor
      · intro hintact
        obtain ⟨hsame, hsuffix⟩ := hintact
        have hfull := hiff.mp (hsame hfail)
        rw [hsame hfail, run_cons, run_nil, hfull] at hsuffix
        exact ⟨hfull, hsuffix⟩
      · intro hrepeats
        obtain ⟨hfull, hsuffix⟩ := hrepeats
        have hsame := hiff.mpr hfull
        refine ⟨fun _ => hsame, ?_⟩
        rw [hsame, hfull]
        exact hsuffix
  case isFalse hno =>
    rw [ldPath_suffix_iff hnone w ws]
    refine and_iff_right fun hfail => ?_
    -- calls that all fail are one call here
    have hnil : ws = [] := by
      by_contra hne
      exact hno ⟨hfail, hne⟩
    rw [hnil]

/-- A process without ROCm. -/
def bareWorld : World where
  dlopen := fun _ => none
  mem := fun _ => none
  hip := fun _ => { ret := hipSuccess }

/-- A path of five thousand bytes. -/
def longPath : CString := ⟨List.replicate 5000 97, fun h => by cases List.eq_of_mem_replicate h⟩

/-- A second failing call puts the directories in front once more, and already the first call cuts
a long path. -/
theorem path_not_intact :
    ¬ PathIntact (NativeState.init ⟨none, none⟩) bareWorld [bareWorld] ∧
    ¬ PathIntact (NativeState.init ⟨some longPath, none⟩) bareWorld [] := by
  constructor
  · intro hintact
    have hsame := hintact.1 (by decide +kernel)
    revert hsame
    decide +kernel
  · intro hintact
    have hle := hintact.2.length_le
    have hnone : (NativeState.init ⟨some longPath, none⟩).hipHandle = none := rfl
    have hroom := length_ldPath_loadStep_le hnone bareWorld
    have hlong : (NativeState.init ⟨some longPath, none⟩).ldPath.length = 5000 :=
      List.length_replicate
    rw [run_cons, run_nil, hlong] at hle
    rw [newLdPathRoom_eq] at hroom
    omega

end HipBridge.Unixlib
