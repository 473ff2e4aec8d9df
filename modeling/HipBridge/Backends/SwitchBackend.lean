import HipBridge.Lib.FileMoves

/-!
# Switching between backends (`backends/switch_backend.sh`)

The script moves every managed file out of the game directory into the store of its backend,
and then the target's files back. It is the list of the moves its loops make; a run that is cut
off is a prefix of the list.

* **`switchBackend`** — the moves of a run.
* **`missingFiles`** — the names `restore_backend` reports.
* **`winner`** — which of a file's two places counts: the game directory, else the store.
* **`settle`** — what a whole run leaves, in terms of the winners.
* **`switchBackend_restartable`** — runs cut off anywhere do not change what a whole run leaves,
  and never mix the backends.
-/

namespace HipBridge.Backends

open Lib

inductive Backend
  | daniel
  | guentra
deriving DecidableEq

def Backend.other : Backend → Backend
  | .daniel => .guentra
  | .guentra => .daniel

def danielFiles : List String := ["version.dll", "amdhip64_7.dll", "dlssnr_on_amd.ini"]

def guentraFiles : List String :=
  ["d3d12.dll", "lmxxf-d3d12.dll", "d3d12core.dll", "dlss5_hip.dll", "ReShade.ini"]

/-- The file names of a backend, which are managed in the game directory and in its store. -/
def Backend.files : Backend → List String
  | .daniel => danielFiles
  | .guentra => guentraFiles

/-- `$GAMEDIR`, and `$STORE/<backend>`. -/
inductive Directory
  | game
  | store (backend : Backend)
deriving DecidableEq

structure Path where
  directory : Directory
  name : String
deriving DecidableEq

def gameFile (f : String) : Path := ⟨.game, f⟩

def storedFile (backend : Backend) (f : String) : Path := ⟨.store backend, f⟩

/-- One file of the loop of `backup_present`. -/
def backup (backend : Backend) (f : String) : Move Path := ⟨gameFile f, storedFile backend f⟩

/-- One file of the loop of `restore_backend`. -/
def restore (backend : Backend) (f : String) : Move Path := ⟨storedFile backend f, gameFile f⟩

def backupPresent (backend : Backend) : List (Move Path) := backend.files.map (backup backend)

def restoreBackend (backend : Backend) : List (Move Path) := backend.files.map (restore backend)

/-- The files of both backends are moved away. -/
def backupAll : List (Move Path) := backupPresent .daniel ++ backupPresent .guentra

/-- `switch_backend.sh <target>`. -/
def switchBackend (target : Backend) : List (Move Path) := backupAll ++ restoreBackend target

variable {C : Type}

/-- The names that the loop of `restore_backend` reports as `MISSING`, from some file on. -/
def missingFiles (backend : Backend) : (names : List String) → Files Path C → List String
  | [], _ => []
  | f :: names, d =>
    let rest := missingFiles backend names (moveFile d (restore backend f))
    if (d (storedFile backend f)).isNone && (d (gameFile f)).isNone then f :: rest else rest

/-! ## The names -/

/-- No name belongs to both backends. -/
theorem backend_unique {b b' : Backend} {f : String} (h : f ∈ b.files) (h' : f ∈ b'.files) :
    b = b' := by
  have hdaniel : ∀ f ∈ danielFiles, f ∉ guentraFiles := by decide
  cases b <;> cases b'
  case daniel.daniel => rfl
  case daniel.guentra => exact absurd h' (hdaniel f h)
  case guentra.daniel => exact absurd h (hdaniel f h')
  case guentra.guentra => rfl

theorem other_ne (b : Backend) : b.other ≠ b := by
  cases b <;> decide

theorem eq_or_eq_other (b target : Backend) : b = target ∨ b = target.other := by
  cases b <;> cases target <;> decide

theorem mem_backupAll {m : Move Path} :
    m ∈ backupAll ↔ ∃ b f, f ∈ Backend.files b ∧ m = backup b f := by
  simp only [backupAll, backupPresent, List.mem_append, List.mem_map]
  constructor
  · rintro (⟨f, hf, rfl⟩ | ⟨f, hf, rfl⟩)
    · exact ⟨.daniel, f, hf, rfl⟩
    · exact ⟨.guentra, f, hf, rfl⟩
  · rintro ⟨b, f, hf, rfl⟩
    cases b
    case daniel => exact Or.inl ⟨f, hf, rfl⟩
    case guentra => exact Or.inr ⟨f, hf, rfl⟩

theorem mem_restoreBackend {b : Backend} {m : Move Path} :
    m ∈ restoreBackend b ↔ ∃ f, f ∈ b.files ∧ m = restore b f := by
  simp only [restoreBackend, List.mem_map, eq_comm]

/-- The loops name every path once. -/
theorem backupAll_apart : backupAll.Pairwise Apart := by decide

theorem restoreBackend_apart (b : Backend) : (restoreBackend b).Pairwise Apart := by
  cases b <;> decide

/-! ## Winners -/

/-- The copy of a managed file that counts. -/
def winner (d : Files Path C) (b : Backend) (f : String) : Option C :=
  (d (gameFile f)).or (d (storedFile b f))

/-- The path belongs to a managed file of some backend. -/
def Managed (p : Path) : Prop := ∃ b f, f ∈ Backend.files b ∧ (p = gameFile f ∨ p = storedFile b f)

/-- What a whole run leaves: the target's files in the game directory, the others' in their
store, and every other path as it was. -/
def settle (target : Backend) (d : Files Path C) : Files Path C := fun p =>
  match p.directory with
  | .game =>
    if p.name ∈ target.files then winner d target p.name
    else if p.name ∈ target.other.files then none
    else d p
  | .store b =>
    if p.name ∈ b.files then if b = target then none else winner d b p.name
    else d p

/-! ## Paths -/

/-- Every path, as a run with a target sees it. -/
theorem path_cases (target : Backend) (p : Path) :
    (∃ f, f ∈ target.files ∧ (p = gameFile f ∨ p = storedFile target f)) ∨
    (∃ f, f ∈ target.other.files ∧ (p = gameFile f ∨ p = storedFile target.other f)) ∨
    ¬ Managed p := by
  by_cases hp : Managed p
  · obtain ⟨b, f, hf, hp⟩ := hp
    rcases eq_or_eq_other b target with rfl | rfl
    · exact Or.inl ⟨f, hf, hp⟩
    · exact Or.inr (Or.inl ⟨f, hf, hp⟩)
  · exact Or.inr (Or.inr hp)

theorem not_mem_files {b b' : Backend} {f : String} (hf : f ∈ b.files) (hne : b' ≠ b) :
    f ∉ b'.files := fun h => hne (backend_unique h hf)

section Settle

variable (d : Files Path C) {target b : Backend} {f : String}

theorem settle_game (hf : f ∈ target.files) : settle target d (gameFile f) = winner d target f :=
  if_pos hf

theorem settle_game_other (hf : f ∈ target.other.files) : settle target d (gameFile f) = none := by
  have hnot : f ∉ target.files := not_mem_files hf (other_ne target).symm
  show (if f ∈ target.files then _ else if f ∈ target.other.files then none else _) = none
  rw [if_neg hnot, if_pos hf]

theorem settle_store (hf : f ∈ target.files) : settle target d (storedFile target f) = none := by
  show (if f ∈ target.files then if target = target then none else _ else _) = none
  rw [if_pos hf, if_pos rfl]

theorem settle_store_other (hf : f ∈ target.other.files) :
    settle target d (storedFile target.other f) = winner d target.other f := by
  show (if f ∈ target.other.files then
    if target.other = target then none else winner d target.other f else _) = _
  rw [if_pos hf, if_neg (other_ne target)]

theorem settle_unmanaged {p : Path} (hp : ¬ Managed p) : settle target d p = d p := by
  obtain ⟨directory, f⟩ := p
  cases directory with
  | game =>
    have hnot : ∀ b, f ∉ Backend.files b := fun b hf => hp ⟨b, f, hf, Or.inl rfl⟩
    show (if f ∈ target.files then _ else if f ∈ target.other.files then none else _) = _
    rw [if_neg (hnot target), if_neg (hnot target.other)]
  | store b =>
    have hnot : f ∉ b.files := fun hf => hp ⟨b, f, hf, Or.inr rfl⟩
    show (if f ∈ b.files then _ else _) = _
    rw [if_neg hnot]

end Settle

/-! ## A whole run -/

section Whole

variable (d : Files Path C) {target b : Backend} {f : String}

theorem gameFile_ne_storedFile {g : String} : gameFile f ≠ storedFile b g := by
  intro h
  cases h

theorem run_backupAll_game (hf : f ∈ b.files) : run moveFile d backupAll (gameFile f) = none :=
  run_moves_src backupAll_apart (mem_backupAll.mpr ⟨b, f, hf, rfl⟩) gameFile_ne_storedFile

theorem run_backupAll_store (hf : f ∈ b.files) :
    run moveFile d backupAll (storedFile b f) = winner d b f :=
  run_moves_dst backupAll_apart (mem_backupAll.mpr ⟨b, f, hf, rfl⟩)

theorem run_backupAll_unmanaged {p : Path} (hp : ¬ Managed p) :
    run moveFile d backupAll p = d p := by
  apply run_moves_other
  intro m hm
  obtain ⟨b, f, hf, rfl⟩ := mem_backupAll.mp hm
  exact ⟨fun h => hp ⟨b, f, hf, Or.inl h⟩, fun h => hp ⟨b, f, hf, Or.inr h⟩⟩

theorem run_restoreBackend_game (hf : f ∈ target.files) :
    run moveFile d (restoreBackend target) (gameFile f)
      = (d (storedFile target f)).or (d (gameFile f)) :=
  run_moves_dst (restoreBackend_apart target) (mem_restoreBackend.mpr ⟨f, hf, rfl⟩)

theorem run_restoreBackend_store (hf : f ∈ target.files) :
    run moveFile d (restoreBackend target) (storedFile target f) = none :=
  run_moves_src (restoreBackend_apart target) (mem_restoreBackend.mpr ⟨f, hf, rfl⟩)
    gameFile_ne_storedFile.symm

/-- A restore touches no path of the other backend, and none that is not managed. -/
theorem run_restoreBackend_other {p : Path}
    (hp : ∀ f ∈ target.files, p ≠ gameFile f ∧ p ≠ storedFile target f) :
    run moveFile d (restoreBackend target) p = d p := by
  apply run_moves_other
  intro m hm
  obtain ⟨f, hf, rfl⟩ := mem_restoreBackend.mp hm
  exact ⟨(hp f hf).2, (hp f hf).1⟩

/-- **A whole run**, path by path. -/
theorem run_switchBackend (target : Backend) :
    run moveFile d (switchBackend target) = settle target d := by
  funext p
  rw [switchBackend, run_append]
  rcases path_cases target p with ⟨f, hf, rfl | rfl⟩ | ⟨f, hf, hp⟩ | hp
  · -- the stored copy is the winner by now, and nothing is in its way
    rw [run_restoreBackend_game _ hf, run_backupAll_store d hf, run_backupAll_game d hf,
      Option.or_none, settle_game d hf]
  · rw [run_restoreBackend_store _ hf, settle_store d hf]
  · have hspared : ∀ g ∈ target.files, p ≠ gameFile g ∧ p ≠ storedFile target g := by
      intro g hg
      have hname : f ≠ g := fun h => not_mem_files hf (other_ne target).symm (h ▸ hg)
      rcases hp with rfl | rfl
      · exact ⟨fun h => hname (Path.mk.inj h).2, gameFile_ne_storedFile⟩
      · exact ⟨gameFile_ne_storedFile.symm, fun h => hname (Path.mk.inj h).2⟩
    rw [run_restoreBackend_other _ hspared]
    rcases hp with rfl | rfl
    · rw [run_backupAll_game d hf, settle_game_other d hf]
    · rw [run_backupAll_store d hf, settle_store_other d hf]
  · have hspared : ∀ g ∈ target.files, p ≠ gameFile g ∧ p ≠ storedFile target g :=
      fun g hg => ⟨fun h => hp ⟨target, g, hg, Or.inl h⟩, fun h => hp ⟨target, g, hg, Or.inr h⟩⟩
    rw [run_restoreBackend_other _ hspared, run_backupAll_unmanaged d hp, settle_unmanaged d hp]

end Whole

/-! ## A run that is cut off -/

/-- The same winners, and the same files at every path that is not managed. -/
def SameWinners (d d' : Files Path C) : Prop :=
  (∀ b f, f ∈ Backend.files b → winner d b f = winner d' b f) ∧ ∀ p, ¬ Managed p → d p = d' p

theorem settle_congr {d d' : Files Path C} (h : SameWinners d d') (target : Backend) :
    settle target d = settle target d' := by
  funext p
  rcases path_cases target p with ⟨f, hf, rfl | rfl⟩ | ⟨f, hf, rfl | rfl⟩ | hp
  · rw [settle_game d hf, settle_game d' hf, h.1 target f hf]
  · rw [settle_store d hf, settle_store d' hf]
  · rw [settle_game_other d hf, settle_game_other d' hf]
  · rw [settle_store_other d hf, settle_store_other d' hf, h.1 target.other f hf]
  · rw [settle_unmanaged d hp, settle_unmanaged d' hp, h.2 p hp]

/-- A backup, or a restore into a game directory that has neither this file nor a file of the
other backend. -/
def Admissible (d : Files Path C) (m : Move Path) : Prop :=
  ∃ b f, f ∈ Backend.files b ∧
    (m = backup b f ∨
      m = restore b f ∧ d (gameFile f) = none ∧ ∀ g ∈ b.other.files, d (gameFile g) = none)

/-- A move of one file leaves the winners of the others alone. -/
theorem winner_moveFile_of_ne {d : Files Path C} {m : Move Path} {b b' : Backend} {f f' : String}
    (hm : m = backup b f ∨ m = restore b f) (hne : f' ≠ f) :
    winner (moveFile d m) b' f' = winner d b' f' := by
  have hspares : ∀ directory, m.Spares ⟨directory, f'⟩ := by
    intro directory
    rcases hm with rfl | rfl
    · exact ⟨fun h => hne (Path.mk.inj h).2, fun h => hne (Path.mk.inj h).2⟩
    · exact ⟨fun h => hne (Path.mk.inj h).2, fun h => hne (Path.mk.inj h).2⟩
  have hgame : moveFile d m (gameFile f') = d (gameFile f') := moveFile_other (hspares .game)
  have hstore : moveFile d m (storedFile b' f') = d (storedFile b' f') :=
    moveFile_other (hspares (.store b'))
  rw [winner, winner, hgame, hstore]

/-- A backup makes the file in the game directory the only copy; a restore of a file that is
not there makes the stored one the only copy. -/
theorem winner_moveFile_self {d : Files Path C} {m : Move Path} {b : Backend} {f : String}
    (hm : m = backup b f ∨ m = restore b f ∧ d (gameFile f) = none) :
    winner (moveFile d m) b f = winner d b f := by
  rcases hm with rfl | ⟨rfl, hgame⟩
  · have hsrc : moveFile d (backup b f) (gameFile f) = none := moveFile_src gameFile_ne_storedFile
    have hdst : moveFile d (backup b f) (storedFile b f) = winner d b f := moveFile_dst
    rw [winner, hsrc, hdst, Option.none_or]
  · have hsrc : moveFile d (restore b f) (storedFile b f) = none :=
      moveFile_src gameFile_ne_storedFile.symm
    have hdst : moveFile d (restore b f) (gameFile f)
        = (d (storedFile b f)).or (d (gameFile f)) := moveFile_dst
    rw [winner, winner, hsrc, hdst, hgame, Option.or_none, Option.or_none, Option.none_or]

/-- **One step.** An admissible move keeps the winners. -/
theorem Admissible.sameWinners {d d' : Files Path C} {m : Move Path} (h : SameWinners d d')
    (hm : Admissible d' m) : SameWinners d (moveFile d' m) := by
  obtain ⟨b, f, hf, hm⟩ := hm
  have heither : m = backup b f ∨ m = restore b f := hm.imp_right And.left
  constructor
  · intro b' f' hf'
    rw [h.1 b' f' hf']
    by_cases hname : f' = f
    · subst hname
      obtain rfl := backend_unique hf hf'
      exact (winner_moveFile_self (hm.imp_right fun hr => ⟨hr.1, hr.2.1⟩)).symm
    · exact (winner_moveFile_of_ne heither hname).symm
  · intro p hp
    rw [h.2 p hp, moveFile_other]
    rcases heither with rfl | rfl
    · exact ⟨fun heq => hp ⟨b, f, hf, Or.inl heq⟩, fun heq => hp ⟨b, f, hf, Or.inr heq⟩⟩
    · exact ⟨fun heq => hp ⟨b, f, hf, Or.inr heq⟩, fun heq => hp ⟨b, f, hf, Or.inl heq⟩⟩

/-- The managed files in the game directory are those of at most one backend. -/
def OneBackend (d : Files Path C) : Prop :=
  ∃ b : Backend, ∀ f ∈ b.other.files, d (gameFile f) = none

theorem moveFile_gameFile_of_ne {d : Files Path C} {m : Move Path} {b : Backend} {f g : String}
    (hm : m = backup b f ∨ m = restore b f) (hne : g ≠ f) :
    moveFile d m (gameFile g) = d (gameFile g) := by
  apply moveFile_other
  rcases hm with rfl | rfl
  · exact ⟨fun h => hne (Path.mk.inj h).2, gameFile_ne_storedFile⟩
  · exact ⟨gameFile_ne_storedFile, fun h => hne (Path.mk.inj h).2⟩

/-- **One step.** An admissible move does not mix the backends. -/
theorem Admissible.oneBackend {d : Files Path C} {m : Move Path} (h : OneBackend d)
    (hm : Admissible d m) : OneBackend (moveFile d m) := by
  obtain ⟨b, f, hf, rfl | ⟨rfl, -, hother⟩⟩ := hm
  · -- a backup only takes away
    obtain ⟨keep, hkeep⟩ := h
    refine ⟨keep, fun g hg => ?_⟩
    by_cases hname : g = f
    · subst hname
      exact moveFile_src gameFile_ne_storedFile
    · rw [moveFile_gameFile_of_ne (Or.inl rfl) hname, hkeep g hg]
  · -- a restore starts when the other backend's files are gone
    refine ⟨b, fun g hg => ?_⟩
    have hname : g ≠ f := fun heq => not_mem_files hg (other_ne b).symm (heq ▸ hf)
    rw [moveFile_gameFile_of_ne (Or.inr rfl) hname, hother g hg]

/-- The loop of `restore_backend` on some of the names. Induction on the names: what is
restored is not a name that comes later. -/
theorem along_restore {b : Backend} {names : List String} (hnodup : names.Nodup)
    (hsub : ∀ f ∈ names, f ∈ b.files) {d : Files Path C}
    (hgame : ∀ f ∈ names, d (gameFile f) = none)
    (hother : ∀ g ∈ b.other.files, d (gameFile g) = none) :
    Along moveFile Admissible d (names.map (restore b)) := by
  induction names generalizing d with
  | nil => trivial
  | cons f names ih =>
    obtain ⟨hnot, hnodup⟩ := List.nodup_cons.mp hnodup
    have hf := hsub f List.mem_cons_self
    refine ⟨⟨b, f, hf, Or.inr ⟨rfl, hgame f List.mem_cons_self, hother⟩⟩, ?_⟩
    apply ih hnodup fun g hg => hsub g (List.mem_cons_of_mem f hg)
    · intro g hg
      have hname : g ≠ f := fun heq => hnot (heq ▸ hg)
      rw [moveFile_gameFile_of_ne (Or.inr rfl) hname, hgame g (List.mem_cons_of_mem f hg)]
    · intro g hg
      have hname : g ≠ f := fun heq => not_mem_files hg (other_ne b).symm (heq ▸ hf)
      rw [moveFile_gameFile_of_ne (Or.inr rfl) hname, hother g hg]

theorem along_backup {moves : List (Move Path)} (hsub : ∀ m ∈ moves, m ∈ backupAll)
    (d : Files Path C) : Along moveFile Admissible d moves := by
  induction moves generalizing d with
  | nil => trivial
  | cons m moves ih =>
    obtain ⟨b, f, hf, hm⟩ := mem_backupAll.mp (hsub m List.mem_cons_self)
    exact ⟨⟨b, f, hf, Or.inl hm⟩, ih (fun m' hm' => hsub m' (List.mem_cons_of_mem m hm')) _⟩

theorem along_switchBackend (target : Backend) (d : Files Path C) :
    Along moveFile Admissible d (switchBackend target) := by
  rw [switchBackend, along_append]
  refine ⟨along_backup (fun m hm => hm) d, ?_⟩
  have hnodup : target.files.Nodup := by cases target <;> decide
  apply along_restore hnodup fun f hf => hf
  · exact fun f hf => run_backupAll_game d hf
  · exact fun g hg => run_backupAll_game d hg

/-- Runs that are cut off, each after some number of its moves. -/
def cutRuns (cuts : List (Backend × Nat)) : List (Move Path) :=
  cuts.flatMap fun cut => (switchBackend cut.1).take cut.2

/-- **Runs cut off anywhere**, one after the other, make admissible moves only. Induction on
the runs. -/
theorem along_cutRuns (cuts : List (Backend × Nat)) (d : Files Path C) :
    Along moveFile Admissible d (cutRuns cuts) := by
  induction cuts generalizing d with
  | nil => trivial
  | cons cut cuts ih =>
    rw [cutRuns, List.flatMap_cons, along_append]
    have hwhole := along_switchBackend cut.1 d
    rw [← List.take_append_drop cut.2 (switchBackend cut.1), along_append] at hwhole
    exact ⟨hwhole.1, ih _⟩

/-- **Restartable and exclusive.** Whatever runs were cut off before it, a whole run leaves
what it would have left alone; no file of the other backend is in the game directory then; and
if the game directory started with files of at most one backend, it never holds files of
both. -/
theorem switchBackend_restartable (d : Files Path C) (cuts : List (Backend × Nat))
    (target : Backend) :
    let moves := cutRuns cuts ++ switchBackend target
    run moveFile d moves = run moveFile d (switchBackend target) ∧
      (∀ f ∈ target.other.files, run moveFile d moves (gameFile f) = none) ∧
      (OneBackend d → Always moveFile OneBackend d moves) := by
  intro moves
  have hcuts := along_cutRuns cuts d
  have hwinners : SameWinners d (run moveFile d (cutRuns cuts)) :=
    (always_of_along (fun _ _ => Admissible.sameWinners) ⟨fun _ _ _ => rfl, fun _ _ => rfl⟩
      hcuts).last
  have hrun : run moveFile d moves = settle target d := by
    rw [run_append, run_switchBackend, settle_congr hwinners]
  refine ⟨by rw [hrun, run_switchBackend], fun f hf => ?_, fun hone => ?_⟩
  · rw [hrun, settle_game_other d hf]
  · refine always_of_along (fun _ _ => Admissible.oneBackend) hone ?_
    exact along_append.mpr ⟨hcuts, along_switchBackend target _⟩

/-- A run to the other backend that is cut off after the first file of this one. -/
theorem switchBackend_restartable_cut :
    let d : Files Path Nat := fun p => if p = gameFile "version.dll" then some 1 else none
    Always moveFile OneBackend d (cutRuns [(.guentra, 1)] ++ switchBackend .daniel) :=
  (switchBackend_restartable _ [(.guentra, 1)] .daniel).2.2 ⟨.daniel, by decide⟩

/-! ## Missing files -/

/-- The loop reports the names that are in neither place when it starts. Induction on the
names. -/
theorem missingFiles_eq_filter {b : Backend} {names : List String} (hnodup : names.Nodup)
    (d : Files Path C) : missingFiles b names d = names.filter fun f =>
      (d (storedFile b f)).isNone && (d (gameFile f)).isNone := by
  induction names generalizing d with
  | nil => rfl
  | cons f names ih =>
    obtain ⟨hnot, hnodup⟩ := List.nodup_cons.mp hnodup
    have hrest : missingFiles b names (moveFile d (restore b f)) = names.filter fun f =>
        (d (storedFile b f)).isNone && (d (gameFile f)).isNone := by
      rw [ih hnodup]
      apply List.filter_congr
      intro g hg
      have hname : g ≠ f := fun heq => hnot (heq ▸ hg)
      have hstore : moveFile d (restore b f) (storedFile b g) = d (storedFile b g) :=
        moveFile_other ⟨fun h => hname (Path.mk.inj h).2, gameFile_ne_storedFile.symm⟩
      rw [hstore, moveFile_gameFile_of_ne (Or.inr rfl) hname]
    rw [missingFiles, List.filter_cons, hrest]

/-- A run warns of exactly the target's files that are in neither place when it starts. -/
theorem missingFiles_switchBackend (target : Backend) (d : Files Path C) :
    missingFiles target target.files (run moveFile d backupAll)
      = target.files.filter fun f => (winner d target f).isNone := by
  have hnodup : target.files.Nodup := by cases target <;> decide
  rw [missingFiles_eq_filter hnodup]
  apply List.filter_congr
  intro f hf
  rw [run_backupAll_store d hf, run_backupAll_game d hf, Option.isNone_none, Bool.and_true]

end HipBridge.Backends
