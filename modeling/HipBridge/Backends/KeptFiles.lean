import HipBridge.Backends.SwitchBackend

/-!
# The files a switch keeps

`backup_present` moves a file onto the store's copy of the same name, if there is one.

* **`Overwritten`** — the paths a run writes over.
* **`Spared`** — every content a run writes over is also somewhere else.
* **`switchBackend_keeps_iff`** — a run keeps every content exactly when it is spared.
* **`keeps_of_fresh`** — nothing is ever lost while the user only adds files that the store does
  not have.
-/

namespace HipBridge.Backends

open Lib

variable {C : Type}

/-- The content is in the game directory or in the store. -/
def Holds (d : Files Path C) (content : C) : Prop := ∃ p, d p = some content

/-- A stored file that a backup replaces. -/
def Overwritten (d : Files Path C) (p : Path) : Prop :=
  ∃ b f, f ∈ Backend.files b ∧ p = storedFile b f ∧ (d (gameFile f)).isSome

/-- Every content that is overwritten has a copy at a path that is not. -/
def Spared (d : Files Path C) : Prop :=
  ∀ p content, Overwritten d p → d p = some content →
    ∃ q, d q = some content ∧ ¬ Overwritten d q

/-- What happens to the two directories: a whole run of the script, or a file the user puts
into the game directory. -/
inductive Event (C : Type)
  | switch (target : Backend)
  | place (f : String) (content : C)

def effect (d : Files Path C) : Event C → Files Path C
  | .switch target => run moveFile d (switchBackend target)
  | .place f content => Function.update d (gameFile f) (some content)

/-! ## One run -/

variable {d : Files Path C} {b : Backend} {f : String} {content : C}

theorem not_overwritten_gameFile : ¬ Overwritten d (gameFile f) := by
  rintro ⟨b, g, -, hp, -⟩
  exact gameFile_ne_storedFile hp

theorem overwritten_storedFile (hf : f ∈ b.files) :
    Overwritten d (storedFile b f) ↔ (d (gameFile f)).isSome := by
  constructor
  · rintro ⟨b', g, -, hp, hgame⟩
    cases hp
    exact hgame
  · exact fun hgame => ⟨b, f, hf, rfl, hgame⟩

/-- The winner is the content at the one of its two paths that counts, which is not
overwritten. -/
theorem winner_eq_some (hf : f ∈ b.files) : winner d b f = some content ↔
    ∃ p, (p = gameFile f ∨ p = storedFile b f) ∧ d p = some content ∧ ¬ Overwritten d p := by
  constructor
  · intro h
    rcases Option.or_eq_some_iff.mp h with hgame | ⟨hgame, hstore⟩
    · exact ⟨_, Or.inl rfl, hgame, not_overwritten_gameFile⟩
    · refine ⟨_, Or.inr rfl, hstore, fun hover => ?_⟩
      rw [overwritten_storedFile hf, hgame] at hover
      cases hover
  · rintro ⟨p, rfl | rfl, hp, hover⟩
    · exact Option.or_eq_some_iff.mpr (Or.inl hp)
    · rw [overwritten_storedFile hf, Option.not_isSome_iff_eq_none] at hover
      exact Option.or_eq_some_iff.mpr (Or.inr ⟨hover, hp⟩)

/-- A run keeps the contents at the paths it does not write over, and no others. -/
theorem holds_settle (target : Backend) :
    Holds (settle target d) content ↔ ∃ p, d p = some content ∧ ¬ Overwritten d p := by
  constructor
  · rintro ⟨q, hq⟩
    rcases path_cases target q with ⟨f, hf, rfl | rfl⟩ | ⟨f, hf, rfl | rfl⟩ | hunmanaged
    · rw [settle_game d hf] at hq
      obtain ⟨p, -, hp⟩ := (winner_eq_some hf).mp hq
      exact ⟨p, hp⟩
    · rw [settle_store d hf] at hq
      cases hq
    · rw [settle_game_other d hf] at hq
      cases hq
    · rw [settle_store_other d hf] at hq
      obtain ⟨p, -, hp⟩ := (winner_eq_some hf).mp hq
      exact ⟨p, hp⟩
    · rw [settle_unmanaged d hunmanaged] at hq
      exact ⟨q, hq, fun ⟨b, f, hf, hp, _⟩ => hunmanaged ⟨b, f, hf, Or.inr hp⟩⟩
  · rintro ⟨p, hp, hover⟩
    rcases path_cases target p with ⟨f, hf, hpath⟩ | ⟨f, hf, hpath⟩ | hunmanaged
    · have hwin := (winner_eq_some hf).mpr ⟨p, hpath, hp, hover⟩
      exact ⟨gameFile f, by rw [settle_game d hf, hwin]⟩
    · have hwin := (winner_eq_some hf).mpr ⟨p, hpath, hp, hover⟩
      exact ⟨storedFile target.other f, by rw [settle_store_other d hf, hwin]⟩
    · exact ⟨p, by rw [settle_unmanaged d hunmanaged, hp]⟩

theorem keeps_iff_spared (d : Files Path C) (target : Backend) :
    (∀ content, Holds d content → Holds (run moveFile d (switchBackend target)) content) ↔
      Spared d := by
  rw [run_switchBackend]
  constructor
  · intro hkeeps p content _ hp
    exact (holds_settle target).mp (hkeeps content ⟨p, hp⟩)
  · rintro hspared content ⟨p, hp⟩
    apply (holds_settle target).mpr
    by_cases hover : Overwritten d p
    · exact hspared p content hover hp
    · exact ⟨p, hp, hover⟩

/-- **When a switch loses nothing.** A run keeps every content that is in the game directory or
in the store exactly when what it writes over is spared; so every run in a history of runs
and installed files keeps every content exactly when each of them starts spared. -/
theorem switchBackend_keeps_iff :
    (∀ (d : Files Path C) target,
      (∀ content, Holds d content → Holds (run moveFile d (switchBackend target)) content) ↔
        Spared d) ∧
    ∀ (d : Files Path C) events,
      Along effect (fun d event => ∀ target, event = .switch target →
          ∀ content, Holds d content → Holds (effect d event) content) d events ↔
        Along effect (fun d event => ∀ target, event = .switch target → Spared d) d events := by
  refine ⟨keeps_iff_spared, fun d events => ⟨?_, ?_⟩⟩
  · apply Along.imp
    rintro d event hkeeps target rfl
    exact (keeps_iff_spared d target).mp (hkeeps target rfl)
  · apply Along.imp
    rintro d event hspared target rfl
    exact (keeps_iff_spared d target).mpr (hspared target rfl)

/-- One managed file in the game directory. -/
def oneFile (content : Nat) : Files Path Nat :=
  fun p => if p = gameFile "version.dll" then some content else none

/-- After a switch to the other backend, the user installs another file of that name. -/
def reinstalled : Files Path Nat :=
  run effect (oneFile 1) [.switch .guentra, .place "version.dll" 2]

/-- The first file is in the store by then, and nowhere else. -/
theorem reinstalled_first {p : Path} :
    reinstalled p = some 1 ↔ p = storedFile .daniel "version.dll" := by
  have hrun : reinstalled
      = Function.update (settle .guentra (oneFile 1)) (gameFile "version.dll") (some 2) := by
    show Function.update (run moveFile (oneFile 1) (switchBackend .guentra)) _ _ = _
    rw [run_switchBackend]
  -- a winner is the file itself
  have hwin : ∀ b f, winner (oneFile 1) b f = some 1 ↔ f = "version.dll" := by
    intro b f
    have hstore : oneFile 1 (storedFile b f) = none := if_neg gameFile_ne_storedFile.symm
    rw [winner, hstore, Option.or_none, oneFile]
    simp [gameFile]
  have hmem : "version.dll" ∈ Backend.guentra.other.files := by decide
  rw [hrun]
  constructor
  · intro hp
    have hne : p ≠ gameFile "version.dll" := by
      rintro rfl
      rw [Function.update_self] at hp
      exact absurd hp (by decide)
    rw [Function.update_of_ne hne] at hp
    rcases path_cases .guentra p with ⟨f, hf, rfl | rfl⟩ | ⟨f, hf, rfl | rfl⟩ | hunmanaged
    · rw [settle_game _ hf] at hp
      exact absurd (congrArg gameFile ((hwin _ f).mp hp)) hne
    · rw [settle_store _ hf] at hp
      cases hp
    · rw [settle_game_other _ hf] at hp
      cases hp
    · rw [settle_store_other _ hf] at hp
      rw [(hwin _ f).mp hp]
      rfl
    · rw [settle_unmanaged _ hunmanaged, oneFile, if_neg hne] at hp
      cases hp
  · rintro rfl
    rw [Function.update_of_ne gameFile_ne_storedFile.symm]
    exact (settle_store_other _ hmem).trans ((hwin _ _).mpr rfl)

/-- The switch back overwrites the first file, and its content is nowhere. -/
theorem reinstalled_loses :
    Holds reinstalled 1 ∧ ¬ Holds (run moveFile reinstalled (switchBackend .daniel)) 1 := by
  refine ⟨⟨_, reinstalled_first.mpr rfl⟩, fun hholds => ?_⟩
  rw [run_switchBackend, holds_settle] at hholds
  obtain ⟨p, hp, hover⟩ := hholds
  obtain rfl := reinstalled_first.mp hp
  rw [overwritten_storedFile (by decide)] at hover
  exact hover rfl

/-! ## Histories -/

/-- No managed file has two copies. -/
def Clean (d : Files Path C) : Prop :=
  ∀ b f, f ∈ Backend.files b → d (gameFile f) = none ∨ d (storedFile b f) = none

theorem Clean.spared (h : Clean d) : Spared d := by
  rintro p content ⟨b, f, hf, rfl, hgame⟩ hp
  rcases h b f hf with hnone | hnone
  · rw [hnone] at hgame
    cases hgame
  · rw [hnone] at hp
    cases hp

/-- A run leaves one copy of every managed file. -/
theorem clean_settle (target : Backend) (d : Files Path C) : Clean (settle target d) := by
  intro b f hf
  rcases eq_or_eq_other b target with rfl | rfl
  · exact Or.inr (settle_store d hf)
  · exact Or.inl (settle_game_other d hf)

/-- A managed file the user adds is not in the store. -/
def Fresh (d : Files Path C) (event : Event C) : Prop :=
  ∀ f content, event = .place f content → ∀ b, f ∈ Backend.files b → d (storedFile b f) = none

theorem clean_effect (h : Clean d) {event : Event C} (hfresh : Fresh d event) :
    Clean (effect d event) := by
  cases event with
  | switch target =>
    rw [effect, run_switchBackend]
    exact clean_settle target d
  | place f content =>
    intro b g hg
    have hstore : Function.update d (gameFile f) (some content) (storedFile b g)
        = d (storedFile b g) := Function.update_of_ne gameFile_ne_storedFile.symm _ _
    by_cases hname : g = f
    · subst hname
      exact Or.inr (hstore.trans (hfresh g content rfl b hg))
    · have hgame : Function.update d (gameFile f) (some content) (gameFile g)
          = d (gameFile g) := Function.update_of_ne (fun heq => hname (Path.mk.inj heq).2) _ _
      rcases h b g hg with hnone | hnone
      · exact Or.inl (hgame.trans hnone)
      · exact Or.inr (hstore.trans hnone)

/-- **A history without losses.** From directories in which no managed file has two copies,
and as long as the user adds no managed file that the store has, no run loses a content. -/
theorem keeps_of_fresh (h : Clean d) {events : List (Event C)}
    (hfresh : Along effect Fresh d events) :
    Along effect (fun d event => ∀ target, event = .switch target →
      ∀ content, Holds d content → Holds (effect d event) content) d events := by
  have hkeep : ∀ (d : Files Path C) event, Clean d → Fresh d event → Clean (effect d event) :=
    fun _ _ hclean hadd => clean_effect hclean hadd
  refine along_of_inv hkeep ?_ h hfresh
  rintro d event hclean - target rfl
  exact (keeps_iff_spared d target).mpr hclean.spared

end HipBridge.Backends
