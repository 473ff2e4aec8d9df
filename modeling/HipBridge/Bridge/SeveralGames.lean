import HipBridge.Bridge.InProcessRefinement

/-!
# Games one after the other

A daemon outlives its clients: the next game starts on the tables the last one left, with ids in
them that were never freed.

* **`playGame`** — a game from its start to its end, on a daemon that others have used.
* **`playInProcess`** — the same game with a library of its own process, on the device as it is.
* **`bridged_joins`** — a game that joins has nothing of the others': it stands for such a game.
* **`games_refine_inProcess`** — so do all the games a daemon serves.
-/

namespace HipBridge.Bridge

open Lib Protocol Daemon Stub

variable {T D : Type}

/-- A game: its memory at the start, and what it does. -/
structure Played (T : Type) where
  host : FlatMemory
  steps : List (GameStep T)

/-- A game starts, and connects to a daemon. -/
def joins (host : FlatMemory) (daemon : DaemonState D) : GameProcess T D :=
  { (GameProcess.new host daemon.device : GameProcess T D) with daemon }

/-- `n` more ids can be issued in each of the daemon's tables, and a game that starts has as many
for its fat binaries. -/
structure RoomLeft (n : Nat) (daemon : DaemonState D) : Prop where
  handles : daemon.handles.IdsLeft n
  modules : daemon.modules.IdsLeft n
  functions : daemon.functions.IdsLeft n
  fatbins : n < 2 ^ 64 - 1

/-- A daemon that has served nobody. -/
theorem roomLeft_new {n : Nat} (hn : n < 2 ^ 64 - 1) (device : D) :
    RoomLeft n (DaemonState.new device) :=
  ⟨HandleTable.idsLeft_new hn, HandleTable.idsLeft_new hn, HandleTable.idsLeft_new hn, hn⟩

/-- Whatever the tables hold, the game that joins has no id of it. -/
theorem bridged_joins {n : Nat} {daemon : DaemonState D} (h : RoomLeft n daemon)
    (host : FlatMemory) :
    Bridged n (joins host daemon : GameProcess T D) (.new host daemon.device) :=
  have hnew : Bridged n (GameProcess.new host daemon.device : GameProcess T D) _ :=
    bridged_new h.fatbins host daemon.device
  { inStep := ⟨rfl, rfl⟩
    lastError := rfl
    host := rfl
    pushed := rfl
    device := rfl
    space := ⟨hnew.space.inv, hnew.space.nonnull, nofun, nofun, nofun, h.handles⟩
    fatbins := ⟨⟨fun _ => .none, h.modules⟩, nofun, hnew.fatbins.nonnull, hnew.fatbins.room⟩
    functions := ⟨fun _ => .none, h.functions⟩ }

/-- What a game has not used is left to the next. -/
theorem Bridged.roomLeft {n : Nat} {p : GameProcess T D} {q : InProcess T D} (h : Bridged n p q) :
    RoomLeft n p.daemon where
  handles := h.space.ids
  modules := h.fatbins.table.ids
  functions := h.functions.ids
  fatbins := by
    have hroom := h.fatbins.room
    have hnonnull : p.nextFatbinId.toNat ≠ 0 := fun hzero =>
      h.fatbins.nonnull (UInt64.toNat_inj.mp hzero)
    omega

variable [DecidableEq T]

/-- What a game shows, and the daemon after it. -/
def playGame (hip : HipLib D) (daemon : DaemonState D) (g : Played T) :
    List Answer × DaemonState D :=
  (answers (gameStep hip) (joins g.host daemon) g.steps,
    (run (after (gameStep hip)) (joins g.host daemon) g.steps).daemon)

/-- What it shows with a library of its own, given the library's choices, and the device after
it. -/
def playInProcess (hip : HipLib D) (device : D) (g : Played T × List UInt64) : List Answer × D :=
  (answers (InProcess.step hip) (.new g.1.host device) (g.1.steps.zip g.2),
    (run (after (InProcess.step hip)) (.new g.1.host device) (g.1.steps.zip g.2)).device)

/-- One choice for each step of the game, all of which its library may make. -/
def MayPlay (hip : HipLib D) (device : D) (g : Played T × List UInt64) : Prop :=
  g.2.length = g.1.steps.length ∧
    Along (after (InProcess.step hip)) MayPick (.new g.1.host device) (g.1.steps.zip g.2)

/-- Every step of the game fits. -/
def GameFits (hip : HipLib D) (daemon : DaemonState D) (g : Played T) : Prop :=
  Along (after (gameStep hip)) (Fits hip) (joins g.host daemon) g.steps

/-- How many steps the games take. -/
def stepCount (games : List (Played T)) : Nat := (games.map (·.steps.length)).sum

/-- A game answers as with a library of its own, and leaves room for the rest. -/
theorem playGame_refines {hip : HipLib D} (htexts : ShortTexts hip) {n : Nat}
    {daemon : DaemonState D} {g : Played T} (hroom : RoomLeft (n + g.steps.length) daemon)
    (hfits : GameFits hip daemon g) :
    ∃ picks, MayPlay hip daemon.device (g, picks) ∧
      (playGame hip daemon g).1 = (playInProcess hip daemon.device (g, picks)).1 ∧
      RoomLeft n (playGame hip daemon g).2 ∧
      (playGame hip daemon g).2.device = (playInProcess hip daemon.device (g, picks)).2 := by
  have hcost : (g.steps.map fun _ => 1).sum = g.steps.length := by simp
  rw [← hcost] at hroom
  obtain ⟨picks, hlen, hpicks, hanswers, hend⟩ := lockstep_choosing (fun _ => 1)
    (fun _ _ _ a h hfits => step_bridged htexts h a hfits) (bridged_joins hroom g.host) hfits
  exact ⟨picks, ⟨hlen, hpicks⟩, hanswers, hend.roomLeft, hend.device⟩

/-- **Every game a daemon serves has a library of its own.** The games come one after the other,
each on the tables the last one left and on the device as it left it. As long as they take fewer
than `2 ^ 64 - 1` steps in all, and these fit, each is answered as by a library in its own process
that starts with no blocks: what the games before it have left in the tables never shows. -/
theorem games_refine_inProcess (hip : HipLib D) (htexts : ShortTexts hip) (device : D)
    (games : List (Played T)) (hsteps : stepCount games < 2 ^ 64 - 1)
    (hfits : Along (after (playGame hip)) (GameFits hip) (DaemonState.new device) games) :
    ∃ picks : List (List UInt64), picks.length = games.length ∧
      Along (after (playInProcess hip)) (MayPlay hip) device (games.zip picks) ∧
      answers (playGame hip) (DaemonState.new device) games
        = answers (playInProcess hip) device (games.zip picks) ∧
      (run (after (playGame hip)) (DaemonState.new device) games).device
        = run (after (playInProcess hip)) device (games.zip picks) := by
  have hstart : RoomLeft (0 + stepCount games) (DaemonState.new device) ∧
      (DaemonState.new device).device = device := ⟨roomLeft_new (by omega) device, rfl⟩
  have hgame : ∀ n (daemon : DaemonState D) device (g : Played T),
      RoomLeft (n + g.steps.length) daemon ∧ daemon.device = device → GameFits hip daemon g →
      ∃ picks, MayPlay hip device (g, picks) ∧
        (playGame hip daemon g).1 = (playInProcess hip device (g, picks)).1 ∧
        RoomLeft n (playGame hip daemon g).2 ∧
        (playGame hip daemon g).2.device = (playInProcess hip device (g, picks)).2 := by
    rintro n daemon - g ⟨hroom, rfl⟩ hfits
    exact playGame_refines htexts hroom hfits
  obtain ⟨picks, hlen, hpicks, hanswers, -, hend⟩ := @lockstep_choosing _ _ _ _ _ (playGame hip)
    (playInProcess hip) (fun n daemon device => RoomLeft n daemon ∧ daemon.device = device) _ _
    (·.steps.length) hgame games 0 _ device hstart hfits
  exact ⟨picks, hlen, hpicks, hanswers, hend⟩

/-- A game that leaves without freeing its block, and one that tries its pointer first. -/
def leavingGames : List (Played Unit) :=
  [ ⟨fun _ => 0, [.call (.malloc false 16), .call (.malloc false 32)]⟩
  , ⟨fun _ => 7, [.call (.free 0x700000000000), .call (.malloc false 16),
      .call (.memcpy 0x3000 0x700000000000 16 hipMemcpyDeviceToHost)]⟩ ]

/-- Two blocks are still in the tables when the second game starts; it is refused the first one's
and is given its own. -/
theorem games_refine_inProcess_leaving :
    ∃ picks : List (List UInt64), picks.length = leavingGames.length ∧
      Along (after (playInProcess flatHip)) (MayPlay flatHip) FlatDevice.new
        (leavingGames.zip picks) ∧
      answers (playGame flatHip) (DaemonState.new FlatDevice.new) leavingGames
        = answers (playInProcess flatHip) FlatDevice.new (leavingGames.zip picks) ∧
      (run (after (playGame flatHip)) (DaemonState.new FlatDevice.new) leavingGames).device
        = run (after (playInProcess flatHip)) FlatDevice.new (leavingGames.zip picks) := by
  have hfirst : 0x700000000000 + AddressSpace.reservedNat 16 < 2 ^ 64 := by decide
  have hsecond : 0x700000002000 + AddressSpace.reservedNat 32 < 2 ^ 64 := by decide
  have hcopy : (16 : UInt64).toNat ≤ maxBodyLen := by decide
  exact games_refine_inProcess flatHip shortTexts_flatHip FlatDevice.new leavingGames (by decide)
    ⟨⟨hfirst, hsecond, trivial⟩,
      ⟨trivial, hfirst, ⟨nofun, fun _ => ⟨hcopy, canBuffer_flatHip (by decide)⟩⟩, trivial⟩,
      trivial⟩

end HipBridge.Bridge
