import HipBridge.Bridge.Threads

/-!
# Stale pointers

A thread resolves an address under one lock and has the daemon use what it found under another.

* **`FewAllocations`**, **`WholeResponse`** — the conditions on a step: handles do not run out, and
  no response is cut short, so that no call takes what is left of it for its own answer.
* **`ThreadedGame.Inv`** — handles are never issued twice, so what the daemon has under a handle
  is the block of the one allocation the handle was issued for.
* **`RequestOutcome`** — a request is refused as one with an unknown handle, or used with the
  blocks of the allocations that owned its addresses when they were resolved. That is what comes of
  every request under the invariant (`Inv.requestOutcome`).
* **`OwnHandle`** — a call publishes the handle of the block it was allocated, and no other
  (`Inv.ownHandle`).
-/

namespace HipBridge.Bridge

open Lib Protocol Daemon Stub
open Unixlib (Dim3)

variable {D T : Type}

/-- The number of allocations so far is below `2 ^ 64 - 1`, this step included. -/
def FewAllocations [DecidableEq T] (hip : HipLib D) (s : ThreadedGame T D) (a : T × ThreadAct) :
    Prop :=
  (threadStep hip s a).issued.len < 2 ^ 64 - 1

/-- A round trip is not that of a copy from the device that is made and whose length the length
field of its response cuts down to one the stub takes. -/
def WholeResponse (hip : HipLib D) (s : ThreadedGame T D) (a : T × ThreadAct) : Prop :=
  ∀ c req space issued, s.phase a.1 = .roundTrip c req space issued → a.2 = .roundTrip →
    ServesWhole hip s.game.daemon req

/-- The request is what the call made of what it found in the address space. -/
inductive ResolvedIn (space : AddressSpace) : GameCall → Request → Prop
  | malloc (ptrIsNull : Bool) (size : UInt64) :
    ResolvedIn space (.malloc ptrIsNull size) (.malloc size)
  | free (ptr : Ptr) (r : AllocRange) (hlive : space.ranges.lookup ptr = some r) :
    ResolvedIn space (.free ptr) (.free r.handle)
  | toDevice (dst src : Ptr) (size : UInt64) (kind : Int32) (handle k : UInt64)
      (data : List UInt8) (hresolve : space.resolve dst = some (handle, k)) :
    ResolvedIn space (.memcpy dst src size kind) (.memcpyH2D handle k data)
  | toHost (dst src : Ptr) (size : UInt64) (kind : Int32) (handle k : UInt64)
      (hresolve : space.resolve src = some (handle, k)) :
    ResolvedIn space (.memcpy dst src size kind) (.memcpyD2H handle k size)
  | launch (function : Ptr) (gridDim blockDim : Option Dim3) (args : Option Ptr)
      (sharedMem handle : UInt64) (grid block : UInt32 × UInt32 × UInt32) (shared : UInt32)
      (argBytes : List UInt8) (hlen : argBytes.length = maxKernelArgBytes) :
    ResolvedIn space (.launchKernel function gridDim blockDim args sharedMem)
      (.launchKernel handle grid block shared (scanFixups space argBytes) argBytes)

/-- Every request is made of what its call found. -/
theorem request_resolvedIn {g : Game D} {c : GameCall} {req : Request}
    (h : c.request g = some req) : ResolvedIn g.space c req := by
  cases c with
  | malloc ptrIsNull size =>
    cases h
    exact .malloc ptrIsNull size
  | free ptr =>
    simp only [GameCall.request] at h
    split at h
    case isTrue => cases h
    case isFalse =>
      obtain ⟨handle, hhandle, rfl⟩ := Option.map_eq_some_iff.mp h
      obtain ⟨r, hlive, rfl⟩ := Option.map_eq_some_iff.mp hhandle
      exact .free ptr r hlive
  | memcpy dst src size kind =>
    -- of the kinds, the one to the device is tried first, then the one to the host
    simp only [GameCall.request, memcpyRequest] at h
    split at h
    case isTrue =>
      obtain ⟨⟨handle, k⟩, hresolve, rfl⟩ := Option.map_eq_some_iff.mp h
      exact .toDevice dst src size kind handle k _ hresolve
    case isFalse =>
      split at h
      case isFalse => cases h
      case isTrue =>
        obtain ⟨⟨handle, k⟩, hresolve, rfl⟩ := Option.map_eq_some_iff.mp h
        exact .toHost dst src size kind handle k hresolve
  | launchKernel function gridDim blockDim args sharedMem =>
    simp only [GameCall.request, launchRequest, Option.bind_eq_bind, Option.bind_eq_some_iff] at h
    obtain ⟨handle, -, grid, -, block, -, argPtr, -, h⟩ := h
    split at h
    case isTrue => cases h
    case isFalse =>
      -- the whole argument struct is sent, whatever the kernel takes of it
      cases h
      exact .launch function gridDim blockDim args sharedMem handle _ _ _ _
        FlatMemory.length_slice

/-! ## The invariant -/

/-- Every live range has a handle that was issued. -/
def AllIssued (space : AddressSpace) (issued : HandleTable Ptr) : Prop :=
  ∀ base r, space.ranges.lookup base = some r → (issued.get r.handle).isSome

/-- Every handle that was issued still stands for the same block. -/
def Extends (issued issued' : HandleTable Ptr) : Prop :=
  ∀ id block, issued.get id = some block → issued'.get id = some block

/-- What is kept beside a request is what it was resolved in, and the daemon reads no other; a
handle to be published was issued. -/
def CallPhase.Ok (issued : HandleTable Ptr) : CallPhase → Prop
  | .idle => True
  | .roundTrip c req space issuedThen =>
    ResolvedIn space c req ∧ AllIssued space issuedThen ∧ Extends issuedThen issued ∧
      ∀ r rest, Request.readFrom req.writeTo = .ok (r, rest) → r = req
  | .publish handle _ => (issued.get handle).isSome

/-- The invariant: nothing of an earlier response is left on the connection; the handles that were
issued are the numbers below the next one, as many as allocations; what the daemon has under a
handle is the block it was issued for; and everybody uses handles that were issued. -/
structure ThreadedGame.Inv (s : ThreadedGame T D) : Prop where
  unread : s.game.connected = true → s.game.unread = []
  nextId : s.issued.nextId = s.game.daemon.handles.nextId
  count : s.issued.nextId.toNat = s.issued.len + 1
  below : ∀ id block, s.issued.get id = some block → id.toNat < s.issued.nextId.toNat
  known : Extends s.game.daemon.handles s.issued
  ranges : AllIssued s.game.space s.issued
  phases : ∀ t, (s.phase t).Ok s.issued

theorem Extends.refl (issued : HandleTable Ptr) : Extends issued issued := fun _ _ h => h

theorem Extends.trans {a b c : HandleTable Ptr} (hab : Extends a b) (hbc : Extends b c) :
    Extends a c :=
  fun id block h => hbc id block (hab id block h)

/-- A handle that was issued stays issued. -/
theorem Extends.isSome {issued issued' : HandleTable Ptr} (h : Extends issued issued')
    {id : UInt64} (hid : (issued.get id).isSome) : (issued'.get id).isSome := by
  obtain ⟨block, hblock⟩ := Option.isSome_iff_exists.mp hid
  rw [h id block hblock]
  rfl

/-- Further allocations leave every range its handle. -/
theorem AllIssued.extends {space : AddressSpace} {issued issued' : HandleTable Ptr}
    (h : AllIssued space issued) (hextends : Extends issued issued') : AllIssued space issued' :=
  fun base r hr => hextends.isSome (h base r hr)

/-- A call is as good as it was when other threads have allocated. -/
theorem CallPhase.Ok.extends {p : CallPhase} {issued issued' : HandleTable Ptr}
    (h : p.Ok issued) (hextends : Extends issued issued') : p.Ok issued' := by
  cases p with
  | idle => trivial
  | roundTrip c req space issuedThen => exact ⟨h.1, h.2.1, h.2.2.1.trans hextends, h.2.2.2⟩
  | publish handle size => exact hextends.isSome h

/-- At the start nothing was issued, and nobody is in a call. -/
theorem ThreadedGame.inv_start {g : Game D} (hspace : g.space = .new)
    (hhandles : g.daemon.handles = .new) (hunread : g.unread = []) :
    (start g : ThreadedGame T D).Inv where
  unread := fun _ => hunread
  nextId := by rw [start, hhandles]
  count := rfl
  below := fun id block h => by cases h
  known := fun id block h => by
    simp only [start, hhandles] at h
    cases h
  ranges := fun base r h => by
    simp only [start, hspace] at h
    cases h
  phases := fun _ => trivial

/-- What the invariant says of a thread whose phase is known. -/
theorem ThreadedGame.Inv.phase {s : ThreadedGame T D} (h : s.Inv) {t : T} {p : CallPhase}
    (hphase : s.phase t = p) : p.Ok s.issued := by
  rw [← hphase]
  exact h.phases t

/-- The next handle is new. -/
theorem ThreadedGame.Inv.get_nextId {s : ThreadedGame T D} (h : s.Inv) :
    s.issued.get s.issued.nextId = none := by
  cases hget : s.issued.get s.issued.nextId with
  | none => rfl
  | some block => exact absurd (h.below _ block hget) (Nat.lt_irrefl _)

/-- An allocation more, an entry more. -/
theorem len_insert {table : HandleTable Ptr} (block : Ptr)
    (hfresh : table.get table.nextId = none) : (table.insert block).2.len = table.len + 1 := by
  have hnew : table.nextId ∉ table.entries := AList.lookup_eq_none.mp hfresh
  show (table.entries.insert table.nextId block).keys.length = table.entries.keys.length + 1
  rw [AList.keys_insert, List.length_cons, List.erase_of_not_mem hnew]

/-- A new handle takes none of the old ones. -/
theorem Extends.insert {table : HandleTable Ptr} (block : Ptr)
    (hfresh : table.get table.nextId = none) : Extends table (table.insert block).2 := by
  intro id old hid
  rw [HandleTable.get_insert]
  split
  case isTrue heq =>
    rw [heq, hfresh] at hid
    cases hid
  case isFalse => exact hid

/-- What is entered for a round trip: nothing, or the block that was put under the next handle. -/
theorem issuedBy_cases {before after issued : HandleTable Ptr} (h : HandlesEffect before after)
    (hfresh : before.get before.nextId = none) :
    (issuedBy before after issued = issued ∧ after.nextId = before.nextId ∧
      Extends after before) ∨
    ∃ block, issuedBy before after issued = (issued.insert block).2 ∧
      after = (before.insert block).2 := by
  cases h with
  | same => exact Or.inl ⟨by rw [issuedBy, hfresh], rfl, .refl _⟩
  | inserted block =>
    refine Or.inr ⟨block, ?_, rfl⟩
    have hget : (before.insert block).2.get before.nextId = some block := by
      rw [HandleTable.get_insert, if_pos rfl]
    rw [issuedBy, hget]
  | removed handle =>
    -- what is gone can only have made room, and the next handle was free before
    have hless : Extends (before.remove handle).2 before := by
      intro id block hid
      rw [HandleTable.get_remove] at hid
      split at hid
      · cases hid
      · exact hid
    have hnone : (before.remove handle).2.get before.nextId = none := by
      rw [HandleTable.get_remove]
      split
      · rfl
      · exact hfresh
    exact Or.inl ⟨by rw [issuedBy, hnone], rfl, hless⟩

/-! ## One step -/

section Step

variable [DecidableEq T] {s : ThreadedGame T D} {t : T}

/-- One thread moves on, the others stay where they are. -/
theorem phases_update (h : s.Inv) {p : CallPhase} {issued : HandleTable Ptr}
    (hextends : Extends s.issued issued) (hp : p.Ok issued) :
    ∀ u, (Function.update s.phase t p u).Ok issued :=
  (Function.forall_update_iff s.phase fun _ q => q.Ok issued).mpr
    ⟨hp, fun u _ => (h.phases u).extends hextends⟩

/-- A step in which nothing is sent and the daemon does nothing. -/
theorem ThreadedGame.Inv.local (h : s.Inv) {game : Game D} {p : CallPhase}
    (hunread : game.connected = true → game.unread = [])
    (hdaemon : game.daemon = s.game.daemon) (hspace : AllIssued game.space s.issued)
    (hp : p.Ok s.issued) :
    ThreadedGame.Inv { s with game, phase := Function.update s.phase t p } where
  unread := hunread
  nextId := by rw [h.nextId, hdaemon]
  count := h.count
  below := h.below
  known := by
    rw [hdaemon]
    exact h.known
  ranges := hspace
  phases := phases_update h (.refl _) hp

/-- A round trip. -/
theorem ThreadedGame.Inv.roundTrip (h : s.Inv) {game : Game D} {p : CallPhase}
    (hunread : game.connected = true → game.unread = [])
    (heffect : HandlesEffect s.game.daemon.handles game.daemon.handles)
    (hspace : game.space = s.game.space)
    (hp : p.Ok (issuedBy s.game.daemon.handles game.daemon.handles s.issued))
    (hfew : (issuedBy s.game.daemon.handles game.daemon.handles s.issued).len < 2 ^ 64 - 1) :
    ThreadedGame.Inv
      { game
        phase := Function.update s.phase t p
        issued := issuedBy s.game.daemon.handles game.daemon.handles s.issued } := by
  have hnew := h.get_nextId
  have hfresh : s.game.daemon.handles.get s.game.daemon.handles.nextId = none := by
    cases hget : s.game.daemon.handles.get s.game.daemon.handles.nextId with
    | none => rfl
    | some block =>
      have hissued := h.known _ block hget
      rw [← h.nextId, hnew] at hissued
      cases hissued
  rcases @issuedBy_cases _ _ s.issued heffect hfresh with
    ⟨hsame, hnext, hless⟩ | ⟨block, hinsert, hafter⟩
  · -- no handle is new, and none stands for another block
    rw [hsame] at hp ⊢
    refine ⟨hunread, h.nextId.trans hnext.symm, h.count, h.below, hless.trans h.known, ?_,
      phases_update h (.refl _) hp⟩
    show AllIssued game.space s.issued
    rw [hspace]
    exact h.ranges
  · -- one allocation more, under the next handle on both sides
    rw [hinsert] at hp hfew ⊢
    have hextends := Extends.insert block hnew
    have hlen := len_insert block hnew
    have hcount := h.count
    rw [hlen] at hfew
    have hnextNat : (s.issued.nextId + 1).toNat = s.issued.nextId.toNat + 1 := by
      rw [UInt64.toNat_add, UInt64.toNat_one, Nat.mod_eq_of_lt (by omega)]
    refine ⟨hunread, ?_, ?_, ?_, ?_, ?_, phases_update h hextends hp⟩
    -- in turn: the next handles agree, they count the allocations, all issued ones are below, the
    -- daemon has the blocks they were issued for, and the ranges have theirs
    · show s.issued.nextId + 1 = game.daemon.handles.nextId
      rw [hafter, HandleTable.nextId_insert, h.nextId]
    · show (s.issued.nextId + 1).toNat = (s.issued.insert block).2.len + 1
      rw [hnextNat, hlen, hcount]
    · intro id old hid
      show id.toNat < (s.issued.nextId + 1).toNat
      rw [hnextNat]
      simp only [HandleTable.get_insert] at hid
      split at hid
      case isTrue heq => rw [heq]; exact Nat.lt_succ_self _
      case isFalse => exact Nat.lt_succ_of_lt (h.below id old hid)
    · intro id old hid
      simp only [hafter, HandleTable.get_insert, ← h.nextId] at hid ⊢
      split at hid
      case isTrue heq => rw [if_pos heq]; exact hid
      case isFalse hne => rw [if_neg hne]; exact h.known id old hid
    · show AllIssued game.space (s.issued.insert block).2
      rw [hspace]
      exact h.ranges.extends hextends

omit [DecidableEq T] in
/-- A call that is sent takes a range away, or none. -/
theorem allIssued_spaceAfter (h : s.Inv) (c : GameCall) :
    AllIssued (c.spaceAfter s.game) s.issued := by
  cases c with
  | free ptr =>
    intro base r hr
    rw [GameCall.spaceAfter, AddressSpace.lookup_removeExact] at hr
    split at hr
    · cases hr
    · exact h.ranges base r hr
  | _ => exact h.ranges

end Step

/-- A call that sends nothing touches neither the address space, nor the daemon, nor the
connection. -/
theorem refused_frame (g : Game D) (c : GameCall) :
    (c.refused g).space = g.space ∧ (c.refused g).daemon = g.daemon ∧
      (c.refused g).connected = g.connected ∧ (c.refused g).unread = g.unread := by
  cases c with
  | free ptr =>
    simp only [GameCall.refused]
    split <;> exact ⟨rfl, rfl, rfl, rfl⟩
  | _ => exact ⟨rfl, rfl, rfl, rfl⟩

/-- Nor does the end of a call that was answered. -/
theorem answered_frame (g : Game D) (c : GameCall) (result : Except String (List UInt8)) :
    (c.answered g result).1.space = g.space ∧ (c.answered g result).1.daemon = g.daemon ∧
      (c.answered g result).1.connected = g.connected ∧
      (c.answered g result).1.unread = g.unread := by
  cases c <;> cases result <;> simp only [GameCall.answered] <;> repeat' split
  all_goals simp [failWith, setLastError]

/-- The round trip of a call leaves the daemon as `call_bridge` does. -/
theorem daemon_threadStep [DecidableEq T] (hip : HipLib D) {s : ThreadedGame T D} {t : T}
    {c : GameCall} {req : Request} {space : AddressSpace} {issued : HandleTable Ptr}
    (hphase : s.phase t = .roundTrip c req space issued) :
    (threadStep hip s (t, .roundTrip)).game.daemon
      = (callBridge hip s.game.toSession req).2.daemon := by
  rw [threadStep_answered hip hphase rfl]
  exact (answered_frame _ c _).2.1

/-- A handle to be published is the one that came back. -/
theorem answered_publish {g : Game D} {c : GameCall} {result : Except String (List UInt8)}
    {handle size : UInt64} (h : (c.answered g result).2 = .publish handle size) :
    ∃ body, c = .malloc false size ∧ result = .ok body ∧ handle = u64FromLe body := by
  cases c with
  | malloc ptrIsNull size' =>
    cases result with
    | error e => cases h
    | ok body =>
      simp only [GameCall.answered] at h
      split at h
      case isFalse => cases h
      case isTrue =>
        cases ptrIsNull with
        | true => cases h
        | false =>
          cases h
          exact ⟨body, rfl, rfl, rfl⟩
  | memcpy dst src size' kind =>
    cases result with
    | error e => cases h
    | ok data =>
      simp only [GameCall.answered] at h
      repeat' split at h
      all_goals cases h
  | _ => cases result <;> cases h

/-- The phase behind a round trip is in order. -/
theorem answered_ok {hip : HipLib D} {s : ThreadedGame T D} (h : s.Inv) {c : GameCall}
    {req : Request} {space : AddressSpace} (hresolved : ResolvedIn space c req)
    {result : Except String (List UInt8)} {session : Session D}
    (hbridge : callBridge hip s.game.toSession req = (result, session)) (g : Game D) :
    (c.answered g result).2.Ok
      (issuedBy s.game.daemon.handles session.daemon.handles s.issued) := by
  cases hphase : (c.answered g result).2 with
  | idle => trivial
  | roundTrip => exact absurd hphase answered_not_roundTrip
  | publish handle size =>
    obtain ⟨body, rfl, rfl, rfl⟩ := answered_publish hphase
    cases hresolved
    -- nothing is left of an earlier response, so the body is the daemon's answer to this request
    obtain ⟨rfl, hinsert⟩ := callBridge_malloc_ok h.unread hbridge
    have hget : session.daemon.handles.get s.game.daemon.handles.nextId
        = some (hip.malloc size s.game.daemon.device).2.1 := by
      rw [hinsert, HandleTable.get_insert, if_pos rfl]
    show ((issuedBy _ _ _).get _).isSome
    rw [issuedBy, hget, u64FromLe_u64ToLe, HandleTable.get_insert, if_pos h.nextId.symm]
    rfl

section

variable [DecidableEq T]

/-- One step. Only a round trip meets the conditions; every other step is `local`. -/
theorem inv_threadStep {hip : HipLib D} (htexts : ShortTexts hip) {s : ThreadedGame T D}
    {a : T × ThreadAct} (h : s.Inv) (hfew : FewAllocations hip s a)
    (hwhole : WholeResponse hip s a) : (threadStep hip s a).Inv := by
  obtain ⟨t, act⟩ := a
  have heffect := threadStep_effect hip s t act
  unfold FewAllocations at hfew
  generalize threadStep hip s (t, act) = s' at heffect hfew ⊢
  cases heffect with
  | nothing => exact h
  | asked c req hphase hreq =>
    -- the request is resolved in what the invariant says of the address space now
    exact h.local h.unread rfl (allIssued_spaceAfter h c) ⟨request_resolvedIn hreq, h.ranges,
      .refl _, fun r rest => readFrom_request hreq⟩
  | refused c hphase hreq =>
    obtain ⟨hspace, hdaemon, hconnected, hunread⟩ := refused_frame s.game c
    have hlocal := @ThreadedGame.Inv.local D T _ s t h (c.refused s.game) (s.phase t)
      (by rw [hconnected, hunread]; exact h.unread) hdaemon
      (by rw [hspace]; exact h.ranges) (h.phases t)
    rwa [Function.update_eq_self] at hlocal
  | answered c req space issued result session hphase hbridge =>
    have hhandles := handlesEffect_of_callBridge hip s.game.toSession req
    have hsame := space_callBridge hip s.game.toSession req
    -- here no response may be cut short: the stub would take its rest for the next answer
    have hleft := unread_callBridge htexts (h.phase hphase).2.2.2 (hwhole c req space issued hphase
      rfl) h.unread
    rw [hbridge] at hhandles hsame hleft
    obtain ⟨hspace, hdaemon, hconnected, hunread⟩ :=
      answered_frame { s.game with toSession := session } c result
    have hlink : (c.answered { s.game with toSession := session } result).1.connected = true →
        (c.answered { s.game with toSession := session } result).1.unread = [] := by
      rw [hconnected, hunread]
      exact hleft
    have hphaseOk := answered_ok h (h.phase hphase).1 hbridge { s.game with toSession := session }
    have htable : session.daemon.handles
        = (c.answered { s.game with toSession := session } result).1.daemon.handles := by
      rw [hdaemon]
    simp only [htable] at hphaseOk hfew hhandles ⊢
    exact h.roundTrip hlink hhandles (hspace.trans hsame) hphaseOk hfew
  | published handle size hphase =>
    -- the new range has the handle that came back, which was issued
    refine h.local h.unread rfl ?_ trivial
    intro base r hr
    rw [AddressSpace.lookup_allocate] at hr
    split at hr
    case isTrue => cases hr; exact h.phase hphase
    case isFalse => exact h.ranges base r hr

end

/-! ## What becomes of a request -/

/-- The block that was allocated under the handle, by an allocation that owned the address. -/
def OwnedBlock (space : AddressSpace) (issued : HandleTable Ptr) (ptr handle k : UInt64)
    (block : Ptr) : Prop :=
  ∃ base r, space.At ptr base r k ∧ r.handle = handle ∧ issued.get handle = some block

/-- The texts of a refusal, up to the handle. -/
def refusals : List String :=
  ["unknown handle ", "unknown function handle ", "fixup referenced unknown handle "]

/-- What the daemon makes of a request, whatever the library does: it refuses it and nothing has
changed, or it makes the one HIP call with blocks that are `OwnedBlock`. -/
inductive RequestOutcome (daemon : DaemonState D) (space : AddressSpace)
    (issued : HandleTable Ptr) : GameCall → Request → Prop
  | malloc (ptrIsNull : Bool) (size : UInt64) :
    RequestOutcome daemon space issued (.malloc ptrIsNull size) (.malloc size)
  | refused (c : GameCall) (req : Request) (text : String) (handle : UInt64)
      (htext : text ∈ refusals) (hserve : ∀ hip : HipLib D, handleRequest hip daemon req
        = .ok (.err (text ++ toString handle.toNat), daemon)) :
    RequestOutcome daemon space issued c req
  | freed (ptr : Ptr) (handle : UInt64) (block : Ptr)
      (howned : OwnedBlock space issued ptr handle 0 block)
      (hserve : ∀ hip : HipLib D, handleRequest hip daemon (.free handle)
        = .ok (emptyOrErr (hip.freeRaw block daemon.device).1,
          { daemon with
            handles := (daemon.handles.remove handle).2
            device := (hip.freeRaw block daemon.device).2 })) :
    RequestOutcome daemon space issued (.free ptr) (.free handle)
  | copiedToDevice (dst src : Ptr) (size : UInt64) (kind : Int32) (handle k : UInt64)
      (data : List UInt8) (block : Ptr) (howned : OwnedBlock space issued dst handle k block)
      (hserve : ∀ hip : HipLib D, handleRequest hip daemon (.memcpyH2D handle k data)
        = .ok (emptyOrErr (hip.memcpyH2d block k data daemon.device).1,
          { daemon with device := (hip.memcpyH2d block k data daemon.device).2 })) :
    RequestOutcome daemon space issued (.memcpy dst src size kind) (.memcpyH2D handle k data)
  | copiedToHost (dst src : Ptr) (size : UInt64) (kind : Int32) (handle k : UInt64) (block : Ptr)
      (howned : OwnedBlock space issued src handle k block)
      (hserve : ∀ hip : HipLib D, handleRequest hip daemon (.memcpyD2H handle k size)
        = (hip.memcpyD2h block k size daemon.device).map fun (result, device) =>
          (bytesOrErr result, { daemon with device })) :
    RequestOutcome daemon space issued (.memcpy dst src size kind) (.memcpyD2H handle k size)
  | launched (function : Ptr) (gridDim blockDim : Option Dim3) (args : Option Ptr)
      (sharedMem handle : UInt64) (grid block : UInt32 × UInt32 × UInt32) (shared : UInt32)
      (words : List UInt64) (funcPtr : Ptr) (hlen : (bytesOf words).length = maxKernelArgBytes)
      (howned : ∀ w ∈ words, ∀ handle k, space.resolve w = some (handle, k) →
        ∃ devPtr, OwnedBlock space issued w handle k devPtr ∧
          translateWord space issued w = devPtr + k)
      (hserve : ∀ hip : HipLib D, handleRequest hip daemon (.launchKernel handle grid block shared
          (scanFixups space (bytesOf words)) (bytesOf words))
        = .ok (launchWith hip daemon funcPtr grid block shared
            (bytesOf (words.map (translateWord space issued))))) :
    RequestOutcome daemon space issued (.launchKernel function gridDim blockDim args sharedMem)
      (.launchKernel handle grid block shared (scanFixups space (bytesOf words)) (bytesOf words))

section Outcome

variable {daemon : DaemonState D} {space : AddressSpace} {issued issuedThen : HandleTable Ptr}

/-- A handle the daemon knows still stands for the block it stood for when it was resolved. -/
theorem ownedBlock_of_known (hknown : Extends daemon.handles issued)
    (hranges : AllIssued space issuedThen) (hthen : Extends issuedThen issued)
    {ptr base handle k block : UInt64} {r : AllocRange} (hat : space.At ptr base r k)
    (hhandle : r.handle = handle) (hget : daemon.handles.get handle = some block) :
    OwnedBlock space issuedThen ptr handle k block := by
  obtain ⟨block', hblock'⟩ := Option.isSome_iff_exists.mp (hranges base r hat.1)
  -- the block of the handle then, its block now, and the one the daemon has are the same
  have hnow := hthen _ _ hblock'
  rw [hhandle] at hblock' hnow
  have hsame := hknown _ _ hget
  rw [hnow] at hsame
  cases hsame
  exact ⟨base, r, hat, hhandle, hblock'⟩

/-- The words a launch can be patched at are patched for the allocations that owned them. -/
theorem translateWord_of_known (hknown : Extends daemon.handles issued)
    (hranges : AllIssued space issuedThen) (hthen : Extends issuedThen issued)
    {w handle k : UInt64} (hresolve : space.resolve w = some (handle, k))
    (hsome : (daemon.handles.get handle).isSome) :
    ∃ devPtr, OwnedBlock space issuedThen w handle k devPtr ∧
      translateWord space issuedThen w = devPtr + k ∧
      translateWord space daemon.handles w = devPtr + k := by
  obtain ⟨devPtr, hget⟩ := Option.isSome_iff_exists.mp hsome
  obtain ⟨base, r, hat, hhandle⟩ := AddressSpace.at_of_resolve hresolve
  have howned := ownedBlock_of_known hknown hranges hthen hat hhandle hget
  obtain ⟨-, -, -, -, hthenGet⟩ := id howned
  exact ⟨devPtr, howned, by simp only [translateWord, hresolve, hthenGet],
    by simp only [translateWord, hresolve, hget]⟩

/-- A launch with what was scanned: the daemon stops at a function or a word it does not know, or
launches with every word patched. -/
theorem requestOutcome_of_launch (hknown : Extends daemon.handles issued)
    (hranges : AllIssued space issuedThen) (hthen : Extends issuedThen issued) (function : Ptr)
    (gridDim blockDim : Option Dim3) (args : Option Ptr) (sharedMem handle : UInt64)
    (grid block : UInt32 × UInt32 × UInt32) (shared : UInt32) {argBytes : List UInt8}
    (hlen : argBytes.length = maxKernelArgBytes) :
    RequestOutcome daemon space issuedThen
      (.launchKernel function gridDim blockDim args sharedMem)
      (.launchKernel handle grid block shared (scanFixups space argBytes) argBytes) := by
  cases hfunction : daemon.functions.get handle with
  | none =>
    refine .refused _ _ "unknown function handle " handle (by simp [refusals]) fun hip => ?_
    simp only [handleRequest, hfunction]
  | some funcPtr =>
    obtain ⟨words, hwords, rfl⟩ := @exists_bytesOf 512 argBytes (by rw [hlen, maxKernelArgBytes])
    have hpatching := patchArgs_scanFixups space daemon.handles
      (by rw [hwords]; decide : 8 * words.length < _)
    generalize hpatch : patchArgs daemon.handles (scanFixups space (bytesOf words))
      (bytesOf words) = result at hpatching
    cases hpatching with
    -- the first word whose handle is gone stops it
    | unknown w handle' k _ hresolve hunknown =>
      refine .refused _ _ "fixup referenced unknown handle " handle' (by simp [refusals])
        fun hip => ?_
      simp only [handleRequest, hfunction, hpatch, Io.ok_bind, Io.pure_eq]
    -- or all are known, and patching with what the daemon has is patching with what was issued
    | translated hall =>
      have htranslate : words.map (translateWord space daemon.handles)
          = words.map (translateWord space issuedThen) := by
        refine List.map_congr_left fun w hw => ?_
        cases hresolve : space.resolve w with
        | none => simp only [translateWord, hresolve]
        | some found =>
          obtain ⟨devPtr, -, hthenWord, hnowWord⟩ := translateWord_of_known hknown hranges hthen
            hresolve (hall w hw found.1 found.2 hresolve)
          rw [hthenWord, hnowWord]
      rw [List.nil_append, htranslate] at hpatch
      refine .launched function gridDim blockDim args sharedMem handle grid block shared words
        funcPtr hlen (fun w hw handle' k hresolve => ?_)
        fun hip => handleRequest_launch_patched hip grid block shared hfunction hpatch
      obtain ⟨devPtr, howned, hword, -⟩ := translateWord_of_known hknown hranges hthen hresolve
        (hall w hw handle' k hresolve)
      exact ⟨devPtr, howned, hword⟩

/-- What comes of a request that was resolved before, by its kind: the daemon knows the handle no
longer and refuses it, or has the block of the allocation behind it. -/
theorem requestOutcome_of_resolved (hknown : Extends daemon.handles issued)
    (hranges : AllIssued space issuedThen) (hthen : Extends issuedThen issued) {c : GameCall}
    {req : Request} (hresolved : ResolvedIn space c req) :
    RequestOutcome daemon space issuedThen c req := by
  cases hresolved with
  | malloc ptrIsNull size => exact .malloc ptrIsNull size
  | free ptr r hlive =>
    cases hget : daemon.handles.get r.handle with
    | none =>
      exact .refused _ _ "unknown handle " r.handle (by simp [refusals])
        fun hip => handleRequest_free_unknown hip hget
    | some block =>
      have hat : space.At ptr ptr r 0 :=
        ⟨hlive, Nat.add_zero _, Nat.lt_of_lt_of_le Nat.one_pos (Nat.le_max_right _ _)⟩
      exact .freed ptr r.handle block (ownedBlock_of_known hknown hranges hthen hat rfl hget)
        fun hip => handleRequest_free_known hip hget
  | toDevice dst src size kind handle k data hresolve =>
    cases hget : daemon.handles.get handle with
    | none =>
      exact .refused _ _ "unknown handle " handle (by simp [refusals])
        fun hip => handleRequest_memcpyH2D_unknown hip hget k data
    | some block =>
      obtain ⟨base, r, hat, hhandle⟩ := AddressSpace.at_of_resolve hresolve
      refine .copiedToDevice dst src size kind handle k data block
        (ownedBlock_of_known hknown hranges hthen hat hhandle hget) fun hip => ?_
      simp only [handleRequest, hget]
  | toHost dst src size kind handle k hresolve =>
    cases hget : daemon.handles.get handle with
    | none =>
      exact .refused _ _ "unknown handle " handle (by simp [refusals])
        fun hip => handleRequest_memcpyD2H_unknown hip hget k size
    | some block =>
      obtain ⟨base, r, hat, hhandle⟩ := AddressSpace.at_of_resolve hresolve
      refine .copiedToHost dst src size kind handle k block
        (ownedBlock_of_known hknown hranges hthen hat hhandle hget) fun hip => ?_
      simp only [handleRequest, hget]
      rfl
  | launch function gridDim blockDim args sharedMem handle grid block shared argBytes hlen =>
    exact requestOutcome_of_launch hknown hranges hthen function gridDim blockDim args sharedMem
      handle grid block shared hlen

end Outcome

/-- Under the invariant, that is what comes of every request. -/
theorem ThreadedGame.Inv.requestOutcome {s : ThreadedGame T D} (h : s.Inv) {t : T} {c : GameCall}
    {req : Request} {space : AddressSpace} {issued : HandleTable Ptr}
    (hphase : s.phase t = .roundTrip c req space issued) :
    RequestOutcome s.game.daemon space issued c req := by
  obtain ⟨hresolved, hranges, hthen, -⟩ := h.phase hphase
  exact requestOutcome_of_resolved h.known hranges hthen hresolved

/-! ## Which allocation a range is of -/

/-- If the step of `t` from `s` to `s'` has left it a handle to publish, that handle was issued in
this very step, for the block HIP has allocated in it: the range that is put in for the handle is
that of the block the call got. -/
def OwnHandle (hip : HipLib D) (s s' : ThreadedGame T D) (t : T) : Prop :=
  ∀ handle size, s'.phase t = .publish handle size →
    s.issued.get handle = none ∧
      s'.issued.get handle = some (hip.malloc size s.game.daemon.device).2.1

/-- Under the invariant no answer is another call's, so no handle is. -/
theorem ThreadedGame.Inv.ownHandle [DecidableEq T] {hip : HipLib D} {s : ThreadedGame T D}
    (h : s.Inv) {t : T} {c : GameCall} {req : Request} {space : AddressSpace}
    {issued : HandleTable Ptr} (hphase : s.phase t = .roundTrip c req space issued) :
    OwnHandle hip s (threadStep hip s (t, .roundTrip)) t := by
  intro handle size hpublish
  have hresolved := (h.phase hphase).1
  cases hbridge : callBridge hip s.game.toSession req with
  | mk result session =>
    rw [threadStep_answered hip hphase hbridge] at hpublish ⊢
    simp only [Function.update_self] at hpublish
    obtain ⟨body, rfl, rfl, rfl⟩ := answered_publish hpublish
    cases hresolved
    obtain ⟨rfl, hinsert⟩ := callBridge_malloc_ok h.unread hbridge
    have hget : session.daemon.handles.get s.game.daemon.handles.nextId
        = some (hip.malloc size s.game.daemon.device).2.1 := by
      rw [hinsert, HandleTable.get_insert, if_pos rfl]
    rw [u64FromLe_u64ToLe, ← h.nextId]
    refine ⟨h.get_nextId, ?_⟩
    show (issuedBy _ _ _).get _ = _
    rw [issuedBy, hget, HandleTable.get_insert, if_pos rfl]

end HipBridge.Bridge
