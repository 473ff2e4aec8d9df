import HipBridge.Bridge.StalePointers
import HipBridge.Stub.AddressRuns

/-!
# Frees of one base

* **`HandsOut`** — a step that hands an address out as the base of a range. `request_freed`: a
  base that was freed is not freed again before it is handed out again.
* **`PublishRoom`** — the addresses handed out so far stay below `2 ^ 64`. In such a run no base
  is handed out twice, and no two live ranges share an address.
* **`along_wholeResponse`** — the condition on the responses in terms of the calls alone.
* **`stale_pointers_safe`** — what comes of every request of every run.
* **`freed_twice`** — without room: two threads free one base, of two allocations, at a time.
-/

namespace HipBridge.Bridge

open Lib Protocol Daemon Stub

variable {D T : Type}

/-- The step hands the address out as the base of a range. -/
def HandsOut (ptr : Ptr) (s : ThreadedGame T D) (a : T × ThreadAct) : Prop :=
  (∃ handle size, s.phase a.1 = .publish handle size) ∧ a.2 = .publish ∧
    s.game.space.nextBase = ptr

/-- A range that is handed out lies below `2 ^ 64`. -/
def PublishRoom (s : ThreadedGame T D) (a : T × ThreadAct) : Prop :=
  ∀ handle size, s.phase a.1 = .publish handle size → a.2 = .publish →
    s.game.space.nextBase.toNat + AddressSpace.reservedNat size < 2 ^ 64

/-- No two live ranges have an address in common. -/
def OneOwner (space : AddressSpace) : Prop :=
  ∀ ptr base r k base' r' k', space.At ptr base r k → space.At ptr base' r' k' →
    base = base' ∧ r = r'

/-- Live ranges that lie apart share no address: the lower of two ends before the upper begins. -/
theorem oneOwner_of_inv {space : AddressSpace} (h : space.Inv) : OneOwner space := by
  have hordered : ∀ {ptr base k base' k' : UInt64} {r r' : AllocRange}, space.At ptr base r k →
      space.At ptr base' r' k' → ¬ base.toNat < base'.toNat := by
    intro ptr base k base' k' r r' hat hat' hlt
    have hapart := h.apart base r base' r' hat.1 hat'.1 hlt
    have hpad := AddressSpace.reservedNat_ge r.size
    have hsum := hat.2.1
    have hsum' := hat'.2.1
    have hinside := hat.2.2
    omega
  intro ptr base r k base' r' k' hat hat'
  have hle := hordered hat hat'
  have hge := hordered hat' hat
  obtain rfl : base = base' := UInt64.toNat_inj.mp (by omega)
  exact ⟨rfl, Option.some.inj (hat.1.symm.trans hat'.1)⟩

/-! ## One step -/

section Step

variable [DecidableEq T] (hip : HipLib D) (s : ThreadedGame T D) (t : T)

/-- The effects of a step on the address space. -/
inductive SpaceEffect : ThreadAct → AddressSpace → Prop
  | same (act : ThreadAct) : SpaceEffect act s.game.space
  | removed (c : GameCall) (ptr : Ptr) : SpaceEffect (.call c) (s.game.space.removeExact ptr).2
  | allocated (handle size : UInt64) (hphase : s.phase t = .publish handle size) :
    SpaceEffect .publish (s.game.space.allocate handle size).2

/-- Only the call of a free takes a range away, and only a publication puts one in; a round trip
leaves the address space alone. -/
theorem spaceEffect_threadStep (act : ThreadAct) :
    SpaceEffect s t act (threadStep hip s (t, act)).game.space := by
  have heffect := threadStep_effect hip s t act
  generalize threadStep hip s (t, act) = s' at heffect ⊢
  cases heffect with
  | nothing => exact .same act
  | asked c req hphase hreq =>
    cases c with
    | free ptr => exact .removed (.free ptr) ptr
    | _ => exact .same _
  | refused c hphase hreq =>
    show SpaceEffect s t (.call c) (c.refused s.game).space
    rw [(refused_frame s.game c).1]
    exact .same _
  | answered c req space issued result session hphase hbridge =>
    -- neither the round trip nor what the call does with its answer
    have hsame := space_callBridge hip s.game.toSession req
    rw [hbridge] at hsame
    show SpaceEffect s t .roundTrip (c.answered { s.game with toSession := session } result).1.space
    rw [(answered_frame _ c result).1]
    show SpaceEffect s t .roundTrip session.space
    rw [hsame]
    exact .same _
  | published handle size hphase => exact .allocated handle size hphase

variable {s} {a : T × ThreadAct}

/-- An address that is no base stays none, until it is handed out. -/
theorem lookup_threadStep {ptr : Ptr} (hnone : s.game.space.ranges.lookup ptr = none)
    (hnot : ¬ HandsOut ptr s a) : (threadStep hip s a).game.space.ranges.lookup ptr = none := by
  obtain ⟨t, act⟩ := a
  have heffect := spaceEffect_threadStep hip s t act
  generalize (threadStep hip s (t, act)).game.space = space at heffect ⊢
  cases heffect with
  | same => exact hnone
  | removed c ptr' =>
    rw [AddressSpace.lookup_removeExact]
    split
    · rfl
    · exact hnone
  | allocated handle size hphase =>
    -- the range that is new has another base
    have hother : ptr ≠ s.game.space.nextBase :=
      fun heq => hnot ⟨⟨handle, size, hphase⟩, rfl, heq.symm⟩
    rw [AddressSpace.lookup_allocate, if_neg hother]
    exact hnone

/-- With room, live ranges stay apart, and the next base moves up. -/
theorem room_threadStep (h : s.game.space.Inv) (hroom : PublishRoom s a) :
    (threadStep hip s a).game.space.Inv ∧
      s.game.space.nextBase.toNat ≤ (threadStep hip s a).game.space.nextBase.toNat := by
  obtain ⟨t, act⟩ := a
  have heffect := spaceEffect_threadStep hip s t act
  generalize (threadStep hip s (t, act)).game.space = space at heffect ⊢
  cases heffect with
  | same => exact ⟨h, Nat.le_refl _⟩
  | removed c ptr => exact ⟨h.removeExact ptr, Nat.le_refl _⟩
  | allocated handle size hphase =>
    have hfits := hroom handle size hphase rfl
    refine ⟨h.allocate hfits, ?_⟩
    rw [AddressSpace.toNat_nextBase_allocate hfits]
    exact Nat.le_add_right _ _

/-- What a request was resolved in has its ranges apart. -/
def CallPhase.Apart : CallPhase → Prop
  | .roundTrip _ _ space _ => space.Inv
  | _ => True

/-- Live ranges lie apart, and did when requests were resolved. -/
def ThreadedGame.Apart (s : ThreadedGame T D) : Prop :=
  s.game.space.Inv ∧ ∀ t, (s.phase t).Apart

/-- With room, a step keeps live ranges apart, now and in what requests were resolved in: a new
request is resolved in the address space as it is. -/
theorem apart_threadStep (h : s.Apart) (hroom : PublishRoom s a) : (threadStep hip s a).Apart := by
  refine ⟨(room_threadStep hip h.1 hroom).1, ?_⟩
  obtain ⟨t, act⟩ := a
  have hupdate : ∀ {p : CallPhase}, p.Apart → ∀ u, (Function.update s.phase t p u).Apart :=
    fun hp => (Function.forall_update_iff s.phase fun _ q => q.Apart).mpr ⟨hp, fun u _ => h.2 u⟩
  have heffect := threadStep_effect hip s t act
  generalize threadStep hip s (t, act) = s' at heffect ⊢
  cases heffect with
  | nothing => exact h.2
  | asked c req hphase hreq => exact hupdate h.1
  | refused c hphase hreq => exact h.2
  | answered c req space issued result session hphase hbridge =>
    refine hupdate ?_
    cases hafter : (c.answered { s.game with toSession := session } result).2 with
    | roundTrip => exact absurd hafter answered_not_roundTrip
    | _ => trivial
  | published handle size hphase => exact hupdate trivial

end Step

/-! ## Runs -/

section Runs

variable [DecidableEq T] (hip : HipLib D) {s : ThreadedGame T D} {t : T} {ptr : Ptr}

/-- A free of what is no base sends nothing. -/
theorem request_free_none {g : Game D} (hnone : g.space.ranges.lookup ptr = none) :
    (GameCall.free ptr).request g = none := by
  simp only [GameCall.request, AddressSpace.removeExact, hnone, Option.map_none, ite_self]

/-- What a free got to the daemon with is gone from the address space. -/
theorem lookup_freed (hidle : s.phase t = .idle) (hnull : ptr ≠ 0) :
    (threadStep hip s (t, .call (.free ptr))).game.space.ranges.lookup ptr = none := by
  cases hreq : (GameCall.free ptr).request s.game with
  | some req =>
    rw [threadStep_asked hip hidle hreq]
    show (s.game.space.removeExact ptr).2.ranges.lookup ptr = none
    rw [AddressSpace.lookup_removeExact, if_pos rfl]
  | none =>
    rw [threadStep_refused hip hidle hreq]
    show ((GameCall.free ptr).refused s.game).space.ranges.lookup ptr = none
    rw [(refused_frame s.game _).1]
    simp only [GameCall.request, if_neg hnull, Option.map_eq_none_iff] at hreq
    exact Option.map_eq_none_iff.mp hreq

/-- A base that a call began to free is not freed again before it is handed out again. -/
theorem request_freed (hidle : s.phase t = .idle) {mid : List (T × ThreadAct)}
    (hnot : Along (threadStep hip) (fun s a => ¬ HandsOut ptr s a)
      (threadStep hip s (t, .call (.free ptr))) mid) :
    (GameCall.free ptr).request (run (threadStep hip) s ((t, .call (.free ptr)) :: mid)).game
      = none := by
  by_cases hnull : ptr = 0
  -- the null pointer is never sent
  · rw [GameCall.request, if_pos hnull]
  · have hgone : Always (threadStep hip) (fun s => s.game.space.ranges.lookup ptr = none)
        (threadStep hip s (t, .call (.free ptr))) mid := by
      refine always_of_along ?_ (lookup_freed hip hidle hnull) hnot
      exact fun s a hnone hstep => lookup_threadStep hip hnone hstep
    exact request_free_none hgone.last

/-- With room, a live base is never handed out. -/
theorem not_handsOut_of_room {acts : List (T × ThreadAct)} (h : s.game.space.Inv)
    (hbelow : ptr.toNat < s.game.space.nextBase.toNat)
    (hroom : Along (threadStep hip) PublishRoom s acts) :
    Along (threadStep hip) (fun s a => ¬ HandsOut ptr s a) s acts := by
  refine @along_of_inv _ _ (threadStep hip)
    (fun s => s.game.space.Inv ∧ ptr.toNat < s.game.space.nextBase.toNat) PublishRoom _ s ?_ ?_ acts
    ⟨h, hbelow⟩ hroom
  · intro s a hs hroom
    have hstep := room_threadStep hip hs.1 hroom
    exact ⟨hstep.1, Nat.lt_of_lt_of_le hs.2 hstep.2⟩
  -- what is handed out is the next base itself
  · rintro s a hs - ⟨-, -, rfl⟩
    exact Nat.lt_irrefl _ hs.2

/-- With room, a base that a call got to the daemon with is never freed again. -/
theorem request_freed_of_room (h : s.game.space.Inv) (hidle : s.phase t = .idle)
    {mid : List (T × ThreadAct)} (hreq : ((GameCall.free ptr).request s.game).isSome)
    (hroom : Along (threadStep hip) PublishRoom s ((t, .call (.free ptr)) :: mid)) :
    (GameCall.free ptr).request (run (threadStep hip) s ((t, .call (.free ptr)) :: mid)).game
      = none := by
  have hstep := room_threadStep hip h hroom.1
  have hbelow : ptr.toNat < s.game.space.nextBase.toNat := by
    cases hlookup : s.game.space.ranges.lookup ptr with
    | none =>
      rw [request_free_none hlookup] at hreq
      cases hreq
    | some r =>
      -- a live range lies below the next base
      have hend := h.below ptr r hlookup
      have hpad := AddressSpace.reservedNat_min r.size
      omega
  exact request_freed hip hidle
    (not_handsOut_of_room hip hstep.1 (Nat.lt_of_lt_of_le hbelow hstep.2) hroom.2)

/-- A step enters one allocation at most. -/
theorem len_threadStep_le (s : ThreadedGame T D) (a : T × ThreadAct) :
    (threadStep hip s a).issued.len ≤ s.issued.len + 1 := by
  obtain ⟨t, act⟩ := a
  have heffect := threadStep_effect hip s t act
  generalize threadStep hip s (t, act) = s' at heffect ⊢
  cases heffect with
  | answered c req space issued result session hphase hbridge =>
    show (issuedBy s.game.daemon.handles session.daemon.handles s.issued).len ≤ s.issued.len + 1
    unfold issuedBy
    split
    -- the daemon has issued the next handle; `insert` counts it once, whatever was there
    case h_1 block _ =>
      show (s.issued.entries.insert s.issued.nextId block).keys.length ≤ _
      rw [AList.keys_insert, List.length_cons]
      exact Nat.succ_le_succ List.length_erase_le
    case h_2 => exact Nat.le_succ _
  | _ => exact Nat.le_succ _

/-- A run shorter than the number of handles. -/
theorem along_fewAllocations {acts : List (T × ThreadAct)}
    (h : s.issued.len + acts.length < 2 ^ 64 - 1) :
    Along (threadStep hip) (FewAllocations hip) s acts := by
  induction acts generalizing s with
  | nil => trivial
  | cons a acts ih =>
    rw [List.length_cons] at h
    have hstep := len_threadStep_le hip s a
    exact ⟨by unfold FewAllocations; omega, ih (by omega)⟩

/-- A copy from the device is of a length that the length field of a response spells, or that the
stub refuses. -/
def GameCall.Whole : GameCall → Prop
  | .memcpy _ _ size kind => kind = hipMemcpyDeviceToHost → HeaderSafe size.toNat
  | _ => True

/-- Such a call makes a request whose response is whole, whatever the daemon holds: only that to a
copy from the device can be long. -/
theorem request_whole {g : Game D} {c : GameCall} {req : Request} (hwhole : c.Whole)
    (hreq : c.request g = some req) (daemon : DaemonState D) : ServesWhole hip daemon req := by
  cases c with
  | malloc ptrIsNull size =>
    cases hreq
    trivial
  | free ptr =>
    simp only [GameCall.request] at hreq
    split at hreq
    case isTrue => cases hreq
    case isFalse =>
      obtain ⟨handle, -, rfl⟩ := Option.map_eq_some_iff.mp hreq
      trivial
  | memcpy dst src size kind =>
    simp only [GameCall.request, memcpyRequest] at hreq
    split at hreq
    case isTrue =>
      obtain ⟨⟨handle, k⟩, -, rfl⟩ := Option.map_eq_some_iff.mp hreq
      trivial
    case isFalse =>
      split at hreq
      case isFalse => cases hreq
      case isTrue hkind =>
        obtain ⟨⟨handle, k⟩, -, rfl⟩ := Option.map_eq_some_iff.mp hreq
        exact Or.inl (hwhole hkind)
  | launchKernel function gridDim blockDim args sharedMem =>
    have hresolved := @request_resolvedIn D g (.launchKernel function gridDim blockDim args
      sharedMem) req hreq
    cases hresolved
    trivial

/-- In a run of calls whose copies are `Whole`, every response is. The requests under way carry
that from the call to its round trip. -/
theorem along_wholeResponse {g : Game D} {acts : List (T × ThreadAct)}
    (hcalls : ∀ a ∈ acts, ∀ c, a.2 = .call c → c.Whole) :
    Along (threadStep hip) (WholeResponse hip) (.start g : ThreadedGame T D) acts := by
  refine @along_of_inv _ _ (threadStep hip)
    (fun s => ∀ t c req space issued, s.phase t = .roundTrip c req space issued →
      ∀ daemon, ServesWhole hip daemon req)
    (fun _ a => ∀ c, a.2 = .call c → c.Whole) _ (.start g) ?_ ?_ acts ?_ ?_
  -- what is under way stays as it was asked, and what is new is `Whole`
  · rintro s ⟨t, act⟩ hs hcall u c req space issued hphase
    have heffect := threadStep_effect hip s t act
    generalize threadStep hip s (t, act) = s' at heffect hphase
    -- a thread other than `t` is where it was
    have hupdate : ∀ {p : CallPhase},
        Function.update s.phase t p u = .roundTrip c req space issued →
        (∀ c' req' space' issued', p = .roundTrip c' req' space' issued' →
          ∀ daemon, ServesWhole hip daemon req') → ∀ daemon, ServesWhole hip daemon req := by
      intro p hu hp
      by_cases hown : u = t
      · rw [hown, Function.update_self] at hu
        exact hp c req space issued hu
      · rw [Function.update_of_ne hown] at hu
        exact hs u c req space issued hu
    cases heffect with
    | nothing => exact hs u c req space issued hphase
    | asked c' req' hidle hreq =>
      refine hupdate hphase fun c'' req'' space'' issued'' hp => ?_
      cases hp
      exact request_whole hip (hcall c' rfl) hreq
    | refused => exact hs u c req space issued hphase
    | answered => exact hupdate hphase fun _ _ _ _ hp => absurd hp answered_not_roundTrip
    | published => exact hupdate hphase nofun
  -- a round trip is one of those under way
  · intro s a hs _ c req space issued hphase _
    exact hs a.1 c req space issued hphase s.game.daemon
  · exact nofun
  · rw [along_iff_forall]
    rintro pre a post rfl c hc
    exact hcalls a (by simp) c hc

/-- **A stale pointer never reaches another allocation.** Whatever the threads do, as long as
handles do not run out and no response is cut short: the daemon refuses a request under way as
naming an unknown handle, leaving everything as it was, or makes its HIP call with blocks of
allocations that owned the addresses when they were resolved; and a range is put in for no block but
the one its own call was allocated. A base that a call began to free gets to the daemon with another
call only if it was handed out again, and that takes addresses that reach `2 ^ 64`: before that an
address has one owner, and a base is freed at most once. -/
theorem stale_pointers_safe (hip : HipLib D) (htexts : ShortTexts hip) {g : Game D}
    (hspace : g.space = .new) (hhandles : g.daemon.handles = .new) (hunread : g.unread = []) :
    (∀ acts, Along (threadStep hip) (FewAllocations hip) (.start g : ThreadedGame T D) acts →
      Along (threadStep hip) (WholeResponse hip) (.start g) acts →
      Always (threadStep hip) (fun s => ∀ t c req space issued,
        s.phase t = .roundTrip c req space issued →
          RequestOutcome s.game.daemon space issued c req ∧
          RoundTrip hip s.game.toSession req (threadStep hip s (t, .roundTrip)).game.daemon ∧
          OwnHandle hip s (threadStep hip s (t, .roundTrip)) t)
        (.start g) acts) ∧
    (∀ (acts mid : List (T × ThreadAct)) t ptr,
      (run (threadStep hip) (.start g) acts).phase t = .idle →
      Along (threadStep hip) (fun s a => ¬ HandsOut ptr s a)
        (run (threadStep hip) (.start g) (acts ++ [(t, .call (.free ptr))])) mid →
      (GameCall.free ptr).request
        (run (threadStep hip) (.start g) (acts ++ (t, .call (.free ptr)) :: mid)).game = none) ∧
    (∀ acts, Along (threadStep hip) PublishRoom (.start g : ThreadedGame T D) acts →
      Always (threadStep hip) (fun s => ∀ t c req space issued,
        s.phase t = .roundTrip c req space issued → OneOwner space) (.start g) acts ∧
      ∀ before mid t ptr, acts = before ++ (t, .call (.free ptr)) :: mid →
        (run (threadStep hip) (.start g) before).phase t = .idle →
        ((GameCall.free ptr).request (run (threadStep hip) (.start g) before).game).isSome →
        (GameCall.free ptr).request (run (threadStep hip) (.start g) acts).game = none) := by
  refine ⟨fun acts hfew hwhole => ?_, fun acts mid t ptr hidle hnot => ?_, fun acts hroom => ?_⟩
  -- the invariant holds throughout, and says what comes of the requests under way
  · have hinv : Always (threadStep hip) ThreadedGame.Inv (.start g : ThreadedGame T D) acts :=
      always_of_along (fun s a hs hstep => inv_threadStep htexts hs hstep.1 hstep.2)
        (ThreadedGame.inv_start hspace hhandles hunread) (along_and.mpr ⟨hfew, hwhole⟩)
    refine hinv.imp fun s hs t c req space issued hphase =>
      ⟨hs.requestOutcome hphase, ?_, hs.ownHandle hphase⟩
    rw [daemon_threadStep hip hphase]
    exact callBridge_roundTrip hip (hs.phase hphase).2.2.2
  -- a base is gone from the address space until it is handed out again
  · rw [run_append] at hnot ⊢
    exact request_freed hip hidle hnot
  · have hstart : (.start g : ThreadedGame T D).Apart :=
      ⟨by rw [ThreadedGame.start, hspace]; exact AddressSpace.inv_new, fun _ => trivial⟩
    have hapart : Always (threadStep hip) ThreadedGame.Apart (.start g : ThreadedGame T D) acts :=
      always_of_along (fun s a => apart_threadStep hip) hstart hroom
    refine ⟨hapart.imp fun s hs t c req space issued hphase => ?_, ?_⟩
    · have hphases := hs.2 t
      rw [hphase] at hphases
      exact oneOwner_of_inv hphases
    · rintro before mid t ptr rfl hidle hreq
      rw [run_append]
      have hbefore := always_iff_forall.mp hapart before _ rfl
      exact request_freed_of_room hip hbefore.1 hidle hreq (along_append.mp hroom).2

end Runs

/-- Before the first call, with a device of memory that is all zero. -/
def threadedStart : ThreadedGame Bool FlatDevice :=
  .start (Game.new (fun _ => 0) FlatDevice.new)

/-- A copy from a block, and one into it that is freed, and another allocated, before it gets to
the daemon. -/
def staleCopy : List (Bool × ThreadAct) :=
  callSteps false (.malloc false 16) ++
    callSteps true (.memcpy 0x4000 0x700000000004 4 hipMemcpyDeviceToHost) ++
    (true, .call (.memcpy 0x700000000004 0x2000 4 hipMemcpyHostToDevice)) ::
      (callSteps false (.free 0x700000000000) ++ callSteps false (.malloc false 16))

/-- The copies of that run are of four bytes. -/
theorem whole_staleCopy : ∀ a ∈ staleCopy, ∀ c, a.2 = .call c → c.Whole := by
  intro a ha c hc
  have hcalls : c = .malloc false 16 ∨ c = .free 0x700000000000 ∨
      c = .memcpy 0x700000000004 0x2000 4 hipMemcpyHostToDevice ∨
      c = .memcpy 0x4000 0x700000000004 4 hipMemcpyDeviceToHost := by
    simp only [staleCopy, callSteps, List.mem_append, List.mem_cons, List.not_mem_nil, or_false]
      at ha
    rcases ha with
      ((rfl | rfl | rfl) | rfl | rfl | rfl) | rfl | (rfl | rfl | rfl) | rfl | rfl | rfl <;>
      cases hc <;> simp
  rcases hcalls with rfl | rfl | rfl | rfl
  · trivial
  · trivial
  · exact fun hkind => absurd hkind (by decide)
  · exact fun _ => .of_le (by decide)

/-- The free of a base, and another before its round trip. -/
def staleFree : List (Bool × ThreadAct) :=
  callSteps false (.malloc false 16) ++
    (false, .call (.free 0x700000000000)) :: [(true, .call (.free 0x700000000000))]

/-- The one range of that run is handed out far below `2 ^ 64`. -/
theorem room_staleFree : Along (threadStep flatHip) PublishRoom threadedStart staleFree := by
  refine ⟨?_, ?_, ?_, ?_, ?_, trivial⟩
  case refine_3 =>
    intro handle size hphase _
    have hpublish : CallPhase.publish 1 16 = .publish handle size := hphase
    cases hpublish
    decide
  all_goals
    rintro handle size - hact
    cases hact

theorem staleCopy_safe :
    Always (threadStep flatHip) (fun s => ∀ t c req space issued,
      s.phase t = .roundTrip c req space issued →
        RequestOutcome s.game.daemon space issued c req ∧
        RoundTrip flatHip s.game.toSession req
          (threadStep flatHip s (t, .roundTrip)).game.daemon ∧
        OwnHandle flatHip s (threadStep flatHip s (t, .roundTrip)) t)
      threadedStart staleCopy ∧
    (GameCall.free 0x700000000000).request (run (threadStep flatHip) threadedStart
      (callSteps false (.malloc false 16) ++ [(false, .call (.free 0x700000000000))])).game = none ∧
    Always (threadStep flatHip) (fun s => ∀ t c req space issued,
      s.phase t = .roundTrip c req space issued → OneOwner space) threadedStart staleFree ∧
    (GameCall.free 0x700000000000).request
      (run (threadStep flatHip) threadedStart staleFree).game = none := by
  obtain ⟨hsafe, hgone, hroom⟩ := @stale_pointers_safe _ Bool _ flatHip shortTexts_flatHip
    (Game.new (fun _ => 0) FlatDevice.new) rfl rfl rfl
  obtain ⟨howner, hfreed⟩ := hroom staleFree room_staleFree
  exact ⟨hsafe staleCopy (along_fewAllocations flatHip (by decide))
      (along_wholeResponse flatHip whole_staleCopy),
    hgone (callSteps false (.malloc false 16)) [] false 0x700000000000 rfl trivial, howner,
    hfreed (callSteps false (.malloc false 16)) [(true, .call (.free 0x700000000000))] false
      0x700000000000 rfl rfl rfl⟩

/-! ## Round the end of the address space -/

/-- The next step of a thread hands a block to `hipFree`, for a free of this base. -/
def ReachesHipFree (s : ThreadedGame T D) (t : T) (ptr : Ptr) : Prop :=
  ∃ handle space issued block, s.phase t = .roundTrip (.free ptr) (.free handle) space issued ∧
    s.game.connected = true ∧ s.game.daemon.handles.get handle = some block

/-- A thread allocates and frees, the first time at `base`, `n` times. -/
def cycles (size : UInt64) : (base : UInt64) → (n : Nat) → List (Bool × ThreadAct)
  | _, 0 => []
  | base, n + 1 =>
    callSteps true (.malloc false size) ++ callSteps true (.free base) ++
      cycles size (base + AddressSpace.reserved size) n

/-- A whole allocation on the flat device, which always has a block. -/
theorem exec_malloc {g : Game FlatDevice} (hstep : g.InStep) (size : UInt64) :
    (GameCall.malloc false size).exec flatHip g =
      { g with
        space := (g.space.allocate g.daemon.handles.nextId size).2
        daemon := { g.daemon with
          handles := (g.daemon.handles.insert g.daemon.device.next).2
          device := { g.daemon.device with next := g.daemon.device.next + size } } } := by
  have hrc : (flatHip.malloc size g.daemon.device).1 = HipLib.hipSuccess := rfl
  simp only [GameCall.exec, hipMalloc_allocated hstep false hrc]
  rfl

/-- A whole free on the flat device, which never refuses one. -/
theorem exec_free {g : Game FlatDevice} (hstep : g.InStep) {ptr block : Ptr}
    {r : AllocRange} (hnull : ptr ≠ 0) (hlive : g.space.ranges.lookup ptr = some r)
    (hknown : g.daemon.handles.get r.handle = some block) :
    (GameCall.free ptr).exec flatHip g =
      { g with
        space := (g.space.removeExact ptr).2
        daemon := { g.daemon with handles := (g.daemon.handles.remove r.handle).2 } } := by
  have hrc : (flatHip.free block g.daemon.device).1 = HipLib.hipSuccess := rfl
  simp only [GameCall.exec, hipFree_freed hstep hnull hlive hknown hrc]
  rfl

section Cycles

variable {s : ThreadedGame Bool FlatDevice} {size base : UInt64}

/-- What an allocation adds, in a state where a handle stands for a block. -/
theorem run_malloc (hidle : s.phase true = .idle) (hstep : s.game.InStep)
    (size : UInt64) :
    let s' := run (threadStep flatHip) s (callSteps true (.malloc false size))
    s'.phase = s.phase ∧ s'.game.InStep ∧
      s'.game.space.ranges.lookup s.game.space.nextBase
        = some ⟨s.game.daemon.handles.nextId, size⟩ ∧
      ∀ id, s'.game.daemon.handles.get id = if id = s.game.daemon.handles.nextId
        then some s.game.daemon.device.next else s.game.daemon.handles.get id := by
  simp only
  rw [phase_run_callSteps flatHip hidle, run_callSteps flatHip hidle, exec_malloc hstep]
  refine ⟨rfl, hstep.of_link rfl rfl, ?_, fun id => HandleTable.get_insert _ _ id⟩
  rw [AddressSpace.lookup_allocate, if_pos rfl]

/-- What a cycle moves on: the next base, and the next handle. -/
theorem run_cycle (hidle : s.phase true = .idle) (hstep : s.game.InStep)
    (hbase : s.game.space.nextBase = base) (hnull : base ≠ 0)
    (hnone : s.game.space.ranges.lookup base = none)
    (hnew : s.game.daemon.handles.get s.game.daemon.handles.nextId = none) :
    let s' := run (threadStep flatHip) s
      (callSteps true (.malloc false size) ++ callSteps true (.free base))
    s'.phase = s.phase ∧ s'.game.InStep ∧
      s'.game.space = { s.game.space with nextBase := base + AddressSpace.reserved size } ∧
      s'.game.daemon.handles =
        { s.game.daemon.handles with nextId := s.game.daemon.handles.nextId + 1 } := by
  subst hbase
  have hphase := phase_run_callSteps flatHip hidle (.malloc false size)
  have hgame := run_callSteps flatHip hidle (.malloc false size)
  have hidle' : (run (threadStep flatHip) s (callSteps true (.malloc false size))).phase true
      = .idle := by rw [hphase, hidle]
  rw [exec_malloc hstep size] at hgame
  simp only [run_append]
  -- the allocation comes first, and the free finds its range and its handle
  refine ⟨(phase_run_callSteps flatHip hidle' _).trans hphase, ?_⟩
  rw [run_callSteps flatHip hidle', hgame,
    @exec_free _ (by exact ⟨hstep.1, hstep.2⟩) _ s.game.daemon.device.next
      ⟨s.game.daemon.handles.nextId, size⟩ hnull (by simp [AddressSpace.allocate])
      (by rw [HandleTable.get_insert, if_pos rfl])]
  -- both entries were new, so to take them out is to have the tables back
  refine ⟨hstep.of_link rfl rfl, ?_, ?_⟩
  · simp only [AddressSpace.allocate, AddressSpace.removeExact, BTreeMap.erase_insert_new _ hnone]
  · have herase := BTreeMap.erase_insert_new s.game.daemon.device.next hnew
    simp only [HandleTable.insert, HandleTable.fetchAdd, HandleTable.mapInsert, HandleTable.remove]
    rw [herase]

/-- Cycles that meet neither a live base nor a handle in use. Induction on their number. -/
theorem run_cycles {n : Nat} (hidle : s.phase true = .idle) (hstep : s.game.InStep)
    (hbase : s.game.space.nextBase = base)
    (hbases : ∀ i < n, nthBase base size i ≠ 0 ∧
      s.game.space.ranges.lookup (nthBase base size i) = none)
    (hnew : ∀ i < n, s.game.daemon.handles.get (s.game.daemon.handles.nextId + UInt64.ofNat i)
      = none) :
    let s' := run (threadStep flatHip) s (cycles size base n)
    s'.phase = s.phase ∧ s'.game.InStep ∧
      s'.game.space = { s.game.space with nextBase := nthBase base size n } ∧
      s'.game.daemon.handles = { s.game.daemon.handles with
        nextId := s.game.daemon.handles.nextId + UInt64.ofNat n } := by
  induction n generalizing s base with
  | zero =>
    subst hbase
    rw [nthBase_zero]
    show s.phase = s.phase ∧ _ ∧ _ ∧
      _ = HandleTable.mk (s.game.daemon.handles.nextId + 0) s.game.daemon.handles.entries
    rw [UInt64.add_zero]
    exact ⟨rfl, hstep, rfl, rfl⟩
  | succ n ih =>
    -- the first cycle is at the first base and the next handle
    obtain ⟨hnull, hnone⟩ := hbases 0 (Nat.succ_pos n)
    have hfresh := hnew 0 (Nat.succ_pos n)
    rw [nthBase_zero] at hnull hnone
    have hzero : s.game.daemon.handles.nextId + UInt64.ofNat 0 = s.game.daemon.handles.nextId :=
      UInt64.add_zero _
    rw [hzero] at hfresh
    obtain ⟨hphase, hstep', hspace, hhandles⟩ := run_cycle hidle hstep hbase hnull hnone hfresh
    simp only [cycles, run_append _ _ (callSteps true (.malloc false size) ++ _)]
    generalize run (threadStep flatHip) s
      (callSteps true (.malloc false size) ++ callSteps true (.free base)) = s₁
      at hphase hstep' hspace hhandles
    -- the others are a cycle further on, where base and handle number `i` are number `i + 1`
    have hsucc : ∀ i, s₁.game.daemon.handles.nextId + UInt64.ofNat i
        = s.game.daemon.handles.nextId + UInt64.ofNat (i + 1) := by
      intro i
      rw [hhandles, UInt64.ofNat_add, UInt64.add_assoc, UInt64.add_comm (UInt64.ofNat i)]
      rfl
    have hrest := @ih s₁ (base + AddressSpace.reserved size) (by rw [hphase, hidle]) hstep'
      (by rw [hspace]) ?_ ?_
    · rw [hsucc, nthBase_succ, hphase, hspace, hhandles] at hrest
      exact hrest
    · intro i hi
      rw [nthBase_succ, hspace]
      exact hbases (i + 1) (Nat.succ_lt_succ hi)
    · intro i hi
      rw [hsucc, hhandles]
      exact hnew (i + 1) (Nat.succ_lt_succ hi)

end Cycles

/-- The base zero is never met on the way. -/
theorem nthBase_ne_zero {i : Nat} (hi : i < 17180000257) :
    nthBase 0x700000002000 1073729536 i ≠ 0 := by
  intro heq
  have hnat := congrArg UInt64.toNat heq
  have hreserved : AddressSpace.reserved 1073729536 = 1073733632 := by decide
  rw [nthBase, hreserved, UInt64.toNat_add, UInt64.toNat_mul, UInt64.toNat_ofNat'] at hnat
  simp only [UInt64.reduceToNat] at hnat
  -- the bases pass `2 ^ 64` once, and none of them is at it
  omega

/-- A cycle is six steps. -/
theorem length_cycles (size base : UInt64) (n : Nat) : (cycles size base n).length = 6 * n := by
  induction n generalizing base with
  | zero => rfl
  | succ n ih =>
    rw [cycles, List.length_append, List.length_append, ih, callSteps, callSteps]
    simp only [List.length_cons, List.length_nil]
    omega

/-- `false` begins to free a block of 4096 bytes. -/
def freeingCalls : List (Bool × ThreadAct) :=
  callSteps false (.malloc false 4096) ++ [(false, .call (.free 0x700000000000))]

/-- Before its round trip, `true` allocates and frees, of just under 1 GiB, until the next base is
that of the block, allocates there and begins to free that. -/
def wrappedFrees : List (Bool × ThreadAct) :=
  freeingCalls ++
    (cycles 1073729536 0x700000002000 17180000257 ++ callSteps true (.malloc false 16)) ++
    [(true, .call (.free 0x700000000000))]

/-- The free has been sent, and is still to be answered. -/
def freeingStart : ThreadedGame Bool FlatDevice :=
  run (threadStep flatHip) threadedStart freeingCalls

/-- The other thread's cycles go once round the address space, past a free that is under way: its
handle is left alone, and the next base is that of its block. -/
theorem run_freeingStart :
    let s' := run (threadStep flatHip) freeingStart (cycles 1073729536 0x700000002000 17180000257)
    s'.phase = freeingStart.phase ∧ s'.game.InStep ∧
      s'.game.space = { freeingStart.game.space with nextBase := 0x700000000000 } ∧
      s'.game.daemon.handles = ⟨17180000259, freeingStart.game.daemon.handles.entries⟩ := by
  have hbase : nthBase 0x700000002000 1073729536 17180000257 = 0x700000000000 := by decide
  have hnext : freeingStart.game.daemon.handles.nextId + UInt64.ofNat 17180000257
      = 17180000259 := by
    decide
  have hcycles := @run_cycles freeingStart 1073729536 0x700000002000 17180000257 rfl ⟨rfl, rfl⟩ rfl
    (fun i hi => ⟨nthBase_ne_zero hi, rfl⟩) ?_
  · rwa [hbase, hnext] at hcycles
  · intro i hi
    -- the handles of the cycles are 2 and up, and the one in use is 1
    have hother : (2 : UInt64) + UInt64.ofNat i ≠ 1 := by
      intro heq
      have hnat := congrArg UInt64.toNat heq
      rw [UInt64.toNat_add, UInt64.toNat_ofNat'] at hnat
      simp only [UInt64.reduceToNat] at hnat
      omega
    exact AList.lookup_insert_ne hother

/-- The base is handed out again, under another handle than the one about to be freed. -/
theorem run_handedOut :
    ∃ s', run (threadStep flatHip) freeingStart
        (cycles 1073729536 0x700000002000 17180000257 ++ callSteps true (.malloc false 16)) = s' ∧
      s'.phase = freeingStart.phase ∧ s'.game.InStep ∧
      s'.game.daemon.handles.get 1 = some 0x10000 ∧
      ∃ handle block, handle ≠ 1 ∧
        s'.game.space.ranges.lookup 0x700000000000 = some ⟨handle, 16⟩ ∧
        s'.game.daemon.handles.get handle = some block := by
  obtain ⟨hphase, hstep, hspace, hhandles⟩ := run_freeingStart
  rw [run_append]
  generalize run (threadStep flatHip) freeingStart (cycles 1073729536 0x700000002000 17180000257)
    = s at hphase hstep hspace hhandles
  have hidle : s.phase true = .idle := by
    rw [hphase]
    rfl
  have hbase : s.game.space.nextBase = 0x700000000000 := by rw [hspace]
  have hnext : s.game.daemon.handles.nextId ≠ 1 := by
    rw [hhandles]
    decide
  have hfirst : s.game.daemon.handles.get 1 = some 0x10000 := by
    rw [hhandles]
    rfl
  -- one more allocation, at the base the cycles have led to
  obtain ⟨hphase', hstep', hlive, hget⟩ := run_malloc hidle hstep 16
  refine ⟨_, rfl, hphase'.trans hphase, hstep', ?_, s.game.daemon.handles.nextId,
    s.game.daemon.device.next, hnext, ?_, ?_⟩
  · rw [hget, if_neg hnext.symm, hfirst]
  · rw [← hbase, hlive]
  · rw [hget, if_pos rfl]

/-- A round trip that frees another handle is no hindrance. -/
theorem ReachesHipFree.other {s : ThreadedGame Bool FlatDevice} {ptr : Ptr}
    {handle handle' block block' : UInt64} {space space' : AddressSpace}
    {issued issued' : HandleTable Ptr} (hne : handle' ≠ handle) (hstep : s.game.InStep)
    (hphase : s.phase false = .roundTrip (.free ptr) (.free handle) space issued)
    (hphase' : s.phase true = .roundTrip (.free ptr) (.free handle') space' issued')
    (hknown : s.game.daemon.handles.get handle = some block)
    (hknown' : s.game.daemon.handles.get handle' = some block') :
    ReachesHipFree (threadStep flatHip s (false, .roundTrip)) true ptr := by
  have hrc : (flatHip.free block s.game.daemon.device).1 = HipLib.hipSuccess := rfl
  rw [threadStep_answered flatHip hphase (callBridge_free hstep hknown hrc)]
  refine ⟨handle', space', issued', block', ?_, hstep.1, ?_⟩
  · simp only [ne_eq, Bool.true_eq_false, not_false_eq_true, Function.update_of_ne, hphase']
  · show (s.game.daemon.handles.remove handle).2.get handle' = some block'
    rw [HandleTable.get_remove, if_neg hne, hknown']

/-- Two threads that free one base both get to `hipFree`. -/
theorem freed_twice :
    Along (threadStep flatHip) (FewAllocations flatHip) threadedStart wrappedFrees ∧
    ReachesHipFree (run (threadStep flatHip) threadedStart wrappedFrees) false 0x700000000000 ∧
    ReachesHipFree (run (threadStep flatHip) threadedStart wrappedFrees) true 0x700000000000 ∧
    ReachesHipFree (threadStep flatHip (run (threadStep flatHip) threadedStart wrappedFrees)
      (false, .roundTrip)) true 0x700000000000 := by
  have hfew : threadedStart.issued.len + wrappedFrees.length < 2 ^ 64 - 1 := by
    simp only [wrappedFrees, List.length_append, length_cycles]
    decide
  refine ⟨along_fewAllocations flatHip hfew, ?_⟩
  -- before the second free: the base is live again, the first free still under way
  obtain ⟨s, hrun, hphase, hstep, hfirst, handle, block, hother, hlive, hsecond⟩ := run_handedOut
  have hidle : s.phase true = .idle := by
    rw [hphase]
    rfl
  have hreq : (GameCall.free 0x700000000000).request s.game = some (.free handle) := by
    simp [GameCall.request, AddressSpace.removeExact, hlive]
  -- so the second free is sent too, with the handle of the new allocation
  have hasked := threadStep_asked flatHip hidle hreq
  have hwhole : run (threadStep flatHip) threadedStart wrappedFrees
      = threadStep flatHip s (true, .call (.free 0x700000000000)) := by
    rw [wrappedFrees, run_append, run_append, run_cons, run_nil]
    show threadStep flatHip (run (threadStep flatHip) freeingStart _) _ = _
    rw [hrun]
  have hfreeing : ∃ space issued, s.phase false
      = .roundTrip (.free 0x700000000000) (.free 1) space issued := by
    rw [hphase]
    exact ⟨_, _, rfl⟩
  obtain ⟨space, issued, hfreeing⟩ := hfreeing
  rw [hwhole]
  generalize threadStep flatHip s (true, .call (.free 0x700000000000)) = s' at hasked
  -- each thread now waits for its round trip, and the daemon knows both handles
  have hupdate : s'.phase = Function.update s.phase true
      (.roundTrip (.free 0x700000000000) (.free handle) s.game.space s.issued) := by rw [hasked]
  have hfalse : s'.phase false = .roundTrip (.free 0x700000000000) (.free 1) space issued := by
    rw [hupdate, Function.update_of_ne Bool.false_ne_true, hfreeing]
  have htrue : s'.phase true
      = .roundTrip (.free 0x700000000000) (.free handle) s.game.space s.issued := by
    rw [hupdate, Function.update_self]
  have hstep' : s'.game.InStep := by
    rw [hasked]
    exact hstep.of_link rfl rfl
  have hhandles : s'.game.daemon.handles = s.game.daemon.handles := by rw [hasked]
  rw [← hhandles] at hfirst hsecond
  exact ⟨⟨1, space, issued, 0x10000, hfalse, hstep'.1, hfirst⟩,
    ⟨handle, _, _, block, htrue, hstep'.1, hsecond⟩,
    .other hother hstep' hfalse htrue hfirst hsecond⟩

end HipBridge.Bridge
