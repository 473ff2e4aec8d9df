import HipBridge.Bridge.KernelArgs

/-!
# Threads of the game

Threads `T` allocate, free, copy and launch. A section under the lock of `ADDRESS_SPACE` is one
step, and so is a round trip to the daemon, which runs under the lock of the connection; between
two steps of a thread others take theirs.

* **`GameCall`** — the calls: `request` is what the first section hands to `call_bridge`,
  `answered` what becomes of the answer.
* **`threadStep`** — the steps. `run_callSteps` says that without steps of others in between they
  are the calls of `hip-stub`.
* **`RoundTrip`** — what a round trip does to the daemon: nothing, or it serves the request.
* **`HandlesEffect`** — what serving a request does to the handles.
-/

namespace HipBridge.Bridge

open Lib Protocol Daemon Stub
open Unixlib (Dim3 hipErrorNotSupported hipErrorNoDevice)

variable {D : Type}

inductive GameCall
  | malloc (ptrIsNull : Bool) (size : UInt64)
  | free (ptr : Ptr)
  | memcpy (dst src : Ptr) (size : UInt64) (kind : Int32)
  | launchKernel (function : Ptr) (gridDim blockDim : Option Dim3) (args : Option Ptr)
      (sharedMem : UInt64)

/-- What the call hands to `call_bridge`, if it gets that far. -/
def GameCall.request (g : Game D) : GameCall → Option Request
  | .malloc _ size => some (.malloc size)
  | .free ptr => if ptr = 0 then none else (g.space.removeExact ptr).1.map .free
  | .memcpy dst src size kind => memcpyRequest g.toSession dst src size kind
  | .launchKernel function gridDim blockDim args sharedMem =>
    launchRequest g function gridDim blockDim args sharedMem

/-- The address space when the call gets there. -/
def GameCall.spaceAfter (g : Game D) : GameCall → AddressSpace
  | .free ptr => (g.space.removeExact ptr).2
  | _ => g.space

/-- `set_last_error(code)`, as the last thing a call does. -/
def failWith (code : Int32) (g : Game D) : Game D :=
  { g with toSession := (setLastError g.toSession code).2 }

/-- The end of a call that does not get there. -/
def GameCall.refused (g : Game D) : GameCall → Game D
  | .free ptr => if ptr = 0 then g else failWith hipErrorNotSupported g
  | _ => failWith hipErrorNotSupported g

/-- Where a thread is in its call. What its request was resolved in is kept beside it. -/
inductive CallPhase
  | idle
  | roundTrip (call : GameCall) (req : Request) (space : AddressSpace) (issued : HandleTable Ptr)
  | publish (handle size : UInt64)

/-- What the call does with the answer: the end of the call, or a handle to be published. -/
def GameCall.answered (g : Game D) : GameCall → Except String (List UInt8) → Game D × CallPhase
  | .malloc ptrIsNull size, .ok body =>
    if body.length = 8 then (g, if ptrIsNull then .idle else .publish (u64FromLe body) size)
    else (failWith hipErrorNoDevice g, .idle)
  | .malloc _ _, .error _ => (failWith hipErrorNoDevice g, .idle)
  | .memcpy dst _ size kind, .ok data =>
    if kind = hipMemcpyHostToDevice then (g, .idle)
    else if data.length = size.toNat then ({ g with host := g.host.overwrite dst data }, .idle)
    else (failWith hipErrorNotSupported g, .idle)
  | _, .ok _ => (g, .idle)
  | _, .error _ => (failWith hipErrorNotSupported g, .idle)

/-- The game, where each of its threads is, and the table the handles of the daemon would be if
none were ever removed: the block of every allocation under its handle. -/
structure ThreadedGame (T D : Type) where
  game : Game D
  phase : T → CallPhase
  issued : HandleTable Ptr

/-- A thread begins a call, or takes the next step of one. -/
inductive ThreadAct
  | call (c : GameCall)
  | roundTrip
  | publish

/-- An allocation of the round trip is entered. -/
def issuedBy (before after issued : HandleTable Ptr) : HandleTable Ptr :=
  match after.get before.nextId with
  | some block => (issued.insert block).2
  | none => issued

variable {T : Type} [DecidableEq T] (hip : HipLib D)

/-- One step of a thread. A step that is not its next does nothing. -/
def threadStep (s : ThreadedGame T D) (a : T × ThreadAct) : ThreadedGame T D :=
  match s.phase a.1, a.2 with
  | .idle, .call c =>
    match c.request s.game with
    | some req =>
      { s with
        game := { s.game with space := c.spaceAfter s.game }
        phase := Function.update s.phase a.1 (.roundTrip c req s.game.space s.issued) }
    | none => { s with game := c.refused s.game }
  | .roundTrip c req _ _, .roundTrip =>
    let (result, session) := callBridge hip s.game.toSession req
    let (game, phase) := c.answered { s.game with toSession := session } result
    { game
      phase := Function.update s.phase a.1 phase
      issued := issuedBy s.game.daemon.handles session.daemon.handles s.issued }
  | .publish handle size, .publish =>
    { s with
      game := { s.game with space := (s.game.space.allocate handle size).2 }
      phase := Function.update s.phase a.1 .idle }
  | _, _ => s

/-- No call is under way. -/
def ThreadedGame.start (g : Game D) : ThreadedGame T D := ⟨g, fun _ => .idle, .new⟩

/-- The effects of a step of `t`. -/
inductive ThreadEffect (s : ThreadedGame T D) (t : T) : ThreadAct → ThreadedGame T D → Prop
  | nothing (act : ThreadAct) : ThreadEffect s t act s
  | asked (c : GameCall) (req : Request) (hphase : s.phase t = .idle)
      (hreq : c.request s.game = some req) :
      ThreadEffect s t (.call c)
        { s with
          game := { s.game with space := c.spaceAfter s.game }
          phase := Function.update s.phase t (.roundTrip c req s.game.space s.issued) }
  | refused (c : GameCall) (hphase : s.phase t = .idle) (hreq : c.request s.game = none) :
      ThreadEffect s t (.call c) { s with game := c.refused s.game }
  | answered (c : GameCall) (req : Request) (space : AddressSpace) (issued : HandleTable Ptr)
      (result : Except String (List UInt8)) (session : Session D)
      (hphase : s.phase t = .roundTrip c req space issued)
      (hbridge : callBridge hip s.game.toSession req = (result, session)) :
      ThreadEffect s t .roundTrip
        { game := (c.answered { s.game with toSession := session } result).1
          phase := Function.update s.phase t
            (c.answered { s.game with toSession := session } result).2
          issued := issuedBy s.game.daemon.handles session.daemon.handles s.issued }
  | published (handle size : UInt64) (hphase : s.phase t = .publish handle size) :
      ThreadEffect s t .publish
        { s with
          game := { s.game with space := (s.game.space.allocate handle size).2 }
          phase := Function.update s.phase t .idle }

section Effects

variable {s : ThreadedGame T D} {t : T}

theorem threadStep_asked {c : GameCall} {req : Request} (hphase : s.phase t = .idle)
    (hreq : c.request s.game = some req) :
    threadStep hip s (t, .call c) =
      { s with
        game := { s.game with space := c.spaceAfter s.game }
        phase := Function.update s.phase t (.roundTrip c req s.game.space s.issued) } := by
  simp only [threadStep, hphase, hreq]

theorem threadStep_refused {c : GameCall} (hphase : s.phase t = .idle)
    (hreq : c.request s.game = none) :
    threadStep hip s (t, .call c) = { s with game := c.refused s.game } := by
  simp only [threadStep, hphase, hreq]

theorem threadStep_answered {c : GameCall} {req : Request} {space : AddressSpace}
    {issued : HandleTable Ptr} {result : Except String (List UInt8)} {session : Session D}
    (hphase : s.phase t = .roundTrip c req space issued)
    (hbridge : callBridge hip s.game.toSession req = (result, session)) :
    threadStep hip s (t, .roundTrip) =
      { game := (c.answered { s.game with toSession := session } result).1
        phase := Function.update s.phase t
          (c.answered { s.game with toSession := session } result).2
        issued := issuedBy s.game.daemon.handles session.daemon.handles s.issued } := by
  simp only [threadStep, hphase, hbridge]

theorem threadStep_published {handle size : UInt64} (hphase : s.phase t = .publish handle size) :
    threadStep hip s (t, .publish) =
      { s with
        game := { s.game with space := (s.game.space.allocate handle size).2 }
        phase := Function.update s.phase t .idle } := by
  simp only [threadStep, hphase]

theorem threadStep_effect (s : ThreadedGame T D) (t : T) (act : ThreadAct) :
    ThreadEffect hip s t act (threadStep hip s (t, act)) := by
  cases hphase : s.phase t with
  | idle =>
    cases act with
    | call c =>
      cases hreq : c.request s.game with
      | some req =>
        rw [threadStep_asked hip hphase hreq]
        exact .asked c req hphase hreq
      | none =>
        rw [threadStep_refused hip hphase hreq]
        exact .refused c hphase hreq
    | _ =>
      simp only [threadStep, hphase]
      exact .nothing _
  | roundTrip c req space issued =>
    cases act with
    | roundTrip =>
      cases hbridge : callBridge hip s.game.toSession req with
      | mk result session =>
        rw [threadStep_answered hip hphase hbridge]
        exact .answered c req space issued result session hphase hbridge
    | _ =>
      simp only [threadStep, hphase]
      exact .nothing _
  | publish handle size =>
    cases act with
    | publish =>
      rw [threadStep_published hip hphase]
      exact .published handle size hphase
    | _ =>
      simp only [threadStep, hphase]
      exact .nothing _

end Effects

/-! ## A call on its own -/

/-- The three steps of a call; those it does not have do nothing. -/
def callSteps (t : T) (c : GameCall) : List (T × ThreadAct) :=
  [(t, .call c), (t, .roundTrip), (t, .publish)]

/-- The game after the exported call of `hip-stub`. -/
def GameCall.exec (g : Game D) : GameCall → Game D
  | .malloc ptrIsNull size =>
    { g with toSession := (Stub.hipMalloc hip g.toSession ptrIsNull size).2.2 }
  | .free ptr => { g with toSession := (Stub.hipFree hip g.toSession ptr).2 }
  | .memcpy dst src size kind =>
    { g with toSession := (memcpyForward hip g.toSession dst src size kind).2 }
  | .launchKernel function gridDim blockDim args sharedMem =>
    (hipLaunchKernel hip g function gridDim blockDim args sharedMem).2

/-- The end of a call is never another round trip. -/
theorem answered_not_roundTrip {g : Game D} {c c' : GameCall} {result : Except String (List UInt8)}
    {req : Request} {space : AddressSpace} {issued : HandleTable Ptr} :
    (c.answered g result).2 ≠ .roundTrip c' req space issued := by
  intro h
  cases c <;> cases result <;> simp only [GameCall.answered] at h <;> repeat' split at h
  all_goals cases h

/-- A call that gets to `call_bridge`: what is left is to publish a handle, if there is one. -/
theorem run_callSteps_some {s : ThreadedGame T D} {t : T} (hidle : s.phase t = .idle)
    {c : GameCall} {req : Request} (hreq : c.request s.game = some req)
    {result : Except String (List UInt8)} {session : Session D}
    (hbridge : callBridge hip { s.game.toSession with space := c.spaceAfter s.game } req
      = (result, session)) :
    (run (threadStep hip) s (callSteps t c)).phase = s.phase ∧
    (run (threadStep hip) s (callSteps t c)).game =
      match c.answered { s.game with toSession := session } result with
      | (game, .publish handle size) =>
        { game with space := (game.space.allocate handle size).2 }
      | (game, _) => game := by
  have hsecond : (threadStep hip (threadStep hip s (t, .call c)) (t, .roundTrip)).game
        = (c.answered { s.game with toSession := session } result).1 ∧
      (threadStep hip (threadStep hip s (t, .call c)) (t, .roundTrip)).phase
        = Function.update s.phase t (c.answered { s.game with toSession := session } result).2 := by
    rw [threadStep_asked hip hidle hreq,
      threadStep_answered hip (Function.update_self t _ s.phase) hbridge]
    exact ⟨rfl, Function.update_idem _ _ _⟩
  obtain ⟨hgame, hphase⟩ := hsecond
  rw [callSteps, run_cons, run_cons, run_cons, run_nil]
  generalize threadStep hip (threadStep hip s (t, .call c)) (t, .roundTrip) = s' at hgame hphase
  cases hanswered : c.answered { s.game with toSession := session } result with
  | mk game phase =>
    rw [hanswered] at hgame hphase
    simp only at hgame hphase
    subst hgame
    have hthird : s'.phase t = phase := by rw [hphase, Function.update_self]
    have hback : Function.update s.phase t .idle = s.phase := by
      rw [← hidle, Function.update_eq_self]
    cases phase with
    | idle =>
      simp only [threadStep, hthird]
      exact ⟨hphase.trans hback, trivial⟩
    | roundTrip => exact absurd (congrArg Prod.snd hanswered) answered_not_roundTrip
    | publish handle size =>
      simp only [threadStep, hthird, hphase, Function.update_idem]
      exact ⟨hback, trivial⟩

/-- A call that does not get there is the exported call too. -/
theorem refused_eq_exec {g : Game D} {c : GameCall} (hreq : c.request g = none) :
    c.refused g = c.exec hip g := by
  cases c with
  | malloc => cases hreq
  | free ptr =>
    simp only [GameCall.refused, GameCall.exec, Stub.hipFree]
    by_cases hnull : ptr = 0
    · simp only [hnull, if_true]
    · simp only [GameCall.request, if_neg hnull] at hreq
      have hlookup : g.space.ranges.lookup ptr = none := by
        simpa [AddressSpace.removeExact] using hreq
      simp only [if_neg hnull, AddressSpace.removeExact_unknown hlookup, failWith]
  | memcpy dst src size kind =>
    simp only [GameCall.request, memcpyRequest] at hreq
    simp only [GameCall.refused, GameCall.exec, failWith]
    split at hreq
    case isTrue hkind =>
      have hnone : g.space.resolve dst = none := Option.map_eq_none_iff.mp hreq
      simp only [memcpyForward, if_pos hkind, hnone]
    case isFalse hkind =>
      split at hreq
      case isTrue hkind' =>
        have hnone : g.space.resolve src = none := Option.map_eq_none_iff.mp hreq
        simp only [memcpyForward, if_neg hkind, if_pos hkind', hnone]
      case isFalse hkind' => simp only [memcpyForward, if_neg hkind, if_neg hkind']
  | launchKernel function gridDim blockDim args sharedMem =>
    simp only [GameCall.request] at hreq
    simp only [GameCall.refused, GameCall.exec, hipLaunchKernel, hreq, failWith]

/-- With no step of another thread in between, the steps of a call are the call. -/
theorem run_callSteps {s : ThreadedGame T D} {t : T} (hidle : s.phase t = .idle) (c : GameCall) :
    (run (threadStep hip) s (callSteps t c)).game = c.exec hip s.game := by
  cases hreq : c.request s.game with
  | none =>
    rw [← refused_eq_exec hip hreq]
    simp only [callSteps, run_cons, run_nil, threadStep, hidle, hreq]
  | some req =>
    cases hbridge : callBridge hip { s.game.toSession with space := c.spaceAfter s.game } req with
    | mk result session =>
      rw [(run_callSteps_some hip hidle hreq hbridge).2]
      cases c with
      | malloc ptrIsNull size =>
        cases hreq
        simp only [GameCall.spaceAfter] at hbridge
        simp only [GameCall.exec, Stub.hipMalloc, hbridge]
        cases result with
        | error e => rfl
        | ok body =>
          by_cases hlen : body.length = 8
          · cases ptrIsNull <;> simp [GameCall.answered, hlen]
          · simp [GameCall.answered, hlen, failWith]
      | free ptr =>
        simp only [GameCall.request] at hreq
        split at hreq
        case isTrue => cases hreq
        case isFalse hnull =>
          obtain ⟨handle, hhandle, rfl⟩ := Option.map_eq_some_iff.mp hreq
          have hremove : s.game.space.removeExact ptr
              = (some handle, (s.game.space.removeExact ptr).2) := by
            rw [← hhandle]
          simp only [GameCall.spaceAfter] at hbridge
          simp only [GameCall.exec, Stub.hipFree, if_neg hnull]
          rw [hremove]
          simp only [hbridge]
          cases result <;> rfl
      | memcpy dst src size kind =>
        simp only [GameCall.spaceAfter] at hbridge
        simp only [GameCall.request, memcpyRequest] at hreq
        split at hreq
        case isTrue hkind =>
          obtain ⟨⟨handle, offset⟩, hresolve, rfl⟩ := Option.map_eq_some_iff.mp hreq
          simp only [GameCall.exec, memcpyForward, if_pos hkind, hresolve, hbridge]
          cases result with
          | error e => rfl
          | ok data => simp [GameCall.answered, hkind]
        case isFalse hkind =>
          split at hreq
          case isFalse => cases hreq
          case isTrue hkind' =>
            obtain ⟨⟨handle, offset⟩, hresolve, rfl⟩ := Option.map_eq_some_iff.mp hreq
            simp only [GameCall.exec, memcpyForward, if_neg hkind, if_pos hkind', hresolve, hbridge]
            cases result with
            | error e => rfl
            | ok data =>
              by_cases hlen : data.length = size.toNat <;>
                simp [GameCall.answered, hkind, hlen, failWith]
      | launchKernel function gridDim blockDim args sharedMem =>
        simp only [GameCall.spaceAfter] at hbridge
        simp only [GameCall.request] at hreq
        simp only [GameCall.exec, hipLaunchKernel, hreq, hbridge]
        cases result <;> rfl

/-- At the end of its steps a call is over. -/
theorem phase_run_callSteps {s : ThreadedGame T D} {t : T} (hidle : s.phase t = .idle)
    (c : GameCall) : (run (threadStep hip) s (callSteps t c)).phase = s.phase := by
  cases hreq : c.request s.game with
  | none => simp only [callSteps, run_cons, run_nil, threadStep, hidle, hreq]
  | some req =>
    cases hbridge : callBridge hip { s.game.toSession with space := c.spaceAfter s.game } req with
    | mk result session => exact (run_callSteps_some hip hidle hreq hbridge).1

/-! ## A round trip -/

/-- The daemon is as it was, or has served the request. -/
inductive RoundTrip (s : Session D) (req : Request) : DaemonState D → Prop
  | lost : RoundTrip s req s.daemon
  | served (resp : Response) (daemon : DaemonState D)
      (hserve : handleRequest hip s.daemon req = .ok (resp, daemon)) : RoundTrip s req daemon

/-- A copy to the device is not read as any other request, even if the header is cut off. -/
theorem readFrom_writeTo_memcpyH2D {handle offset : UInt64} {data rest : List UInt8} {r : Request}
    (hdata : data.length < 2 ^ 64)
    (h : Request.readFrom (Request.memcpyH2D handle offset data).writeTo = .ok (r, rest)) :
    r = .memcpyH2D handle offset data := by
  have hcases := Request.readFrom_cases (Request.memcpyH2D handle offset data).writeTo
  rw [h] at hcases
  cases hcases with
  | request _ body _ hs hle hbody =>
    simp only [Request.writeTo, frame, List.cons_append, List.cons.injEq, List.append_assoc] at hs
    obtain ⟨hopcode, hs⟩ := hs
    obtain ⟨-, hs⟩ := List.append_inj hs (by rw [length_u32ToLe, length_u32ToLe])
    cases r with
    | memcpyH2D handle' offset' data' =>
      have hencode : (Request.memcpyH2D handle' offset' data').encodeBody = body := by
        rcases hbody with ⟨hone, -⟩ | hbody
        · cases hone
        · exact hbody
      rw [← hencode] at hs hle
      rw [length_encodeBody_memcpyH2D] at hle
      simp only [Request.encodeBody, List.append_assoc] at hs
      obtain ⟨hhandle, hs⟩ := List.append_inj hs (by rw [length_u64ToLe, length_u64ToLe])
      obtain ⟨hoffset, hs⟩ := List.append_inj hs (by rw [length_u64ToLe, length_u64ToLe])
      obtain ⟨hlength, hs⟩ := List.append_inj hs (by rw [length_u64ToLe, length_u64ToLe])
      have hdeclared : data.length = data'.length := by
        have hnat := congrArg (fun bytes => (u64FromLe bytes).toNat) hlength
        have hmax : maxBodyLen = 268435456 := rfl
        simp only [u64FromLe_u64ToLe, UInt64.toNat_ofNat'] at hnat
        omega
      obtain ⟨hbytes, -⟩ := List.append_inj ((List.append_nil data).trans hs) hdeclared
      rw [← u64FromLe_u64ToLe handle, hhandle, u64FromLe_u64ToLe, ← u64FromLe_u64ToLe offset,
        hoffset, u64FromLe_u64ToLe, hbytes]
    | _ => cases hopcode

/-- The daemon never reads another request than the call made. -/
theorem readFrom_request {g : Game D} {c : GameCall} {req r : Request} {rest : List UInt8}
    (hreq : c.request g = some req) (h : Request.readFrom req.writeTo = .ok (r, rest)) :
    r = req := by
  -- all requests but one are within the cap
  have hshort : req.encodeBody.length ≤ maxBodyLen → r = req := by
    intro hle
    have hread := req.readFrom_writeTo [] hle
    rw [List.append_nil, h] at hread
    cases hread
    rfl
  cases c with
  | malloc ptrIsNull size =>
    cases hreq
    exact hshort (encodeBody_malloc_le size)
  | free ptr =>
    simp only [GameCall.request] at hreq
    split at hreq
    case isTrue => cases hreq
    case isFalse =>
      obtain ⟨handle, -, rfl⟩ := Option.map_eq_some_iff.mp hreq
      exact hshort (encodeBody_free_le handle)
  | memcpy dst src size kind =>
    simp only [GameCall.request, memcpyRequest] at hreq
    split at hreq
    case isTrue =>
      obtain ⟨⟨handle, offset⟩, -, rfl⟩ := Option.map_eq_some_iff.mp hreq
      refine readFrom_writeTo_memcpyH2D ?_ h
      rw [FlatMemory.length_slice]
      exact size.toNat_lt
    case isFalse =>
      split at hreq
      case isFalse => cases hreq
      case isTrue =>
        obtain ⟨⟨handle, offset⟩, -, rfl⟩ := Option.map_eq_some_iff.mp hreq
        refine hshort ?_
        rw [length_encodeBody_memcpyD2H]
        decide
  | launchKernel => exact hshort (length_launchRequest hreq)

/-- A round trip leaves the address space alone. -/
theorem space_callBridge (s : Session D) (req : Request) :
    (callBridge hip s req).2.space = s.space := by
  unfold callBridge
  simp only
  repeat' split
  all_goals rfl

theorem callBridge_roundTrip {s : Session D} {req : Request}
    (hself : ∀ r rest, Request.readFrom req.writeTo = .ok (r, rest) → r = req) :
    RoundTrip hip s req (callBridge hip s req).2.daemon := by
  unfold callBridge
  simp only
  split
  case isFalse => exact .lost
  case isTrue =>
    split
    case h_1 => exact .lost
    case h_2 r rest hread =>
      obtain rfl := hself r rest hread
      split
      case h_1 => exact .lost
      case h_2 resp daemon hserve =>
        split <;> exact .served resp daemon hserve

/-- An error stays an error, even if its header is cut off. -/
theorem readFrom_writeTo_err {e : String} {resp : Response} {rest : List UInt8}
    (h : Response.readFrom (Response.err e).writeTo = .ok (resp, rest)) : ∃ e', resp = .err e' := by
  simp only [Response.readFrom, Response.writeTo, frame, Response.status, readExact_one,
    Io.ok_bind] at h
  obtain ⟨⟨body, s⟩, -, h⟩ := Io.bind_eq_ok.mp h
  cases h
  exact ⟨fromUtf8Lossy body, rfl⟩

/-- A round trip whose response is sent whole leaves nothing of it behind. -/
theorem unread_callBridge {hip : HipLib D} (htexts : ShortTexts hip) {s : Session D}
    {req : Request} (hself : ∀ r rest, Request.readFrom req.writeTo = .ok (r, rest) → r = req)
    (hwhole : ServesWhole hip s.daemon req) (h : s.connected = true → s.unread = []) :
    (callBridge hip s req).2.connected = true → (callBridge hip s req).2.unread = [] := by
  unfold callBridge
  simp only
  split
  case isFalse => exact h
  case isTrue hconn =>
    have hunread := h hconn
    split
    -- whatever goes wrong on the daemon's side, the connection is gone
    case h_1 => exact nofun
    case h_2 r rest hread =>
      obtain rfl := hself r rest hread
      split
      case h_1 => exact nofun
      case h_2 resp daemon hserve =>
        have hsafe :=
          (servesWhole_iff htexts (length_of_readFrom hread)).mp hwhole resp daemon hserve
        rw [hunread, List.nil_append]
        rcases Response.readFrom_prefix hsafe List.prefix_rfl with ⟨-, hwhole⟩ | ⟨e, herror⟩
        · rw [hwhole]
          exact fun _ => rfl
        · rw [herror]
          exact nofun

/-- A handle that comes back is that of the block HIP has just allocated. -/
theorem callBridge_malloc_ok {hip : HipLib D} {s session : Session D} {size : UInt64}
    {body : List UInt8} (hunread : s.connected = true → s.unread = [])
    (h : callBridge hip s (.malloc size) = (.ok body, session)) :
    body = u64ToLe s.daemon.handles.nextId ∧
      session.daemon.handles
        = (s.daemon.handles.insert (hip.malloc size s.daemon.device).2.1).2 := by
  cases hconn : s.connected with
  | false => simp [callBridge, hconn] at h
  | true =>
    by_cases hrc : (hip.malloc size s.daemon.device).1 = HipLib.hipSuccess
    · rw [callBridge_malloc ⟨hconn, hunread hconn⟩ hrc] at h
      cases h
      exact ⟨rfl, rfl⟩
    · have hserve : ∃ e daemon, handleRequest hip s.daemon (.malloc size)
          = .ok (.err e, daemon) := by
        simp only [handleRequest, HipLib.mallocRaw, if_pos hrc]
        exact ⟨_, _, rfl⟩
      obtain ⟨e, daemon, hserve⟩ := hserve
      have hread := (Request.malloc size).readFrom_writeTo [] (encodeBody_malloc_le size)
      rw [List.append_nil] at hread
      simp only [callBridge, hconn, if_true, hread, hserve, hunread hconn, List.nil_append] at h
      split at h
      case h_1 resp rest hresp =>
        obtain ⟨e', rfl⟩ := readFrom_writeTo_err hresp
        cases h
      case h_2 => cases h
      case h_3 => cases h

/-- The handles are as they were, with one more, or with one less. -/
inductive HandlesEffect (before : HandleTable Ptr) : HandleTable Ptr → Prop
  | same : HandlesEffect before before
  | inserted (block : Ptr) : HandlesEffect before (before.insert block).2
  | removed (handle : UInt64) : HandlesEffect before (before.remove handle).2

/-- One case a request kind; only `Malloc` and `Free` touch the table. -/
theorem handlesEffect_of_handleRequest {hip : HipLib D} {s s' : DaemonState D} {req : Request}
    {resp : Response} (h : handleRequest hip s req = .ok (resp, s')) :
    HandlesEffect s.handles s'.handles := by
  cases req with
  | malloc size =>
    simp only [handleRequest] at h
    split at h
    case h_1 ptr device _ => cases h; exact .inserted ptr
    case h_2 => cases h; exact .same
  | free handle =>
    cases hknown : s.handles.get handle with
    | some ptr =>
      rw [handleRequest_free_known hip hknown] at h
      cases h
      exact .removed handle
    | none =>
      rw [handleRequest_free_unknown hip hknown] at h
      cases h
      exact .same
  | memcpyD2H handle offset len =>
    simp only [handleRequest] at h
    split at h
    · cases hcopy : hip.memcpyD2h _ offset len s.device with
      | ok result => rw [hcopy] at h; cases h; exact .same
      | error e => rw [hcopy] at h; cases h
    · cases h; exact .same
  | launchKernel function grid block sharedMem fixups args =>
    rcases handleRequest_launch s function grid block sharedMem fixups args with
      ⟨e, hrefused⟩ | ⟨funcPtr, patched, -, hlaunched⟩
    · rw [hrefused hip] at h
      cases h
      exact .same
    · rw [hlaunched hip] at h
      cases h
      exact .same
  | setDevice device => cases h; exact .same
  | getDeviceProperties device => cases h; exact .same
  | _ =>
    simp only [handleRequest] at h
    repeat' split at h
    all_goals cases h; exact .same

/-- Whatever the daemon makes of the frame. -/
theorem handlesEffect_of_callBridge (s : Session D) (req : Request) :
    HandlesEffect s.daemon.handles (callBridge hip s req).2.daemon.handles := by
  unfold callBridge
  simp only
  split
  case isFalse => exact .same
  case isTrue =>
    split
    case h_1 => exact .same
    case h_2 =>
      split
      case h_1 => exact .same
      case h_2 resp daemon hserve =>
        have heffect := handlesEffect_of_handleRequest hserve
        split <;> exact heffect

end HipBridge.Bridge
