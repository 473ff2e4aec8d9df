import HipBridge.Daemon.HandleClient
import HipBridge.Lib.Inputs
import Mathlib.Algebra.Order.BigOperators.Group.Finset

/-!
# The daemon and its clients (`main` of `native-daemon/src/main.rs`)

`main` takes connections off the listener one at a time: it is inside `handle_client` of one until
that returns. Clients connect, send and hang up whenever they like.

* **`Server`** — the daemon, every connection so far, and what was served on them.
* **`Server.input`** — what a client does; **`Server.move`** — the next step of `main`.
* **`serverStep`** — the two in any order, with writes and reads that fail.
* **`served_one_at_a_time`** — requests of different clients are never mixed: the daemon behaves as
  one that was sent the whole log by a single client.
* **`outcome_unique`** — what the clients get depends on what each of them sent, not on when.
-/

namespace HipBridge.Daemon

open Lib Protocol

variable {D : Type}

/-- A connection, in the order of `accept`. -/
structure Peer where
  /-- What the client has sent. -/
  offered : List UInt8
  /-- What of it is not read yet. -/
  incoming : List UInt8
  /-- The client sends nothing more. -/
  ended : Bool
  /-- What was sent back to it. -/
  sent : List UInt8

def Peer.new : Peer := ⟨[], [], false, []⟩

/-- The client sends bytes, its last or not; one that has hung up sends none. -/
def Peer.offer (p : Peer) (bytes : List UInt8) (last : Bool) : Peer :=
  if p.ended then p
  else { p with
    offered := p.offered ++ bytes
    incoming := p.incoming ++ bytes
    ended := last }

/-- The client's side of the connection, with nothing done on the daemon's. -/
def Peer.untouched (p : Peer) : Peer := ⟨p.offered, p.offered, p.ended, []⟩

theorem Peer.untouched_offer (p : Peer) (bytes : List UInt8) (last : Bool) :
    (p.offer bytes last).untouched = p.untouched.offer bytes last := by
  unfold Peer.offer
  show _ = if p.ended then _ else _
  split <;> rfl

/-- Where `main` is. -/
inductive Phase
  | accepting
  /-- Inside `handle_client`. -/
  | serving
  /-- A panic, which nothing catches, or a refused buffer: the process is gone. -/
  | crashed (message : String)

/-- The connections are numbered as they arrive; `finished` of them have been served, and the one
of that number is the one being served. -/
structure Server (D : Type) where
  daemon : DaemonState D
  arrived : Nat
  finished : Nat
  phase : Phase
  peers : Nat → Peer
  /-- The requests that were served, by connection. -/
  log : List (Nat × Request × Response)

namespace Server

def new (daemon : DaemonState D) : Server D := ⟨daemon, 0, 0, .accepting, fun _ => .new, []⟩

end Server

/-! ## Steps -/

/-- What a client does. -/
inductive Arrival
  | connect
  | send (c : Nat) (bytes : List UInt8)
  | hangUp (c : Nat)

namespace Server

/-- A client that is not connected sends nothing. -/
def offer (s : Server D) (c : Nat) (bytes : List UInt8) (last : Bool) : Server D :=
  if c < s.arrived then
    { s with peers := Function.update s.peers c ((s.peers c).offer bytes last) }
  else s

def input (s : Server D) : Arrival → Server D
  | .connect => { s with arrived := s.arrived + 1 }
  | .send c bytes => s.offer c bytes false
  | .hangUp c => s.offer c [] true

variable (hip : HipLib D) (s : Server D)

/-- The connection being served. -/
def current : Peer := s.peers s.finished

/-- `Request::read_from` is waiting for bytes of the client. -/
def waits : Bool :=
  match Request.readFrom s.current.incoming with
  | .error (.io e) => e.kind = .unexpectedEof && !s.current.ended
  | _ => false

/-- The request at the front of a stream and its response, if it gets one. -/
def nextServed (daemon : DaemonState D) (incoming : List UInt8) : Option (Request × Response) :=
  match Request.readFrom incoming with
  | .ok (req, _) =>
    match handleRequest hip daemon req with
    | .ok (resp, _) => some (req, resp)
    | .error _ => none
  | .error _ => none

/-- `handle_client` returned, or goes on. -/
def leave : Status → Server D
  | .serving => s
  | .closed _ => { s with finished := s.finished + 1, phase := .accepting }
  | .panicked message => { s with phase := .crashed message }
  | .aborted message => { s with phase := .crashed message }

/-- One iteration of `handle_client` on the current connection. -/
def iterate (write : Except IoError Unit) : Server D :=
  let p := s.current
  let c := handleClient hip ⟨s.daemon, p.incoming, p.sent, .serving⟩ ⟨id, write⟩
  let served := (nextServed hip s.daemon p.incoming).map fun e => (s.finished, e)
  { s with
    daemon := c.daemon
    peers := Function.update s.peers s.finished { p with incoming := c.incoming, sent := c.sent }
    log := s.log ++ served.toList }.leave c.status

/-- The next step of `main`, if it is not waiting for a client. -/
def move (write : Except IoError Unit) : Option (Server D) :=
  match s.phase with
  | .accepting => if s.finished < s.arrived then some { s with phase := .serving } else none
  | .serving => if s.waits then none else some (s.iterate hip write)
  | .crashed _ => none

end Server

/-- What may happen next. -/
inductive ServerEvent
  | input (a : Arrival)
  | move (write : Except IoError Unit)
  /-- The connection being served is lost: its next read fails. -/
  | readFails (e : IoError)

/-- One step of the daemon or of a client. A step that cannot be taken changes nothing. -/
def serverStep (hip : HipLib D) (s : Server D) : ServerEvent → Server D
  | .input a => s.input a
  | .move write => (s.move hip write).getD s
  | .readFails e =>
    match s.phase with
    | .serving => s.leave (.closed (if e.kind = .unexpectedEof then .ok () else .error e))
    | _ => s

/-! ## One iteration -/

namespace Server

variable {hip : HipLib D} {s : Server D} {write : Except IoError Unit}

/-- What one iteration makes of the server. -/
inductive Iteration (hip : HipLib D) (s : Server D) : Server D → Prop
  | served (req : Request) (rest : List UInt8) (resp : Response) (daemon : DaemonState D)
      (hread : Request.readFrom s.current.incoming = .ok (req, rest))
      (hserve : handleRequest hip s.daemon req = .ok (resp, daemon)) :
      Iteration hip s
        { s with
          daemon
          peers := Function.update s.peers s.finished
            { s.current with incoming := rest, sent := s.current.sent ++ resp.writeTo }
          log := s.log ++ [(s.finished, req, resp)] }
  /-- The request was served; its response is lost. -/
  | lost (req : Request) (rest : List UInt8) (resp : Response) (daemon : DaemonState D)
      (hread : Request.readFrom s.current.incoming = .ok (req, rest))
      (hserve : handleRequest hip s.daemon req = .ok (resp, daemon)) :
      Iteration hip s
        { s with
          daemon
          peers := Function.update s.peers s.finished { s.current with incoming := rest }
          log := s.log ++ [(s.finished, req, resp)]
          finished := s.finished + 1
          phase := .accepting }
  | closed : Iteration hip s { s with finished := s.finished + 1, phase := .accepting }
  | crashed (incoming : List UInt8) (message : String)
      (hshorter : incoming.length ≤ s.current.incoming.length) :
      Iteration hip s
        { s with
          peers := Function.update s.peers s.finished { s.current with incoming }
          phase := .crashed message }

theorem iterate_iteration (hip : HipLib D) (s : Server D) (write : Except IoError Unit) :
    Iteration hip s (s.iterate hip write) := by
  have hsame : Function.update s.peers s.finished s.current = s.peers :=
    Function.update_eq_self ..
  unfold iterate handleClient nextServed
  dsimp only [id]
  cases hread : Request.readFrom s.current.incoming with
  | error fault =>
    cases fault with
    | io e =>
      have hclosed : Iteration hip s
          { s with
            peers := Function.update s.peers s.finished s.current
            finished := s.finished + 1
            phase := .accepting } := by
        rw [hsame]
        exact .closed
      dsimp only [Option.map, Option.toList]
      rw [List.append_nil]
      split
      · exact hclosed
      · exact hclosed
    | panic message =>
      dsimp only [Option.map, Option.toList]
      rw [List.append_nil]
      exact .crashed s.current.incoming message (Nat.le_refl _)
    | abort message =>
      dsimp only [Option.map, Option.toList]
      rw [List.append_nil]
      exact .crashed s.current.incoming message (Nat.le_refl _)
  | ok p =>
    obtain ⟨req, rest⟩ := p
    have hshorter : rest.length ≤ s.current.incoming.length :=
      Nat.le_of_lt (readFrom_shorter hread)
    by_cases hrefused : UnbufferedRead hip s.daemon req
    · obtain ⟨fault, hfault, hcrash⟩ := handleRequest_unbufferedRead hip s.daemon hrefused
      simp only [hfault]
      dsimp only [Option.map, Option.toList]
      rw [List.append_nil]
      cases fault with
      | io e => exact hcrash.elim
      | panic message => exact .crashed rest message hshorter
      | abort message => exact .crashed rest message hshorter
    · obtain ⟨resp, daemon, hserve⟩ := handleRequest_returns hip s.daemon hrefused
      simp only [hserve]
      cases write with
      | error e => exact .lost req rest resp daemon hread hserve
      | ok => exact .served req rest resp daemon hread hserve

end Server

/-! ## Moves and inputs -/

/-- What a client sends later does not change how its earlier bytes are served. -/
theorem handleClient_grown (hip : HipLib D) (daemon : DaemonState D) {incoming : List UInt8}
    (sent more : List UInt8) (turn : Turn D)
    (h : Request.readFrom incoming ≠ .error (.io eofError)) :
    handleClient hip ⟨daemon, incoming ++ more, sent, .serving⟩ turn
      = let c := handleClient hip ⟨daemon, incoming, sent, .serving⟩ turn
        { c with incoming := c.incoming ++ more } := by
  dsimp only
  unfold handleClient
  dsimp only
  rw [Request.readFrom_grown more h]
  cases Request.readFrom incoming with
  | error fault =>
    cases fault with
    | io e =>
      dsimp only [Except.map]
      split <;> rfl
    | panic => rfl
    | abort => rfl
  | ok p =>
    dsimp only [Except.map]
    cases handleRequest hip (turn.others daemon) p.1 with
    | error fault => cases fault <;> rfl
    | ok result =>
      dsimp only
      cases turn.write <;> rfl

namespace Server

variable {hip : HipLib D} {s : Server D} {write : Except IoError Unit}

theorem nextServed_grown (daemon : DaemonState D) {incoming : List UInt8} (more : List UInt8)
    (h : Request.readFrom incoming ≠ .error (.io eofError)) :
    nextServed hip daemon (incoming ++ more) = nextServed hip daemon incoming := by
  unfold nextServed
  rw [Request.readFrom_grown more h]
  cases Request.readFrom incoming <;> rfl

/-- A client that may send more, but is not waited for, has a whole request or none. -/
theorem readFrom_of_waits (hwaits : s.waits = false) (hended : s.current.ended = false) :
    Request.readFrom s.current.incoming ≠ .error (.io eofError) := by
  intro heof
  unfold waits at hwaits
  rw [heof, hended] at hwaits
  cases hwaits

theorem leave_offer (s : Server D) (status : Status) (c : Nat) (bytes : List UInt8)
    (last : Bool) : (s.leave status).offer c bytes last = (s.offer c bytes last).leave status := by
  unfold offer
  cases status with
  | serving => rfl
  | closed => show (if c < s.arrived then _ else _) = _; split <;> rfl
  | panicked => show (if c < s.arrived then _ else _) = _; split <;> rfl
  | aborted => show (if c < s.arrived then _ else _) = _; split <;> rfl

/-- The current connection after what a client sends. -/
theorem current_offer (s : Server D) (c : Nat) (bytes : List UInt8) (last : Bool) :
    (s.offer c bytes last).current
      = if c < s.arrived ∧ c = s.finished then s.current.offer bytes last else s.current := by
  unfold offer current
  by_cases harrived : c < s.arrived
  · rw [if_pos harrived]
    by_cases hcurrent : c = s.finished
    · subst hcurrent
      rw [if_pos ⟨harrived, rfl⟩]
      exact Function.update_self ..
    · rw [if_neg fun h => hcurrent h.2]
      exact Function.update_of_ne (Ne.symm hcurrent) ..
  · rw [if_neg harrived, if_neg fun h => harrived h.1]

theorem waits_offer (hwaits : s.waits = false) (c : Nat) (bytes : List UInt8) (last : Bool) :
    (s.offer c bytes last).waits = false := by
  have hcurrent := s.current_offer c bytes last
  split at hcurrent
  case isTrue =>
    cases hended : s.current.ended with
    | true =>
      rw [Peer.offer, if_pos hended] at hcurrent
      unfold waits at hwaits ⊢
      rwa [hcurrent]
    | false =>
      have hread := readFrom_of_waits hwaits hended
      rw [Peer.offer, if_neg (by simp [hended])] at hcurrent
      unfold waits at hwaits ⊢
      rw [hcurrent]
      dsimp only
      rw [Request.readFrom_grown bytes hread]
      -- what was read is read again, and it was no early end of the stream
      cases hcases : Request.readFrom s.current.incoming with
      | ok => rfl
      | error fault =>
        cases fault with
        | panic => rfl
        | abort => rfl
        | io e =>
          rw [hcases, hended] at hwaits
          simp only [Bool.not_false, Bool.and_true] at hwaits
          show (decide (e.kind = .unexpectedEof) && !last) = false
          rw [hwaits, Bool.false_and]
  case isFalse =>
    unfold waits at hwaits ⊢
    rwa [hcurrent]

/-- An iteration for which no client is waited for is the same whatever is sent meanwhile. -/
theorem iterate_offer (hwaits : s.waits = false) (c : Nat) (bytes : List UInt8) (last : Bool) :
    (s.offer c bytes last).iterate hip write = (s.iterate hip write).offer c bytes last := by
  by_cases harrived : c < s.arrived
  case neg =>
    have hsame : s.offer c bytes last = s := if_neg harrived
    rw [hsame, iterate, leave_offer]
    congr 1
    exact (if_neg harrived).symm
  case pos =>
    have hcurrent := s.current_offer c bytes last
    have hafter : ∀ t : Server D, (h : t.arrived = s.arrived) → t.offer c bytes last
        = { t with peers := Function.update t.peers c ((t.peers c).offer bytes last) } :=
      fun t h => if_pos (by rw [h]; exact harrived)
    by_cases hown : c = s.finished
    · -- the bytes are behind the request that is served
      rw [if_pos ⟨harrived, hown⟩] at hcurrent
      unfold iterate
      rw [leave_offer, hcurrent, hafter s rfl, hafter]
      case h => rfl
      subst hown
      have hpeer : s.peers s.finished = s.current := rfl
      dsimp only
      rw [hpeer, Function.update_self]
      by_cases hended : s.current.ended = true
      · have hstays : ∀ p : Peer, (hp : p.ended = true) → p.offer bytes last = p :=
          fun p hp => if_pos hp
        rw [hstays s.current hended, hstays, Function.update_idem, Function.update_idem]
        case hp => exact hended
      · have hadds : ∀ p : Peer, (hp : ¬ p.ended = true) → p.offer bytes last =
            { p with
              offered := p.offered ++ bytes
              incoming := p.incoming ++ bytes
              ended := last } :=
          fun p hp => if_neg hp
        have hread := readFrom_of_waits hwaits (Bool.eq_false_iff.mpr hended)
        rw [hadds s.current hended, hadds, Function.update_idem, Function.update_idem]
        case hp => exact hended
        dsimp only
        rw [handleClient_grown hip s.daemon s.current.sent bytes ⟨id, write⟩ hread,
          nextServed_grown s.daemon bytes hread]
    · rw [if_neg fun h => hown h.2] at hcurrent
      unfold iterate
      rw [leave_offer, hcurrent, hafter s rfl, hafter]
      case h => rfl
      dsimp only
      rw [Function.update_of_ne hown, Function.update_comm hown]

theorem offer_fields (s : Server D) (c : Nat) (bytes : List UInt8) (last : Bool) :
    (s.offer c bytes last).phase = s.phase ∧ (s.offer c bytes last).arrived = s.arrived ∧
      (s.offer c bytes last).finished = s.finished := by
  unfold offer
  split
  · exact ⟨rfl, rfl, rfl⟩
  · exact ⟨rfl, rfl, rfl⟩

theorem move_accepting (hphase : s.phase = .accepting) (hwaiting : s.finished < s.arrived) :
    s.move hip write = some { s with phase := .serving } := by
  unfold move
  rw [hphase]
  exact if_pos hwaiting

theorem move_serving (hphase : s.phase = .serving) (hwaits : s.waits = false) :
    s.move hip write = some (s.iterate hip write) := by
  unfold move
  rw [hphase]
  exact if_neg (by simp [hwaits])

/-- What `main` can do next. -/
theorem move_cases {s' : Server D} (h : s.move hip write = some s') :
    (s.phase = .accepting ∧ s.finished < s.arrived ∧ s' = { s with phase := .serving }) ∨
      (s.phase = .serving ∧ s.waits = false ∧ s' = s.iterate hip write) := by
  unfold move at h
  split at h
  case h_1 hphase =>
    split at h
    case isTrue hwaiting => exact Or.inl ⟨hphase, hwaiting, (Option.some.inj h).symm⟩
    case isFalse => cases h
  case h_2 hphase =>
    split at h
    case isTrue => cases h
    case isFalse hwaits =>
      exact Or.inr ⟨hphase, Bool.eq_false_iff.mpr hwaits, (Option.some.inj h).symm⟩
  case h_3 => cases h

theorem move_offer {s' : Server D} (c : Nat) (bytes : List UInt8) (last : Bool)
    (h : s.move hip write = some s') :
    (s.offer c bytes last).move hip write = some (s'.offer c bytes last) := by
  obtain ⟨hphase', harrived', hfinished'⟩ := s.offer_fields c bytes last
  rcases move_cases h with ⟨hphase, hwaiting, rfl⟩ | ⟨hphase, hwaits, rfl⟩
  · rw [move_accepting (by rw [hphase', hphase]) (by rw [hfinished', harrived']; exact hwaiting)]
    unfold offer
    split <;> rfl
  · rw [move_serving (by rw [hphase', hphase]) (waits_offer hwaits c bytes last),
      iterate_offer hwaits]

theorem iterate_connect (s : Server D) :
    (s.input .connect).iterate hip write = (s.iterate hip write).input .connect := by
  unfold iterate
  dsimp only [input, current]
  cases (handleClient hip _ _).status <;> rfl

/-- A client's input takes no move away, and the move comes out the same. -/
theorem move_input {s' : Server D} (a : Arrival) (h : s.move hip write = some s') :
    (s.input a).move hip write = some (s'.input a) := by
  cases a with
  | connect =>
    rcases move_cases h with ⟨hphase, hwaiting, rfl⟩ | ⟨hphase, hwaits, rfl⟩
    · exact move_accepting hphase (Nat.lt_succ_of_lt hwaiting)
    · rw [← iterate_connect]
      exact move_serving hphase hwaits
  | send c bytes => exact move_offer c bytes false h
  | hangUp c => exact move_offer c [] true h

/-! ## One outcome -/

/-- Bytes of the first `arrived` connections that are not read yet. -/
def unread (s : Server D) : Nat := ∑ c ∈ Finset.range s.arrived, (s.peers c).incoming.length

/-- A bound on the moves `main` can still make. -/
def movesLeft (s : Server D) : Nat :=
  match s.phase with
  | .accepting => 2 * (s.arrived - s.finished) + s.unread + 1
  | .serving => 2 * (s.arrived - s.finished) + s.unread
  | .crashed _ => 0

/-- Only connections that were made are served, or have bytes. -/
structure Connected (s : Server D) : Prop where
  current : s.phase = .serving → s.finished < s.arrived
  later : ∀ c, s.arrived ≤ c → s.peers c = .new

theorem unread_le {s s' : Server D} (harrived : s'.arrived = s.arrived)
    (h : ∀ c, (s'.peers c).incoming.length ≤ (s.peers c).incoming.length) :
    s'.unread ≤ s.unread := by
  unfold unread
  rw [harrived]
  exact Finset.sum_le_sum fun c _ => h c

theorem length_incoming_update {incoming : List UInt8} (p : Peer) (hp : p.incoming = incoming)
    (hshorter : incoming.length ≤ s.current.incoming.length) (c : Nat) :
    (Function.update s.peers s.finished p c).incoming.length ≤ (s.peers c).incoming.length := by
  by_cases hown : c = s.finished
  · subst hown
    rw [Function.update_self, hp]
    exact hshorter
  · rw [Function.update_of_ne hown]

/-- Done with a connection. -/
theorem movesLeft_finished {s' : Server D} (hphase : s.phase = .serving)
    (hcurrent : s.finished < s.arrived) (hphase' : s'.phase = .accepting)
    (hfinished : s'.finished = s.finished + 1) (harrived : s'.arrived = s.arrived)
    (hunread : s'.unread ≤ s.unread) : s'.movesLeft < s.movesLeft := by
  unfold movesLeft
  rw [hphase, hphase', hfinished, harrived]
  dsimp only
  omega

/-- The daemon's side of a connection that was made. -/
theorem Connected.update (h : s.Connected) (hcurrent : s.finished < s.arrived) (p : Peer) (c : Nat)
    (hlater : s.arrived ≤ c) : Function.update s.peers s.finished p c = .new := by
  rw [Function.update_of_ne (by omega)]
  exact h.later c hlater

/-- A move keeps to the connections that were made, and uses something up. -/
theorem move_less {s' : Server D} (hconnected : s.Connected) (h : s.move hip write = some s') :
    s'.Connected ∧ s'.movesLeft < s.movesLeft := by
  rcases move_cases h with ⟨hphase, hwaiting, rfl⟩ | ⟨hphase, hwaits, rfl⟩
  · refine ⟨⟨fun _ => hwaiting, hconnected.later⟩, ?_⟩
    unfold movesLeft
    rw [hphase]
    exact Nat.lt_succ_self _
  · have hcurrent := hconnected.current hphase
    have hiteration := iterate_iteration hip s write
    generalize s.iterate hip write = s' at hiteration
    cases hiteration with
    | served req rest resp daemon hread =>
      refine ⟨⟨fun _ => hcurrent, hconnected.update hcurrent _⟩, ?_⟩
      have hlt := readFrom_shorter hread
      unfold movesLeft
      dsimp only
      rw [hphase]
      apply Nat.add_lt_add_left
      refine Finset.sum_lt_sum (fun c _ => length_incoming_update _ rfl (Nat.le_of_lt hlt) c)
        ⟨s.finished, Finset.mem_range.mpr hcurrent, ?_⟩
      dsimp only
      rw [Function.update_self]
      exact hlt
    | lost req rest resp daemon hread =>
      have hle := Nat.le_of_lt (readFrom_shorter hread)
      exact ⟨⟨nofun, hconnected.update hcurrent _⟩, movesLeft_finished hphase hcurrent rfl rfl rfl
        (unread_le rfl (length_incoming_update _ rfl hle))⟩
    | closed =>
      exact ⟨⟨nofun, hconnected.later⟩,
        movesLeft_finished hphase hcurrent rfl rfl rfl (Nat.le_refl _)⟩
    | crashed =>
      refine ⟨⟨nofun, hconnected.update hcurrent _⟩, ?_⟩
      unfold movesLeft
      rw [hphase]
      show 0 < 2 * (s.arrived - s.finished) + s.unread
      omega

/-- What the clients sent, to a daemon that has not looked at it. -/
def asOffered (daemon : DaemonState D) (s : Server D) : Server D :=
  ⟨daemon, s.arrived, 0, .accepting, fun c => (s.peers c).untouched, []⟩

theorem asOffered_input (daemon : DaemonState D) (s : Server D) (a : Arrival) :
    asOffered daemon (s.input a) = (asOffered daemon s).input a := by
  have hoffer : ∀ c bytes last,
      asOffered daemon (s.offer c bytes last) = (asOffered daemon s).offer c bytes last := by
    intro c bytes last
    unfold offer asOffered
    dsimp only
    split
    case isTrue =>
      congr 1
      funext c'
      show (Function.update s.peers c _ c').untouched = _
      rw [Function.apply_update (fun _ => Peer.untouched), Peer.untouched_offer]
    case isFalse => rfl
  cases a with
  | connect => rfl
  | send c bytes => exact hoffer c bytes false
  | hangUp c => exact hoffer c [] true

/-- The daemon's side of a connection is not the client's. -/
theorem asOffered_update (daemon : DaemonState D) (t : Server D) (incoming sent : List UInt8)
    (harrived : t.arrived = s.arrived)
    (hpeers : t.peers = Function.update s.peers s.finished { s.current with incoming, sent }) :
    asOffered daemon t = asOffered daemon s := by
  unfold asOffered
  rw [harrived, hpeers]
  congr 1
  funext c
  rw [Function.apply_update (fun _ => Peer.untouched)]
  exact congrFun (Function.update_eq_self ..) c

theorem asOffered_drive (daemon : DaemonState D) (s : Server D) :
    asOffered daemon (drive (move hip · write) s) = asOffered daemon s := by
  cases hmove : s.move hip write with
  | none => rw [drive_none hmove]
  | some s' =>
    rw [drive_some hmove]
    rcases move_cases hmove with ⟨-, -, rfl⟩ | ⟨-, -, rfl⟩
    · rfl
    · have hiteration := iterate_iteration hip s write
      generalize s.iterate hip write = s' at hiteration
      cases hiteration with
      | served => exact asOffered_update daemon _ _ _ rfl rfl
      | lost => exact asOffered_update daemon _ _ _ rfl rfl
      | closed => rfl
      | crashed => exact asOffered_update daemon _ _ _ rfl rfl

variable (hip) (daemon : DaemonState D)

/-- Inputs and moves of a daemon whose writes arrive. -/
abbrev runServer (s : Server D) (events : List (Event Arrival)) : Server D :=
  run (happen (move hip · (.ok ())) input) s events

theorem run_input_asOffered (s : Server D) (events : List (Event Arrival)) :
    run input (asOffered daemon s) (inputsOf events)
      = asOffered daemon (runServer hip s events) := by
  induction events generalizing s with
  | nil => rfl
  | cons event events ih =>
    cases event with
    | input a =>
      show run input ((asOffered daemon s).input a) (inputsOf events) = _
      rw [← asOffered_input]
      exact ih (s.input a)
    | move =>
      show run input (asOffered daemon s) (inputsOf events) = _
      rw [← @asOffered_drive D hip (.ok ()) daemon s]
      exact ih (drive (move hip · (.ok ())) s)

theorem connected_new : (new daemon).Connected := ⟨nofun, fun _ _ => rfl⟩

theorem connected_input {s : Server D} (h : s.Connected) (a : Arrival) :
    (s.input a).Connected := by
  have hoffer : ∀ c bytes last, (s.offer c bytes last).Connected := by
    intro c bytes last
    unfold offer
    split
    case isTrue harrived =>
      refine ⟨h.current, fun c' hlater => ?_⟩
      show Function.update s.peers c _ c' = .new
      rw [Function.update_of_ne (Nat.ne_of_gt (Nat.lt_of_lt_of_le harrived hlater))]
      exact h.later c' hlater
    case isFalse => exact h
  cases a with
  | connect =>
    exact ⟨fun hphase => Nat.lt_succ_of_lt (h.current hphase),
      fun c hlater => h.later c (Nat.le_of_succ_le hlater)⟩
  | send c bytes => exact hoffer c bytes false
  | hangUp c => exact hoffer c [] true

theorem connected_run {s : Server D} (h : s.Connected) (events : List (Event Arrival)) :
    (runServer hip s events).Connected := by
  induction events generalizing s with
  | nil => exact h
  | cons event events ih =>
    apply ih
    cases event with
    | input a => exact connected_input h a
    | move =>
      show (drive (move hip · (.ok ())) s).Connected
      cases hmove : s.move hip (.ok ()) with
      | none =>
        rw [drive_none hmove]
        exact h
      | some s' =>
        rw [drive_some hmove]
        exact (move_less h hmove).1

/-- **What the clients get does not depend on who was when.** In runs in which no read and no write
fails: left to itself, the daemon comes to rest; and two of them in which the same connections were
made, and each client sent the same bytes, come to rest in the same state, with the same answers
sent to everyone. -/
theorem outcome_unique :
    (∀ events, ∃ k,
      (runServer hip (.new daemon) (events ++ List.replicate k .move)).move hip (.ok ()) = none) ∧
    ∀ events events',
      let s := runServer hip (.new daemon) events
      let s' := runServer hip (.new daemon) events'
      s.move hip (.ok ()) = none → s'.move hip (.ok ()) = none → s.arrived = s'.arrived →
        (∀ c < s.arrived, (s.peers c).offered = (s'.peers c).offered ∧
          (s.peers c).ended = (s'.peers c).ended) → s = s' := by
  constructor
  · intro events
    have hconnected := connected_run hip (connected_new daemon) events
    obtain ⟨k, hk⟩ := exists_rest movesLeft (fun _ _ h hmove => move_less h hmove) hconnected
    refine ⟨k, ?_⟩
    unfold runServer
    rw [run_append, run_moves]
    exact hk
  · intro events events' s s' hrest hrest' harrived hpeers
    have hoffered : asOffered daemon s = asOffered daemon s' := by
      unfold asOffered
      rw [harrived]
      congr 1
      funext c
      rcases Nat.lt_or_ge c s.arrived with hmade | hlater
      · unfold Peer.untouched
        rw [(hpeers c hmade).1, (hpeers c hmade).2]
      · rw [(connected_run hip (connected_new daemon) events).later c hlater,
          (connected_run hip (connected_new daemon) events').later c (harrived ▸ hlater)]
    have hkept : ∀ (s s' : Server D) (a : Arrival),
        s.move hip (.ok ()) = some s' → (s.input a).move hip (.ok ()) = some (s'.input a) :=
      fun _ _ a h => move_input a h
    apply rest_unique hkept _ hrest hrest'
    calc run input (new daemon) (inputsOf events)
        = asOffered daemon s := run_input_asOffered hip daemon (.new daemon) events
      _ = asOffered daemon s' := hoffered
      _ = run input (new daemon) (inputsOf events') :=
        (run_input_asOffered hip daemon (.new daemon) events').symm

/-- Two clients ask for the number of devices and for a block: one after the other, or at once and
in pieces. -/
theorem outcome_unique_clients :
    let malloc : List UInt8 := (Request.malloc 16).writeTo
    let apart : List (Event Arrival) :=
      [.input .connect, .input (.send 0 [1, 0, 0, 0, 0]), .input (.hangUp 0), .move, .move, .move,
        .input .connect, .input (.send 1 malloc), .input (.hangUp 1), .move, .move, .move]
    let mixed : List (Event Arrival) :=
      [.input .connect, .input .connect, .input (.send 1 (malloc.take 3)), .move,
        .input (.send 0 [1, 0]), .move, .input (.send 1 (malloc.drop 3)), .input (.hangUp 1),
        .input (.send 0 [0, 0, 0]), .move, .input (.hangUp 0), .move, .move, .move, .move]
    runServer flatHip (.new (.new FlatDevice.new)) apart
      = runServer flatHip (.new (.new FlatDevice.new)) mixed := by
  intro malloc apart mixed
  exact (outcome_unique flatHip (.new FlatDevice.new)).2 apart mixed
    (Option.isNone_iff_eq_none.mp (by decide +kernel))
    (Option.isNone_iff_eq_none.mp (by decide +kernel)) (by decide +kernel) (by decide +kernel)

end Server

/-! ## One client at a time -/

/-- Served one after the other, these requests get these responses. -/
def Replays (hip : HipLib D) : DaemonState D → List (Request × Response) → DaemonState D → Prop
  | s, [], s' => s = s'
  | s, (req, resp) :: log, s' =>
    ∃ mid, handleRequest hip s req = .ok (resp, mid) ∧ Replays hip mid log s'

/-- The requests at the front of a stream, and what is left of it. -/
def Reads : List UInt8 → List Request → List UInt8 → Prop
  | s, [], rest => s = rest
  | s, req :: reqs, rest => ∃ mid, Request.readFrom s = .ok (req, mid) ∧ Reads mid reqs rest

theorem Replays.concat {hip : HipLib D} {s mid s' : DaemonState D}
    {log : List (Request × Response)} {req : Request} {resp : Response}
    (h : Replays hip s log mid) (hserve : handleRequest hip mid req = .ok (resp, s')) :
    Replays hip s (log ++ [(req, resp)]) s' := by
  induction log generalizing s with
  | nil =>
    subst h
    exact ⟨s', hserve, rfl⟩
  | cons e log ih =>
    obtain ⟨next, hnext, hrest⟩ := h
    exact ⟨next, hnext, ih hrest⟩

theorem Reads.concat {s mid rest : List UInt8} {reqs : List Request} {req : Request}
    (h : Reads s reqs mid) (hread : Request.readFrom mid = .ok (req, rest)) :
    Reads s (reqs ++ [req]) rest := by
  induction reqs generalizing s with
  | nil =>
    subst h
    exact ⟨rest, hread, rfl⟩
  | cons r reqs ih =>
    obtain ⟨next, hnext, hrest⟩ := h
    exact ⟨next, hnext, ih hrest⟩

theorem Reads.grown {s rest : List UInt8} {reqs : List Request} (h : Reads s reqs rest)
    (more : List UInt8) : Reads (s ++ more) reqs (rest ++ more) := by
  induction reqs generalizing s with
  | nil =>
    subst h
    rfl
  | cons r reqs ih =>
    obtain ⟨next, hnext, hrest⟩ := h
    refine ⟨next ++ more, ?_, ih hrest⟩
    rw [Request.readFrom_grown more (by rw [hnext]; nofun), hnext]
    rfl

/-- More of the client's bytes are behind the requests that were read. -/
theorem Peer.reads_offer {p : Peer} {reqs : List Request} {rest : List UInt8}
    (h : Reads p.offered reqs rest) (bytes : List UInt8) (last : Bool) :
    ∃ rest', Reads (p.offer bytes last).offered reqs rest' ∧
      (rest = p.incoming → rest' = (p.offer bytes last).incoming) := by
  unfold Peer.offer
  split
  · exact ⟨rest, h, id⟩
  · exact ⟨rest ++ bytes, h.grown bytes, fun hrest => by rw [hrest]⟩

theorem Peer.sent_offer (p : Peer) (bytes : List UInt8) (last : Bool) :
    (p.offer bytes last).sent = p.sent := by
  unfold Peer.offer
  split <;> rfl

/-- What was served on a connection. -/
def servedOn (log : List (Nat × Request × Response)) (c : Nat) : List (Request × Response) :=
  log.filterMap fun e => if e.1 = c then some e.2 else none

/-- The frames of the responses to a connection. -/
def answersTo (log : List (Nat × Request × Response)) (c : Nat) : List UInt8 :=
  (servedOn log c).flatMap fun e => e.2.writeTo

section Log

variable (log : List (Nat × Request × Response)) (e : Request × Response)

theorem servedOn_concat_self (c : Nat) : servedOn (log ++ [(c, e)]) c = servedOn log c ++ [e] := by
  unfold servedOn
  rw [List.filterMap_append]
  simp

theorem servedOn_concat_of_ne {c c' : Nat} (h : c ≠ c') :
    servedOn (log ++ [(c, e)]) c' = servedOn log c' := by
  unfold servedOn
  rw [List.filterMap_append]
  simp [h]

theorem answersTo_concat_self (c : Nat) :
    answersTo (log ++ [(c, e)]) c = answersTo log c ++ e.2.writeTo := by
  unfold answersTo
  rw [servedOn_concat_self, List.flatMap_append]
  simp

theorem answersTo_concat_of_ne {c c' : Nat} (h : c ≠ c') :
    answersTo (log ++ [(c, e)]) c' = answersTo log c' := by
  unfold answersTo
  rw [servedOn_concat_of_ne log e h]

end Log

namespace Server

/-- The log is one of clients that were served one after the other, each from the start of what it
sent. -/
structure Orderly (hip : HipLib D) (daemon : DaemonState D) (s : Server D) : Prop where
  replays : Replays hip daemon (s.log.map Prod.snd) s.daemon
  sorted : (s.log.map Prod.fst).Pairwise (· ≤ ·)
  last : ∀ e ∈ s.log, e.1 ≤ s.finished
  reads : ∀ c, ∃ rest, Reads (s.peers c).offered ((servedOn s.log c).map Prod.fst) rest ∧
    (s.finished ≤ c → (∀ message, s.phase ≠ .crashed message) → rest = (s.peers c).incoming)
  sent : ∀ c, (s.peers c).sent <+: answersTo s.log c
  whole : ∀ c, s.finished ≤ c → (s.peers c).sent = answersTo s.log c

variable {hip : HipLib D} {daemon : DaemonState D} {s : Server D}

theorem orderly_new (hip : HipLib D) (daemon : DaemonState D) :
    (new daemon).Orderly hip daemon where
  replays := rfl
  sorted := .nil
  last := nofun
  reads := fun _ => ⟨[], rfl, fun _ _ => rfl⟩
  sent := fun _ => List.prefix_refl _
  whole := fun _ _ => rfl

theorem Orderly.offer (h : s.Orderly hip daemon) (c : Nat) (bytes : List UInt8) (last : Bool) :
    (s.offer c bytes last).Orderly hip daemon := by
  unfold Server.offer
  split
  case isTrue =>
    have hsent : ∀ c', (Function.update s.peers c ((s.peers c).offer bytes last) c').sent
        = (s.peers c').sent := by
      intro c'
      by_cases hown : c' = c
      · subst hown
        rw [Function.update_self, Peer.sent_offer]
      · rw [Function.update_of_ne hown]
    refine ⟨h.replays, h.sorted, h.last, fun c' => ?_, fun c' => ?_, fun c' hle => ?_⟩
    · obtain ⟨rest, hreads, hrest⟩ := h.reads c'
      by_cases hown : c' = c
      · subst hown
        obtain ⟨rest', hreads', hrest'⟩ := Peer.reads_offer hreads bytes last
        dsimp only
        rw [Function.update_self]
        exact ⟨rest', hreads', fun hle hphase => hrest' (hrest hle hphase)⟩
      · dsimp only
        rw [Function.update_of_ne hown]
        exact ⟨rest, hreads, hrest⟩
    · rw [hsent]
      exact h.sent c'
    · rw [hsent]
      exact h.whole c' hle
  case isFalse => exact h

theorem Orderly.not_crashed (hphase : s.phase = .serving) (message : String) :
    s.phase ≠ .crashed message := by
  rw [hphase]
  nofun

/-- The current connection is done with, whatever of it was read, or reached the client. -/
theorem Orderly.finish (h : s.Orderly hip daemon) (hphase : s.phase = .serving)
    {sent : List UInt8} (hsent : sent <+: s.current.sent) :
    Orderly hip daemon { s with
      peers := Function.update s.peers s.finished { s.current with sent }
      finished := s.finished + 1
      phase := .accepting } := by
  have hother : ∀ c, (hle : s.finished + 1 ≤ c) →
      Function.update s.peers s.finished { s.current with sent } c = s.peers c :=
    fun c hle => Function.update_of_ne (by omega) ..
  refine ⟨h.replays, h.sorted, fun e he => Nat.le_succ_of_le (h.last e he), fun c => ?_,
    fun c => ?_, fun c hle => ?_⟩
  · obtain ⟨rest, hreads, hrest⟩ := h.reads c
    refine ⟨rest, ?_, fun hle _ => ?_⟩
    · dsimp only
      by_cases hown : c = s.finished
      · subst hown
        rw [Function.update_self]
        exact hreads
      · rw [Function.update_of_ne hown]
        exact hreads
    · dsimp only
      rw [hother c hle]
      exact hrest (Nat.le_of_succ_le hle) (not_crashed hphase)
  · dsimp only
    by_cases hown : c = s.finished
    · subst hown
      rw [Function.update_self]
      exact hsent.trans (h.sent s.finished)
    · rw [Function.update_of_ne hown]
      exact h.sent c
  · dsimp only
    rw [hother c hle]
    exact h.whole c (Nat.le_of_succ_le hle)

/-- A request of the current connection was served, and answered. -/
theorem Orderly.served (h : s.Orderly hip daemon) (hphase : s.phase = .serving) {req : Request}
    {rest : List UInt8} {resp : Response} {next : DaemonState D}
    (hread : Request.readFrom s.current.incoming = .ok (req, rest))
    (hserve : handleRequest hip s.daemon req = .ok (resp, next)) :
    Orderly hip daemon { s with
      daemon := next
      peers := Function.update s.peers s.finished
        { s.current with incoming := rest, sent := s.current.sent ++ resp.writeTo }
      log := s.log ++ [(s.finished, req, resp)] } := by
  have hwhole : s.current.sent ++ resp.writeTo
      = answersTo (s.log ++ [(s.finished, req, resp)]) s.finished := by
    rw [answersTo_concat_self]
    exact congrArg (· ++ resp.writeTo) (h.whole s.finished (Nat.le_refl _))
  constructor
  case replays =>
    rw [List.map_append]
    exact h.replays.concat hserve
  case sorted =>
    rw [List.map_append]
    refine List.pairwise_append.mpr ⟨h.sorted, List.pairwise_singleton _ _, ?_⟩
    intro c hc c' hc'
    obtain ⟨e, he, rfl⟩ := List.mem_map.mp hc
    obtain rfl := List.mem_singleton.mp hc'
    exact h.last e he
  case last =>
    intro e he
    rcases List.mem_append.mp he with hold | hnew
    · exact h.last e hold
    · rw [List.mem_singleton.mp hnew]
  case reads =>
    intro c
    dsimp only
    obtain ⟨left, hreads, hleft⟩ := h.reads c
    by_cases hown : c = s.finished
    · subst hown
      obtain rfl := hleft (Nat.le_refl _) (not_crashed hphase)
      rw [Function.update_self, servedOn_concat_self, List.map_append]
      exact ⟨rest, hreads.concat hread, fun _ _ => rfl⟩
    · rw [Function.update_of_ne hown, servedOn_concat_of_ne _ _ (Ne.symm hown)]
      exact ⟨left, hreads, hleft⟩
  case sent =>
    intro c
    dsimp only
    by_cases hown : c = s.finished
    · subst hown
      rw [Function.update_self, ← hwhole]
    · rw [Function.update_of_ne hown, answersTo_concat_of_ne _ _ (Ne.symm hown)]
      exact h.sent c
  case whole =>
    intro c hle
    dsimp only
    by_cases hown : c = s.finished
    · subst hown
      rw [Function.update_self, ← hwhole]
    · rw [Function.update_of_ne hown, answersTo_concat_of_ne _ _ (Ne.symm hown)]
      exact h.whole c hle

theorem Orderly.crash (h : s.Orderly hip daemon) (incoming : List UInt8) (message : String) :
    Orderly hip daemon { s with
      peers := Function.update s.peers s.finished { s.current with incoming }
      phase := .crashed message } := by
  have hpeer : ∀ c, (Function.update s.peers s.finished { s.current with incoming } c).offered
        = (s.peers c).offered ∧
      (Function.update s.peers s.finished { s.current with incoming } c).sent
        = (s.peers c).sent := by
    intro c
    by_cases hown : c = s.finished
    · subst hown
      rw [Function.update_self]
      exact ⟨rfl, rfl⟩
    · rw [Function.update_of_ne hown]
      exact ⟨rfl, rfl⟩
  refine ⟨h.replays, h.sorted, h.last, fun c => ?_, fun c => ?_, fun c hle => ?_⟩
  · obtain ⟨rest, hreads, -⟩ := h.reads c
    refine ⟨rest, ?_, fun _ hno => absurd rfl (hno message)⟩
    dsimp only
    rw [(hpeer c).1]
    exact hreads
  · dsimp only
    rw [(hpeer c).2]
    exact h.sent c
  · dsimp only
    rw [(hpeer c).2]
    exact h.whole c hle

theorem Orderly.closed (h : s.Orderly hip daemon) (hphase : s.phase = .serving) :
    Orderly hip daemon { s with finished := s.finished + 1, phase := .accepting } := by
  have hsame : Function.update s.peers s.finished s.current = s.peers :=
    Function.update_eq_self ..
  have hfinish := h.finish hphase (List.prefix_refl s.current.sent)
  dsimp only at hfinish
  rwa [hsame] at hfinish

theorem Orderly.iterate (h : s.Orderly hip daemon) (hphase : s.phase = .serving)
    (write : Except IoError Unit) : (s.iterate hip write).Orderly hip daemon := by
  have hiteration := iterate_iteration hip s write
  generalize s.iterate hip write = s' at hiteration ⊢
  cases hiteration with
  | served req rest resp next hread hserve => exact h.served hphase hread hserve
  | lost req rest resp next hread hserve =>
    -- served, and then the response did not reach the client
    have hprefix : s.current.sent <+: (Function.update s.peers s.finished
        { s.current with incoming := rest, sent := s.current.sent ++ resp.writeTo }
        s.finished).sent := by
      rw [Function.update_self]
      exact List.prefix_append _ _
    have hfinish := (h.served hphase hread hserve).finish hphase hprefix
    dsimp only [current] at hfinish ⊢
    rwa [Function.update_self, Function.update_idem] at hfinish
  | closed => exact h.closed hphase
  | crashed incoming message => exact h.crash incoming message

theorem Orderly.step (h : s.Orderly hip daemon) (event : ServerEvent) :
    (serverStep hip s event).Orderly hip daemon := by
  cases event with
  | input a =>
    cases a with
    | connect => exact ⟨h.replays, h.sorted, h.last, h.reads, h.sent, h.whole⟩
    | send c bytes => exact h.offer c bytes false
    | hangUp c => exact h.offer c [] true
  | move write =>
    show ((s.move hip write).getD s).Orderly hip daemon
    cases hmove : s.move hip write with
    | none => exact h
    | some s' =>
      rcases move_cases hmove with ⟨hphase, -, rfl⟩ | ⟨hphase, -, rfl⟩
      · refine ⟨h.replays, h.sorted, h.last, fun c => ?_, h.sent, h.whole⟩
        obtain ⟨rest, hreads, hrest⟩ := h.reads c
        exact ⟨rest, hreads, fun hle _ => hrest hle (by rw [hphase]; nofun)⟩
      · exact h.iterate hphase write
  | readFails e =>
    unfold serverStep
    cases hphase : s.phase with
    | serving => exact h.closed hphase
    | accepting => exact h
    | crashed => exact h

theorem orderly_run (hip : HipLib D) (daemon : DaemonState D) (events : List ServerEvent) :
    (run (serverStep hip) (.new daemon) events).Orderly hip daemon := by
  have halways : Always (serverStep hip) (Orderly hip daemon) (.new daemon) events :=
    always_of_along (fun _ event h _ => h.step event) (orderly_new hip daemon)
      (along_of_forall (fun _ _ => trivial) events)
  exact halways.last

/-- **One client at a time.** Whatever the clients do, and whatever reads and writes fail: the
daemon has served the log as if one client had sent it; in the log, connections follow each other
in the order they were accepted; on each, the requests are the first ones the client sent, and what
was sent back is the beginning of their responses — all of them, as long as the connection is not
done with. -/
theorem served_one_at_a_time (hip : HipLib D) (daemon : DaemonState D)
    (events : List ServerEvent) :
    let s := run (serverStep hip) (.new daemon) events
    Replays hip daemon (s.log.map Prod.snd) s.daemon ∧
      (s.log.map Prod.fst).Pairwise (· ≤ ·) ∧
      (∀ c, s.finished < c → servedOn s.log c = []) ∧
      ∀ c, (∃ rest, Reads (s.peers c).offered ((servedOn s.log c).map Prod.fst) rest) ∧
        (s.peers c).sent <+: answersTo s.log c ∧
        (s.finished ≤ c → (s.peers c).sent = answersTo s.log c) := by
  intro s
  have h : s.Orderly hip daemon := orderly_run hip daemon events
  refine ⟨h.replays, h.sorted, fun c hlater => ?_, fun c => ⟨?_, h.sent c, h.whole c⟩⟩
  · apply List.filterMap_eq_nil_iff.mpr
    intro e he
    have hle := h.last e he
    exact if_neg (by omega)
  · obtain ⟨rest, hreads, -⟩ := h.reads c
    exact ⟨rest, hreads⟩

end Server

end HipBridge.Daemon
