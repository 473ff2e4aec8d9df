import HipBridge.Daemon.FlatDevice
import HipBridge.Lib.Run
import HipBridge.Protocol.Canonical

/-!
# A client's connection (`native-daemon/src/main.rs`)

`handle_client` reads a request, serves it and writes the response, until the stream ends or
an error closes the connection.

* **`Client`** — where a call of `handle_client` stands.
* **`handleClient`** — one iteration of its loop.
* **`Harmless`** — no overflowing copy, and no read that there is no buffer for, is next.
* **`handleClient_panics_iff`** — the daemon comes down exactly at an iteration that is not
  harmless.
-/

namespace HipBridge.Daemon

open Lib Protocol

variable {D : Type}

/-- Whether `handle_client` is in its loop, and how it left it. -/
inductive Status
  | serving
  | closed (result : Except IoError Unit)
  | panicked (message : String)
  /-- The allocator has refused a buffer, and the process has ended. -/
  | aborted (message : String)

/-- The daemon is down, for every client. -/
def Status.Crashed : Status → Prop
  | .serving => False
  | .closed _ => False
  | .panicked _ => True
  | .aborted _ => True

/-- A call of `handle_client`: the daemon behind it, the bytes of the client not read yet and
the bytes sent back. -/
structure Client (D : Type) where
  daemon : DaemonState D
  incoming : List UInt8
  sent : List UInt8
  status : Status

/-- A connection on which the client sends `incoming` and then nothing more. -/
def Client.accept (daemon : DaemonState D) (incoming : List UInt8) : Client D :=
  ⟨daemon, incoming, [], .serving⟩

/-- What one iteration does not decide: what the threads of other clients make of the daemon
before the request is served, and what the socket answers to the response. -/
structure Turn (D : Type) where
  others : DaemonState D → DaemonState D
  write : Except IoError Unit

/-- No other client, and a socket that takes the response. -/
def Turn.alone : Turn D := ⟨id, .ok ()⟩

/-- One iteration of the loop of `handle_client`. A `write_to` that fails sends nothing here; of
the real one the client may have got the first bytes of a response, on a connection that ends
there. -/
def handleClient (hip : HipLib D) (c : Client D) (turn : Turn D) : Client D :=
  match c.status with
  | .serving =>
    let daemon := turn.others c.daemon
    match Request.readFrom c.incoming with
    | .error (.panic message) => { c with daemon, status := .panicked message }
    | .error (.abort message) => { c with daemon, status := .aborted message }
    | .error (.io e) =>
      if e.kind = .unexpectedEof then { c with daemon, status := .closed (.ok ()) }
      else { c with daemon, status := .closed (.error e) }
    | .ok (req, incoming) =>
      match handleRequest hip daemon req with
      | .error (.panic message) => { c with daemon, incoming, status := .panicked message }
      | .error (.abort message) => { c with daemon, incoming, status := .aborted message }
      -- `handle_request` returns a `Response`, never an `io::Error`
      | .error (.io e) => { c with daemon, incoming, status := .closed (.error e) }
      | .ok (resp, daemon) =>
        match turn.write with
        | .error e => { c with daemon, incoming, status := .closed (.error e) }
        | .ok () => { c with daemon, incoming, sent := c.sent ++ resp.writeTo }
  | _ => c

/-- A request to read more from a known handle than there is a buffer for. -/
def UnbufferedRead (hip : HipLib D) (daemon : DaemonState D) : Request → Prop
  | .memcpyD2H handle _ len =>
    (daemon.handles.get handle).isSome ∧ ¬ hip.CanBuffer len daemon.device
  | _ => False

/-- The stream does not start with a copy to the device that declares more than `24 + data_len`
can hold, nor with a read from a known handle of more bytes than a vector can hold or the
allocator serves. -/
def Harmless (hip : HipLib D) (daemon : DaemonState D) (incoming : List UInt8) : Prop :=
  (∀ body rest, incoming = frame 5 body ++ rest → body.length ≤ maxBodyLen →
    ¬ OverflowingCopy 5 body) ∧
  ∀ handle offset len rest, incoming = (Request.memcpyD2H handle offset len).writeTo ++ rest →
    ¬ hip.CanBuffer len daemon.device → daemon.handles.get handle = none

/-! ## Serving a request -/

section Requests

variable (hip : HipLib D) (s : DaemonState D)

/-- The fixup loop returns: a 32-bit offset plus eight does not overflow. Induction on the
table. -/
theorem patchArgs_returns (fixups : List Fixup) (args : List UInt8) :
    ∃ result, patchArgs s.handles fixups args = .ok result := by
  induction fixups generalizing args with
  | nil => exact ⟨_, rfl⟩
  | cons fixup fixups ih =>
    obtain ⟨offset, handle, intraOffset⟩ := fixup
    have hoffset : offset.toNat < 2 ^ 32 := offset.toNat_lt
    have hadd : usizeAdd offset.toNat 8 = .ok (offset.toNat + 8) :=
      usizeAdd_ok (by unfold usizeMax; omega)
    rw [patchArgs, hadd, Io.ok_bind]
    split
    case isTrue => exact ⟨_, rfl⟩
    case isFalse =>
      split
      case h_1 => exact ih _
      case h_2 => exact ⟨_, rfl⟩

theorem handleRequest_unbufferedRead {r : Request} (h : UnbufferedRead hip s r) :
    ∃ fault, handleRequest hip s r = .error fault ∧ fault.Crash := by
  cases r with
  | memcpyD2H handle offset len =>
    obtain ⟨hknown, hbuffer⟩ := h
    obtain ⟨ptr, hptr⟩ := Option.isSome_iff_exists.mp hknown
    exact handleRequest_memcpyD2H_crashes hptr hbuffer
  | _ => exact h.elim

/-- Every other request gets a response, whatever the HIP library does. -/
theorem handleRequest_returns {r : Request} (h : ¬ UnbufferedRead hip s r) :
    ∃ resp s', handleRequest hip s r = .ok (resp, s') := by
  cases r with
  | deviceCount =>
    simp only [handleRequest]
    split <;> exact ⟨_, _, rfl⟩
  | setDevice => exact ⟨_, _, rfl⟩
  | malloc =>
    simp only [handleRequest]
    split <;> exact ⟨_, _, rfl⟩
  | free =>
    simp only [handleRequest]
    split <;> exact ⟨_, _, rfl⟩
  | memcpyH2D =>
    simp only [handleRequest]
    split <;> exact ⟨_, _, rfl⟩
  | memcpyD2H handle offset len =>
    cases hhandle : s.handles.get handle with
    | none => exact ⟨_, _, handleRequest_memcpyD2H_unknown hip hhandle offset len⟩
    | some ptr =>
      have hbuffer : hip.CanBuffer len s.device := by
        by_contra hrefused
        exact h ⟨by rw [hhandle]; rfl, hrefused⟩
      rw [handleRequest_memcpyD2H_known hhandle hbuffer]
      dsimp only
      split <;> exact ⟨_, _, rfl⟩
  | getDeviceProperties => exact ⟨_, _, rfl⟩
  | loadModule =>
    simp only [handleRequest]
    split <;> exact ⟨_, _, rfl⟩
  | getFunction module name =>
    simp only [handleRequest]
    split
    case h_1 => split <;> exact ⟨_, _, rfl⟩
    case h_2 => exact ⟨_, _, rfl⟩
  | launchKernel function grid block sharedMem fixups args =>
    simp only [handleRequest]
    split
    case h_1 =>
      obtain ⟨result, hresult⟩ := patchArgs_returns s fixups args
      rw [hresult, Io.ok_bind]
      cases result with
      | error e => exact ⟨_, _, rfl⟩
      | ok args => exact ⟨_, _, rfl⟩
    case h_2 => exact ⟨_, _, rfl⟩

end Requests

/-! ## The loop -/

section Loop

variable (hip : HipLib D) {c : Client D} {turn : Turn D}

/-- The ways one iteration ends. -/
inductive Iterated (c : Client D) (turn : Turn D) : Client D → Prop
  | served (req : Request) (rest : List UInt8) (resp : Response) (daemon : DaemonState D)
      (hread : Request.readFrom c.incoming = .ok (req, rest))
      (hserve : handleRequest hip (turn.others c.daemon) req = .ok (resp, daemon))
      (hharmless : Harmless hip (turn.others c.daemon) c.incoming) :
      Iterated c turn ⟨daemon, rest, c.sent ++ resp.writeTo, .serving⟩
  | closed (c' : Client D) (result : Except IoError Unit) (hstatus : c'.status = .closed result)
      (hharmless : Harmless hip (turn.others c.daemon) c.incoming) : Iterated c turn c'
  | crashed (c' : Client D) (hcrashed : c'.status.Crashed)
      (hharm : ¬ Harmless hip (turn.others c.daemon) c.incoming) : Iterated c turn c'

/-- A read of device memory is read back from the frame it is written to. -/
theorem readFrom_memcpyD2H (handle offset len : UInt64) (rest : List UInt8) :
    Request.readFrom ((Request.memcpyD2H handle offset len).writeTo ++ rest)
      = .ok (.memcpyD2H handle offset len, rest) :=
  Request.readFrom_writeTo _ rest (by simp [Request.encodeBody, maxBodyLen])

theorem readFrom_overflowing {body rest : List UInt8} (hle : body.length ≤ maxBodyLen)
    (hcopy : OverflowingCopy 5 body) :
    ∃ message, Request.readFrom (frame 5 body ++ rest) = .error (.panic message) := by
  rw [Request.readFrom_frame 5 rest hle]
  have hdecoded := decodeBody_decoded 5 body
  generalize decodeBody 5 body = result at hdecoded ⊢
  cases hdecoded with
  | request _ _ _ hno => exact absurd hcopy hno
  | rejected _ hno => exact absurd hcopy hno
  | overflowed message => exact ⟨message, rfl⟩

/-- A stream that gives an `io::Error` is harmless. -/
theorem harmless_of_failed {daemon : DaemonState D} {incoming : List UInt8} {e : IoError}
    (h : Request.readFrom incoming = .error (.io e)) : Harmless hip daemon incoming := by
  constructor
  · rintro body rest rfl hle hcopy
    obtain ⟨message, hpanic⟩ := @readFrom_overflowing body rest hle hcopy
    rw [hpanic] at h
    cases h
  · rintro handle offset len rest rfl -
    rw [readFrom_memcpyD2H] at h
    cases h

/-- A stream with a request at its front is harmless, unless there is no buffer for it. -/
theorem harmless_iff_of_read {daemon : DaemonState D} {incoming rest : List UInt8} {r : Request}
    (h : Request.readFrom incoming = .ok (r, rest)) :
    Harmless hip daemon incoming ↔ ¬ UnbufferedRead hip daemon r := by
  constructor
  · rintro ⟨-, hread⟩ hrefused
    cases r with
    | memcpyD2H handle offset len =>
      obtain ⟨hknown, hbuffer⟩ := hrefused
      have hcases := Request.readFrom_cases incoming
      rw [h] at hcases
      cases hcases with
      | request _ body _ hs _ hbody =>
        rcases hbody with ⟨hopcode, -⟩ | rfl
        · simp [Request.opcode] at hopcode
        · rw [hread handle offset len rest hs hbuffer] at hknown
          cases hknown
    | _ => exact hrefused
  · intro hno
    constructor
    · rintro body rest' rfl hle hcopy
      obtain ⟨message, hpanic⟩ := @readFrom_overflowing body rest' hle hcopy
      rw [hpanic] at h
      cases h
    · rintro handle offset len rest' rfl hbuffer
      rw [readFrom_memcpyD2H] at h
      cases h
      rw [← Option.not_isSome_iff_eq_none]
      exact fun hknown => hno ⟨hknown, hbuffer⟩

/-- **One iteration.** It serves a request, closes the connection, or brings the daemon down at a
stream that is not harmless. -/
theorem handleClient_iterated (turn : Turn D) (hstatus : c.status = .serving) :
    Iterated hip c turn (handleClient hip c turn) := by
  unfold handleClient
  rw [hstatus]
  dsimp only
  have hcases := Request.readFrom_cases c.incoming
  cases hread : Request.readFrom c.incoming with
  | error fault =>
    cases fault with
    | io e =>
      have hharmless := @harmless_of_failed D hip (turn.others c.daemon) _ _ hread
      dsimp only
      split <;> exact .closed _ _ rfl hharmless
    | panic message =>
      rw [hread] at hcases
      cases hcases with
      | overflowed _ body rest hs hle hcopy =>
        exact .crashed _ trivial fun hharmless => hharmless.1 body rest hs hle hcopy
    | abort message =>
      -- no reader asks for more than the allocator is taken to have
      rw [hread] at hcases
      cases hcases
  | ok result =>
    obtain ⟨req, rest⟩ := result
    by_cases hrefused : UnbufferedRead hip (turn.others c.daemon) req
    · have hharm := fun h => (harmless_iff_of_read hip hread).mp h hrefused
      obtain ⟨fault, hfault, hcrash⟩ :=
        handleRequest_unbufferedRead hip (turn.others c.daemon) hrefused
      simp only [hfault]
      cases fault with
      | io e => exact hcrash.elim
      | panic message => exact .crashed _ trivial hharm
      | abort message => exact .crashed _ trivial hharm
    · have hharmless := (harmless_iff_of_read hip hread).mpr hrefused
      obtain ⟨resp, daemon, hserve⟩ := handleRequest_returns hip (turn.others c.daemon) hrefused
      simp only [hserve]
      cases turn.write with
      | error e => exact .closed _ _ rfl hharmless
      | ok => exact .served req rest resp daemon hread hserve hharmless

theorem handleClient_stopped (turn : Turn D) (hstatus : c.status ≠ .serving) :
    handleClient hip c turn = c := by
  unfold handleClient
  split
  case h_1 hserving => exact absurd hserving hstatus
  case h_2 => rfl

/-- Reading a request takes bytes off the stream. -/
theorem readFrom_shorter {s rest : List UInt8} {r : Request}
    (h : Request.readFrom s = .ok (r, rest)) : rest.length < s.length := by
  have hcases := Request.readFrom_cases s
  rw [h] at hcases
  cases hcases with
  | request _ body _ hs _ _ =>
    rw [hs, frame, List.cons_append, List.length_cons, List.length_append]
    omega

/-- A finite stream is served in finitely many iterations: with more iterations than bytes,
the loop has been left. Induction on the iterations. -/
theorem handleClient_leaves (turns : List (Turn D))
    (hlong : c.incoming.length < turns.length) :
    (run (handleClient hip) c turns).status ≠ .serving := by
  induction turns generalizing c with
  | nil => exact absurd hlong (Nat.not_lt_zero _)
  | cons turn turns ih =>
    rw [List.length_cons] at hlong
    rw [run_cons]
    by_cases hserving : (handleClient hip c turn).status = .serving
    · apply ih
      by_cases hstatus : c.status = .serving
      · have hiterated := handleClient_iterated hip turn hstatus
        generalize handleClient hip c turn = c' at hiterated hserving ⊢
        cases hiterated with
        | served req rest resp daemon hread =>
          have hshorter := readFrom_shorter hread
          show rest.length < turns.length
          omega
        | closed _ _ hclosed => rw [hclosed] at hserving; cases hserving
        | crashed _ hcrashed => rw [hserving] at hcrashed; exact hcrashed.elim
      · exact absurd (by rwa [handleClient_stopped hip turn hstatus] at hserving) hstatus
    · -- once left, the loop stays left
      have hstay : ∀ turns, run (handleClient hip) (handleClient hip c turn) turns
          = handleClient hip c turn := by
        intro turns
        induction turns with
        | nil => rfl
        | cons turn' turns ih' => rw [run_cons, handleClient_stopped hip turn' hserving, ih']
      rw [hstay]
      exact hserving

/-- **When the daemon comes down.** An iteration ends with a response on the socket or with the
connection closed exactly when its stream is harmless; and a run of `handle_client` is free of
panics and aborts exactly when every iteration of it starts harmless, whatever the HIP library
returns, whatever reads the allocator refuses a buffer for and whatever other clients do in
between. The buffers of the frames themselves, which are bounded, are taken to be served. -/
theorem handleClient_panics_iff :
    (∀ (c : Client D) turn, c.status = .serving →
      (((∃ resp : Response, (handleClient hip c turn).status = .serving ∧
            (handleClient hip c turn).sent = c.sent ++ resp.writeTo) ∨
          ∃ result, (handleClient hip c turn).status = .closed result) ↔
        Harmless hip (turn.others c.daemon) c.incoming)) ∧
    (∀ daemon incoming turns,
      Always (handleClient hip) (fun c => ¬ c.status.Crashed)
          (Client.accept daemon incoming) turns ↔
        Along (handleClient hip) (fun c turn => c.status = .serving →
          Harmless hip (turn.others c.daemon) c.incoming)
          (Client.accept daemon incoming) turns) := by
  constructor
  · intro c turn hstatus
    have hiterated := handleClient_iterated hip turn hstatus
    generalize handleClient hip c turn = c' at hiterated ⊢
    cases hiterated with
    | served req rest resp daemon _ _ hharmless =>
      exact ⟨fun _ => hharmless, fun _ => Or.inl ⟨resp, rfl, rfl⟩⟩
    | closed _ result hclosed hharmless =>
      exact ⟨fun _ => hharmless, fun _ => Or.inr ⟨result, hclosed⟩⟩
    | crashed _ hcrashed hharm =>
      refine ⟨?_, fun h => absurd h hharm⟩
      rintro (⟨resp, hserving, -⟩ | ⟨result, hclosed⟩)
      · rw [hserving] at hcrashed
        exact hcrashed.elim
      · rw [hclosed] at hcrashed
        exact hcrashed.elim
  · intro daemon incoming turns
    refine always_iff_along (fun c h => h) ?_ ?_ id
      (along_of_forall (fun _ _ => trivial) turns)
    · intro c turn hsafe _ hharmless
      by_cases hstatus : c.status = .serving
      · have hiterated := handleClient_iterated hip turn hstatus
        generalize handleClient hip c turn = c' at hiterated ⊢
        intro hcrashed
        cases hiterated with
        | served => exact hcrashed
        | closed _ _ hclosed => rw [hclosed] at hcrashed; exact hcrashed
        | crashed _ _ hharm => exact hharm (hharmless hstatus)
      · rw [handleClient_stopped hip turn hstatus]
        exact hsafe
    · intro c turn hsafe _ hharm hsafe'
      obtain ⟨hstatus, hharm⟩ := Classical.not_imp.mp hharm
      have hiterated := handleClient_iterated hip turn hstatus
      generalize handleClient hip c turn = c' at hiterated hsafe'
      cases hiterated with
      | served _ _ _ _ _ _ hharmless => exact hharm hharmless
      | closed _ _ _ hharmless => exact hharm hharmless
      | crashed _ hcrashed => exact hsafe' hcrashed

end Loop

/-- A read of the first 16 bytes of a block, and a copy to two of them. -/
def blockFrames : List UInt8 :=
  (Request.memcpyD2H 1 0 16).writeTo ++ (Request.memcpyH2D 1 14 [7, 8]).writeTo

/-- Both frames are answered, so the stream is harmless. -/
theorem handleClient_panics_iff_copies :
    Harmless flatHip flatBlock blockFrames ∧
      Harmless flatHip flatBlock (Request.memcpyH2D 1 14 [7, 8]).writeTo :=
  ⟨((handleClient_panics_iff flatHip).1 (.accept flatBlock blockFrames) .alone rfl).mp
      (Or.inl ⟨.ok (List.replicate 16 0), rfl, rfl⟩),
    ((handleClient_panics_iff flatHip).1
        (.accept flatBlock (Request.memcpyH2D 1 14 [7, 8]).writeTo) .alone rfl).mp
      (Or.inl ⟨.okEmpty, rfl, rfl⟩)⟩

/-- The frame of a copy to handle 0 that declares `2 ^ 64 - 1` bytes of data. -/
def overflowingFrame : List UInt8 := frame 5 (List.replicate 16 0 ++ List.replicate 8 255)

/-- A block of 16 bytes, and a read of `len` bytes from it. -/
def hugeReadFrames (len : UInt64) : List UInt8 :=
  (Request.malloc 16).writeTo ++ (Request.memcpyD2H 1 0 len).writeTo

/-- The daemon panics on 29 bytes of one client, and on the second frame of another, a read of
`2 ^ 63` bytes; at one of `2 ^ 40` bytes, for which there is no memory, its process ends. -/
theorem handleClient_panics :
    (∃ message, (handleClient flatHip (.accept (.new .new) overflowingFrame) .alone).status
      = .panicked message) ∧
    (∃ message, (run (handleClient flatHip)
      (.accept (.new .new) (hugeReadFrames 0x8000000000000000)) [.alone, .alone]).status
      = .panicked message) ∧
    ∃ message, (run (handleClient flatHip)
      (.accept (.new .new) (hugeReadFrames 0x10000000000)) [.alone, .alone]).status
      = .aborted message := by
  refine ⟨⟨"attempt to add with overflow", rfl⟩, ⟨"capacity overflow", rfl⟩, ?_⟩
  exact ⟨"memory allocation of 1099511627776 bytes failed", rfl⟩

end HipBridge.Daemon
