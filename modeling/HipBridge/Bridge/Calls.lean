import HipBridge.Bridge.Connection
import HipBridge.Protocol.RoundTrip

/-!
# A call that nothing disturbs

The runs in which each side writes all it has to write before the other side reads it.

* **`run_clientWrites`**, **`run_daemonReads`**, **`run_daemonWrites`**, **`run_clientReads`** —
  the four legs of a call.
* **`run_request`** — a request from the mutex to the response the daemon is about to write.
* **`run_answered`** — the whole call, when both frames are within the cap.
-/

namespace HipBridge.Bridge

open Lib Protocol Daemon

variable {T D : Type} {hip : HipLib D}

/-- The client hands over a whole frame. Induction on what is left of it. -/
theorem run_clientWrites {s : Connection T D} {thread : T} {req : Request} {left : List UInt8}
    (hwriting : s.client = .writing thread req left) (hne : left ≠ []) :
    run (step hip) s (List.replicate left.length .clientWrites) =
      { s with
        client := .reading thread req []
        toDaemon := s.toDaemon ++ left
        io := s.io ++ left.map .wrote } := by
  induction left generalizing s with
  | nil => exact absurd rfl hne
  | cons b left ih =>
    have hstep : step hip s .clientWrites = writeByte s thread req b left := by
      simp only [step, hwriting]
    rw [List.length_cons, List.replicate_succ, run_cons, hstep]
    by_cases hleft : left = []
    · subst hleft
      simp [writeByte]
    · rw [ih (if_neg hleft) hleft]
      simp [writeByte]

/-- The daemon reads a whole frame and serves it. Induction on what is left of it. -/
theorem run_daemonReads {s : Connection T D} {req : Request} {resp : Response}
    {daemon : DaemonState D} {got left : List UInt8} (hreading : s.daemonPhase = .reading got)
    (hleft : s.toDaemon = left) (hne : left ≠ []) (hframe : got ++ left = req.writeTo)
    (hreq : req.encodeBody.length ≤ maxBodyLen)
    (hserve : handleRequest hip s.daemon req = .ok (resp, daemon)) :
    run (step hip) s (List.replicate left.length .daemonReads) =
      { s with
        toDaemon := []
        daemon := daemon
        daemonPhase := .writing resp.writeTo
        served := s.served ++ [(req, resp)] } := by
  induction left generalizing s got with
  | nil => exact absurd rfl hne
  | cons b left ih =>
    have hstep : step hip s .daemonReads = serveByte hip s got b left := by
      simp only [step, hreading, hleft]
    have hgot : (got ++ [b]) ++ left = req.writeTo := by rw [← hframe, List.append_assoc]; rfl
    rw [List.length_cons, List.replicate_succ, run_cons, hstep]
    by_cases hnil : left = []
    · -- the last byte: the request is whole, and served
      subst hnil
      rw [List.append_nil] at hgot
      have hread := req.readFrom_writeTo [] hreq
      rw [List.append_nil, ← hgot] at hread
      simp [serveByte, hread, hserve]
    · -- a strict prefix does not decode, so the daemon goes on reading
      have hread := Request.readFrom_strictPrefix hreq ⟨left, hgot⟩ fun heq => hnil (by
        rwa [← heq, List.append_right_eq_self] at hgot)
      have hstep' : serveByte hip s got b left
          = { s with toDaemon := left, daemonPhase := .reading (got ++ [b]) } := by
        simp [serveByte, hread, needsMore, eofError]
      rw [hstep']
      exact ih rfl rfl hnil hgot hserve

/-- The daemon writes the first bytes of a frame. Induction on these. -/
theorem run_daemonWrites {s : Connection T D} {sent left : List UInt8}
    (hwriting : s.daemonPhase = .writing (sent ++ left)) (hne : sent ≠ []) :
    run (step hip) s (List.replicate sent.length .daemonWrites) =
      { s with
        daemonPhase := if left = [] then .reading [] else .writing left
        toClient := s.toClient ++ sent } := by
  induction sent generalizing s with
  | nil => exact absurd rfl hne
  | cons b sent ih =>
    have hstep : step hip s .daemonWrites =
        { s with
          daemonPhase := if sent ++ left = [] then .reading [] else .writing (sent ++ left)
          toClient := s.toClient ++ [b] } := by
      simp only [step, hwriting, List.cons_append]
    rw [List.length_cons, List.replicate_succ, run_cons, hstep]
    by_cases hsent : sent = []
    · subst hsent
      simp
    · rw [ih (if_neg (by simp [hsent])) hsent]
      simp

/-- The client reads a whole frame and returns. Induction on what is left of it. -/
theorem run_clientReads {s : Connection T D} {thread : T} {req : Request} {resp : Response}
    {got left rest : List UInt8} (hreading : s.client = .reading thread req got)
    (hleft : s.toClient = left ++ rest) (hne : left ≠ []) (hframe : got ++ left = resp.writeTo)
    (hresp : resp.encodeBody.length ≤ maxBodyLen) :
    run (step hip) s (List.replicate left.length .clientReads) =
      { s with
        client := .idle
        toClient := rest
        returned := s.returned ++ [(thread, req, .answered resp.intoResult)]
        io := s.io ++ left.map .read } := by
  induction left generalizing s got with
  | nil => exact absurd rfl hne
  | cons b left ih =>
    have hstep : step hip s .clientReads = readByte s thread req got b (left ++ rest) := by
      simp only [step, hreading, hleft, List.cons_append]
    have hgot : (got ++ [b]) ++ left = resp.writeTo := by rw [← hframe, List.append_assoc]; rfl
    rw [List.length_cons, List.replicate_succ, run_cons, hstep]
    by_cases hnil : left = []
    · -- the last byte: the response is whole, and the call returns
      subst hnil
      rw [List.append_nil] at hgot
      have hread := resp.readFrom_writeTo [] hresp
      rw [List.append_nil, ← hgot] at hread
      simp [readByte, hread, finish]
    · have hread := Response.readFrom_strictPrefix hresp ⟨left, hgot⟩ fun heq => hnil (by
        rwa [← heq, List.append_right_eq_self] at hgot)
      have hstep' : readByte s thread req got b (left ++ rest)
          = { s with
              client := .reading thread req (got ++ [b])
              toClient := left ++ rest
              io := s.io ++ [.read b] } := by
        simp [readByte, hread, needsMore, eofError]
      rw [hstep', ih rfl rfl hnil hgot]
      simp

theorem writeTo_ne_nil (req : Request) : req.writeTo ≠ [] := List.cons_ne_nil _ _

/-- The steps that take a request from the mutex to the daemon's answer. -/
def requestSteps (thread : T) (req : Request) : List (Action T D) :=
  .call thread req :: (List.replicate req.writeTo.length .clientWrites ++
    List.replicate req.writeTo.length .daemonReads)

/-- A request taken from the mutex to the response the daemon is about to write. -/
theorem run_request {s : Connection T D} (thread : T) {req : Request} {resp : Response}
    {daemon : DaemonState D} (hconn : s.connected = true) (hidle : s.client = .idle)
    (hreading : s.daemonPhase = .reading []) (htoDaemon : s.toDaemon = [])
    (hreq : req.encodeBody.length ≤ maxBodyLen)
    (hserve : handleRequest hip s.daemon req = .ok (resp, daemon)) :
    run (step hip) s (requestSteps thread req) =
      { s with
        client := .reading thread req []
        daemonPhase := .writing resp.writeTo
        daemon := daemon
        calls := s.calls ++ [(thread, req)]
        served := s.served ++ [(req, resp)]
        io := s.io ++ req.writeTo.map .wrote } := by
  have hbegin : step hip s (.call thread req) =
      { s with
        calls := s.calls ++ [(thread, req)]
        client := .writing thread req req.writeTo } := by
    simp [step, hidle, beginCall, hconn]
  rw [requestSteps, run_cons, hbegin, run_append, run_clientWrites rfl (writeTo_ne_nil req),
    @run_daemonReads T D hip _ req resp daemon [] req.writeTo (by exact hreading)
      (by simp [htoDaemon]) (writeTo_ne_nil req) rfl hreq (by exact hserve)]
  simp [htoDaemon]

/-- A call that nothing disturbs returns the daemon's answer, and leaves nothing under way. -/
theorem run_answered {s : Connection T D} (thread : T) {req : Request} {resp : Response}
    {daemon : DaemonState D} (hconn : s.connected = true) (hidle : s.client = .idle)
    (hreading : s.daemonPhase = .reading []) (htoDaemon : s.toDaemon = [])
    (htoClient : s.toClient = []) (hreq : req.encodeBody.length ≤ maxBodyLen)
    (hserve : handleRequest hip s.daemon req = .ok (resp, daemon))
    (hresp : resp.encodeBody.length ≤ maxBodyLen) :
    run (step hip) s (requestSteps thread req ++
        (List.replicate resp.writeTo.length .daemonWrites ++
          List.replicate resp.writeTo.length .clientReads)) =
      { s with
        daemon := daemon
        calls := s.calls ++ [(thread, req)]
        returned := s.returned ++ [(thread, req, .answered resp.intoResult)]
        served := s.served ++ [(req, resp)]
        io := s.io ++ req.writeTo.map .wrote ++ resp.writeTo.map .read } := by
  have hne : resp.writeTo ≠ [] := List.cons_ne_nil _ _
  rw [run_append, run_request thread hconn hidle hreading htoDaemon hreq hserve, run_append,
    @run_daemonWrites T D hip _ resp.writeTo [] (by rw [List.append_nil]) hne,
    @run_clientReads T D hip _ thread req resp [] resp.writeTo [] rfl
      (by simp [htoClient]) hne rfl hresp]
  simp [hidle, hreading, htoClient]

end HipBridge.Bridge
