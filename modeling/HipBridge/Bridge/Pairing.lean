import HipBridge.Bridge.Calls
import HipBridge.Daemon.FlatDevice
import HipBridge.Daemon.ResponseSize

/-!
# Every answer is the answer to its own request

* **`WholeFrames`** — the condition on a step: no request and no response is sent under a
  length field that cuts it short.
* **`Synced`** — where the two ends stand with respect to each other, one constructor for each
  stage of a call. This is the invariant that ties the mutex, the bytes under way and the
  daemon's loop together.
* **`wholeFrames_of_requests`** — the condition in terms of the requests of the run alone.
* **`paired_of_wholeFrames`** — a run whose steps meet the condition pairs every answer with its
  request, and leaves a failed connection alone.
* **`truncatedCopy_not_paired`** — a copy of `2 ^ 32` bytes from the device is answered with no
  bytes at all.
-/

namespace HipBridge.Bridge

open Lib Protocol Daemon

variable {T D : Type}

/-- No length field cuts a frame short. A thread that begins a call on the connection sends a
request the daemon takes as a whole or refuses, and a request the daemon serves is not a copy of
a length that wraps round to one the client accepts. -/
def WholeFrames (hip : HipLib D) (s : Connection T D) : Action T D → Prop
  | .call _ req => s.client = .idle → s.connected = true → SendsWhole req
  | .daemonReads => s.connected = true → ∀ got b toDaemon req rest,
      s.daemonPhase = .reading got → s.toDaemon = b :: toDaemon →
      Request.readFrom (got ++ [b]) = .ok (req, rest) → ServesWhole hip s.daemon req
  | _ => True

/-! ## The invariant -/

/-- The client is sending a request of which the bytes `left` are still to be written. -/
def Asking (client : ClientPhase T) (thread : T) (req : Request) (left : List UInt8) : Prop :=
  (client = .writing thread req left ∧ left ≠ []) ∨ (client = .reading thread req [] ∧ left = [])

/-- The daemon has still to write `left`, and after that to wait for the next request. -/
def Sending (s : Connection T D) (left : List UInt8) : Prop :=
  s.daemonPhase = .closed ∨ (s.daemonPhase = .writing left ∧ left ≠ [] ∧ s.toDaemon = []) ∨
    (s.daemonPhase = .reading [] ∧ left = [] ∧ s.toDaemon = [])

/-- The call a result belongs to. -/
def callOf (r : T × Request × Outcome) : T × Request := (r.1, r.2.1)

/-- Where the two ends of the connection stand. -/
inductive Synced (s : Connection T D) : Prop
  /-- The connection is gone, and no later call touches it. -/
  | lost (hconn : s.connected = false) (hclient : s.client = .idle)
      (hcalls : s.calls = s.returned.map callOf)
  /-- Between two calls nothing is under way. -/
  | between (hclient : s.client = .idle) (hcalls : s.calls = s.returned.map callOf)
      (hserved : s.served.length = s.returned.length) (htoClient : s.toClient = [])
      (hdaemon : s.daemonPhase = .closed ∨ (s.daemonPhase = .reading [] ∧ s.toDaemon = []))
  /-- What the daemon has, what is on its way and what is still to be written make up the
  request. -/
  | asking (thread : T) (req : Request) (left : List UInt8) (hconn : s.connected = true)
      (hclient : Asking s.client thread req left)
      (hcalls : s.calls = s.returned.map callOf ++ [(thread, req)]) (hsends : SendsWhole req)
      (hserved : s.served.length = s.returned.length) (htoClient : s.toClient = [])
      (hdaemon : s.daemonPhase = .closed ∨ ∃ got, s.daemonPhase = .reading got ∧
        got ++ s.toDaemon ++ left = req.writeTo)
  /-- What the client has, what is on its way and what is still to be written make up the
  response to the request. -/
  | answering (thread : T) (req : Request) (got : List UInt8) (before : List (Request × Response))
      (resp : Response) (left : List UInt8) (hconn : s.connected = true)
      (hclient : s.client = .reading thread req got)
      (hcalls : s.calls = s.returned.map callOf ++ [(thread, req)])
      (hserved : s.served = before ++ [(req, resp)]) (hbefore : before.length = s.returned.length)
      (hsafe : HeaderSafe resp.encodeBody.length)
      (hstream : got ++ s.toClient ++ left = resp.writeTo) (hdaemon : Sending s left)

structure Inv (s : Connection T D) : Prop where
  paired : Paired s
  quiet : QuietAfterFailure s
  noFailure : s.connected = true → .failed ∉ s.io
  synced : Synced s

theorem inv_new (connected : Bool) (daemon : DaemonState D) :
    Inv (Connection.new connected daemon : Connection T D) where
  paired := fun n thread req result hreturned => by simp [Connection.new] at hreturned
  quiet := fun pre post hio => by simp [Connection.new] at hio
  noFailure := fun _ hfailed => by simp [Connection.new] at hfailed
  synced := .between rfl rfl rfl rfl (Or.inr ⟨rfl, rfl⟩)

/-! ## What was observed -/

section Observed

variable {s s' : Connection T D}

theorem getElem?_mono {α : Type} {xs ys : List α} {n : Nat} {x : α} (h : xs <+: ys)
    (hn : xs[n]? = some x) : ys[n]? = some x := by
  obtain ⟨zs, rfl⟩ := h
  rw [List.getElem?_append_left (List.getElem?_eq_some_iff.mp hn).1, hn]

/-- Longer records of calls and served requests do not unpair anything. -/
theorem Paired.mono (h : Paired s) (hreturned : s'.returned = s.returned)
    (hcalls : s.calls <+: s'.calls) (hserved : s.served <+: s'.served) : Paired s' := by
  intro n thread req result hn
  rw [hreturned] at hn
  obtain ⟨hcall, resp, hresp, hresult⟩ := h n thread req result hn
  exact ⟨getElem?_mono hcalls hcall, resp, getElem?_mono hserved hresp, hresult⟩

/-- A call returns: paired if it is the oldest that did not, and was served with its answer. -/
theorem Paired.finish (h : Paired s) {thread : T} {req : Request} {outcome : Outcome}
    (hcall : s.calls = s.returned.map callOf ++ [(thread, req)])
    (hanswered : ∀ result, outcome = .answered result →
      ∃ resp, s.served[s.returned.length]? = some (req, resp) ∧ resp.intoResult = result) :
    Paired (finish s thread req outcome) := by
  intro n thread' req' result hn
  simp only [Bridge.finish] at hn ⊢
  rcases Nat.lt_trichotomy n s.returned.length with hlt | rfl | hgt
  · rw [List.getElem?_append_left hlt] at hn
    exact h n thread' req' result hn
  · rw [List.getElem?_concat_length] at hn
    cases hn
    refine ⟨?_, hanswered result rfl⟩
    rw [hcall, List.getElem?_append_right (by simp)]
    simp
  · rw [List.getElem?_eq_none (by simp; omega)] at hn
    cases hn

theorem quiet_of_noFailure (h : ClientIo.failed ∉ s.io) : QuietAfterFailure s := by
  intro pre post hio
  exact absurd (by simp [hio]) h

theorem quiet_concat_failed (h : ClientIo.failed ∉ s.io) (hio : s'.io = s.io ++ [.failed]) :
    QuietAfterFailure s' := by
  intro pre post hsplit
  rw [hio] at hsplit
  rcases List.eq_nil_or_concat post with rfl | ⟨init, last, rfl⟩
  · rfl
  · -- an earlier failure would be among the reads and writes before
    rw [List.concat_eq_append, ← List.cons_append, ← List.append_assoc] at hsplit
    have hinit := (List.append_inj' hsplit rfl).1
    exact absurd (by simp [hinit]) h

end Observed

/-! ## One step -/

section Steps

variable {hip : HipLib D} {s s' : Connection T D}

/-- The client's read or write fails, and the connection is poisoned. -/
theorem inv_poison (hpaired : Paired s) (hno : .failed ∉ s.io) {thread : T} {req : Request}
    {outcome : Outcome} (hcalls : s.calls = s.returned.map callOf ++ [(thread, req)])
    (houtcome : ∀ result, outcome ≠ .answered result) :
    Inv (poison s thread req outcome) where
  paired := Paired.finish (s := { s with connected := false, io := s.io ++ [.failed] }) hpaired
    hcalls fun result h => absurd h (houtcome result)
  quiet := quiet_concat_failed hno rfl
  noFailure := fun hconn => by cases hconn
  synced := .lost rfl rfl (by simp [poison, finish, hcalls, callOf])

/-- The steps that move bytes in a part of the state the records do not show. -/
theorem Inv.of_synced (h : Inv s) (hconn : s'.connected = s.connected)
    (hreturned : s'.returned = s.returned) (hcalls : s.calls <+: s'.calls)
    (hserved : s.served <+: s'.served) (hio : .failed ∉ s.io → .failed ∉ s'.io)
    (hquiet : .failed ∈ s.io → s'.io = s.io) (hsynced : Synced s') : Inv s' where
  paired := h.paired.mono hreturned hcalls hserved
  quiet := by
    by_cases hfailed : .failed ∈ s.io
    · unfold QuietAfterFailure
      rw [hquiet hfailed]
      exact h.quiet
    · exact quiet_of_noFailure (hio hfailed)
  noFailure := fun hconn' => hio (h.noFailure (hconn ▸ hconn'))
  synced := hsynced

/-- While the mutex is free every call has returned, and nothing is under way. -/
theorem Synced.of_idle (h : Synced s) (hidle : s.client = .idle) :
    s.calls = s.returned.map callOf ∧ (s.connected = true →
      s.served.length = s.returned.length ∧ s.toClient = [] ∧
      (s.daemonPhase = .closed ∨ (s.daemonPhase = .reading [] ∧ s.toDaemon = []))) := by
  cases h with
  | lost hlost _ hcalls =>
    refine ⟨hcalls, fun hconn => ?_⟩
    rw [hconn] at hlost
    cases hlost
  | between _ hcalls hserved htoClient hdaemon =>
    exact ⟨hcalls, fun _ => ⟨hserved, htoClient, hdaemon⟩⟩
  | asking thread req left _ hclient =>
    rcases hclient with ⟨hclient, -⟩ | ⟨hclient, -⟩ <;> rw [hidle] at hclient <;> cases hclient
  | answering thread req got before resp left _ hclient =>
    rw [hidle] at hclient
    cases hclient

/-- A thread gets the mutex. -/
theorem Inv.call (h : Inv s) {thread : T} {req : Request}
    (hsends : s.client = .idle → s.connected = true → SendsWhole req) :
    Inv (step hip s (.call thread req)) := by
  simp only [step]
  split
  case h_2 => exact h
  case h_1 hidle =>
    obtain ⟨hcalls, hquietWire⟩ := h.synced.of_idle hidle
    simp only [beginCall]
    split
    case isTrue hconn =>
      obtain ⟨hserved, htoClient, hdaemon⟩ := hquietWire hconn
      refine h.of_synced rfl rfl (List.prefix_append _ _) List.prefix_rfl id (fun _ => rfl) ?_
      refine .asking thread req req.writeTo hconn (Or.inl ⟨rfl, List.cons_ne_nil _ _⟩)
        (by rw [hcalls]) (hsends hidle hconn) hserved htoClient ?_
      rcases hdaemon with hclosed | ⟨hreading, htoDaemon⟩
      · exact Or.inl hclosed
      · exact Or.inr ⟨[], hreading, by simp [htoDaemon]⟩
    case isFalse hconn =>
      -- a connection that was lost is not touched: the call returns at once
      have hpaired : Paired { s with calls := s.calls ++ [(thread, req)] } :=
        h.paired.mono rfl (List.prefix_append _ _) List.prefix_rfl
      exact {
        paired := hpaired.finish (by rw [hcalls]) fun result hresult => by cases hresult
        quiet := h.quiet
        noFailure := fun hconn' => absurd hconn' hconn
        synced := .lost (Bool.eq_false_iff.mpr hconn) rfl (by simp [finish, hcalls, callOf]) }

/-- The client writes a byte of its request. -/
theorem Inv.clientWrites (h : Inv s) : Inv (step hip s .clientWrites) := by
  simp only [step]
  split
  case h_2 => exact h
  case h_1 thread req b left hwriting =>
    have hio : .failed ∉ s.io → .failed ∉ s.io ++ [.wrote b] := by simp
    cases h.synced with
    | lost _ hclient | between hclient | answering _ _ _ _ _ _ _ hclient =>
      rw [hwriting] at hclient
      cases hclient
    | asking thread' req' left' hconn hclient hcalls hsends hserved htoClient hdaemon =>
      rcases hclient with ⟨hclient, -⟩ | ⟨hclient, -⟩
      · rw [hwriting] at hclient
        cases hclient
        -- the byte moves from what is left to what is on its way
        refine h.of_synced rfl rfl List.prefix_rfl List.prefix_rfl hio
          (fun hfailed => absurd hfailed (h.noFailure hconn)) ?_
        refine .asking thread req left hconn ?_ hcalls hsends hserved htoClient ?_
        · by_cases hleft : left = []
          · exact Or.inr ⟨if_pos hleft, hleft⟩
          · exact Or.inl ⟨if_neg hleft, hleft⟩
        · rcases hdaemon with hclosed | ⟨got, hreading, hframe⟩
          · exact Or.inl hclosed
          · exact Or.inr ⟨got, hreading, by rw [← hframe]; simp [writeByte]⟩
      · rw [hwriting] at hclient
        cases hclient

/-- The client reads a byte. What it has is the front of the response to its own request, so
what it makes of it is that response, once it is whole, or an error. -/
theorem Inv.clientReads (h : Inv s) : Inv (step hip s .clientReads) := by
  simp only [step]
  split
  case h_2 => exact h
  case h_1 thread req got b toClient hreading hbyte =>
    have hio : .failed ∉ s.io → .failed ∉ s.io ++ [.read b] := by simp
    cases h.synced with
    | lost _ hclient | between hclient =>
      rw [hreading] at hclient
      cases hclient
    | asking _ _ _ _ _ _ _ _ htoClient =>
      rw [hbyte] at htoClient
      cases htoClient
    | answering thread' req' got' before resp left hconn hclient hcalls hserved hbefore hsafe
        hstream hdaemon =>
      rw [hreading] at hclient
      cases hclient
      rw [hbyte] at hstream
      have hframe : (got ++ [b]) ++ toClient ++ left = resp.writeTo := by
        rw [← hstream]
        simp
      have hprefix : got ++ [b] <+: resp.writeTo := ⟨toClient ++ left, by simpa using hframe⟩
      have hno := h.noFailure hconn
      simp only [readByte]
      -- and the front of a response as that response or as an error
      rcases Response.readFrom_prefix hsafe hprefix with ⟨hwhole, hread⟩ | ⟨e, hread⟩
      · -- the response is whole: nothing of it is left on the way
        obtain ⟨htoClient, hleft⟩ : toClient = [] ∧ left = [] := by
          rw [← hwhole, List.append_assoc, List.append_right_eq_self] at hframe
          exact List.append_eq_nil_iff.mp hframe
        rw [hread]
        have hnext : s.served[s.returned.length]? = some (req, resp) := by
          rw [hserved, ← hbefore, List.getElem?_concat_length]
        have hpaired : Paired { s with toClient, io := s.io ++ [.read b] } :=
          h.paired.mono rfl List.prefix_rfl List.prefix_rfl
        exact {
          paired := hpaired.finish hcalls fun result hresult => by
            cases hresult
            exact ⟨resp, hnext, rfl⟩
          quiet := quiet_of_noFailure (hio hno)
          noFailure := fun _ => hio hno
          synced := by
            refine .between rfl (by simp [finish, hcalls, callOf]) ?_ htoClient ?_
            · simp [finish, hserved, hbefore]
            · rcases hdaemon with hclosed | ⟨-, hne, -⟩ | ⟨hreading, -, htoDaemon⟩
              · exact Or.inl hclosed
              · exact absurd hleft hne
              · exact Or.inr ⟨hreading, htoDaemon⟩ }
      · rw [hread]
        split
        case h_1 heq => cases heq
        case h_3 hother heq =>
          cases heq
          exact (hother e rfl).elim
        case h_2 e' _ =>
          split
          case isTrue =>
            -- it ends too early: the client waits for the rest
            refine h.of_synced rfl rfl List.prefix_rfl List.prefix_rfl hio
              (fun hfailed => absurd hfailed hno) ?_
            exact .answering thread req (got ++ [b]) before resp left hconn rfl hcalls hserved
              hbefore hsafe hframe hdaemon
          case isFalse =>
            have hpaired : Paired { s with toClient, io := s.io ++ [.read b] } :=
              h.paired.mono rfl List.prefix_rfl List.prefix_rfl
            exact inv_poison hpaired (hio hno) hcalls fun result hresult => by cases hresult

/-- The client's read or write fails. -/
theorem Inv.clientFails (h : Inv s) {e : IoError} : Inv (step hip s (.clientFails e)) := by
  have hbusy : ∀ {thread req}, s.connected = true ∧
      s.calls = s.returned.map callOf ++ [(thread, req)] → ∀ {outcome},
      (∀ result, outcome ≠ Outcome.answered result) → Inv (poison s thread req outcome) :=
    fun hcall _ houtcome => inv_poison h.paired (h.noFailure hcall.1) hcall.2 houtcome
  simp only [step]
  split
  case h_3 => exact h
  case h_1 thread req left hwriting =>
    refine hbusy ?_ fun result hresult => by cases hresult
    cases h.synced with
    | lost _ hclient | between hclient | answering _ _ _ _ _ _ _ hclient =>
      rw [hwriting] at hclient
      cases hclient
    | asking thread' req' left' hconn hclient hcalls =>
      rcases hclient with ⟨hclient, -⟩ | ⟨hclient, -⟩ <;> rw [hwriting] at hclient <;>
        cases hclient
      exact ⟨hconn, hcalls⟩
  case h_2 thread req got hreading =>
    refine hbusy ?_ fun result hresult => by cases hresult
    cases h.synced with
    | lost _ hclient | between hclient =>
      rw [hreading] at hclient
      cases hclient
    | asking thread' req' left' hconn hclient hcalls =>
      rcases hclient with ⟨hclient, -⟩ | ⟨hclient, -⟩ <;> rw [hreading] at hclient <;>
        cases hclient
      exact ⟨hconn, hcalls⟩
    | answering thread' req' got' before resp left hconn hclient hcalls =>
      rw [hreading] at hclient
      cases hclient
      exact ⟨hconn, hcalls⟩

/-- Serving leaves the client's side and the records of the calls alone. -/
theorem serveByte_frame (got : List UInt8) (b : UInt8) (toDaemon : List UInt8) :
    let s' := serveByte hip s got b toDaemon
    s'.connected = s.connected ∧ s'.client = s.client ∧ s'.calls = s.calls ∧
      s'.returned = s.returned ∧ s'.io = s.io ∧ s.served <+: s'.served := by
  simp only [serveByte]
  split
  · split
    · exact ⟨rfl, rfl, rfl, rfl, rfl, List.prefix_append _ _⟩
    · exact ⟨rfl, rfl, rfl, rfl, rfl, List.prefix_rfl⟩
  · split <;> exact ⟨rfl, rfl, rfl, rfl, rfl, List.prefix_rfl⟩

/-- A daemon with a byte to read is behind a client that is asking: what it has, the byte and
what follows it make up the request. -/
theorem Synced.of_daemonReading (h : Synced s) (hconn : s.connected = true)
    {got toDaemon : List UInt8} {b : UInt8} (hreading : s.daemonPhase = .reading got)
    (hbyte : s.toDaemon = b :: toDaemon) :
    ∃ thread req left, Asking s.client thread req left ∧
      s.calls = s.returned.map callOf ++ [(thread, req)] ∧ SendsWhole req ∧
      s.served.length = s.returned.length ∧ s.toClient = [] ∧
      (got ++ [b]) ++ toDaemon ++ left = req.writeTo := by
  cases h with
  | lost hlost =>
    rw [hconn] at hlost
    cases hlost
  | between _ _ _ _ hdaemon =>
    rcases hdaemon with hclosed | ⟨-, htoDaemon⟩
    · rw [hreading] at hclosed
      cases hclosed
    · rw [hbyte] at htoDaemon
      cases htoDaemon
  | answering _ _ _ _ _ _ _ _ _ _ _ _ _ hdaemon =>
    rcases hdaemon with hclosed | ⟨hwriting, -⟩ | ⟨-, -, htoDaemon⟩
    · rw [hreading] at hclosed
      cases hclosed
    · rw [hreading] at hwriting
      cases hwriting
    · rw [hbyte] at htoDaemon
      cases htoDaemon
  | asking thread req left _ hclient hcalls hsends hserved htoClient hdaemon =>
    rcases hdaemon with hclosed | ⟨got', hreading', hframe⟩
    · rw [hreading] at hclosed
      cases hclosed
    · rw [hreading] at hreading'
      cases hreading'
      refine ⟨thread, req, left, hclient, hcalls, hsends, hserved, htoClient, ?_⟩
      rw [← hframe, hbyte]
      simp

/-- The daemon reads a byte. What it has is the front of the request of the call under way, so
what it serves is that request, once it is whole. -/
theorem Inv.daemonReads (htexts : ShortTexts hip) (h : Inv s)
    (hserves : WholeFrames hip s .daemonReads) : Inv (step hip s .daemonReads) := by
  simp only [step]
  split
  case h_2 => exact h
  case h_1 got b toDaemon hreading hbyte =>
    obtain ⟨hconn', hclient', hcalls', hreturned', hio', hserved'⟩ :=
      @serveByte_frame T D hip s got b toDaemon
    refine h.of_synced hconn' hreturned' (hcalls' ▸ List.prefix_rfl) hserved'
      (fun hno => by rwa [hio']) (fun _ => hio') ?_
    cases hconn : s.connected with
    | false =>
      cases h.synced with
      | lost _ hclient hcalls | between hclient hcalls =>
        exact .lost (hconn'.trans hconn) (hclient'.trans hclient)
          (by rw [hcalls', hreturned', hcalls])
      | asking _ _ _ hconn'' | answering _ _ _ _ _ _ hconn'' =>
        rw [hconn] at hconn''
        cases hconn''
    | true =>
      obtain ⟨thread, req, left, hclient, hcalls, hsends, hserved, htoClient, hframe⟩ :=
        h.synced.of_daemonReading hconn hreading hbyte
      have hprefix : got ++ [b] <+: req.writeTo := ⟨toDaemon ++ left, by simpa using hframe⟩
      simp only [serveByte]
      -- the front of a request reads as that request or as an error, never as another request
      rcases Request.readFrom_prefix hsends hprefix with ⟨hwhole, hle, hread⟩ | ⟨f, hread⟩
      · -- the request is whole: the client has written all of it and waits
        obtain ⟨htoDaemon, hleft⟩ : toDaemon = [] ∧ left = [] := by
          rw [← hwhole, List.append_assoc, List.append_right_eq_self] at hframe
          exact List.append_eq_nil_iff.mp hframe
        have hwaits : s.client = .reading thread req [] := by
          rcases hclient with ⟨-, hne⟩ | ⟨hwaits, -⟩
          · exact absurd hleft hne
          · exact hwaits
        have hserve := hserves hconn got b toDaemon req [] hreading hbyte hread
        simp only [hread]
        cases hhandle : handleRequest hip s.daemon req with
        | ok answer =>
          obtain ⟨resp, daemon⟩ := answer
          have hsafe := (servesWhole_iff htexts hle).mp hserve resp daemon hhandle
          exact .answering thread req [] s.served resp resp.writeTo hconn hwaits hcalls rfl hserved
            hsafe (by simp [htoClient]) (Or.inr (Or.inl ⟨rfl, List.cons_ne_nil _ _, htoDaemon⟩))
        | error f =>
          exact .asking thread req left hconn hclient hcalls hsends hserved htoClient (Or.inl rfl)
      · simp only [hread]
        split
        · exact .asking thread req left hconn hclient hcalls hsends hserved htoClient
            (Or.inr ⟨got ++ [b], rfl, hframe⟩)
        · exact .asking thread req left hconn hclient hcalls hsends hserved htoClient (Or.inl rfl)

/-- The daemon writes a byte of its response. -/
theorem Inv.daemonWrites (h : Inv s) : Inv (step hip s .daemonWrites) := by
  simp only [step]
  split
  case h_2 => exact h
  case h_1 b left hwriting =>
    refine h.of_synced rfl rfl List.prefix_rfl List.prefix_rfl id (fun _ => rfl) ?_
    cases h.synced with
    | lost hlost hclient hcalls => exact .lost hlost hclient hcalls
    -- only a daemon behind a client that waits for its answer is writing
    | between _ _ _ _ hdaemon =>
      rcases hdaemon with hclosed | ⟨hreading, -⟩
      · rw [hwriting] at hclosed
        cases hclosed
      · rw [hwriting] at hreading
        cases hreading
    | asking _ _ _ _ _ _ _ _ _ hdaemon =>
      rcases hdaemon with hclosed | ⟨got, hreading, -⟩
      · rw [hwriting] at hclosed
        cases hclosed
      · rw [hwriting] at hreading
        cases hreading
    | answering thread req got before resp left' hconn hclient hcalls hserved hbefore hsafe hstream
        hdaemon =>
      rcases hdaemon with hclosed | ⟨hwriting', -, htoDaemon⟩ | ⟨hreading, -⟩
      · rw [hwriting] at hclosed
        cases hclosed
      · rw [hwriting] at hwriting'
        cases hwriting'
        refine .answering thread req got before resp left hconn hclient hcalls hserved hbefore hsafe
          (by simpa using hstream) ?_
        by_cases hleft : left = []
        · exact Or.inr (Or.inr ⟨if_pos hleft, hleft, htoDaemon⟩)
        · exact Or.inr (Or.inl ⟨if_neg hleft, hleft, htoDaemon⟩)
      · rw [hwriting] at hreading
        cases hreading

/-- The daemon's read or write fails: whatever it has not written never comes. -/
theorem Inv.daemonFails (h : Inv s) : Inv (step hip s .daemonFails) := by
  refine h.of_synced rfl rfl List.prefix_rfl List.prefix_rfl id (fun _ => rfl) ?_
  cases h.synced with
  | lost hlost hclient hcalls => exact .lost hlost hclient hcalls
  | between hclient hcalls hserved htoClient =>
    exact .between hclient hcalls hserved htoClient (Or.inl rfl)
  | asking thread req left hconn hclient hcalls hsends hserved htoClient =>
    exact .asking thread req left hconn hclient hcalls hsends hserved htoClient (Or.inl rfl)
  | answering thread req got before resp left hconn hclient hcalls hserved hbefore hsafe hstream =>
    exact .answering thread req got before resp left hconn hclient hcalls hserved hbefore hsafe
      hstream (Or.inl rfl)

/-- Other connections change the tables and nothing of this one. -/
theorem Inv.elsewhere (h : Inv s) {daemon : DaemonState D} :
    Inv (step hip s (.elsewhere daemon)) := by
  refine h.of_synced rfl rfl List.prefix_rfl List.prefix_rfl id (fun _ => rfl) ?_
  cases h.synced with
  | lost hlost hclient hcalls => exact .lost hlost hclient hcalls
  | between hclient hcalls hserved htoClient hdaemon =>
    exact .between hclient hcalls hserved htoClient hdaemon
  | asking thread req left hconn hclient hcalls hsends hserved htoClient hdaemon =>
    exact .asking thread req left hconn hclient hcalls hsends hserved htoClient hdaemon
  | answering thread req got before resp left hconn hclient hcalls hserved hbefore hsafe hstream
      hdaemon =>
    exact .answering thread req got before resp left hconn hclient hcalls hserved hbefore hsafe
      hstream hdaemon

/-- **The step lemma.** -/
theorem inv_step (htexts : ShortTexts hip) (h : Inv s) {a : Action T D}
    (hwhole : WholeFrames hip s a) : Inv (step hip s a) := by
  cases a with
  | call thread req => exact h.call hwhole
  | clientWrites => exact h.clientWrites
  | clientReads => exact h.clientReads
  | clientFails e => exact h.clientFails
  | daemonReads => exact h.daemonReads htexts hwhole
  | daemonWrites => exact h.daemonWrites
  | daemonFails => exact h.daemonFails
  | elsewhere daemon => exact h.elsewhere

end Steps

/-- A request that is safe whatever state the daemon is in when it serves it. -/
def SafeRequest (req : Request) : Prop :=
  SendsWhole req ∧ ∀ handle offset len, req = .memcpyD2H handle offset len → HeaderSafe len.toNat

theorem SafeRequest.servesWhole {req : Request} (h : SafeRequest req) (hip : HipLib D)
    (daemon : DaemonState D) : ServesWhole hip daemon req := by
  cases req with
  | memcpyD2H handle offset len => exact Or.inl (h.2 handle offset len rfl)
  | _ => trivial

theorem calls_step {hip : HipLib D} {s : Connection T D} {a : Action T D} {c : T × Request}
    (hc : c ∈ (step hip s a).calls) : c ∈ s.calls ∨ a = .call c.1 c.2 := by
  have hkeep : ∀ {s' : Connection T D}, s'.calls = s.calls → c ∈ s'.calls → c ∈ s.calls :=
    fun hcalls hc' => hcalls ▸ hc'
  cases a with
  | call thread req =>
    simp only [step, beginCall] at hc
    split at hc
    · split at hc
      all_goals
        simp only [finish, List.mem_append, List.mem_singleton] at hc
        rcases hc with hc | rfl
        · exact Or.inl hc
        · exact Or.inr rfl
    · exact Or.inl hc
  | clientReads =>
    refine Or.inl (hkeep ?_ hc)
    simp only [step]
    split
    · simp only [readByte]
      split
      · rfl
      · split <;> rfl
      · rfl
    · rfl
  | daemonReads =>
    refine Or.inl (hkeep ?_ hc)
    simp only [step]
    split
    · exact (serveByte_frame _ _ _).2.2.1
    · rfl
  | clientWrites | clientFails | daemonWrites =>
    refine Or.inl (hkeep ?_ hc)
    simp only [step]
    split <;> rfl
  | daemonFails | elsewhere => exact Or.inl hc

/-- The condition holds all along a run that only sends safe requests. -/
theorem wholeFrames_of_requests {hip : HipLib D} (htexts : ShortTexts hip) {connected : Bool}
    {daemon : DaemonState D} {acts : List (Action T D)}
    (hsafe : ∀ thread req, .call thread req ∈ acts → SafeRequest req) :
    Along (step hip) (WholeFrames hip) (Connection.new connected daemon) acts := by
  have hwhole : ∀ (s : Connection T D) a, (Inv s ∧ ∀ c ∈ s.calls, SafeRequest c.2) →
      (∀ thread req, a = .call thread req → SafeRequest req) → WholeFrames hip s a := by
    rintro s a ⟨hinv, hcalls⟩ ha
    cases a with
    | call thread req => exact fun _ _ => (ha thread req rfl).1
    | daemonReads =>
      intro hconn got b toDaemon req rest hreading hbyte hread
      obtain ⟨thread, req', left, _, hcalls', hsends, _, _, hframe⟩ :=
        hinv.synced.of_daemonReading hconn hreading hbyte
      have hprefix : got ++ [b] <+: req'.writeTo := ⟨toDaemon ++ left, by simpa using hframe⟩
      -- the request read is the one the call under way wrote
      rcases Request.readFrom_prefix hsends hprefix with ⟨-, -, hread'⟩ | ⟨f, hread'⟩
      · rw [hread] at hread'
        cases hread'
        exact (hcalls (thread, req) (by simp [hcalls'])).servesWhole hip s.daemon
      · rw [hread] at hread'
        cases hread'
    | _ => trivial
  -- the invariant is carried with the safety of every call made so far
  refine along_of_inv (I := fun s => Inv s ∧ ∀ c ∈ s.calls, SafeRequest c.2)
    (P := fun _ a => ∀ thread req, a = .call thread req → SafeRequest req) ?_ hwhole
    ⟨inv_new connected daemon, fun c hc => by simp [Connection.new] at hc⟩ ?_
  · rintro s a ⟨hinv, hcalls⟩ ha
    refine ⟨inv_step htexts hinv (hwhole s a ⟨hinv, hcalls⟩ ha), fun c hc => ?_⟩
    rcases calls_step hc with hc | rfl
    · exact hcalls c hc
    · exact ha c.1 c.2 rfl
  · rw [along_iff_forall]
    rintro pre a post rfl thread req rfl
    exact hsafe thread req (by simp)

/-- **Request and response pairing.** In every run whose steps send no frame under a length field
that cuts it short, in every state: each answer a call returned is the daemon's response to that
very call, and a failed read or write is the last thing done to the connection. -/
theorem paired_of_wholeFrames (hip : HipLib D) (htexts : ShortTexts hip) (connected : Bool)
    (daemon : DaemonState D) (acts : List (Action T D))
    (hwhole : Along (step hip) (WholeFrames hip) (Connection.new connected daemon) acts) :
    Always (step hip) (fun s => Paired s ∧ QuietAfterFailure s)
      (Connection.new connected daemon) acts := by
  have hinv : Always (step hip) Inv (Connection.new connected daemon) acts :=
    always_of_along (fun s a h hP => inv_step htexts h hP) (inv_new connected daemon) hwhole
  exact hinv.imp fun s h => ⟨h.paired, h.quiet⟩

/-- A read that fails after the first byte of an answer, with a second thread waiting. -/
def brokenRead : List (Action Bool FlatDevice) :=
  requestSteps true (.malloc 64) ++
    [.call false .deviceCount, .daemonWrites, .clientReads, .daemonWrites, .daemonFails,
      .clientFails eofError, .call false .deviceCount, .clientReads]

theorem brokenRead_paired :
    Always (step flatHip) (fun s => Paired s ∧ QuietAfterFailure s)
      (Connection.new true (DaemonState.new FlatDevice.new)) brokenRead := by
  refine paired_of_wholeFrames flatHip shortTexts_flatHip true _ brokenRead
    (wholeFrames_of_requests shortTexts_flatHip fun thread req hcall => ?_)
  have hreq : req = .malloc 64 ∨ req = .deviceCount := by
    simp [brokenRead, requestSteps] at hcall
    tauto
  rcases hreq with rfl | rfl
  all_goals exact ⟨Or.inl (.of_le (by decide)), fun handle offset len heq => by cases heq⟩

/-! ## A copy of `2 ^ 32` bytes from the device -/

/-- The copy, from a block of that size that is handle 1. -/
def wholeBlockCopy : Request := .memcpyD2H 1 0 0x100000000

/-- The call, and as much of its response as the client takes for an empty one. -/
def truncatedCopy : List (Action Unit FlatDevice) :=
  requestSteps () wholeBlockCopy ++
    (List.replicate Response.okEmpty.writeTo.length .daemonWrites ++
      List.replicate Response.okEmpty.writeTo.length .clientReads)

/-- The daemon answers with `2 ^ 32` bytes. -/
theorem handleRequest_wholeBlockCopy : ∃ bytes : List UInt8, bytes.length = 0x100000000 ∧
    handleRequest flatHip flatBlock wholeBlockCopy = .ok (.ok bytes, flatBlock) := by
  refine ⟨HipLib.buffer (0x100000000 : UInt64).toNat fun _ => 0, HipLib.length_buffer _ _, ?_⟩
  exact handleRequest_flatBlock 0x100000000 (by decide)

/-- The length field of that response says 0, so the client returns an empty body, and the rest
of the response stays on the connection for the next call. -/
theorem truncatedCopy_not_paired :
    ¬ ∀ (hip : HipLib FlatDevice) (daemon : DaemonState FlatDevice)
        (acts : List (Action Unit FlatDevice)), ShortTexts hip →
      Always (step hip) (fun s => Paired s ∧ QuietAfterFailure s)
        (Connection.new true daemon) acts := by
  intro h
  obtain ⟨bytes, hlen, hserve⟩ := handleRequest_wholeBlockCopy
  have hwraps : bytes.length % 2 ^ 32 = 0 := by omega
  have hframe := writeTo_ok_wrapped hwraps
  have hne : bytes ≠ [] := by
    rintro rfl
    cases hlen
  -- after the header the client has its answer: an empty body, not the bytes it asked for
  have hpaired := (h flatHip flatBlock truncatedCopy shortTexts_flatHip).last.1
  rw [truncatedCopy, run_append, run_request () rfl rfl rfl rfl (by decide) hserve, run_append,
    @run_daemonWrites Unit FlatDevice flatHip _ _ bytes (by rw [hframe]) (by decide),
    @run_clientReads Unit FlatDevice flatHip _ () wholeBlockCopy .okEmpty []
      Response.okEmpty.writeTo [] rfl rfl (by decide) rfl (by decide)] at hpaired
  obtain ⟨-, resp, hresp, hresult⟩ := hpaired 0 () wholeBlockCopy (.ok []) rfl
  cases hresp
  cases hresult
  exact hne rfl

end HipBridge.Bridge
