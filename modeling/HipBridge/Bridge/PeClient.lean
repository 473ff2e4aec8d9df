import HipBridge.Daemon.HandleClient

/-!
# The interop spike's client (`pe-client/src/main.rs`)

`send_roundtrip` hand-codes its framing: a 32-bit length and the payload, both ways. It has no
opcode and no status byte.

* **`sendRoundtrip`**, **`receiveRoundtrip`** — what it writes, and what it makes of a reply.
* **`Agrees`** — the daemon takes what it writes for requests and answers with the payload.
* **`sendRoundtrip_never_agrees`** — no payload does, as long as `hipGetDeviceCount` succeeds.
-/

namespace HipBridge.Bridge

open Lib Protocol Daemon

variable {D : Type}

/-- The bytes `send_roundtrip` writes. -/
def sendRoundtrip (data : List UInt8) : List UInt8 := u32ToLe (UInt32.ofNat data.length) ++ data

/-- The half of `send_roundtrip` that reads: the reply's content and what is left. It finds room
for whatever the reply announces; a client that does not is gone with nothing read. -/
def receiveRoundtrip (s : List UInt8) : Io (List UInt8 × List UInt8) := do
  let (lenBuf, s) ← readExact 4 s
  let len := (u32FromLe lenBuf).toNat
  allocVec roomy 1 len
  readExact len s

/-- The daemon, alone with this client, serves one or more requests that together are all the
bytes of the payload's round trip, and the client takes what it gets for the payload. -/
def Agrees (hip : HipLib D) (s : DaemonState D) (data : List UInt8) : Prop :=
  ∃ n, let c := run (handleClient hip) (.accept s (sendRoundtrip data)) (List.replicate n .alone)
    0 < n ∧ c.status = .serving ∧ c.incoming = [] ∧
      ∃ rest, receiveRoundtrip c.sent = .ok (data, rest)

/-! ## Requests against replies -/

/-- A call that is in its loop after some iterations has only added to what it sent. -/
theorem sent_prefix_run (hip : HipLib D) (c : Client D) (turns : List (Turn D)) :
    c.sent <+: (run (handleClient hip) c turns).sent := by
  induction turns generalizing c with
  | nil => exact List.prefix_rfl
  | cons turn turns ih =>
    rw [run_cons]
    apply List.IsPrefix.trans _ (ih (handleClient hip c turn))
    unfold handleClient
    split
    case h_1 =>
      dsimp only
      split
      case h_1 => exact List.prefix_rfl
      case h_2 => exact List.prefix_rfl
      case h_3 => split <;> exact List.prefix_rfl
      case h_4 =>
        split
        case h_1 => exact List.prefix_rfl
        case h_2 => exact List.prefix_rfl
        case h_3 => exact List.prefix_rfl
        case h_4 =>
          split
          case h_1 => exact List.prefix_rfl
          -- only a response that is written adds to what was sent
          case h_2 => exact List.prefix_append _ _
    case h_2 => exact List.prefix_rfl

/-- A call that has left its loop does not enter it again. -/
theorem serving_of_run {hip : HipLib D} {c : Client D} {turns : List (Turn D)}
    (h : (run (handleClient hip) c turns).status = .serving) : c.status = .serving := by
  induction turns generalizing c with
  | nil => exact h
  | cons turn turns ih =>
    by_contra hstatus
    rw [run_cons, handleClient_stopped hip turn hstatus] at h
    exact hstatus (ih h)

/-- A reply that is taken for the payload starts with the byte the payload's round trip starts
with. -/
theorem head_of_receiveRoundtrip {sent data rest : List UInt8}
    (h : receiveRoundtrip sent = .ok (data, rest)) : sent.head? = (sendRoundtrip data).head? := by
  obtain ⟨⟨lenBuf, tail⟩, hlenBuf, hbody⟩ := Io.bind_eq_ok.mp h
  obtain ⟨-, -, hdata⟩ := Io.bind_eq_ok.mp hbody
  obtain ⟨hfour, rfl⟩ := readExact_eq_ok.mp hlenBuf
  obtain ⟨hlen, -⟩ := readExact_eq_ok.mp hdata
  -- the length in front of the reply is that of the payload
  have hheader : lenBuf = u32ToLe (UInt32.ofNat data.length) := by
    rw [hlen, UInt32.ofNat_toNat, u32ToLe_u32FromLe hfour]
  rw [sendRoundtrip, hheader, List.head?_append, List.head?_append]
  rfl

/-- A request that is read starts with its opcode. -/
theorem head_of_readFrom {s rest : List UInt8} {r : Request}
    (h : Request.readFrom s = .ok (r, rest)) : s.head? = some r.opcode := by
  have hcases := Request.readFrom_cases s
  rw [h] at hcases
  cases hcases with
  | request _ body _ hs =>
    rw [hs]
    rfl

/-- The one opcode that is also a status. -/
theorem eq_deviceCount_of_status {req : Request} {resp : Response}
    (h : resp.status = req.opcode) : req = .deviceCount ∧ ∃ msg, resp = .err msg := by
  cases resp with
  | ok body => cases req <;> simp [Response.status, Request.opcode] at h
  | err msg =>
    refine ⟨?_, msg, rfl⟩
    cases req <;> first | rfl | simp [Response.status, Request.opcode] at h

/-- Where client and daemon agree, the first request has an opcode that is also the status of
its response. -/
theorem Agrees.opcode_eq_status {hip : HipLib D} {s : DaemonState D} {data : List UInt8}
    (h : Agrees hip s data) :
    ∃ req rest resp s', Request.readFrom (sendRoundtrip data) = .ok (req, rest) ∧
      handleRequest hip s req = .ok (resp, s') ∧ resp.status = req.opcode := by
  obtain ⟨n, hn, hstatus, -, rest, hreceive⟩ := h
  obtain ⟨n, rfl⟩ : ∃ k, n = k + 1 := ⟨n - 1, by omega⟩
  rw [List.replicate_succ, run_cons] at hstatus hreceive
  have hserving := serving_of_run hstatus
  have hhead := head_of_receiveRoundtrip hreceive
  obtain ⟨more, hmore⟩ := sent_prefix_run hip
    (handleClient hip (.accept s (sendRoundtrip data)) .alone) (List.replicate n .alone)
  rw [← hmore] at hhead
  have hiterated := @handleClient_iterated D hip (.accept s (sendRoundtrip data)) .alone rfl
  generalize handleClient hip (.accept s (sendRoundtrip data)) .alone = c
    at hserving hiterated hhead
  cases hiterated with
  | closed _ _ hclosed => rw [hclosed] at hserving; cases hserving
  | crashed _ hcrashed => rw [hserving] at hcrashed; exact hcrashed.elim
  | served req left resp s' hread hserve =>
    refine ⟨req, left, resp, s', hread, hserve, ?_⟩
    have hopcode : (sendRoundtrip data).head? = some req.opcode := head_of_readFrom hread
    rw [hopcode] at hhead
    exact Option.some.inj hhead

/-- **The two framings never agree.** Whatever the payload, the daemon does not take its round
trip for requests whose responses are the payload behind its length: the byte in front is the
opcode of a request on one side and the status of its response on the other, which are equal
only where a `DeviceCount` fails. -/
theorem sendRoundtrip_never_agrees (hip : HipLib D) (s : DaemonState D)
    (hcount : (hip.getDeviceCount s.device).1 = HipLib.hipSuccess) (data : List UInt8) :
    ¬ Agrees hip s data := by
  intro h
  obtain ⟨req, rest, resp, s', -, hserve, hstatus⟩ := h.opcode_eq_status
  obtain ⟨rfl, msg, rfl⟩ := eq_deviceCount_of_status hstatus
  have hok : (hip.deviceCount s.device).1 = .ok (hip.getDeviceCount s.device).2.1 := by
    simp only [HipLib.deviceCount, hcount, ne_eq, not_true_eq_false, if_false]
  simp only [handleRequest] at hserve
  split at hserve
  case h_1 => cases hserve
  case h_2 heq =>
    rw [heq] at hok
    cases hok

/-- One byte against a device that works. -/
theorem sendRoundtrip_never_agrees_byte : ¬ Agrees flatHip (.new .new) [7] :=
  sendRoundtrip_never_agrees flatHip (.new .new) rfl [7]

/-- `IMAGE_BYTES`: 256 by 64 pixels of four bytes. -/
def imageBytes : Nat := 256 * 64 * 4

/-- `fill_pattern`, the payload `main` sends. -/
def fillPattern (seed : UInt8) : List UInt8 :=
  (List.range imageBytes).map fun i =>
    ((UInt32.ofNat i * 31 + seed.toUInt32 * 97) &&& 0xFF).toUInt8

/-- The payload of the spike itself: the daemon is at an opcode of 0. -/
theorem fillPattern_not_agrees : ¬ Agrees flatHip (.new .new) (fillPattern 1) := by
  intro h
  obtain ⟨req, rest, resp, s', hread, -, hstatus⟩ := h.opcode_eq_status
  obtain ⟨rfl, -⟩ := eq_deviceCount_of_status hstatus
  have hlength : (fillPattern 1).length = 65536 := by
    rw [fillPattern, List.length_map, List.length_range, imageBytes]
  have hhead := head_of_readFrom hread
  rw [sendRoundtrip, hlength] at hhead
  exact absurd (Option.some.inj hhead) (by decide)

end HipBridge.Bridge
