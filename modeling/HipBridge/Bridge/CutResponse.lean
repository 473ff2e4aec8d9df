import HipBridge.Bridge.FreedTwice

/-!
# A response that is cut short

What `WholeResponse` keeps out of a run. A copy of `2 ^ 32` bytes from the device comes back under a
length field of 0: the stub has an error for it and goes on with the connection, and the next call
reads the bytes of the device where its answer should be.

* **`callBridge_unread`** — a call that finds something unread takes that for its answer.
* **`mistaken_handle`** — so an allocation is put in under the handle of another, and a copy into
  the one writes the block of the other.
* **`stale_pointers_not_safe`** — this, and the two frees of one base, are the runs in which a
  pointer does not get to the allocation that owns it.
-/

namespace HipBridge.Bridge

open Lib Protocol Daemon Stub
open Unixlib (hipErrorNotSupported)

/-- A call finds a whole response in front of its own, and leaves its own to the next. -/
theorem callBridge_unread {D : Type} {hip : HipLib D} {s : Session D} {req : Request}
    {early resp : Response} {daemon : DaemonState D} {rest : List UInt8}
    (hconn : s.connected = true) (hunread : s.unread = early.writeTo ++ rest)
    (hearly : early.encodeBody.length ≤ maxBodyLen) (hreq : req.encodeBody.length ≤ maxBodyLen)
    (hserve : handleRequest hip s.daemon req = .ok (resp, daemon)) :
    callBridge hip s req
      = (early.intoResult, { s with daemon, unread := rest ++ resp.writeTo }) := by
  have hread := req.readFrom_writeTo [] hreq
  rw [List.append_nil] at hread
  have hanswer := early.readFrom_writeTo (rest ++ resp.writeTo) hearly
  rw [← List.append_assoc, ← hunread] at hanswer
  simp only [callBridge, hconn, if_true, hread, hserve, hanswer]

/-- A buffer starts with the shorter one. -/
theorem buffer_append_drop {k n : Nat} (h : k ≤ n) (bytes : Nat → UInt8) :
    HipLib.buffer n bytes = HipLib.buffer k bytes ++ (HipLib.buffer n bytes).drop k := by
  have htake : (HipLib.buffer n bytes).take k = HipLib.buffer k bytes := by
    rw [HipLib.buffer, ← List.map_take, List.take_range, Nat.min_eq_left h]
    rfl
  rw [← htake, List.take_append_drop]

/-! ## The run -/

/-- Handle 1, as a response. -/
def firstHandle : Response := .ok (u64ToLe 1)

/-- A memory with that response where the first block will be. -/
def markedMemory : FlatMemory := FlatMemory.overwrite 0x10000 firstHandle.writeTo fun _ => 0

/-- A game whose own memory is all sevens, on a device with that memory. -/
def markedGame : Game FlatDevice := Game.new (fun _ => 7) ⟨0x10000, markedMemory⟩

/-- A block of 4 GiB, a copy of all of it, and another block. -/
def cutCalls : List (Bool × ThreadAct) :=
  callSteps true (.malloc false 0x100000000) ++
    callSteps true (.memcpy 0x4000 0x700000000000 0x100000000 hipMemcpyDeviceToHost) ++
    callSteps true (.malloc false 16)

/-- A copy of one byte into the second block. -/
def mistakenCopy : GameCall := .memcpy 0x700100001000 0x2000 1 hipMemcpyHostToDevice

/-- What a copy of the first 4 GiB of the device's memory reads. -/
def firstBytes (d : FlatDevice) : List UInt8 :=
  HipLib.buffer (0x100000000 : UInt64).toNat fun i => d.bytes (0x10000 + UInt64.ofNat i)

/-- That many bytes have a length field of 0. -/
theorem length_firstBytes (d : FlatDevice) : (firstBytes d).length = 2 ^ 32 := by
  rw [firstBytes, HipLib.length_buffer]
  decide

/-- On the marked memory they start with a response. -/
theorem firstBytes_marked {d : FlatDevice} (h : d.bytes = markedMemory) :
    ∃ rest, firstBytes d = firstHandle.writeTo ++ rest := by
  have hstart : HipLib.buffer 13 (fun i => markedMemory (0x10000 + UInt64.ofNat i))
      = firstHandle.writeTo := by decide +kernel
  rw [firstBytes, h, ← hstart]
  exact ⟨_, buffer_append_drop (by decide) _⟩

/-- The copy of the whole block is an error to the stub, and leaves its bytes on the connection. -/
theorem exec_cutCopy {g : Game FlatDevice} (hstep : g.InStep)
    (hresolve : g.space.resolve 0x700000000000 = some (1, 0))
    (hget : g.daemon.handles.get 1 = some 0x10000) :
    (GameCall.memcpy 0x4000 0x700000000000 0x100000000 hipMemcpyDeviceToHost).exec flatHip g =
      { g with lastError := hipErrorNotSupported, unread := firstBytes g.daemon.device } := by
  obtain ⟨hconnected, hunread⟩ := hstep
  have hserve : handleRequest flatHip g.daemon (.memcpyD2H 1 0 0x100000000)
      = .ok (.ok (firstBytes g.daemon.device), g.daemon) := by
    rw [handleRequest_memcpyD2H_known hget (canBuffer_flatHip (by decide))]
    rfl
  have hread := (Request.memcpyD2H 1 0 0x100000000).readFrom_writeTo [] (by
    rw [length_encodeBody_memcpyD2H]; decide)
  rw [List.append_nil] at hread
  -- the response reads as an empty one, with the bytes behind it
  have hanswer : Response.readFrom (Response.ok (firstBytes g.daemon.device)).writeTo
      = .ok (.okEmpty, firstBytes g.daemon.device) := by
    have hwraps : (firstBytes g.daemon.device).length % 2 ^ 32 = 0 := by
      rw [length_firstBytes, Nat.mod_self]
    rw [writeTo_ok_wrapped hwraps]
    exact Response.okEmpty.readFrom_writeTo _ (by decide)
  have hbridge : callBridge flatHip g.toSession (.memcpyD2H 1 0 0x100000000)
      = (.ok [], { g.toSession with unread := firstBytes g.daemon.device }) := by
    simp only [callBridge, hconnected, if_true, hread, hserve, hunread, List.nil_append, hanswer]
    rfl
  generalize firstBytes g.daemon.device = bytes at hbridge ⊢
  have hkind : hipMemcpyDeviceToHost ≠ hipMemcpyHostToDevice := by decide
  have hshort : ¬ ([] : List UInt8).length = (0x100000000 : UInt64).toNat := by decide
  simp only [GameCall.exec, memcpyForward, if_neg hkind, if_true, hresolve, hbridge, if_neg hshort]
  rfl

/-- The next allocation takes them for its answer: its range gets handle 1, whatever its block. -/
theorem exec_mistaken {g : Game FlatDevice} {rest : List UInt8} (hconn : g.connected = true)
    (hunread : g.unread = firstHandle.writeTo ++ rest) :
    ∃ unread, (GameCall.malloc false 16).exec flatHip g =
      { g with
        space := (g.space.allocate 1 16).2
        unread
        daemon := { g.daemon with
          handles := (g.daemon.handles.insert g.daemon.device.next).2
          device := { g.daemon.device with next := g.daemon.device.next + 16 } } } := by
  have hserve : handleRequest flatHip g.daemon (.malloc 16)
      = .ok (.ok (u64ToLe g.daemon.handles.nextId),
        { g.daemon with
          handles := (g.daemon.handles.insert g.daemon.device.next).2
          device := { g.daemon.device with next := g.daemon.device.next + 16 } }) := rfl
  have hbridge := callBridge_unread hconn hunread (by decide) (encodeBody_malloc_le 16) hserve
  refine ⟨rest ++ (Response.ok (u64ToLe g.daemon.handles.nextId)).writeTo, ?_⟩
  simp only [GameCall.exec, hipMalloc, hbridge]
  rfl

/-- What the daemon has after the three calls: two blocks, under two handles. -/
def cutDaemon : DaemonState FlatDevice :=
  { markedGame.daemon with
    handles := ((HandleTable.new.insert 0x10000).2.insert 0x100010000).2
    device := { markedGame.daemon.device with next := 0x100010010 } }

/-- What the game has: two ranges, under one. -/
theorem run_cutCalls :
    ∃ s unread,
      run (threadStep flatHip) (.start markedGame : ThreadedGame Bool FlatDevice) cutCalls = s ∧
      s.phase true = .idle ∧
      s.game =
        { markedGame with
          space := ((AddressSpace.new.allocate 1 0x100000000).2.allocate 1 16).2
          lastError := hipErrorNotSupported
          unread
          daemon := cutDaemon } := by
  have hidle : (.start markedGame : ThreadedGame Bool FlatDevice).phase true = .idle := rfl
  have hstart : (.start markedGame : ThreadedGame Bool FlatDevice).game = markedGame := rfl
  have hgame := run_callSteps flatHip hidle (.malloc false 0x100000000)
  have hphase := phase_run_callSteps flatHip hidle (.malloc false 0x100000000)
  rw [hstart, exec_malloc ⟨rfl, rfl⟩] at hgame
  rw [cutCalls, run_append, run_append]
  generalize run (threadStep flatHip) (.start markedGame)
    (callSteps true (.malloc false 0x100000000)) = s₁ at hgame hphase ⊢
  have hidle₁ : s₁.phase true = .idle := by rw [hphase, hidle]
  have hgame₂ := run_callSteps flatHip hidle₁
    (.memcpy 0x4000 0x700000000000 0x100000000 hipMemcpyDeviceToHost)
  have hphase₂ := phase_run_callSteps flatHip hidle₁
    (.memcpy 0x4000 0x700000000000 0x100000000 hipMemcpyDeviceToHost)
  rw [hgame, exec_cutCopy ⟨rfl, rfl⟩ (by decide) rfl] at hgame₂
  generalize run (threadStep flatHip) s₁ (callSteps true
    (.memcpy 0x4000 0x700000000000 0x100000000 hipMemcpyDeviceToHost)) = s₂
    at hgame₂ hphase₂ ⊢
  have hidle₂ : s₂.phase true = .idle := by rw [hphase₂, hidle₁]
  -- the bytes of the block are what the second allocation reads
  obtain ⟨rest, hrest⟩ := firstBytes_marked (congrArg (·.daemon.device.bytes) hgame)
  have hunread : s₂.game.unread = firstHandle.writeTo ++ rest := by
    rw [hgame₂, ← hrest, hgame]
  have hconn : s₂.game.connected = true := by
    rw [hgame₂]
    rfl
  obtain ⟨unread, hexec⟩ := exec_mistaken hconn hunread
  have hgame₃ := run_callSteps flatHip hidle₂ (.malloc false 16)
  have hphase₃ := phase_run_callSteps flatHip hidle₂ (.malloc false 16)
  rw [hexec] at hgame₃
  refine ⟨_, unread, rfl, ?_, ?_⟩
  · rw [hphase₃, hidle₂]
  · rw [hgame₃, hgame₂]
    rfl

/-- A copy into one allocation gets to the block of another: HIP has put the second block at
`0x100010000`, and it is the first that is written. -/
theorem mistaken_handle :
    Along (threadStep flatHip) (FewAllocations flatHip)
      (.start markedGame : ThreadedGame Bool FlatDevice)
      (cutCalls ++ [(true, .call mistakenCopy)]) ∧
    ∃ s space issued,
      run (threadStep flatHip) (.start markedGame) (cutCalls ++ [(true, .call mistakenCopy)]) = s ∧
      s.phase true = .roundTrip mistakenCopy (.memcpyH2D 1 0 [7]) space issued ∧
      s.game.daemon.handles.get 1 = some 0x10000 ∧
      s.game.daemon.handles.get 2 = some 0x100010000 ∧
      s.game.daemon.device.bytes 0x10000 = 0 ∧
      (threadStep flatHip s (true, .roundTrip)).game.daemon.device.bytes 0x10000 = 7 := by
  refine ⟨along_fewAllocations flatHip (by decide), ?_⟩
  obtain ⟨s, unread, hrun, hidle, hgame⟩ := run_cutCalls
  have hreq : mistakenCopy.request s.game = some (.memcpyH2D 1 0 [7]) := by
    rw [hgame]
    rfl
  have hasked := threadStep_asked flatHip hidle hreq
  refine ⟨_, s.game.space, s.issued, by rw [run_append, hrun, run_cons, run_nil], ?_⟩
  generalize threadStep flatHip s (true, .call mistakenCopy) = s' at hasked
  have hphase : s'.phase true
      = .roundTrip mistakenCopy (.memcpyH2D 1 0 [7]) s.game.space s.issued := by
    rw [hasked]
    exact Function.update_self true _ s.phase
  have hdaemon : s'.game.daemon = cutDaemon := by rw [hasked, hgame]
  have hconn : s'.game.connected = true := by
    rw [hasked, hgame]
    rfl
  refine ⟨hphase, by rw [hdaemon]; rfl, by rw [hdaemon]; rfl, ?_, ?_⟩
  · rw [hdaemon]
    show markedMemory 0x10000 = 0
    decide +kernel
  -- whatever the stub reads, the daemon has made the copy to the block of handle 1
  · have hserve : handleRequest flatHip s'.game.daemon (.memcpyH2D 1 0 [7])
        = .ok (.okEmpty, { cutDaemon with
          device := { cutDaemon.device with
            bytes := FlatMemory.overwrite 0x10000 [7] cutDaemon.device.bytes } }) := by
      rw [hdaemon]
      rfl
    rw [daemon_threadStep flatHip hphase, daemon_callBridge hconn (by decide) hserve]
    rfl

/-- The two ways past the conditions of a safe run. A base is handed out twice, and both its frees
get to `hipFree`; or an allocation has the handle of another. -/
theorem stale_pointers_not_safe :
    (Along (threadStep flatHip) (FewAllocations flatHip) threadedStart wrappedFrees ∧
      ReachesHipFree (run (threadStep flatHip) threadedStart wrappedFrees) false 0x700000000000 ∧
      ReachesHipFree (threadStep flatHip (run (threadStep flatHip) threadedStart wrappedFrees)
        (false, .roundTrip)) true 0x700000000000) ∧
    Along (threadStep flatHip) (FewAllocations flatHip)
      (.start markedGame : ThreadedGame Bool FlatDevice)
      (cutCalls ++ [(true, .call mistakenCopy)]) ∧
    ∃ s space issued,
      run (threadStep flatHip) (.start markedGame) (cutCalls ++ [(true, .call mistakenCopy)]) = s ∧
      s.phase true = .roundTrip mistakenCopy (.memcpyH2D 1 0 [7]) space issued ∧
      s.game.daemon.handles.get 1 = some 0x10000 ∧
      s.game.daemon.handles.get 2 = some 0x100010000 ∧
      s.game.daemon.device.bytes 0x10000 = 0 ∧
      (threadStep flatHip s (true, .roundTrip)).game.daemon.device.bytes 0x10000 = 7 := by
  obtain ⟨hfew, hfirst, -, hsecond⟩ := freed_twice
  exact ⟨⟨hfew, hfirst, hsecond⟩, mistaken_handle⟩

end HipBridge.Bridge
