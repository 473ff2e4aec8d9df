import HipBridge.Daemon.ResponseSize
import HipBridge.Lib.FlatMemory

/-!
# A device that is one flat byte array

A HIP library that can be run: blocks are cut off the front of the free memory one after the
other and never used again, copies move bytes, and nothing fails. The process that calls it has
64 GiB for a buffer.

* **`FlatDevice`**, **`flatHip`** — the device and its library.
* **`flatBlock`** — a daemon with one block on that device.
-/

namespace HipBridge.Daemon

open Lib

structure FlatDevice where
  next : Ptr
  bytes : FlatMemory

def flatHip : HipLib FlatDevice where
  canAlloc bytes _ := bytes ≤ 2 ^ 36
  sym _ := true
  dlerror := ""
  errorString _ := ""
  malloc size d := (0, d.next, { d with next := d.next + size })
  free _ d := (0, d)
  memcpyHostToDevice dst data d := (0, { d with bytes := FlatMemory.overwrite dst data d.bytes })
  memcpyDeviceToHost src _ d := (0, fun i => d.bytes (src + UInt64.ofNat i), d)
  getDeviceCount d := (0, 1, d)
  getDevicePropertiesR0600 _ d := (0, fun _ => 0, d)
  moduleLoadData _ d := (0, 0x2000, d)
  moduleGetFunction _ _ d := (0, 0x3000, d)
  moduleLaunchKernel _ _ _ _ _ d := (0, d)

theorem canBuffer_flatHip {len : UInt64} {d : FlatDevice} (h : len.toNat ≤ 2 ^ 36) :
    flatHip.CanBuffer len d :=
  ⟨Nat.le_trans h (by decide), Or.inr (decide_eq_true h)⟩

theorem shortTexts_flatHip : ShortTexts flatHip := ⟨fun _ => Nat.zero_le _, Nat.zero_le _⟩

/-- A device whose memory starts at `0x10000` and is all zero. -/
def FlatDevice.new : FlatDevice := ⟨0x10000, fun _ => 0⟩

/-- A daemon that has given out one block, the one at the start of that memory. -/
def flatBlock : DaemonState FlatDevice :=
  { DaemonState.new FlatDevice.new with handles := (HandleTable.new.insert 0x10000).2 }

/-- A read from the start of the block is answered with as many zeros. -/
theorem handleRequest_flatBlock (len : UInt64) (hle : len.toNat ≤ 2 ^ 36) :
    handleRequest flatHip flatBlock (.memcpyD2H 1 0 len)
      = .ok (.ok (HipLib.buffer len.toNat fun _ => 0), flatBlock) := by
  rw [handleRequest_memcpyD2H_known (rfl : flatBlock.handles.get 1 = some 0x10000)
    (canBuffer_flatHip hle)]
  rfl

end HipBridge.Daemon
