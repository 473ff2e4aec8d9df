import HipBridge.Daemon.Watched
import HipBridge.Lib.Run
import HipBridge.Stub.Memory

/-!
# The bridge behaves like device memory

The game's device pointers are addresses of this process's making; behind each stands a block
the HIP library allocated in the daemon.

* **`FlatCopies`** — a library whose copies move exactly the bytes they are asked to.
* **`shadowed`** — a library that also remembers what was last copied to each byte.
* **`Traced`** — a session, with the block behind each allocation the game holds.
* **`Promise`** — what a call is promised of the library, of its size and of its kind.
* **`Correct`** — what a call does: copies inside an allocation reach exactly its bytes, and
  anything outside every allocation is refused and changes nothing.
-/

namespace HipBridge.Bridge

open Lib Daemon Stub
open Protocol (maxBodyLen)
open Unixlib (hipSuccess)

variable {D : Type}

/-! ## The library -/

/-- Copies on a device whose memory is `mem` succeed, and move exactly the bytes asked for. The
daemon has a buffer for every copy that fits a frame: without one its process would end, and the
connection with it. -/
structure FlatCopies (hip : HipLib D) (mem : D → FlatMemory) : Prop where
  toDevice : ∀ dst data d, (hip.memcpyHostToDevice dst data d).1 = HipLib.hipSuccess ∧
    mem (hip.memcpyHostToDevice dst data d).2 = FlatMemory.overwrite dst data (mem d)
  toHost : ∀ src len d, (hip.memcpyDeviceToHost src len d).1 = HipLib.hipSuccess ∧
    (∀ i < len.toNat, (hip.memcpyDeviceToHost src len d).2.1 i = mem d (src + UInt64.ofNat i)) ∧
    mem (hip.memcpyDeviceToHost src len d).2.2 = mem d
  buffered : ∀ len d, len.toNat ≤ maxBodyLen → hip.CanBuffer len d

/-- What was last copied to each byte of the device, since its block was allocated. -/
abbrev Written := Ptr → Option UInt8

/-- `data` was copied to `dst`. -/
def record (dst : Ptr) (data : List UInt8) (w : Written) : Written :=
  fun a => if h : (a - dst).toNat < data.length then some data[(a - dst).toNat] else w a

/-- A block of `size` bytes was allocated at `ptr`. -/
def forget (ptr : Ptr) (size : UInt64) (w : Written) : Written :=
  fun a => if (a - ptr).toNat < size.toNat then none else w a

/-- The library, with what was last copied to each byte next to the device. -/
def shadowed (hip : HipLib D) : HipLib (D × Written) :=
  watched hip (fun size rc ptr w => if rc = HipLib.hipSuccess then forget ptr size w else w)
    (fun _ _ w => w)
    (fun dst data rc w => if rc = HipLib.hipSuccess then record dst data w else w)

/-! ## Runs -/

/-- The bytes the HIP library allocated for one `hipMalloc`. -/
structure Block where
  addr : Ptr
  size : UInt64
deriving DecidableEq

/-- No byte is in both blocks. -/
def Block.Disjoint (b b' : Block) : Prop :=
  b.addr.toNat + b.size.toNat ≤ b'.addr.toNat ∨ b'.addr.toNat + b'.size.toNat ≤ b.addr.toNat

theorem Block.Disjoint.symm {b b' : Block} (h : b.Disjoint b') : b'.Disjoint b := Or.symm h

/-- A session, and the block behind each pointer the game got from `hipMalloc` and did not
free. -/
structure Traced (D : Type) where
  session : Session (D × Written)
  live : BTreeMap Block

namespace Traced

/-- Before the first call. -/
def new (host : FlatMemory) (device : D) : Traced D := ⟨.new host (device, fun _ => none), ∅⟩

variable (s : Traced D)

def device : D := s.session.daemon.device.1

def written : Written := s.session.daemon.device.2

/-- `p` is at offset `k` of a live allocation, of which a byte is counted even if it has none. -/
def At (p base : Ptr) (block : Block) (k : UInt64) : Prop :=
  s.live.lookup base = some block ∧ base.toNat + k.toNat = p.toNat ∧
    k.toNat < max block.size.toNat 1

/-- `p` is outside every live allocation. -/
def Outside (p : Ptr) : Prop := ∀ base block k, ¬ s.At p base block k

end Traced

/-- The calls; a `hipMalloc` has an output pointer. -/
inductive DeviceCall
  | malloc (size : UInt64)
  | free (ptr : Ptr)
  | memcpy (dst src : Ptr) (size : UInt64) (kind : Int32)
deriving DecidableEq

/-- The code a call returns. -/
def DeviceCall.code (hip : HipLib D) (s : Traced D) : DeviceCall → Int32
  | .malloc size => (hipMalloc (shadowed hip) s.session false size).1
  | .free ptr => (hipFree (shadowed hip) s.session ptr).1
  | .memcpy dst src size kind => (memcpyForward (shadowed hip) s.session dst src size kind).1

/-- The session after a call, with the allocations the game holds. -/
def DeviceCall.step (hip : HipLib D) (s : Traced D) (call : DeviceCall) : Traced D :=
  match call with
  | .malloc size =>
    let (code, ptr, session) := hipMalloc (shadowed hip) s.session false size
    let block : Block := ⟨(hip.malloc size s.device).2.1, size⟩
    ⟨session, if code = hipSuccess then s.live.insert (ptr.getD 0) block else s.live⟩
  | .free ptr =>
    let (code, session) := hipFree (shadowed hip) s.session ptr
    ⟨session, if code = hipSuccess then s.live.erase ptr else s.live⟩
  | .memcpy dst src size kind =>
    ⟨(memcpyForward (shadowed hip) s.session dst src size kind).2, s.live⟩

section Statement

variable (hip : HipLib D) (mem : D → FlatMemory) (s : Traced D)

/-- The bytes of a block are the same on both devices. -/
def SameBytes (block : Block) (d d' : D) : Prop :=
  ∀ i < block.size.toNat,
    mem d' (block.addr + UInt64.ofNat i) = mem d (block.addr + UInt64.ofNat i)

/-- What a call is promised. An allocation succeeds with a block of its own, and there are
addresses left for it; a free succeeds; neither touches the other blocks. A copy is one between
host and device and fits a frame. -/
def Promise : DeviceCall → Prop
  | .malloc size =>
    (hip.malloc size s.device).1 = HipLib.hipSuccess ∧
    (hip.malloc size s.device).2.1.toNat + size.toNat ≤ 2 ^ 64 ∧
    (∀ base block, s.live.lookup base = some block →
      block.Disjoint ⟨(hip.malloc size s.device).2.1, size⟩ ∧
      SameBytes mem block s.device (hip.malloc size s.device).2.2) ∧
    s.session.space.nextBase.toNat + AddressSpace.reservedNat size < 2 ^ 64
  | .free ptr => ∀ block, s.live.lookup ptr = some block →
    (hip.free block.addr s.device).1 = HipLib.hipSuccess ∧
    ∀ base' block', base' ≠ ptr → s.live.lookup base' = some block' →
      SameBytes mem block' s.device (hip.free block.addr s.device).2
  | .memcpy _ _ size kind =>
    (kind = hipMemcpyHostToDevice ∧ 24 + size.toNat ≤ maxBodyLen) ∨
    (kind = hipMemcpyDeviceToHost ∧ size.toNat ≤ maxBodyLen)

variable (s' : Traced D)

/-- No device byte and no allocation changes. -/
structure Unchanged : Prop where
  bytes : mem s'.device = mem s.device
  live : s'.live = s.live
  space : s'.session.space = s.session.space
  handles : s'.session.daemon.handles = s.session.daemon.handles

/-- `data` goes to offset `k` of the block at `base` and nowhere else, least of all into another
block, and no allocation changes. -/
structure WrittenTo (base : Ptr) (block : Block) (k : UInt64) (data : List UInt8) : Prop where
  bytes : mem s'.device = FlatMemory.overwrite (block.addr + k) data (mem s.device)
  others : ∀ base' block', base' ≠ base → s.live.lookup base' = some block' →
    SameBytes mem block' s.device s'.device
  live : s'.live = s.live
  space : s'.session.space = s.session.space
  handles : s'.session.daemon.handles = s.session.daemon.handles

/-- The `size` bytes at offset `k` of a block go to `dst` in the host's memory; they are the
bytes that were last copied there. -/
structure ReadFrom (block : Block) (k : UInt64) (dst : Ptr) (size : UInt64) : Prop where
  host : s'.session.host = s.session.host.overwrite dst
    ((mem s.device).slice (block.addr + k) size.toNat)
  written : ∀ i < size.toNat, ∀ b, s.written (block.addr + k + UInt64.ofNat i) = some b →
    ((mem s.device).slice (block.addr + k) size.toNat)[i]? = some b
  unchanged : Unchanged mem s s'

/-- A copy whose device pointer is `p`: done if the range is inside a live allocation, refused
if `p` is outside all of them. -/
def CopyCorrect (code : Int32) (p : Ptr) (size : UInt64) (Done : Ptr → Block → UInt64 → Prop) :
    Prop :=
  (∀ base block k, s.At p base block k → k.toNat + size.toNat ≤ block.size.toNat →
    code = hipSuccess ∧ Done base block k) ∧
  (s.Outside p → code ≠ hipSuccess ∧ Unchanged mem s s')

/-- What a call does. `hipFree(NULL)` is the one call on an address outside every allocation
that succeeds, and it changes nothing either. -/
def Correct (call : DeviceCall) : Prop :=
  match call with
  | .malloc size => call.code hip s = hipSuccess ∧ ∃ base,
      (hipMalloc (shadowed hip) s.session false size).2.1 = some base ∧ s.Outside base ∧
      (call.step hip s).live = s.live.insert base ⟨(hip.malloc size s.device).2.1, size⟩
  | .free ptr =>
    (∀ block, s.live.lookup ptr = some block →
      call.code hip s = hipSuccess ∧ (call.step hip s).live = s.live.erase ptr) ∧
    (s.live.lookup ptr = none →
      (call.code hip s ≠ hipSuccess ↔ ptr ≠ 0) ∧ Unchanged mem s (call.step hip s))
  | .memcpy dst src size kind =>
    (kind = hipMemcpyHostToDevice → CopyCorrect mem s (call.step hip s) (call.code hip s) dst size
      fun base block k => WrittenTo mem s (call.step hip s) base block k
        (s.session.host.slice src size.toNat)) ∧
    (kind = hipMemcpyDeviceToHost → CopyCorrect mem s (call.step hip s) (call.code hip s) src size
      fun _ block k => ReadFrom mem s (call.step hip s) block k dst size)

end Statement

end HipBridge.Bridge
