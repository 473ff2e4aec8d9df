import HipBridge.Daemon.FlatDevice
import HipBridge.Lib.Simulation
import HipBridge.Stub.Exports

/-!
# What the game is told when things go wrong

* **`PureStub`** — a runtime without a device: what `hip-stub` was before it had a daemon.
* **`disconnected_refines_pureStub`** — a process whose daemon was never reachable, or whose
  connection was given up, is such a runtime from then on.
* **`lastFailure`**, **`getLastError_latches`** — in every run, `hipGetLastError` returns the last
  error code that a call returned, however often it is read.
-/

namespace HipBridge.Stub

open Lib Protocol Daemon
open Unixlib (CallConfig Dim3 PopPointers PoppedConfig hipSuccess hipErrorNoDevice
  hipErrorNotSupported writeIf)

variable {T D : Type}

/-! ## Without a device -/

/-- What is left of the process: the last error, the ids of fat binaries, the configurations, and
the game's own memory. -/
structure PureStub (T : Type) where
  lastError : Int32
  nextFatbinId : UInt64
  tls : CallConfigStacks T
  host : FlatMemory

namespace PureStub

variable (q : PureStub T)

def failed (code : Int32) (answer : Answer) : Answer × PureStub T :=
  ({ answer with code := some code }, { q with lastError := code })

def afterConfig (code : Int32) (answer : Answer) (tls : CallConfigStacks T) :
    Answer × PureStub T :=
  if code = hipSuccess then ({ answer with code := some code }, { q with tls })
  else q.failed code answer

def call [DecidableEq T] (q : PureStub T) : StubExport T → Answer × PureStub T
  | .registerFatBinary _ =>
    ({ ptr := some q.nextFatbinId }, { q with nextFatbinId := q.nextFatbinId + 1 })
  | .registerFunction .. | .registerVar => ({}, q)
  | .pushCallConfiguration thread gridDim blockDim sharedMem stream =>
    let (code, tls) := hipPushCallConfiguration q.tls thread gridDim blockDim sharedMem stream
    q.afterConfig code {} tls
  | .popCallConfiguration thread ptrs =>
    let (code, config, tls) := hipPopCallConfiguration q.tls thread ptrs
    q.afterConfig code { config } tls
  | .getDeviceCount count => q.failed hipErrorNoDevice { int := writeIf count 0 }
  | .getDevicePropertiesR0600 .. | .setDevice _ => q.failed hipErrorNoDevice {}
  | .malloc ptrIsNull _ =>
    q.failed hipErrorNoDevice { ptr := if ptrIsNull then none else some 0 }
  | .deviceSynchronize => ({ code := some hipSuccess }, q)
  | .driverGetVersion version | .runtimeGetVersion version =>
    ({ code := some hipSuccess, int := writeIf version 0 }, q)
  | .getLastError => ({ code := some q.lastError }, q)
  | .getErrorString error => ({ str := some (hipGetErrorString error) }, q)
  | .free ptr =>
    if ptr = 0 then ({ code := some hipSuccess }, q) else q.failed hipErrorNotSupported {}
  | .memcpy .. | .memcpyAsync .. | .launchKernel .. | .memcpyToSymbol | .memset | .memsetAsync
  | .eventRecord | .eventSynchronize | .destroyExternalMemory => q.failed hipErrorNotSupported {}
  | .eventCreate out | .importExternalMemory out | .externalMemoryGetMappedBuffer out =>
    q.failed hipErrorNotSupported { ptr := writeIf out 0 }
  | .eventElapsedTime ms => q.failed hipErrorNotSupported { ms := writeIf ms 0 }

def step [DecidableEq T] (q : PureStub T) : GameStep T → Answer × PureStub T
  | .call c => q.call c
  | .write dst data => ({}, { q with host := q.host.overwrite dst data })

end PureStub

/-! ## Without a daemon -/

section Disconnected

variable {hip : HipLib D} {s : Session D}

theorem callBridge_disconnected (h : s.connected = false) (req : Request) :
    callBridge hip s req = (.error "hip-bridge-daemon not connected", s) := by
  unfold callBridge
  rw [h]
  rfl

theorem memcpyForward_disconnected (h : s.connected = false) (dst src : Ptr) (size : UInt64)
    (kind : Int32) : memcpyForward hip s dst src size kind
      = (hipErrorNotSupported, { s with lastError := hipErrorNotSupported }) := by
  unfold memcpyForward
  split
  case isTrue =>
    split
    · rfl
    · simp only [callBridge_disconnected h]
      rfl
  case isFalse =>
    split
    · split
      · rfl
      · simp only [callBridge_disconnected h]
        rfl
    · rfl

/-- The process is the runtime `q`; its daemon, if there still is one, is `daemon`. -/
structure Degraded (daemon : DaemonState D) (p : GameProcess T D) (q : PureStub T) : Prop where
  connected : p.connected = false
  lastError : p.lastError = q.lastError
  nextFatbinId : p.nextFatbinId = q.nextFatbinId
  tls : p.tls = q.tls
  host : p.host = q.host
  daemon : p.daemon = daemon

variable {daemon : DaemonState D} {p : GameProcess T D} {q : PureStub T}

/-- A call that fails, having changed at most the address space. -/
theorem Degraded.failed (h : Degraded daemon p q) (code : Int32) (answer : Answer)
    (space : AddressSpace) :
    let r : Answer × GameProcess T D := ({ answer with code := some code },
      p.withSession { p.toSession with space, lastError := code })
    r.1 = (q.failed code answer).1 ∧ Degraded daemon r.2 (q.failed code answer).2 :=
  ⟨rfl, h.connected, rfl, h.nextFatbinId, h.tls, h.host, h.daemon⟩

theorem Degraded.afterConfig (h : Degraded daemon p q) (code : Int32) (answer : Answer)
    (tls : CallConfigStacks T) :
    ({ answer with code := some code } : Answer) = (q.afterConfig code answer tls).1 ∧
      Degraded daemon (p.afterConfig code tls) (q.afterConfig code answer tls).2 := by
  unfold GameProcess.afterConfig PureStub.afterConfig
  split
  case isTrue => exact ⟨rfl, h.connected, h.lastError, h.nextFatbinId, rfl, h.host, h.daemon⟩
  case isFalse => exact h.failed code answer p.space

/-- **One call.** It answers as the runtime without a device. -/
theorem step_degraded [DecidableEq T] (h : Degraded daemon p q) (a : GameStep T) :
    (gameStep hip p a).1 = (q.step a).1 ∧ Degraded daemon (gameStep hip p a).2 (q.step a).2 := by
  cases a with
  | write dst data =>
    exact ⟨rfl, h.connected, h.lastError, h.nextFatbinId, h.tls,
      congrArg (FlatMemory.overwrite dst data) h.host, h.daemon⟩
  | call c =>
    cases c with
    | registerFatBinary data =>
      have hid : hipRegisterFatBinary hip p.toGame data
          = (p.nextFatbinId, { p.toGame with nextFatbinId := p.nextFatbinId + 1 }) := by
        unfold hipRegisterFatBinary
        dsimp only
        split
        · rfl
        · rw [callBridge_disconnected h.connected]
      simp only [gameStep, StubExport.exec, hid, PureStub.step, PureStub.call]
      rw [h.nextFatbinId]
      exact ⟨rfl, h.connected, h.lastError, rfl, h.tls, h.host, h.daemon⟩
    | registerFunction fatBin hostFn deviceName =>
      have hsame : hipRegisterFunction hip p.toGame fatBin hostFn deviceName = p.toGame := by
        unfold hipRegisterFunction
        split
        · rfl
        · rw [callBridge_disconnected h.connected]
      simp only [gameStep, StubExport.exec, hsame]
      exact ⟨rfl, h⟩
    | registerVar => exact ⟨rfl, h⟩
    | pushCallConfiguration thread gridDim blockDim sharedMem stream =>
      simp only [gameStep, StubExport.exec, PureStub.step, PureStub.call, h.tls]
      exact h.afterConfig _ {} _
    | popCallConfiguration thread ptrs =>
      simp only [gameStep, StubExport.exec, PureStub.step, PureStub.call, h.tls]
      exact h.afterConfig _ { config := _ } _
    | getDeviceCount count =>
      simp only [gameStep, StubExport.exec, hipGetDeviceCount, callBridge_disconnected h.connected]
      exact h.failed hipErrorNoDevice { int := writeIf count 0 } p.space
    | getDevicePropertiesR0600 props device =>
      simp only [gameStep, StubExport.exec, hipGetDevicePropertiesR0600,
        callBridge_disconnected h.connected]
      exact h.failed hipErrorNoDevice {} p.space
    | setDevice device =>
      simp only [gameStep, StubExport.exec, hipSetDevice, callBridge_disconnected h.connected]
      exact h.failed hipErrorNoDevice {} p.space
    | deviceSynchronize => exact ⟨rfl, h⟩
    | driverGetVersion version => exact ⟨rfl, h⟩
    | runtimeGetVersion version => exact ⟨rfl, h⟩
    | getErrorString error => exact ⟨rfl, h⟩
    | getLastError =>
      refine ⟨?_, h⟩
      show ({ code := some p.lastError } : Answer) = { code := some q.lastError }
      rw [h.lastError]
    | malloc ptrIsNull size =>
      simp only [gameStep, StubExport.exec, hipMalloc, callBridge_disconnected h.connected]
      exact h.failed hipErrorNoDevice { ptr := if ptrIsNull then none else some 0 } p.space
    | free ptr =>
      simp only [gameStep, StubExport.exec, hipFree, PureStub.step, PureStub.call]
      split
      case isTrue => exact ⟨rfl, h⟩
      case isFalse =>
        -- a range of before the connection was lost goes, and nothing else
        split
        case h_1 space _ => exact h.failed hipErrorNotSupported {} space
        case h_2 handle space _ =>
          have hgone : ({ p.toSession with space } : Session D).connected = false := h.connected
          simp only [callBridge_disconnected hgone]
          exact h.failed hipErrorNotSupported {} space
    | memcpy dst src size kind =>
      simp only [gameStep, StubExport.exec, hipMemcpy, memcpyForward_disconnected h.connected]
      exact h.failed hipErrorNotSupported {} p.space
    | memcpyAsync dst src size kind stream =>
      simp only [gameStep, StubExport.exec, hipMemcpyAsync, memcpyForward_disconnected h.connected]
      exact h.failed hipErrorNotSupported {} p.space
    | launchKernel function gridDim blockDim args sharedMem =>
      have hfailed : hipLaunchKernel hip p.toGame function gridDim blockDim args sharedMem
          = (hipErrorNotSupported, { p.toGame with lastError := hipErrorNotSupported }) := by
        unfold hipLaunchKernel
        dsimp only
        split
        · rfl
        · rw [callBridge_disconnected h.connected]
          rfl
      simp only [gameStep, StubExport.exec, hfailed]
      exact h.failed hipErrorNotSupported {} p.space
    | memcpyToSymbol | memset | memsetAsync | eventRecord | eventSynchronize
    | destroyExternalMemory => exact h.failed hipErrorNotSupported {} p.space
    | eventCreate out | importExternalMemory out | externalMemoryGetMappedBuffer out =>
      exact h.failed hipErrorNotSupported { ptr := writeIf out 0 } p.space
    | eventElapsedTime ms => exact h.failed hipErrorNotSupported { ms := writeIf ms 0 } p.space

end Disconnected

/-- **Without its daemon, `hip-stub` is the pure stub.** A process that is not connected answers
every call from then on as a runtime without a device; the daemon it was connected to serves it
nothing more, and its own memory is changed by the game alone. -/
theorem disconnected_refines_pureStub [DecidableEq T] (hip : HipLib D) (p : GameProcess T D)
    (hconnected : p.connected = false) (steps : List (GameStep T)) :
    let q : PureStub T := ⟨p.lastError, p.nextFatbinId, p.tls, p.host⟩
    let p' := run (after (gameStep hip)) p steps
    let q' := run (after PureStub.step) q steps
    answers (gameStep hip) p steps = answers PureStub.step q steps ∧
      p'.connected = false ∧ p'.daemon = p.daemon ∧ p'.host = q'.host := by
  intro q p' q'
  have hstart : Degraded p.daemon p q := ⟨hconnected, rfl, rfl, rfl, rfl, rfl⟩
  obtain ⟨hanswers, hend⟩ := lockstep (R := fun _ => Degraded p.daemon) (P := fun _ _ => True)
    (fun _ _ _ a h _ => step_degraded h a) (n := 0) hstart
    (along_of_forall (fun _ _ => trivial) steps)
  exact ⟨hanswers, hend.connected, hend.daemon, hend.host⟩

/-- A game that started without the daemon: no device, no block, and an error to read. -/
theorem disconnected_refines_pureStub_unreachable :
    let p : GameProcess Unit FlatDevice := .new (fun _ => 0) FlatDevice.new
    let p := p.withSession { p.toSession with connected := false }
    let steps : List (GameStep Unit) :=
      [.call (.getDeviceCount true), .call (.malloc false 16), .call .getLastError]
    answers (gameStep flatHip) p steps
      = [{ code := some 100, int := some 0 }, { code := some 100, ptr := some 0 },
          { code := some 100 }] := by
  intro p p steps
  exact (disconnected_refines_pureStub flatHip p rfl steps).1.trans (by decide)

/-! ## The last error -/

/-- The last error after a call. -/
def latch (last : Int32) (answer : Answer) : Int32 :=
  match answer.code with
  | some code => if code = hipSuccess then last else code
  | none => last

/-- The last error code that was returned, after `last`. -/
def lastFailure (last : Int32) (shown : List Answer) : Int32 := shown.foldl latch last

section LastError

variable (hip : HipLib D) (s : Session D)

/-- A call that failed has set the last error, and one that succeeded has not. -/
def Latched (s : Session D) (code : Int32) (s' : Session D) : Prop :=
  s'.lastError = if code = hipSuccess then s.lastError else code

variable {s} in
theorem latched_success {s' : Session D} (h : s'.lastError = s.lastError) :
    Latched s hipSuccess s' := by
  unfold Latched
  rw [if_pos rfl, h]

variable {s} in
theorem latched_noDevice (s' : Session D) :
    Latched s hipErrorNoDevice (setLastError s' hipErrorNoDevice).2 :=
  (if_neg (by decide)).symm

variable {s} in
theorem latched_notSupported (s' : Session D) :
    Latched s hipErrorNotSupported (setLastError s' hipErrorNotSupported).2 :=
  (if_neg (by decide)).symm

theorem lastError_callBridge (req : Request) :
    (callBridge hip s req).2.lastError = s.lastError := by
  unfold callBridge
  dsimp only
  repeat' split
  all_goals rfl

theorem hipMalloc_latched (ptrIsNull : Bool) (size : UInt64) :
    Latched s (hipMalloc hip s ptrIsNull size).1 (hipMalloc hip s ptrIsNull size).2.2 := by
  have hbridge := lastError_callBridge hip s (.malloc size)
  unfold hipMalloc
  generalize callBridge hip s (.malloc size) = r at hbridge ⊢
  obtain ⟨result, s'⟩ := r
  cases result with
  | ok body =>
    dsimp only
    split
    · split
      · exact latched_success hbridge
      · exact latched_success hbridge
    · exact latched_noDevice s'
  | error => exact latched_noDevice s'

theorem hipFree_latched (ptr : Ptr) : Latched s (hipFree hip s ptr).1 (hipFree hip s ptr).2 := by
  unfold hipFree
  split
  case isTrue => exact latched_success rfl
  case isFalse =>
    split
    case h_1 space _ => exact latched_notSupported _
    case h_2 handle space _ =>
      -- the range is gone before the round trip, whose error decides
      have hbridge := lastError_callBridge hip { s with space } (.free handle)
      generalize callBridge hip { s with space } (.free handle) = r at hbridge ⊢
      obtain ⟨result, s'⟩ := r
      cases result with
      | ok body => exact latched_success hbridge
      | error => exact latched_notSupported s'

theorem memcpyForward_latched (dst src : Ptr) (size : UInt64) (kind : Int32) :
    Latched s (memcpyForward hip s dst src size kind).1
      (memcpyForward hip s dst src size kind).2 := by
  unfold memcpyForward
  split
  case isTrue =>
    split
    case h_1 => exact latched_notSupported s
    case h_2 handle offset _ =>
      dsimp only
      have hbridge := lastError_callBridge hip s
        (.memcpyH2D handle offset (s.host.slice src size.toNat))
      generalize callBridge hip s (.memcpyH2D handle offset (s.host.slice src size.toNat)) = r
        at hbridge ⊢
      obtain ⟨result, s'⟩ := r
      cases result with
      | ok => exact latched_success hbridge
      | error => exact latched_notSupported s'
  case isFalse =>
    split
    case isTrue =>
      split
      case h_1 => exact latched_notSupported s
      case h_2 handle offset _ =>
        have hbridge := lastError_callBridge hip s (.memcpyD2H handle offset size)
        generalize callBridge hip s (.memcpyD2H handle offset size) = r at hbridge ⊢
        obtain ⟨result, s'⟩ := r
        cases result with
        | ok data =>
          dsimp only
          split
          · exact latched_success hbridge
          · exact latched_notSupported s'
        | error => exact latched_notSupported s'
    case isFalse => exact latched_notSupported s

theorem hipLaunchKernel_latched (g : Game D) (function : Ptr) (gridDim blockDim : Option Dim3)
    (args : Option Ptr) (sharedMem : UInt64) :
    let r := hipLaunchKernel hip g function gridDim blockDim args sharedMem
    Latched g.toSession r.1 r.2.toSession := by
  dsimp only
  unfold hipLaunchKernel
  dsimp only
  split
  case h_1 => exact latched_notSupported _
  case h_2 req _ =>
    have hbridge := lastError_callBridge hip g.toSession req
    generalize callBridge hip g.toSession req = r at hbridge ⊢
    obtain ⟨result, s'⟩ := r
    cases result with
    | ok => exact latched_success hbridge
    | error => exact latched_notSupported s'

/-- The calls that return no code leave the last error alone. -/
theorem lastError_registerFatBinary (g : Game D) (data : Ptr) :
    (hipRegisterFatBinary hip g data).2.lastError = g.lastError := by
  unfold hipRegisterFatBinary
  dsimp only
  split
  case h_1 => rfl
  case h_2 req _ =>
    have hbridge := lastError_callBridge hip g.toSession req
    generalize callBridge hip g.toSession req = r at hbridge ⊢
    obtain ⟨result, s'⟩ := r
    cases result with
    | ok body =>
      dsimp only
      split
      · exact hbridge
      · exact hbridge
    | error => exact hbridge

theorem lastError_registerFunction (g : Game D) (fatBin hostFn : Ptr)
    (deviceName : Option CString) :
    (hipRegisterFunction hip g fatBin hostFn deviceName).lastError = g.lastError := by
  unfold hipRegisterFunction
  split
  case h_1 => rfl
  case h_2 req _ =>
    have hbridge := lastError_callBridge hip g.toSession req
    generalize callBridge hip g.toSession req = r at hbridge ⊢
    obtain ⟨result, s'⟩ := r
    cases result with
    | ok body =>
      dsimp only
      split
      · exact hbridge
      · exact hbridge
    | error => exact hbridge

end LastError

/-- One call of the pair. -/
theorem lastError_afterConfig (p : GameProcess T D) (code : Int32) (tls : CallConfigStacks T) :
    (p.afterConfig code tls).lastError = if code = hipSuccess then p.lastError else code := by
  unfold GameProcess.afterConfig
  split <;> rfl

/-- **One call.** What it does to the last error can be read off its answer. -/
theorem step_latch [DecidableEq T] (hip : HipLib D) (p : GameProcess T D) (a : GameStep T) :
    (gameStep hip p a).2.lastError = latch p.lastError (gameStep hip p a).1 := by
  cases a with
  | write dst data => rfl
  | call c =>
    cases c with
    | registerFatBinary data => exact lastError_registerFatBinary hip p.toGame data
    | registerFunction fatBin hostFn deviceName =>
      exact lastError_registerFunction hip p.toGame fatBin hostFn deviceName
    | pushCallConfiguration => exact lastError_afterConfig p _ _
    | popCallConfiguration => exact lastError_afterConfig p _ _
    | getDeviceCount count =>
      have hbridge := lastError_callBridge hip p.toSession .deviceCount
      simp only [gameStep, StubExport.exec, hipGetDeviceCount]
      generalize callBridge hip p.toSession .deviceCount = r at hbridge ⊢
      obtain ⟨result, s'⟩ := r
      cases result with
      | ok body =>
        dsimp only
        split
        · exact latched_success hbridge
        · exact latched_noDevice (s := p.toSession) s'
      | error => exact latched_noDevice (s := p.toSession) s'
    | getDevicePropertiesR0600 props device =>
      have hbridge := lastError_callBridge hip p.toSession (.getDeviceProperties device)
      simp only [gameStep, StubExport.exec, hipGetDevicePropertiesR0600]
      generalize callBridge hip p.toSession (.getDeviceProperties device) = r at hbridge ⊢
      obtain ⟨result, s'⟩ := r
      cases result with
      | ok body =>
        dsimp only
        split
        · exact latched_success hbridge
        · exact latched_notSupported (s := p.toSession) s'
      | error => exact latched_noDevice (s := p.toSession) s'
    | setDevice device =>
      have hbridge := lastError_callBridge hip p.toSession (.setDevice device)
      simp only [gameStep, StubExport.exec, hipSetDevice]
      generalize callBridge hip p.toSession (.setDevice device) = r at hbridge ⊢
      obtain ⟨result, s'⟩ := r
      cases result with
      | ok body => exact latched_success hbridge
      | error => exact latched_noDevice (s := p.toSession) s'
    | getLastError =>
      show p.lastError = if p.lastError = hipSuccess then p.lastError else p.lastError
      rw [ite_self]
    | malloc ptrIsNull size => exact hipMalloc_latched hip p.toSession ptrIsNull size
    | free ptr => exact hipFree_latched hip p.toSession ptr
    | memcpy dst src size kind => exact memcpyForward_latched hip p.toSession dst src size kind
    | memcpyAsync dst src size kind =>
      exact memcpyForward_latched hip p.toSession dst src size kind
    | launchKernel function gridDim blockDim args sharedMem =>
      exact hipLaunchKernel_latched hip p.toGame function gridDim blockDim args sharedMem
    | registerVar | deviceSynchronize | driverGetVersion | runtimeGetVersion
    | getErrorString => rfl
    | memcpyToSymbol | memset | memsetAsync | eventRecord | eventSynchronize
    | destroyExternalMemory | eventCreate | importExternalMemory | externalMemoryGetMappedBuffer
    | eventElapsedTime => rfl

theorem lastError_run [DecidableEq T] (hip : HipLib D) (p : GameProcess T D)
    (steps : List (GameStep T)) :
    (run (after (gameStep hip)) p steps).lastError
      = lastFailure p.lastError (answers (gameStep hip) p steps) := by
  induction steps generalizing p with
  | nil => rfl
  | cons a steps ih =>
    show (run (after (gameStep hip)) (gameStep hip p a).2 steps).lastError = lastFailure
      (latch p.lastError (gameStep hip p a).1) (answers (gameStep hip) (gameStep hip p a).2 steps)
    rw [ih, step_latch]

/-- **The last error is latched.** In every run, with the daemon or without: `hipGetLastError`
returns the last error code that any call on any thread returned before it, if one did; and reading
it clears nothing, the rest of the run is as if it had not been read. -/
theorem getLastError_latches [DecidableEq T] (hip : HipLib D) (p : GameProcess T D)
    (before later : List (GameStep T)) :
    answers (gameStep hip) p (before ++ .call .getLastError :: later)
      = answers (gameStep hip) p before
        ++ { code := some (lastFailure p.lastError (answers (gameStep hip) p before)) }
        :: answers (gameStep hip) (run (after (gameStep hip)) p before) later := by
  rw [answers_append, ← lastError_run]
  rfl

end HipBridge.Stub
