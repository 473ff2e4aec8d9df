import HipBridge.Lib.Simulation
import HipBridge.Unixlib.Registration

/-!
# The tables and several threads (`native.c`)

`registry_mutex` is held for one table access, not for a handler: between the module, the kernel or
the variable a handler finds, or the bundle it resolves, and the end of the handler it calls HIP
with no lock held, and other threads register in between.

* **`TableCall`** — the handlers that fill the tables, and the two that only look something up:
  `unix_launch_kernel` and `unix_memcpy_to_symbol`.
* **`prepare`**, **`finish`** — a handler up to its HIP call, and from its reply on.
* **`tableStep`** — the threads' handlers, one locked access or HIP call at a time.
* **`tableCalls_linearize`** — however the threads' steps are mixed, the tables, the HIP calls and
  all that is returned are as if loads and handlers had run whole, one after the other, each handler
  between its first and its last step.
-/

namespace HipBridge.Unixlib

open Lib

/-- A call of a handler that fills or reads the tables. -/
inductive TableCall
  | register (c : RegisterCall)
  | launch (a : ArgsLaunchKernel)
  | memcpyToSymbol (a : ArgsMemcpyToSymbol)

/-- What a handler leaves in its argument struct: the token, if there is one, or `a->ret`. -/
inductive Answer
  | registered (token : Option Ptr)
  | ret (code : Int32)

/-! ## Loading and looking up -/

theorem ensureLoaded_of_hasSym {s : NativeState} {sym : HipSym} (w : World)
    (h : s.hasSym sym = true) : ensureLoaded w s = (true, s) := by
  unfold NativeState.hasSym at h
  unfold ensureLoaded
  split at h
  case h_1 => rfl
  case h_2 => cases h

theorem findVar_ensureLoaded (w : World) (s : NativeState) (hostVar : Ptr) :
    findVar (ensureLoaded w s).2 hostVar = findVar s hostVar := by
  show registryFindVar _ hostVar = registryFindVar _ hostVar
  rw [registry_ensureLoaded]

/-- A lookup and a symbol that are both there. -/
theorem found_of_not {object : Ptr} {sym : Bool}
    (h : ¬ (decide (object = 0) || !sym) = true) : sym = true ∧ object ≠ 0 := by
  cases sym
  · exact absurd (Bool.or_true _) h
  · exact ⟨rfl, by simpa using h⟩

/-! ## The two halves of a handler -/

/-- A registration up to its HIP call: the call it is about to make, unless it returns before. -/
def RegisterCall.prepare (w : World) (s : NativeState) : RegisterCall → Option HipCall × NativeState
  | .fatBinary data =>
    let (loaded, s) := ensureLoaded w s
    if !loaded || !s.hasSym .hipModuleLoadData then (none, s)
    else
      match resolveBundlePtr w.mem data with
      -- an access violation ends the process: no half of this handler follows
      | none => (none, s)
      | some bundle => (if bundle = 0 then none else some (.moduleLoadData bundle), s)
  | .function fatbinToken _ deviceName =>
    let module := findModule s fatbinToken
    if module = 0 || !s.hasSym .hipModuleGetFunction then (none, s)
    else (some (.moduleGetFunction module deviceName), s)
  | .var fatbinToken _ deviceName =>
    let module := findModule s fatbinToken
    if module = 0 || !s.hasSym .hipModuleGetGlobal then (none, s)
    else (some (.moduleGetGlobal module deviceName), s)
  | .unregister _ => (none, s)

/-- The token a registration returns, if it returns one: `NULL` or, once its entry is added, its
own argument. -/
def RegisterCall.token (added : Bool) : RegisterCall → Option Ptr
  | .fatBinary data => some (if added then data else 0)
  | _ => none

namespace TableCall

/-- A handler up to its HIP call. -/
def prepare (w : World) (s : NativeState) : TableCall → Option HipCall × NativeState
  | .register c => c.prepare w s
  | .launch a =>
    let function := findFunction s a.hostFn
    if function = 0 || !s.hasSym .hipModuleLaunchKernel then (none, s)
    else (some (.moduleLaunchKernel function a.grid a.block a.sharedMem a.stream a.args), s)
  | .memcpyToSymbol a =>
    let devicePtr := findVar s a.symbol
    -- an unknown symbol fails before the library is loaded
    if devicePtr = 0 then (none, s)
    else
      let (loaded, s) := ensureLoaded w s
      if !loaded || !s.hasSym .hipMemcpy then (none, s)
      else (some (.memcpy (devicePtr + a.offset) a.src a.size a.kind), s)

/-- The registration that goes on from the reply to add its entry. -/
def adds (r : HipReply) : TableCall → Option RegisterCall
  | .register c => if r.ret ≠ hipSuccess then none else some c
  | .launch _ | .memcpyToSymbol _ => none

/-- What a handler does to the state from the reply of its HIP call on. -/
def finish (s : NativeState) (r : HipReply) (c : TableCall) : NativeState :=
  match c.adds r with
  | none => s
  | some c => { s with registry := c.add s.registry r.ptr }

/-- The answer of a handler that returns before it calls HIP. -/
def failed : TableCall → Answer
  | .register c => .registered (c.token false)
  | .launch _ | .memcpyToSymbol _ => .ret (-1)

/-- The answer of a handler once HIP has replied. -/
def answer (r : HipReply) : TableCall → Answer
  | .register c => .registered (c.token (r.ret = hipSuccess))
  | .launch _ | .memcpyToSymbol _ => .ret r.ret

/-- A whole handler: the state it leaves, the HIP call it makes, and its answer. -/
def whole (w : World) (s : NativeState) : TableCall → NativeState × Option HipCall × Answer
  | .register (.fatBinary data) =>
    let r := unixRegisterFatBinary w s { data }
    (r.state, r.issued, .registered (some r.args.fatbinToken))
  | .register (.function fatbinToken hostFn deviceName) =>
    let r := unixRegisterFunction w s { fatbinToken, hostFn, deviceName }
    (r.state, r.issued, .registered none)
  | .register (.var fatbinToken hostVar deviceName) =>
    let r := unixRegisterVar w s { fatbinToken, hostVar, deviceName }
    (r.state, r.issued, .registered none)
  | .register (.unregister fatbinToken) =>
    let r := unixUnregisterFatBinary s { fatbinToken }
    (r.state, r.issued, .registered none)
  | .launch a =>
    let r := unixLaunchKernel w s a
    (r.state, r.issued, .ret r.args.ret)
  | .memcpyToSymbol a =>
    let r := unixMemcpyToSymbol w s a
    (r.state, r.issued, .ret r.args.ret)

/-- A handler is its two halves. -/
theorem whole_eq (w : World) (s : NativeState) (c : TableCall) :
    c.whole w s = match c.prepare w s with
      | (none, s) => (s, none, c.failed)
      | (some call, s) => (c.finish s (w.hip call), some call, c.answer (w.hip call)) := by
  cases c with
  | register c =>
    cases c with
    | fatBinary data =>
      simp only [whole, unixRegisterFatBinary, prepare, RegisterCall.prepare]
      split
      · rfl
      · cases resolveBundlePtr w.mem data with
        | none => rfl
        | some bundle =>
          dsimp only
          split
          · rfl
          · dsimp only [finish, adds, answer]
            split
            case isTrue hret => rw [decide_eq_false hret]; rfl
            case isFalse hret => rw [decide_eq_true (not_not.mp hret)]; rfl
    | function fatbinToken hostFn deviceName =>
      simp only [whole, unixRegisterFunction, prepare, RegisterCall.prepare]
      split
      · rfl
      · dsimp only [finish, adds]
        split <;> rfl
    | var fatbinToken hostVar deviceName =>
      simp only [whole, unixRegisterVar, prepare, RegisterCall.prepare]
      split
      · rfl
      · dsimp only [finish, adds]
        split <;> rfl
    | unregister => rfl
  | launch a =>
    simp only [whole, unixLaunchKernel, prepare]
    split <;> rfl
  | memcpyToSymbol a =>
    simp only [whole, unixMemcpyToSymbol, forwardRet, tryHip, prepare]
    split
    · rfl
    · generalize ensureLoaded w s = r
      obtain ⟨loaded, s'⟩ := r
      cases loaded
      · rfl
      · dsimp only
        cases s'.hasSym .hipMemcpy <;> rfl

/-! ## Handlers about to call HIP -/

/-- Whether the handler calls `ensure_loaded` on its way to HIP. -/
def loads : TableCall → Bool
  | .register (.fatBinary _) | .memcpyToSymbol _ => true
  | _ => false

/-- What a handler that is about to call HIP has found: the library with the symbol, and the object
of its key, or its bundle. -/
def Prepared (s : NativeState) (w : World) (call : HipCall) : TableCall → Prop
  | .register (.fatBinary data) =>
    s.hasSym .hipModuleLoadData = true ∧
      ∃ bundle, resolveBundlePtr w.mem data = some bundle ∧ bundle ≠ 0 ∧
        call = .moduleLoadData bundle
  | .register (.function fatbinToken _ deviceName) =>
    s.hasSym .hipModuleGetFunction = true ∧ findModule s fatbinToken ≠ 0 ∧
      call = .moduleGetFunction (findModule s fatbinToken) deviceName
  | .register (.var fatbinToken _ deviceName) =>
    s.hasSym .hipModuleGetGlobal = true ∧ findModule s fatbinToken ≠ 0 ∧
      call = .moduleGetGlobal (findModule s fatbinToken) deviceName
  | .register (.unregister _) => False
  | .launch a =>
    s.hasSym .hipModuleLaunchKernel = true ∧ findFunction s a.hostFn ≠ 0 ∧
      call = .moduleLaunchKernel (findFunction s a.hostFn) a.grid a.block a.sharedMem a.stream
        a.args
  | .memcpyToSymbol a =>
    s.hasSym .hipMemcpy = true ∧ findVar s a.symbol ≠ 0 ∧
      call = .memcpy (findVar s a.symbol + a.offset) a.src a.size a.kind

theorem prepared_of_prepare {w : World} {s : NativeState} {c : TableCall} {call : HipCall}
    (h : (c.prepare w s).1 = some call) :
    (c.prepare w s).2 = (if c.loads then (ensureLoaded w s).2 else s) ∧
      c.Prepared (c.prepare w s).2 w call := by
  cases c with
  | register c =>
    cases c with
    | fatBinary data =>
      simp only [prepare, RegisterCall.prepare] at h ⊢
      split at h
      case isTrue => cases h
      case isFalse hloaded =>
        rw [if_neg hloaded]
        split at h
        case h_1 => cases h
        case h_2 bundle hbundle =>
          dsimp only at h
          split at h
          case isTrue => cases h
          case isFalse hne =>
            simp only [Bool.or_eq_true, Bool.not_eq_true', not_or, Bool.not_eq_false] at hloaded
            exact ⟨rfl, hloaded.2, bundle, hbundle, hne, (Option.some.inj h).symm⟩
    | function fatbinToken hostFn deviceName =>
      simp only [prepare, RegisterCall.prepare] at h ⊢
      split at h
      case isTrue => cases h
      case isFalse hfound =>
        rw [if_neg hfound]
        obtain ⟨hsym, hmodule⟩ := found_of_not hfound
        exact ⟨rfl, hsym, hmodule, (Option.some.inj h).symm⟩
    | var fatbinToken hostVar deviceName =>
      simp only [prepare, RegisterCall.prepare] at h ⊢
      split at h
      case isTrue => cases h
      case isFalse hfound =>
        rw [if_neg hfound]
        obtain ⟨hsym, hmodule⟩ := found_of_not hfound
        exact ⟨rfl, hsym, hmodule, (Option.some.inj h).symm⟩
    | unregister => cases h
  | launch a =>
    simp only [prepare] at h ⊢
    split at h
    case isTrue => cases h
    case isFalse hfound =>
      rw [if_neg hfound]
      obtain ⟨hsym, hfunction⟩ := found_of_not hfound
      exact ⟨rfl, hsym, hfunction, (Option.some.inj h).symm⟩
  | memcpyToSymbol a =>
    simp only [prepare] at h ⊢
    split at h
    case isTrue => cases h
    case isFalse hfound =>
      rw [if_neg hfound]
      split at h
      case isTrue => cases h
      case isFalse hloaded =>
        rw [if_neg hloaded]
        simp only [Bool.or_eq_true, Bool.not_eq_true', not_or, Bool.not_eq_false] at hloaded
        -- it looked the key up before `ensure_loaded`, which leaves the tables alone
        show _ ∧ _ ∧ findVar (ensureLoaded w s).2 a.symbol ≠ 0 ∧
          call = .memcpy (findVar (ensureLoaded w s).2 a.symbol + _) _ _ _
        rw [findVar_ensureLoaded]
        exact ⟨rfl, hloaded.2, hfound, (Option.some.inj h).symm⟩

/-- A handler that has found what it needs finds it again. -/
theorem prepare_of_prepared {w : World} {s : NativeState} {c : TableCall} {call : HipCall}
    (h : c.Prepared s w call) : c.prepare w s = (some call, s) := by
  cases c with
  | register c =>
    cases c with
    | fatBinary data =>
      obtain ⟨hsym, bundle, hbundle, hne, rfl⟩ := h
      simp only [prepare, RegisterCall.prepare, ensureLoaded_of_hasSym w hsym, hsym, hbundle,
        if_neg hne]
      rfl
    | function fatbinToken hostFn deviceName =>
      obtain ⟨hsym, hfound, rfl⟩ := h
      simp only [prepare, RegisterCall.prepare, hsym, decide_eq_false hfound]
      rfl
    | var fatbinToken hostVar deviceName =>
      obtain ⟨hsym, hfound, rfl⟩ := h
      simp only [prepare, RegisterCall.prepare, hsym, decide_eq_false hfound]
      rfl
    | unregister => exact h.elim
  | launch a =>
    obtain ⟨hsym, hfound, rfl⟩ := h
    simp only [prepare, hsym, decide_eq_false hfound]
    rfl
  | memcpyToSymbol a =>
    obtain ⟨hsym, hfound, rfl⟩ := h
    simp only [prepare, ensureLoaded_of_hasSym w hsym, hsym, if_neg hfound]
    rfl

/-- A handler that has called HIP is the whole handler now. -/
theorem whole_of_prepared {w : World} {s : NativeState} {c : TableCall} {call : HipCall}
    (h : c.Prepared s w call) :
    c.whole w s = (c.finish s (w.hip call), some call, c.answer (w.hip call)) := by
  rw [c.whole_eq, prepare_of_prepared h]

end TableCall

/-! ## The tables only grow -/

/-- The library stays loaded, and what is found stays what is found. -/
structure Grown (s s' : NativeState) : Prop where
  syms : ∀ sym, s.hasSym sym = true → s'.hasSym sym = true
  modules : ∀ token, findModule s token ≠ 0 → findModule s' token = findModule s token
  functions : ∀ hostFn, findFunction s hostFn ≠ 0 → findFunction s' hostFn = findFunction s hostFn
  vars : ∀ hostVar, findVar s hostVar ≠ 0 → findVar s' hostVar = findVar s hostVar

theorem TableCall.Prepared.grown {w : World} {s s' : NativeState} {c : TableCall} {call : HipCall}
    (h : c.Prepared s w call) (hgrown : Grown s s') : c.Prepared s' w call := by
  cases c with
  | register c =>
    cases c with
    | fatBinary data => exact ⟨hgrown.syms _ h.1, h.2⟩
    | function fatbinToken hostFn deviceName =>
      obtain ⟨hsym, hfound, rfl⟩ := h
      have hsame := hgrown.modules fatbinToken hfound
      exact ⟨hgrown.syms _ hsym, by rw [hsame]; exact hfound, by rw [hsame]⟩
    | var fatbinToken hostVar deviceName =>
      obtain ⟨hsym, hfound, rfl⟩ := h
      have hsame := hgrown.modules fatbinToken hfound
      exact ⟨hgrown.syms _ hsym, by rw [hsame]; exact hfound, by rw [hsame]⟩
    | unregister => exact h.elim
  | launch a =>
    obtain ⟨hsym, hfound, rfl⟩ := h
    have hsame := hgrown.functions a.hostFn hfound
    exact ⟨hgrown.syms _ hsym, by rw [hsame]; exact hfound, by rw [hsame]⟩
  | memcpyToSymbol a =>
    obtain ⟨hsym, hfound, rfl⟩ := h
    have hsame := hgrown.vars a.symbol hfound
    exact ⟨hgrown.syms _ hsym, by rw [hsame]; exact hfound, by rw [hsame]⟩

theorem grown_refl (s : NativeState) : Grown s s :=
  ⟨fun _ h => h, fun _ _ => rfl, fun _ _ => rfl, fun _ _ => rfl⟩

theorem grown_ensureLoaded (w : World) (s : NativeState) : Grown s (ensureLoaded w s).2 := by
  constructor
  case syms =>
    intro sym hsym
    rw [ensureLoaded_of_hasSym w hsym]
    exact hsym
  all_goals
    intro key _
    simp only [findModule, findFunction, findVar, registry_ensureLoaded]

/-- The first entry of a key is never replaced. -/
theorem registryFind_add_of_found {α : Type} {n : Nat} {t : SlotTable α n} {key val : α → Ptr}
    {k : Ptr} (h : registryFind t key val k ≠ 0) (e : α) :
    registryFind (registryAdd t e).2 key val k = registryFind t key val k := by
  have hreg : Registered t key k := by
    by_contra hno
    exact h (registryFind_of_not_registered val hno)
  rw [registryFind_registryAdd, if_pos hreg]

theorem grown_add (s : NativeState) (c : RegisterCall) (object : Ptr) :
    Grown s { s with registry := c.add s.registry object } := by
  cases c with
  | fatBinary data =>
    exact ⟨fun _ h => h, fun _ h => registryFind_add_of_found h _, fun _ _ => rfl, fun _ _ => rfl⟩
  | function _ hostFn deviceName =>
    exact ⟨fun _ h => h, fun _ _ => rfl, fun _ h => registryFind_add_of_found h _, fun _ _ => rfl⟩
  | var _ hostVar =>
    exact ⟨fun _ h => h, fun _ _ => rfl, fun _ _ => rfl, fun _ h => registryFind_add_of_found h _⟩
  | unregister => exact grown_refl s

/-- What a handler does up to its HIP call is to load the library, or nothing. -/
theorem grown_prepare (w : World) (s : NativeState) (c : TableCall) :
    Grown s (c.prepare w s).2 := by
  have hloaded := grown_ensureLoaded w s
  have hsame := grown_refl s
  cases c with
  | register c =>
    cases c with
    | fatBinary data =>
      simp only [TableCall.prepare, RegisterCall.prepare]
      split
      · exact hloaded
      · split <;> exact hloaded
    | function | var =>
      simp only [TableCall.prepare, RegisterCall.prepare]
      split <;> exact hsame
    | unregister => exact hsame
  | launch a =>
    simp only [TableCall.prepare]
    split <;> exact hsame
  | memcpyToSymbol a =>
    simp only [TableCall.prepare]
    split
    · exact hsame
    · split <;> exact hloaded

/-! ## The threads -/

/-- Where a thread is in a handler. -/
inductive HandlerPhase
  | idle
  /-- It is calling HIP, with no lock held. -/
  | calling (c : TableCall) (w : World) (call : HipCall)
  /-- HIP has made the object; its entry is not there yet. -/
  | adding (c : RegisterCall) (w : World) (call : HipCall) (object : Ptr)

/-- The handler a thread has not returned from. -/
def HandlerPhase.pending : HandlerPhase → List TableCall
  | .idle => []
  | .calling c _ _ => [c]
  | .adding c _ _ _ => [.register c]

/-- The HIP call a handler has made, if it came to it, and its answer. -/
abbrev Ended := Option HipCall × Answer

/-- The native side and its threads. -/
structure TableThreads (T : Type) where
  native : NativeState
  phases : T → HandlerPhase
  /-- The handlers that ended, in that order. -/
  ended : List (T × Ended)

/-- What a thread does next. -/
inductive TableAct
  /-- It calls a handler, which runs up to its HIP call. -/
  | begin (c : TableCall) (w : World)
  /-- The HIP call returns, with `w.hip`. -/
  | hipReturns (w : World)
  /-- It takes the lock and adds its entry. -/
  | add

variable {T : Type} [DecidableEq T]

/-- The handler of a thread ends. -/
def TableThreads.ends (s : TableThreads T) (t : T) (e : Ended) : TableThreads T :=
  { s with
    phases := Function.update s.phases t .idle
    ended := s.ended ++ [(t, e)] }

def tableStep (s : TableThreads T) : T × TableAct → TableThreads T
  | (t, .begin c w) =>
    match s.phases t with
    | .idle =>
      match c.prepare w s.native with
      | (none, native) => { s with native }.ends t (none, c.failed)
      | (some call, native) =>
        { s with
          native
          phases := Function.update s.phases t (.calling c w call) }
    | _ => s
  | (t, .hipReturns w') =>
    match s.phases t with
    | .calling c w call =>
      let r := w'.hip call
      match c.adds r with
      | none => s.ends t (some call, c.answer r)
      | some c =>
        { s with
          phases := Function.update s.phases t (.adding c { w with hip := w'.hip } call r.ptr) }
    | _ => s
  | (t, .add) =>
    match s.phases t with
    | .adding c _ call object =>
      { s with native.registry := c.add s.native.registry object }.ends t
        (some call, .registered (c.token true))
    | _ => s

/-! ## The history -/

/-- A whole operation in a world of its own: `ensure_loaded`, or a handler. -/
inductive TableOp
  | load (w : World)
  | call (c : TableCall) (w : World)

/-- The handler an operation is. -/
def TableOp.handler : TableOp → Option TableCall
  | .load _ => none
  | .call c _ => some c

/-- What is seen of the native side: the state, and how the handlers ended. -/
abbrev Seen (T : Type) := NativeState × List (T × Ended)

def TableOp.exec (s : Seen T) : T × TableOp → Seen T
  | (_, .load w) => ((ensureLoaded w s.1).2, s.2)
  | (t, .call c w) =>
    let (native, e) := c.whole w s.1
    (native, s.2 ++ [(t, e)])

/-- The operations a step completes. A handler counts where it ends; if it has called
`ensure_loaded` and goes on to HIP, that counts on its own. -/
def completes (s : TableThreads T) : T × TableAct → List (T × TableOp)
  | (t, .begin c w) =>
    match s.phases t with
    | .idle =>
      match c.prepare w s.native with
      | (none, _) => [(t, .call c w)]
      | (some _, _) => if c.loads then [(t, .load w)] else []
    | _ => []
  | (t, .hipReturns w') =>
    match s.phases t with
    | .calling c w call =>
      match c.adds (w'.hip call) with
      | none => [(t, .call c { w with hip := w'.hip })]
      | some _ => []
    | _ => []
  | (t, .add) =>
    match s.phases t with
    | .adding c w _ _ => [(t, .call (.register c) w)]
    | _ => []

/-- The handlers a step calls. -/
def calls (t : T) (s : TableThreads T) : T × TableAct → List TableCall
  | (u, .begin c _) =>
    match s.phases u with
    | .idle => if u = t then [c] else []
    | _ => []
  | _ => []

/-- The handlers of a thread among the operations. -/
def handlersOf (t : T) (ops : List (T × TableOp)) : List TableCall :=
  ops.filterMap fun op => if op.1 = t then op.2.handler else none

/-- What a thread has found is still there. -/
def HandlerPhase.Ready (s : NativeState) : HandlerPhase → Prop
  | .idle => True
  | .calling c w call => c.Prepared s w call
  | .adding c w call object =>
    TableCall.Prepared s w call (.register c) ∧ (w.hip call).ret = hipSuccess ∧
      (w.hip call).ptr = object

theorem HandlerPhase.Ready.grown {s s' : NativeState} {p : HandlerPhase} (h : p.Ready s)
    (hgrown : Grown s s') : p.Ready s' := by
  cases p with
  | idle => trivial
  | calling c w call => exact TableCall.Prepared.grown h hgrown
  | adding c w call object =>
    obtain ⟨hprepared, hreply⟩ := h
    exact ⟨hprepared.grown hgrown, hreply⟩

/-- Every thread is still sure of what it found. -/
def Sure (s : TableThreads T) : Prop := ∀ t, (s.phases t).Ready s.native

/-- One thread moves on, and the native side grows. -/
theorem Sure.update {s s' : TableThreads T} {t : T} {p : HandlerPhase} (h : Sure s)
    (hgrown : Grown s.native s'.native) (hp : p.Ready s'.native)
    (hphases : s'.phases = Function.update s.phases t p) : Sure s' := by
  intro u
  rw [hphases]
  by_cases hu : u = t
  · subst hu
    rw [Function.update_self]
    exact hp
  · rw [Function.update_of_ne hu]
    exact (h u).grown hgrown

/-- A handler goes on to add its entry if it is a registration and HIP made the object. -/
theorem adds_eq_some {c : TableCall} {r : HipReply} {c' : RegisterCall} (h : c.adds r = some c') :
    c = .register c' ∧ r.ret = hipSuccess := by
  unfold TableCall.adds at h
  split at h
  case h_1 c =>
    split at h
    case isTrue => cases h
    case isFalse hret =>
      cases h
      exact ⟨rfl, not_not.mp hret⟩
  all_goals cases h

/-- **One step** keeps what the threads are sure of, and does to what is seen what its operations
do. -/
theorem tableStep_effect (s : TableThreads T) (a : T × TableAct) (h : Sure s) :
    Sure (tableStep s a) ∧
      ((tableStep s a).native, (tableStep s a).ended)
        = run TableOp.exec (s.native, s.ended) (completes s a) := by
  obtain ⟨t, act⟩ := a
  have ht := h t
  cases act with
  | begin c w =>
    cases hp : s.phases t with
    | idle =>
      simp only [tableStep, completes, hp]
      have hgrown := grown_prepare w s.native c
      have hwhole := c.whole_eq w s.native
      have hfound := @TableCall.prepared_of_prepare w s.native c
      generalize c.prepare w s.native = r at hgrown hwhole hfound ⊢
      obtain ⟨call, native⟩ := r
      cases call with
      | none =>
        -- it came to no HIP call: the whole handler is this step
        refine ⟨h.update (p := .idle) hgrown trivial rfl, ?_⟩
        show (native, _ ++ [(t, none, c.failed)])
          = ((c.whole w s.native).1, _ ++ [(t, (c.whole w s.native).2)])
        rw [hwhole]
      | some call =>
        -- it goes on to HIP, and so far did no more than load the library
        obtain ⟨hnative, hprepared⟩ := hfound rfl
        refine ⟨h.update (p := .calling c w call) hgrown hprepared rfl, ?_⟩
        show (native, s.ended) = run TableOp.exec _ (if c.loads then [(t, .load w)] else [])
        rw [show native = _ from hnative]
        split <;> rfl
    | calling | adding => simpa [tableStep, completes, hp] using h
  | hipReturns w' =>
    cases hp : s.phases t with
    | calling c w call =>
      simp only [tableStep, completes, hp]
      rw [hp] at ht
      -- the world at the call's end, with the memory the handler read
      have hprepared : c.Prepared s.native { w with hip := w'.hip } call := ht
      cases hadds : c.adds (w'.hip call) with
      | none =>
        refine ⟨h.update (p := .idle) (grown_refl _) trivial rfl, ?_⟩
        show (s.native, _ ++ [(t, some call, _)])
          = ((c.whole _ s.native).1, _ ++ [(t, (c.whole _ s.native).2)])
        rw [TableCall.whole_of_prepared hprepared, TableCall.finish, hadds]
      | some c' =>
        obtain ⟨rfl, hret⟩ := adds_eq_some hadds
        have hready : (HandlerPhase.adding c' { w with hip := w'.hip } call _).Ready s.native :=
          ⟨hprepared, hret, rfl⟩
        exact ⟨h.update (grown_refl _) hready rfl, rfl⟩
    | idle | adding => simpa [tableStep, completes, hp] using h
  | add =>
    cases hp : s.phases t with
    | adding c w call object =>
      simp only [tableStep, completes, hp]
      rw [hp] at ht
      obtain ⟨hprepared, hret, rfl⟩ := ht
      -- it would find today what it found then, so the whole handler is one that runs now
      refine ⟨h.update (p := .idle) (grown_add s.native c _) trivial rfl, ?_⟩
      have hadds : TableCall.adds (w.hip call) (.register c) = some c := if_neg (not_not.mpr hret)
      show (_, _ ++ [(t, some call, .registered (c.token true))])
        = ((TableCall.whole w s.native (.register c)).1,
            _ ++ [(t, (TableCall.whole w s.native (.register c)).2)])
      rw [TableCall.whole_of_prepared hprepared, TableCall.finish, hadds, TableCall.answer,
        decide_eq_true hret]
      rfl
    | idle | calling => simpa [tableStep, completes, hp] using h

/-- **One step**, for one thread: a handler it is in, or calls, is among the operations, or the
thread is in it still. -/
theorem pending_step (t : T) (s : TableThreads T) (a : T × TableAct) :
    (s.phases t).pending ++ calls t s a
      = handlersOf t (completes s a) ++ ((tableStep s a).phases t).pending := by
  obtain ⟨u, act⟩ := a
  -- a step of another thread is none of this one's
  by_cases hu : u = t
  case neg =>
    have hother : ∀ p, Function.update s.phases u p t = s.phases t :=
      fun p => Function.update_of_ne (Ne.symm hu) p s.phases
    cases act with
    | begin c w =>
      cases hp : s.phases u with
      | idle =>
        simp only [tableStep, completes, calls, hp, if_neg hu]
        generalize c.prepare w s.native = r
        obtain ⟨_ | call, native⟩ := r
        · simp [handlersOf, TableThreads.ends, hother, hu]
        · dsimp only
          split <;> simp [handlersOf, hother, hu]
      | calling | adding => simp [tableStep, completes, calls, handlersOf, hp]
    | hipReturns w' =>
      cases hp : s.phases u with
      | calling c w call =>
        simp only [tableStep, completes, calls, hp]
        split <;> simp [handlersOf, TableThreads.ends, hother, hu]
      | idle | adding => simp [tableStep, completes, calls, handlersOf, hp]
    | add =>
      cases hp : s.phases u with
      | adding c w call object =>
        simp [tableStep, completes, calls, handlersOf, TableThreads.ends, hp, hother, hu]
      | idle | calling => simp [tableStep, completes, calls, handlersOf, hp]
  case pos =>
    subst hu
    cases act with
    | begin c w =>
      cases hp : s.phases u with
      | idle =>
        simp only [tableStep, completes, calls, hp, if_true]
        generalize c.prepare w s.native = r
        obtain ⟨_ | call, native⟩ := r
        · simp [handlersOf, TableThreads.ends, TableOp.handler, HandlerPhase.pending]
        · dsimp only
          split <;> simp [handlersOf, TableOp.handler, HandlerPhase.pending]
      | calling | adding => simp [tableStep, completes, calls, handlersOf, hp]
    | hipReturns w' =>
      cases hp : s.phases u with
      | calling c w call =>
        simp only [tableStep, completes, calls, hp]
        cases hadds : c.adds (w'.hip call) with
        | none => simp [handlersOf, TableThreads.ends, TableOp.handler, HandlerPhase.pending]
        | some c' =>
          obtain ⟨rfl, -⟩ := adds_eq_some hadds
          simp [handlersOf, HandlerPhase.pending]
      | idle | adding => simp [tableStep, completes, calls, handlersOf, hp]
    | add =>
      cases hp : s.phases u with
      | adding c w call object =>
        simp [tableStep, completes, calls, handlersOf, TableThreads.ends, TableOp.handler,
          HandlerPhase.pending, hp]
      | idle | calling => simp [tableStep, completes, calls, handlersOf, hp]

/-- **The tables linearize.** However the threads' steps are mixed, the tables, the HIP calls and
everything returned are those of whole operations, one after the other. An operation is a handler,
or an `ensure_loaded` on its own: the one a handler makes before it goes on to HIP counts apart, as
other threads' handlers may come between the two. For each thread the handlers among the operations
are those it called, in its order, less the one it is still in; as that holds after every step, a
handler comes between its call and its end. -/
theorem tableCalls_linearize (native : NativeState) (acts : List (T × TableAct)) :
    let start : TableThreads T := ⟨native, fun _ => .idle, []⟩
    let ops := history tableStep completes start acts
    ((run tableStep start acts).native, (run tableStep start acts).ended)
        = run TableOp.exec (native, []) ops ∧
      ∀ t, history tableStep (calls t) start acts
        = handlersOf t ops ++ ((run tableStep start acts).phases t).pending := by
  intro start ops
  have hsure : Sure start := fun _ => trivial
  refine ⟨?_, fun t => ?_⟩
  · have hany : Along tableStep (fun _ _ => True) start acts :=
      along_of_forall (fun _ _ => trivial) acts
    exact linearize (fun s => (s.native, s.ended))
      (fun s a h _ => tableStep_effect s a h) hsure hany
  · have hbalance := history_balance (pending_step t) start acts
    rw [handlersOf, history_filterMap]
    exact hbalance

end HipBridge.Unixlib
