import HipBridge.Daemon.HandleRequest
import HipBridge.Protocol.Framing

/-!
# How long the daemon's responses are

* **`ShortTexts`** — the texts of the HIP library and of the dynamic loader are short.
* **`ServesWhole`** — the response is not the bytes of a copy whose length wraps round to one
  the client accepts.
* **`servesWhole_iff`** — these are exactly the requests whose response frames are safe.
-/

namespace HipBridge.Daemon

open Lib Protocol

variable {D : Type}

/-- `hipGetErrorString` and `dlerror` describe an error in a few words. -/
structure ShortTexts (hip : HipLib D) : Prop where
  errorString : ∀ rc, (utf8Bytes (hip.errorString rc)).length ≤ 65536
  dlerror : (utf8Bytes hip.dlerror).length ≤ 65536

/-- The request is not a copy from the device that is made and whose length the 32-bit length
field cuts down to one the client accepts. -/
def ServesWhole (hip : HipLib D) (s : DaemonState D) : Request → Prop
  | .memcpyD2H handle offset len =>
    HeaderSafe len.toNat ∨ ¬ hip.CanBuffer len s.device ∨
      ∀ ptr, s.handles.get handle = some ptr →
        (hip.memcpyDeviceToHost (ptrAdd ptr offset) len s.device).1 ≠ HipLib.hipSuccess
  | _ => True

/-! ## Texts -/

section Texts

variable {hip : HipLib D} (h : ShortTexts hip)
include h

theorem ShortTexts.failed (what : String) (rc : Int32) :
    (utf8Bytes (hip.failed what rc)).length ≤ (utf8Bytes what).length + 65600 := by
  have hrc := length_utf8Bytes_int32_le rc
  have htext := h.errorString rc
  have harrow : (utf8Bytes " -> ").length = 4 := by decide
  have hopen : (utf8Bytes " (").length = 2 := by decide
  have hclose : (utf8Bytes ")").length = 1 := by decide
  simp only [HipLib.failed, length_utf8Bytes_append]
  omega

theorem ShortTexts.lazySym {name e : String} (hsym : hip.lazySym name = .error e) :
    (utf8Bytes e).length ≤ (utf8Bytes name).length + 65600 := by
  have htext := h.dlerror
  have hopen : (utf8Bytes "dlsym(").length = 6 := by decide
  have hclose : (utf8Bytes ") failed: ").length = 10 := by decide
  unfold HipLib.lazySym at hsym
  split at hsym <;> cases hsym
  simp only [length_utf8Bytes_append]
  omega

end Texts

/-- A length that every message without a kernel's name keeps within. -/
def shortText : Nat := 131072

/-- The message of a call that fails has at most `n` bytes. -/
def ErrorWithin (n : Nat) {T : Type} (result : Except String T × D) : Prop :=
  ∀ e, result.1 = .error e → (utf8Bytes e).length ≤ n

section Calls

variable {hip : HipLib D} (h : ShortTexts hip) (d : D)
include h

/-- A code that is checked, and turned into a message that says what was called. -/
theorem errorWithin_checked {what : String} {n : Nat}
    (hwhat : (utf8Bytes what).length + 65600 ≤ n) (rc : Int32) {T : Type} (value : T) :
    ErrorWithin n (if rc ≠ HipLib.hipSuccess then (.error (hip.failed what rc), d)
      else (.ok value, d)) := by
  have hfailed := h.failed what rc
  intro e he
  split at he <;> cases he
  omega

theorem errorWithin_deviceCount : ErrorWithin shortText (hip.deviceCount d) :=
  errorWithin_checked h _ (by decide) _ _

theorem errorWithin_mallocRaw (size : UInt64) : ErrorWithin shortText (hip.mallocRaw size d) :=
  errorWithin_checked h _ (by decide) _ _

theorem errorWithin_freeRaw (ptr : Ptr) : ErrorWithin shortText (hip.freeRaw ptr d) :=
  errorWithin_checked h _ (by decide) _ _

theorem errorWithin_memcpyH2d (ptr : Ptr) (offset : UInt64) (data : List UInt8) :
    ErrorWithin shortText (hip.memcpyH2d ptr offset data d) :=
  errorWithin_checked h _ (by decide) _ _

/-- A symbol that is not found, or a call that finds it. -/
theorem errorWithin_lazySym {name : String} {n : Nat}
    (hname : (utf8Bytes name).length + 65600 ≤ n) {T : Type} {call : Except String T × D}
    (hcall : ErrorWithin n call) :
    ErrorWithin n (match hip.lazySym name with
      | .error e => (.error e, d)
      | .ok () => call) := by
  intro e he
  cases hsym : hip.lazySym name with
  | ok =>
    rw [hsym] at he
    exact hcall e he
  | error e' =>
    rw [hsym] at he
    cases he
    have hlen := h.lazySym hsym
    omega

theorem errorWithin_devicePropertiesR0600 (device : Int32) :
    ErrorWithin shortText (hip.devicePropertiesR0600 device d) :=
  errorWithin_lazySym h d (by decide) (errorWithin_checked h _ (by decide) _ _)

theorem errorWithin_loadModule (data : List UInt8) :
    ErrorWithin shortText (hip.loadModule data d) :=
  errorWithin_lazySym h d (by decide) (errorWithin_checked h _ (by decide) _ _)

theorem errorWithin_launchKernel (function : Ptr) (grid block : UInt32 × UInt32 × UInt32)
    (sharedMem : UInt32) (args : List UInt8) :
    ErrorWithin shortText (hip.launchKernel function grid block sharedMem args d) :=
  errorWithin_lazySym h d (by decide) (errorWithin_checked h _ (by decide) _ _)

end Calls

/-- The lookup reaches HIP and fails there: the message repeats the name of the kernel. -/
def LookupFails (hip : HipLib D) (module : Ptr) (name : String) (d : D) : Prop :=
  ∃ hnul : 0 ∉ utf8Bytes name, hip.sym "hipModuleGetFunction" ∧
    (hip.moduleGetFunction module ⟨utf8Bytes name, hnul⟩ d).1 ≠ HipLib.hipSuccess

/-- The length of the message of a lookup that fails in HIP. -/
def lookupMessageLength (hip : HipLib D) (name : String) (rc : Int32) : Nat :=
  29 + (utf8Bytes name).length + (utf8Bytes (toString rc.toInt)).length +
    (utf8Bytes (hip.errorString rc)).length

theorem length_lookupMessage (hip : HipLib D) (name : String) (rc : Int32) :
    (utf8Bytes (hip.failed ("hipModuleGetFunction(" ++ name ++ ")") rc)).length
      = lookupMessageLength hip name rc := by
  have hopen : (utf8Bytes "hipModuleGetFunction(").length = 21 := by decide
  have hclose : (utf8Bytes ")").length = 1 := by decide
  have harrow : (utf8Bytes " -> ").length = 4 := by decide
  have hparen : (utf8Bytes " (").length = 2 := by decide
  simp only [HipLib.failed, length_utf8Bytes_append, lookupMessageLength]
  omega

/-- A lookup fails with the name in the message, or with a short message. -/
theorem getFunction_cases {hip : HipLib D} (h : ShortTexts hip) (module : Ptr) (name : String)
    (d : D) :
    (∃ hnul : 0 ∉ utf8Bytes name, hip.sym "hipModuleGetFunction" ∧
      let rc := (hip.moduleGetFunction module ⟨utf8Bytes name, hnul⟩ d).1
      rc ≠ HipLib.hipSuccess ∧ (hip.getFunction module name d).1 =
        .error (hip.failed ("hipModuleGetFunction(" ++ name ++ ")") rc)) ∨
    ¬ LookupFails hip module name d ∧ ErrorWithin shortText (hip.getFunction module name d) := by
  by_cases hsym : hip.sym "hipModuleGetFunction"
  · have hlazy : hip.lazySym "hipModuleGetFunction" = .ok () := if_pos hsym
    by_cases hnul : 0 ∈ utf8Bytes name
    · right
      have hcstring : HipLib.cstringNew name = .error "kernel name contains a NUL byte" :=
        dif_pos hnul
      refine ⟨fun ⟨hno, _⟩ => hno hnul, fun e he => ?_⟩
      simp only [HipLib.getFunction, hlazy, hcstring] at he
      cases he
      decide
    · have hcstring : HipLib.cstringNew name = .ok ⟨utf8Bytes name, hnul⟩ := dif_neg hnul
      by_cases hrc : (hip.moduleGetFunction module ⟨utf8Bytes name, hnul⟩ d).1 = HipLib.hipSuccess
      · right
        refine ⟨fun ⟨_, _, hfails⟩ => hfails hrc, fun e he => ?_⟩
        simp only [HipLib.getFunction, hlazy, hcstring, hrc, ne_eq, not_true_eq_false,
          if_false] at he
        cases he
      · left
        refine ⟨hnul, hsym, hrc, ?_⟩
        simp only [HipLib.getFunction, hlazy, hcstring]
        rw [if_pos hrc]
  · right
    refine ⟨fun ⟨_, hfound, _⟩ => hsym hfound, ?_⟩
    have hlazy : hip.lazySym "hipModuleGetFunction" = .error ("dlsym(" ++ "hipModuleGetFunction" ++
        ") failed: " ++ hip.dlerror) := if_neg hsym
    intro e he
    have hlen := h.lazySym hlazy
    have hname : (utf8Bytes "hipModuleGetFunction").length = 20 := by decide
    simp only [HipLib.getFunction, hlazy] at he
    cases he
    unfold shortText
    omega

theorem length_devicePropertiesR0600 {hip : HipLib D} {device : Int32} {d : D}
    {bytes : List UInt8} (h : (hip.devicePropertiesR0600 device d).1 = .ok bytes) :
    bytes.length = HipLib.devicePropR0600Size := by
  unfold HipLib.devicePropertiesR0600 at h
  split at h
  case h_1 => cases h
  case h_2 =>
    simp only at h
    split at h
    case isTrue => cases h
    case isFalse =>
      rw [← Except.ok.inj h]
      exact HipLib.length_buffer _ _

theorem length_copyFromSlice {args bytes : List UInt8} {offset : Nat}
    (h : offset + bytes.length ≤ args.length) :
    (copyFromSlice args offset bytes).length = args.length := by
  simp only [copyFromSlice, List.length_append, List.length_take, List.length_drop]
  omega

/-- The messages of the fixup loop. Induction on the fixups; a patch keeps the length. -/
theorem patchArgs_error_short {handles : HandleTable Ptr} {fixups : List Fixup}
    {args : List UInt8} {e : String} (hargs : args.length ≤ maxBodyLen)
    (hpatch : patchArgs handles fixups args = .ok (.error e)) :
    (utf8Bytes e).length ≤ shortText := by
  have hmax : maxBodyLen = 268435456 := rfl
  have hshort : shortText = 131072 := rfl
  induction fixups generalizing args with
  | nil => cases hpatch
  | cons fixup fixups ih =>
    obtain ⟨offset, handle, intraOffset⟩ := fixup
    -- a 32-bit offset plus 8 does not overflow a `usize`
    have hstop : usizeAdd offset.toNat 8 = .ok (offset.toNat + 8) := by
      have hoffset := offset.toNat_lt
      exact usizeAdd_ok (by unfold usizeMax; omega)
    simp only [patchArgs, hstop, Io.ok_bind] at hpatch
    split at hpatch
    case isTrue =>
      cases hpatch
      have hoffset := @length_utf8Bytes_toString_le offset.toNat 10 (by decide)
        (Nat.lt_trans offset.toNat_lt (by decide))
      have hlen := @length_utf8Bytes_toString_le args.length 10 (by decide) (by omega)
      have htext : (utf8Bytes "fixup offset ").length = 13 := by decide
      have hbounds : (utf8Bytes " out of bounds for a ").length = 21 := by decide
      have hbuffer : (utf8Bytes "-byte argument buffer").length = 21 := by decide
      simp only [length_utf8Bytes_append]
      omega
    case isFalse hfits =>
      split at hpatch
      case h_1 devPtr _ =>
        -- patched in place: the next fixup finds as many bytes
        refine ih ?_ hpatch
        rw [length_copyFromSlice (by rw [length_u64ToLe]; omega)]
        exact hargs
      case h_2 =>
        cases hpatch
        have hhandle := length_utf8Bytes_uint64_le handle
        have htext : (utf8Bytes "fixup referenced unknown handle ").length = 32 := by decide
        simp only [length_utf8Bytes_append]
        omega

/-! ## Responses -/

/-- The kinds of responses: a short one, the bytes of a copy, and the message of a lookup that
fails in HIP. -/
inductive Sized (hip : HipLib D) (s : DaemonState D) (req : Request) (resp : Response) : Prop
  | short (hlen : resp.encodeBody.length ≤ shortText)
      (hcopy : ∀ handle offset len ptr, req = .memcpyD2H handle offset len →
        s.handles.get handle = some ptr → hip.CanBuffer len s.device →
        (hip.memcpyDeviceToHost (ptrAdd ptr offset) len s.device).1 ≠ HipLib.hipSuccess)
      (hlookup : ∀ module name ptr, req = .getFunction module name →
        s.modules.get module = some ptr → ¬ LookupFails hip ptr name s.device)
  | copied (handle offset len : UInt64) (ptr : Ptr) (hreq : req = .memcpyD2H handle offset len)
      (hknown : s.handles.get handle = some ptr) (hbuffer : hip.CanBuffer len s.device)
      (hrc : (hip.memcpyDeviceToHost (ptrAdd ptr offset) len s.device).1 = HipLib.hipSuccess)
      (hlen : resp.encodeBody.length = len.toNat)
  | named (module : UInt64) (name : String) (ptr : Ptr) (hnul : 0 ∉ utf8Bytes name)
      (hreq : req = .getFunction module name) (hknown : s.modules.get module = some ptr)
      (hsym : hip.sym "hipModuleGetFunction")
      (hrc : (hip.moduleGetFunction ptr ⟨utf8Bytes name, hnul⟩ s.device).1 ≠ HipLib.hipSuccess)
      (hlen : resp.encodeBody.length = lookupMessageLength hip name
        (hip.moduleGetFunction ptr ⟨utf8Bytes name, hnul⟩ s.device).1)

section Responses

variable {hip : HipLib D} {s s' : DaemonState D} {req : Request} {resp : Response}

theorem length_unknown {what : String} (handle : UInt64) (hwhat : (utf8Bytes what).length ≤ 64) :
    (Response.err (what ++ toString handle.toNat)).encodeBody.length ≤ shortText := by
  have hhandle := length_utf8Bytes_uint64_le handle
  simp only [Response.encodeBody, length_utf8Bytes_append]
  unfold shortText
  omega

theorem length_emptyOrErr {result : Except String Unit × D} (h : ErrorWithin shortText result) :
    (emptyOrErr result.1).encodeBody.length ≤ shortText := by
  cases hresult : result.1 with
  | ok => exact Nat.zero_le _
  | error e => exact h e hresult

theorem length_bytesOrErr {result : Except String (List UInt8) × D}
    (h : ErrorWithin shortText result)
    (hbytes : ∀ bytes, result.1 = .ok bytes → bytes.length ≤ shortText) :
    (bytesOrErr result.1).encodeBody.length ≤ shortText := by
  cases hresult : result.1 with
  | ok bytes => exact hbytes bytes hresult
  | error e => exact h e hresult

theorem length_u64Response (x : UInt64) :
    (Response.ok (u64ToLe x)).encodeBody.length ≤ shortText := by
  rw [Response.encodeBody, length_u64ToLe]
  decide

/-- A short response to a request that is neither a copy from the device nor a lookup. -/
theorem Sized.plain (hlen : resp.encodeBody.length ≤ shortText)
    (hcopy : ∀ handle offset len, req ≠ .memcpyD2H handle offset len)
    (hlookup : ∀ module name, req ≠ .getFunction module name) : Sized hip s req resp :=
  .short hlen (fun handle offset len _ hreq => absurd hreq (hcopy handle offset len))
    fun module name _ hreq => absurd hreq (hlookup module name)

/-- A copy from the device. -/
theorem sized_memcpyD2H (h : ShortTexts hip) {handle offset len : UInt64}
    (hok : handleRequest hip s (.memcpyD2H handle offset len) = .ok (resp, s')) :
    Sized hip s (.memcpyD2H handle offset len) resp := by
  cases hhandle : s.handles.get handle with
  | none =>
    rw [handleRequest_memcpyD2H_unknown hip hhandle] at hok
    cases hok
    refine .short (length_unknown handle (by decide)) ?_ (by simp)
    rintro _ _ _ ptr ⟨⟩ hknown -
    rw [hhandle] at hknown
    cases hknown
  | some ptr =>
    by_cases hbuffer : hip.CanBuffer len s.device
    · rw [handleRequest_memcpyD2H_known hhandle hbuffer] at hok
      dsimp only at hok
      split at hok
      case isTrue hrc =>
        cases hok
        have hwhat : (utf8Bytes "hipMemcpy D2H").length = 13 := by decide
        refine .short (Nat.le_trans (h.failed "hipMemcpy D2H" _) (by rw [hwhat]; decide)) ?_
          (by simp)
        rintro _ _ _ ptr' ⟨⟩ hknown -
        rw [hhandle] at hknown
        cases hknown
        exact hrc
      case isFalse hrc =>
        cases hok
        exact .copied handle offset len ptr rfl hhandle hbuffer (not_not.mp hrc)
          (HipLib.length_buffer _ _)
    · -- no buffer, and so no response
      obtain ⟨fault, hfault, -⟩ := handleRequest_memcpyD2H_crashes hhandle hbuffer
      rw [hfault] at hok
      cases hok

/-- A lookup. -/
theorem sized_getFunction (h : ShortTexts hip) {module : UInt64} {name : String}
    (hok : handleRequest hip s (.getFunction module name) = .ok (resp, s')) :
    Sized hip s (.getFunction module name) resp := by
  simp only [handleRequest] at hok
  split at hok
  case h_1 ptr hknown =>
    rcases getFunction_cases h ptr name s.device with ⟨hnul, hsym, hrc, herr⟩ | ⟨hno, hwithin⟩
    · split at hok
      case h_1 heq =>
        rw [heq] at herr
        cases herr
      case h_2 e d heq =>
        cases hok
        rw [heq] at herr
        cases herr
        exact .named module name ptr hnul rfl hknown hsym hrc (length_lookupMessage hip name _)
    · refine .short ?_ (by simp) ?_
      · split at hok
        case h_1 => cases hok; exact length_u64Response _
        case h_2 e d he => cases hok; exact hwithin _ (congrArg Prod.fst he)
      · rintro _ _ ptr' ⟨⟩ hknown'
        rw [hknown] at hknown'
        cases hknown'
        exact hno
  case h_2 hunknown =>
    cases hok
    refine .short (length_unknown module (by decide)) (by simp) ?_
    rintro _ _ ptr ⟨⟩ hknown
    rw [hunknown] at hknown
    cases hknown

/-- The size of a response to a request the daemon has read. One case a request kind. -/
theorem handleRequest_sized (h : ShortTexts hip) (hreq : req.encodeBody.length ≤ maxBodyLen)
    (hok : handleRequest hip s req = .ok (resp, s')) : Sized hip s req resp := by
  cases req with
  | deviceCount =>
    refine .plain ?_ (by simp) (by simp)
    simp only [handleRequest] at hok
    split at hok
    case h_1 count _ _ =>
      cases hok
      rw [Response.encodeBody, length_i32ToLe]
      decide
    case h_2 e d he => cases hok; exact errorWithin_deviceCount h _ _ (congrArg Prod.fst he)
  | setDevice device =>
    cases hok
    exact .plain (by decide) (by simp) (by simp)
  | malloc size =>
    refine .plain ?_ (by simp) (by simp)
    simp only [handleRequest] at hok
    split at hok
    case h_1 => cases hok; exact length_u64Response _
    case h_2 e d he => cases hok; exact errorWithin_mallocRaw h _ _ _ (congrArg Prod.fst he)
  | free handle =>
    refine .plain ?_ (by simp) (by simp)
    simp only [handleRequest] at hok
    split at hok
    case h_1 => cases hok; exact length_emptyOrErr (errorWithin_freeRaw h _ _)
    case h_2 => cases hok; exact length_unknown handle (by decide)
  | memcpyH2D handle offset data =>
    refine .plain ?_ (by simp) (by simp)
    simp only [handleRequest] at hok
    split at hok
    case h_1 => cases hok; exact length_emptyOrErr (errorWithin_memcpyH2d h _ _ _ _)
    case h_2 => cases hok; exact length_unknown handle (by decide)
  | memcpyD2H handle offset len => exact sized_memcpyD2H h hok
  | getDeviceProperties device =>
    cases hok
    refine .plain ?_ (by simp) (by simp)
    refine length_bytesOrErr (errorWithin_devicePropertiesR0600 h _ _) fun bytes hbytes => ?_
    rw [length_devicePropertiesR0600 hbytes]
    decide
  | loadModule data =>
    refine .plain ?_ (by simp) (by simp)
    simp only [handleRequest] at hok
    split at hok
    case h_1 => cases hok; exact length_u64Response _
    case h_2 e d he => cases hok; exact errorWithin_loadModule h _ _ _ (congrArg Prod.fst he)
  | getFunction module name => exact sized_getFunction h hok
  | launchKernel function grid block sharedMem fixups args =>
    refine .plain ?_ (by simp) (by simp)
    simp only [handleRequest] at hok
    split at hok
    case h_1 funcPtr _ =>
      cases hpatch : patchArgs s.handles fixups args with
      | error f => rw [hpatch] at hok; cases hok
      | ok result =>
        rw [hpatch] at hok
        cases result with
        | error e =>
          cases hok
          have hargs : args.length ≤ maxBodyLen := by
            rw [encodeBody_launchKernel, List.length_append, List.length_append] at hreq
            omega
          exact patchArgs_error_short hargs hpatch
        | ok args =>
          cases hok
          exact length_emptyOrErr (errorWithin_launchKernel h _ _ _ _ _ _)
    case h_2 => cases hok; exact length_unknown function (by decide)

/-- The messages of HIP, a decimal code and a name that was read fit the length field. -/
theorem lookupMessageLength_lt (h : ShortTexts hip) {name : String}
    (hname : (utf8Bytes name).length ≤ maxBodyLen) (rc : Int32) :
    lookupMessageLength hip name rc < 2 ^ 32 := by
  have hmax : maxBodyLen = 268435456 := rfl
  have htext := h.errorString rc
  have hrc := length_utf8Bytes_int32_le rc
  unfold lookupMessageLength
  omega

/-- **When the response frame is safe.** Exactly when the request is not a copy from the device
that is made and whose length wraps round to one the client accepts. -/
theorem servesWhole_iff (h : ShortTexts hip) (hreq : req.encodeBody.length ≤ maxBodyLen) :
    ServesWhole hip s req ↔ ∀ resp s', handleRequest hip s req = .ok (resp, s') →
      HeaderSafe resp.encodeBody.length := by
  constructor
  · intro hwhole resp s' hok
    cases handleRequest_sized h hreq hok with
    | short hlen => exact Or.inl (Nat.lt_of_le_of_lt hlen (by decide))
    | named module name ptr hnul hlookup hknown hsym hrc hlen =>
      subst hlookup
      have hname : (utf8Bytes name).length ≤ maxBodyLen := by
        simp only [Request.encodeBody, List.length_append] at hreq
        omega
      rw [hlen]
      exact Or.inl (lookupMessageLength_lt h hname _)
    | copied handle offset len ptr hcopy hknown hbuffer hrc hlen =>
      subst hcopy
      -- of the three ways out only the length is one a copy that is made has
      rcases hwhole with hsafe | hcrash | hfails
      · rw [hlen]
        exact hsafe
      · exact absurd hbuffer hcrash
      · exact absurd hrc (hfails ptr hknown)
  · intro hsafe
    cases req with
    | memcpyD2H handle offset len =>
      by_contra hnot
      simp only [ServesWhole, not_or] at hnot
      obtain ⟨hlong, hbuffer, hcopied⟩ := hnot
      push Not at hbuffer hcopied
      obtain ⟨ptr, hknown, hrc⟩ := hcopied
      refine hlong ?_
      -- the buffer is allocated and the copy succeeds, so the response carries all of it
      have hok : ∃ bytes d, handleRequest hip s (.memcpyD2H handle offset len)
          = .ok (.ok (HipLib.buffer len.toNat bytes), { s with device := d }) := by
        rw [handleRequest_memcpyD2H_known hknown hbuffer]
        dsimp only
        rw [if_neg (not_not.mpr hrc)]
        exact ⟨_, _, rfl⟩
      obtain ⟨bytes, d, hok⟩ := hok
      have hbuffer := hsafe _ _ hok
      rwa [Response.encodeBody, HipLib.length_buffer] at hbuffer
    | _ => trivial

end Responses

end HipBridge.Daemon
