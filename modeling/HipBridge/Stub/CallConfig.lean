import HipBridge.Unixlib.PeShim
import Mathlib.Logic.Function.Basic

/-!
# The thread-local call-configuration stack of `hip-stub`

`CALL_CONFIG_STACK` is a `Vec` in a `thread_local!`: every thread `t : T` has a stack of its
own, the last element of the `Vec` being the head of the list here.
-/

namespace HipBridge.Stub

open Lib
open Unixlib (CallConfig Dim3 PopPointers PoppedConfig hipSuccess hipErrorNotSupported)

/-- `CALL_CONFIG_STACK` of every thread. -/
abbrev CallConfigStacks (T : Type*) := T → List CallConfig

variable {T : Type*} [DecidableEq T]

/-- `__hipPushCallConfiguration` called on thread `t`: the code returned and the new stacks. -/
def hipPushCallConfiguration (tls : CallConfigStacks T) (t : T)
    (gridDim blockDim : Option Dim3) (sharedMem : UInt64) (stream : Ptr) :
    Int32 × CallConfigStacks T :=
  match gridDim, blockDim with
  | some grid, some block =>
    (hipSuccess, Function.update tls t (⟨grid, block, sharedMem, stream⟩ :: tls t))
  | _, _ => (hipErrorNotSupported, tls)

/-- `__hipPopCallConfiguration` called on thread `t`: the code returned, what is written
through the output pointers and the new stacks. -/
def hipPopCallConfiguration (tls : CallConfigStacks T) (t : T) (ptrs : PopPointers) :
    Int32 × PoppedConfig × CallConfigStacks T :=
  match tls t with
  | cfg :: rest => (hipSuccess, ptrs.write cfg, Function.update tls t rest)
  | [] => (hipErrorNotSupported, .none, tls)

end HipBridge.Stub
