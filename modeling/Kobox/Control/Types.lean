import Mathlib.Data.Nat.Notation
import Mathlib.Logic.Function.Basic

/-!
# Sandbox controller: data (`include/kobox2/controller.h`, `src/controller/controller.c:14-51`)

A call on a NULL controller returns before it touches an object and is left out, as
are the allocator fields. Of a sealed closure the controller reads only the flags of
its resources.
-/

namespace Kobox.Control

def digestSize : ℕ := 32

def uint64Max : UInt64 := 0xFFFFFFFFFFFFFFFF

inductive Status where
  | ok
  | invalidArgument
  | invalidState
  | invalidConfiguration
  | actionPending
  | staleGeneration
  | staleAction
  | noMemory
  | resourceDenied
  | resourceExhausted
  | hostFailure
  | counterExhausted
  deriving DecidableEq, Repr

def Status.code : Status → UInt64
  | .ok => 0
  | .invalidArgument => 1
  | .invalidState => 2
  | .invalidConfiguration => 3
  | .actionPending => 4
  | .staleGeneration => 5
  | .staleAction => 6
  | .noMemory => 7
  | .resourceDenied => 8
  | .resourceExhausted => 9
  | .hostFailure => 10
  | .counterExhausted => 11

/-- `kb2_state_t`. A controller object is never in `KB2_STATE_INVALID`, which
`kb2_controller_state` returns for NULL. -/
inductive State where
  | idle
  | starting
  | handshaking
  | running
  | stopping
  | faulted
  deriving DecidableEq, Repr

inductive DigestKind where
  | manifest
  | profile
  | capabilitySet
  | channelSet
  deriving DecidableEq, Repr

/-- The bit of a digest in `digest_mask`. -/
def DigestKind.bit : DigestKind → UInt32
  | .manifest => 1
  | .profile => 2
  | .capabilitySet => 4
  | .channelSet => 8

inductive LimitKind where
  | sharedMemoryBytes
  | channelCount
  | queueCount
  | outstandingRequestCount
  deriving DecidableEq, Repr

inductive ActionType where
  | none
  | allocateResources
  | launchSandbox
  | transferResources
  | quiesceSandbox
  | terminateSandbox
  | revokeResources
  | resetResources
  | reapSandbox
  | releaseResources
  deriving DecidableEq, Repr

def ActionType.code : ActionType → UInt64
  | .none => 0
  | .allocateResources => 1
  | .launchSandbox => 2
  | .transferResources => 3
  | .quiesceSandbox => 4
  | .terminateSandbox => 5
  | .revokeResources => 6
  | .resetResources => 7
  | .reapSandbox => 8
  | .releaseResources => 9

inductive FaultKind where
  | none
  | processExit
  | protocol
  | hostAction
  | controller
  deriving DecidableEq, Repr

def resourceResetRequired : UInt32 := 4

/-- `KB2_LAUNCH_RESET_REQUIRED`, the only known launch flag. -/
def launchResetRequired : UInt32 := 1

structure Resource where
  flags : UInt32
  deriving DecidableEq, Repr

structure Closure where
  resources : List Resource
  deriving DecidableEq, Repr

/-- `kb2_closure_launch_flags` (`src/closure.c:1090`). -/
def closureLaunchFlags : Option Closure → UInt32
  | none => 0
  | some closure =>
    if closure.resources.any fun r => r.flags &&& resourceResetRequired != 0 then
      launchResetRequired
    else 0

structure Configuration where
  closure : Option Closure
  digests : DigestKind → List UInt8
  limits : LimitKind → UInt64
  digestMask : UInt32
  flags : UInt32

structure Action where
  type : ActionType
  token : UInt64
  generation : UInt64
  resourceSetId : UInt64
  sandboxId : UInt64
  configuration : Configuration

structure Controller where
  configuration : Configuration
  action : Action
  state : State
  faultKind : FaultKind
  faultCode : UInt64
  generation : UInt64
  nextToken : UInt64
  resourceSetId : UInt64
  sandboxId : UInt64
  actionPending : Bool
  resourcesAllocated : Bool
  resourcesRevoked : Bool
  resourcesReset : Bool
  processStarted : Bool
  processExited : Bool
  restartRequested : Bool
  gracefulStop : Bool

def Configuration.zero : Configuration where
  closure := none
  digests _ := List.replicate digestSize 0
  limits _ := 0
  digestMask := 0
  flags := 0

def Action.zero : Action := ⟨.none, 0, 0, 0, 0, .zero⟩

/-- The object `kb2_controller_create` returns. -/
def Controller.created : Controller where
  configuration := .zero
  action := .zero
  state := .idle
  faultKind := .none
  faultCode := 0
  generation := 0
  nextToken := 0
  resourceSetId := 0
  sandboxId := 0
  actionPending := false
  resourcesAllocated := false
  resourcesRevoked := false
  resourcesReset := false
  processStarted := false
  processExited := false
  restartRequested := false
  gracefulStop := false

end Kobox.Control
