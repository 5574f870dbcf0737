import Kobox.Control.Types

/-!
# Sandbox controller: operations (`src/controller/controller.c`)
-/

namespace Kobox.Control

abbrev Result := Status × Controller

def digestIsZero (digest : List UInt8) : Bool := digest.all fun byte => byte == 0

def clearAction (c : Controller) : Controller := { c with action := .zero, actionPending := false }

/-- The resource set an action names (`controller.c:92-115`). -/
def actionResourceSetId (c : Controller) : ActionType → UInt64
  | .launchSandbox | .resetResources | .releaseResources => c.resourceSetId
  | .transferResources | .quiesceSandbox => c.resourceSetId
  | .revokeResources => c.resourceSetId
  | _ => 0

def actionSandboxId (c : Controller) : ActionType → UInt64
  | .transferResources | .quiesceSandbox => c.sandboxId
  | .terminateSandbox | .reapSandbox => c.sandboxId
  | _ => 0

def Controller.emit (c : Controller) (type : ActionType) : Controller :=
  { c with
    nextToken := c.nextToken + 1
    action := ⟨type, c.nextToken + 1, c.generation, actionResourceSetId c type,
      actionSandboxId c type, c.configuration⟩
    actionPending := true }

def Controller.fault (c : Controller) (kind : FaultKind) (code : UInt64) : Controller :=
  { c with state := .faulted, faultKind := kind, faultCode := code }

def emitAction (c : Controller) (type : ActionType) : Result :=
  if c.nextToken = uint64Max then
    (.counterExhausted, c.fault .controller Status.counterExhausted.code)
  else (.ok, c.emit type)

/-- All digests but the manifest's, which the closure carries. -/
def requiredDigests : List DigestKind := [.profile, .capabilitySet, .channelSet]

def requiredDigestMask : UInt32 := requiredDigests.foldl (fun mask kind => mask ||| kind.bit) 0

def limitKinds : List LimitKind :=
  [.sharedMemoryBytes, .channelCount, .queueCount, .outstandingRequestCount]

def validateConfiguration (c : Controller) : Status :=
  if c.configuration.closure.isNone || c.configuration.digestMask != requiredDigestMask then
    .invalidConfiguration
  else if requiredDigests.any fun kind => digestIsZero (c.configuration.digests kind) then
    .invalidConfiguration
  else if limitKinds.any fun kind => c.configuration.limits kind == 0 then .invalidConfiguration
  else if c.configuration.flags &&& ~~~launchResetRequired != 0 then .invalidConfiguration
  else .ok

def actionResultValid (result : Status) : Bool :=
  result == .ok || result == .resourceDenied || result == .resourceExhausted ||
    result == .hostFailure

def Controller.begin (c : Controller) : Controller :=
  { c with
    generation := c.generation + 1
    state := .starting
    faultKind := .none
    faultCode := 0
    resourceSetId := 0
    sandboxId := 0
    resourcesAllocated := false
    resourcesRevoked := false
    resourcesReset := false
    processStarted := false
    processExited := false }

def beginStart (c : Controller) : Result :=
  if c.generation = uint64Max ∨ c.nextToken = uint64Max then (.counterExhausted, c)
  else
    let status := validateConfiguration c
    if status ≠ .ok then (status, c) else emitAction c.begin .allocateResources

def Controller.rest (c : Controller) : Controller :=
  { c with restartRequested := false, state := .idle, faultKind := .none, faultCode := 0 }

def finishCleanup (c : Controller) : Result :=
  if c.restartRequested then
    let (status, c) := beginStart c.rest
    if status ≠ .ok then (status, c.fault .controller status.code) else (status, c)
  else (.ok, c.rest)

def Configuration.resetRequired (configuration : Configuration) : Bool :=
  configuration.flags &&& launchResetRequired != 0

def resetRequired (c : Controller) : Bool := c.configuration.resetRequired

def nextCleanupAction (c : Controller) : Result :=
  if c.processStarted then
    emitAction c (if c.gracefulStop then .quiesceSandbox else .terminateSandbox)
  else if c.resourcesAllocated && !c.resourcesRevoked then emitAction c .revokeResources
  else if c.resourcesAllocated && resetRequired c && !c.resourcesReset then
    emitAction c .resetResources
  else if c.processExited then emitAction c .reapSandbox
  else if c.resourcesAllocated then emitAction c .releaseResources
  else finishCleanup c

def beginCleanup (c : Controller) (restart : Bool) : Result :=
  nextCleanupAction
    { c with gracefulStop := c.state != .faulted, state := .stopping, restartRequested := restart }

/-- `kb2_controller_set_closure`; `copied` is whether the allocator had memory for the copy. -/
def setClosure (c : Controller) (closure : Option Closure) (copied : Bool) : Result :=
  match closure with
  | none => (.invalidArgument, c)
  | some closure =>
    if c.state ≠ .idle ∨ c.actionPending = true then (.invalidState, c)
    else if copied = false then (.noMemory, c)
    else
      let configuration := { c.configuration with
        closure := some closure, flags := closureLaunchFlags (some closure) }
      (.ok, { c with configuration })

/-- A kind of `none` is a value that is no enumerator. -/
def setDigest (c : Controller) (kind : Option DigestKind) (digest : Option (List UInt8)) : Result :=
  match digest, kind with
  | some digest, some kind =>
    if digest.length ≠ digestSize then (.invalidArgument, c)
    else if kind = .manifest then (.invalidArgument, c)
    else if c.state ≠ .idle ∨ c.actionPending = true then (.invalidState, c)
    else if digestIsZero digest then (.invalidConfiguration, c)
    else
      let configuration := { c.configuration with
        digests := Function.update c.configuration.digests kind digest
        digestMask := c.configuration.digestMask ||| kind.bit }
      (.ok, { c with configuration })
  | _, _ => (.invalidArgument, c)

def setLimit (c : Controller) (kind : Option LimitKind) (value : UInt64) : Result :=
  match kind with
  | none => (.invalidArgument, c)
  | some kind =>
    if c.state ≠ .idle ∨ c.actionPending = true then (.invalidState, c)
    else if value = 0 then (.invalidConfiguration, c)
    else
      let configuration := { c.configuration with
        limits := Function.update c.configuration.limits kind value }
      (.ok, { c with configuration })

/-! ### Lifecycle -/

def start (c : Controller) : Result :=
  if c.state ≠ .idle then (.invalidState, c)
  else if c.actionPending then (.actionPending, c)
  else beginStart c

/-- `kb2_controller_stop` and `kb2_controller_restart` differ in the flag alone. -/
def halt (c : Controller) (restart : Bool) : Result :=
  if c.actionPending then (.actionPending, c)
  else if c.state ≠ .handshaking ∧ c.state ≠ .running ∧ c.state ≠ .faulted then (.invalidState, c)
  else beginCleanup c restart

def stop (c : Controller) : Result := halt c false

def restart (c : Controller) : Result := halt c true

/-- What the host reports about the pending action. -/
structure Completion where
  generation : UInt64
  token : UInt64
  result : Status
  resourceSetId : UInt64
  sandboxId : UInt64
  deriving DecidableEq, Repr

def Completion.idsValid (r : Completion) (type : ActionType) : Bool :=
  if r.result ≠ .ok then r.resourceSetId == 0 && r.sandboxId == 0
  else match type with
    | .allocateResources => r.resourceSetId != 0 && r.sandboxId == 0
    | .launchSandbox => r.resourceSetId == 0 && r.sandboxId != 0
    | _ => r.resourceSetId == 0 && r.sandboxId == 0

def Completion.refusal (c : Controller) (r : Completion) : Option Status :=
  if !actionResultValid r.result then some .invalidArgument
  else if c.actionPending = false then some .invalidState
  else if r.generation ≠ c.generation then some .staleGeneration
  else if r.token ≠ c.action.token then some .staleAction
  else if !r.idsValid c.action.type then some .invalidArgument
  else none

/-- The switch on the completed action; `c` has no action any more. -/
def advance (c : Controller) (r : Completion) : ActionType → Result
  | .allocateResources =>
    emitAction { c with resourceSetId := r.resourceSetId, resourcesAllocated := true } .launchSandbox
  | .launchSandbox =>
    emitAction { c with sandboxId := r.sandboxId, processStarted := true } .transferResources
  | .transferResources => (.ok, { c with state := .handshaking })
  | .quiesceSandbox | .terminateSandbox =>
    nextCleanupAction { c with processStarted := false, processExited := true }
  | .reapSandbox => nextCleanupAction { c with processExited := false, sandboxId := 0 }
  | .revokeResources => nextCleanupAction { c with resourcesRevoked := true }
  | .resetResources => nextCleanupAction { c with resourcesReset := true }
  | .releaseResources => nextCleanupAction { c with resourcesAllocated := false, resourceSetId := 0 }
  | .none => (.invalidState, c.fault .hostAction ActionType.none.code)

def completeAction (c : Controller) (r : Completion) : Result :=
  match r.refusal c with
  | some status => (status, c)
  | none =>
    let completed := c.action.type
    let c := clearAction c
    if r.result ≠ .ok then (r.result, c.fault .hostAction completed.code)
    else advance c r completed

def reportReady (c : Controller) (generation : UInt64) : Result :=
  if generation ≠ c.generation then (.staleGeneration, c)
  else if c.actionPending then (.actionPending, c)
  else if c.state ≠ .handshaking then (.invalidState, c)
  else (.ok, { c with state := .running })

def reportFault (c : Controller) (generation : UInt64) (kind : FaultKind) (code : UInt64) : Result :=
  if kind ≠ .processExit ∧ kind ≠ .protocol then (.invalidArgument, c)
  else if generation ≠ c.generation then (.staleGeneration, c)
  else if c.actionPending then (.actionPending, c)
  else if c.state ≠ .handshaking ∧ c.state ≠ .running then (.invalidState, c)
  else if kind = .processExit then
    (.ok, Controller.fault { c with processStarted := false, processExited := true } kind code)
  else (.ok, c.fault kind code)

inductive Call where
  | setClosure (closure : Option Closure) (copied : Bool)
  | setDigest (kind : Option DigestKind) (digest : Option (List UInt8))
  | setLimit (kind : Option LimitKind) (value : UInt64)
  | start
  | stop
  | restart
  | completeAction (completion : Completion)
  | reportReady (generation : UInt64)
  | reportFault (generation : UInt64) (kind : FaultKind) (code : UInt64)
  deriving DecidableEq, Repr

def perform (c : Controller) : Call → Result
  | .setClosure closure copied => setClosure c closure copied
  | .setDigest kind digest => setDigest c kind digest
  | .setLimit kind value => setLimit c kind value
  | .start => start c
  | .stop => stop c
  | .restart => restart c
  | .completeAction completion => completeAction c completion
  | .reportReady generation => reportReady c generation
  | .reportFault generation kind code => reportFault c generation kind code

def run (c : Controller) (calls : List Call) : Controller :=
  calls.foldl (fun c call => (perform c call).2) c

end Kobox.Control
