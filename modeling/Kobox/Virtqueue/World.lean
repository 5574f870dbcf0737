import Kobox.Virtqueue.Faults
import Kobox.Virtqueue.Ledger

/-!
# Two honest endpoints on one channel

One move of the world is one memory callback of some agent, the start or the end of a call, a change
of a chain object that no queue owns, or a write of a caller to memory that no outstanding chain
covers. A run is any sequence of moves, so every interleaving of the callbacks is a run.
-/

namespace Kobox.Virtqueue
open ByteMemory Protocol Resumption

/-- What the two endpoints of a channel share. -/
structure Link where
  channel : ChannelModel
  payloadAllowed : UInt32 → UInt64 → UInt64 → UInt32 → Bool

def Link.lane (K : Link) (q : Queue) : Lane := ⟨K.channel, q, K.payloadAllowed⟩

inductive Thread where
  | idle (s : State)
  /-- Inside the call `r`, made from private state `before`. -/
  | busy (before : State) (r : Request) (rest : Op Outcome)

def Thread.state : Thread → State
  | .idle s => s
  | .busy _ _ (.ask e _) => e.state
  | .busy _ _ (.done o) => o.2

structure Agent where
  log : List Done
  thread : Thread

inductive Action where
  | chain (id : ChainId) (c : Chain)
  | call (r : Request)
  | access
  | finish

/-- One action of an agent with binding `b` whose endpoint has fault flag `flag`. -/
def Agent.act (b : Binding) (flag : Bool) (m : Memory) (a : Agent) :
    Action → Option (Agent × Memory × Bool)
  | .chain id c =>
    match a.thread with
    | .idle s =>
      -- The caller leaves chains alone that the queue owns.
      if ∀ h < b.queue.queueSize.toNat, s.vq.slots h ≠ some id then
        some (⟨a.log, .idle (s.setChain id c)⟩, m, flag)
      else none
    | .busy .. => none
  | .call r =>
    match a.thread with
    | .idle s =>
      let s := { s with faulted := flag }
      some (⟨a.log, .busy s r (perform b s r)⟩, m, flag)
    | .busy .. => none
  | .access =>
    match a.thread with
    | .busy s r (.ask e k) => some (⟨a.log, .busy s r (k (e.exec m).1)⟩, (e.exec m).2, flag)
    | _ => none
  | .finish =>
    match a.thread with
    | .busy s r (.done o) => some (⟨a.log ++ [⟨r, o.1, s, o.2⟩], .idle o.2⟩, m, flag || o.2.faulted)
    | _ => none

structure World where
  memory : Memory
  faulted : Side → Bool
  agents : Queue → Side → Agent

inductive Move where
  | agent (q : Queue) (side : Side) (action : Action)
  | store (address : ℕ) (bytes : List UInt8)

/-- A caller may write where there is no ring and no memory of a chain a driver holds. -/
def World.MayStore (K : Link) (W : World) (span : Span) : Prop :=
  ∀ q ∈ K.channel.queues, (∀ i < 3, Span.Apart span (q.ring i)) ∧
    ∀ h < q.queueSize.toNat, ∀ c ∈ (W.agents q .driver).thread.state.held h,
      Span.Apart span c.wire.table ∧ ∀ p ∈ c.segs, Span.Apart span p.span

instance (K : Link) (W : World) (span : Span) : Decidable (W.MayStore K span) := by
  unfold World.MayStore
  infer_instance

def World.setAgent (W : World) (q : Queue) (side : Side) (a : Agent) : Queue → Side → Agent :=
  Function.update W.agents q (Function.update (W.agents q) side a)

def World.step (K : Link) (W : World) : Move → Option World
  | .agent q side action =>
    if q ∈ K.channel.queues then
      ((W.agents q side).act ((K.lane q).binding side) (W.faulted side) W.memory action).map
        fun (a, m, flag) => ⟨m, Function.update W.faulted side flag, W.setAgent q side a⟩
    else none
  | .store address bytes =>
    if W.MayStore K ⟨address, bytes.length⟩ then
      some { W with memory := ByteMemory.write W.memory address bytes }
    else none

def World.run (K : Link) : World → List Move → Option World
  | W, [] => some W
  | W, move :: moves => (W.step K move).bind fun W => W.run K moves

/-- Both endpoints have just bound every queue, on zeroed rings. -/
structure World.Initial (K : Link) (W : World) : Prop where
  running : ∀ side, W.faulted side = false
  zeroed : ∀ q ∈ K.channel.queues, ∀ i < 3, ∀ x, Span.Mem x (q.ring i) → W.memory x = 0
  opened : ∀ q ∈ K.channel.queues, ∀ side, ∃ s, W.agents q side = ⟨[], .idle s⟩ ∧
    Opened ((K.lane q).binding side) s

/-- The payload policy never allows overlapping ranges to two queues. -/
def Link.Isolated (K : Link) : Prop :=
  ∀ q ∈ K.channel.queues, ∀ q' ∈ K.channel.queues, q.queueId ≠ q'.queueId →
    ∀ address size rights address' size' rights',
      K.payloadAllowed q.queueId address size rights = true →
      K.payloadAllowed q'.queueId address' size' rights' = true →
      Span.Apart ⟨address.toNat, size.toNat⟩ ⟨address'.toNat, size'.toNat⟩

theorem inLane_unique {K : Link} (hiso : K.Isolated) {q q' : Queue}
    (hb : ((K.lane q).binding .driver).Bound) (hb' : ((K.lane q').binding .driver).Bound) {x : ℕ}
    (h : InLane (K.lane q) x) (h' : InLane (K.lane q') x) : q = q' := by
  by_contra hne
  have hid : q.queueId ≠ q'.queueId :=
    fun he => hne (hb.accepted.identity q hb.queue_mem q' hb'.queue_mem he)
  rcases h with ⟨i, hi, hx⟩ | ⟨a, n, rights, hg, hx⟩
  · rcases h' with ⟨j, hj, hx'⟩ | ⟨a', n', rights', hg', hx'⟩
    · exact Span.apart_iff_not_mem.mp
        (hb.accepted.rings_apart q hb.queue_mem q' hb'.queue_mem hid i hi j hj) x hx hx'
    · exact Span.apart_iff_not_mem.mp (hg'.rings q hb.queue_mem i hi) x hx' hx
  · rcases h' with ⟨j, hj, hx'⟩ | ⟨a', n', rights', hg', hx'⟩
    · exact Span.apart_iff_not_mem.mp (hg.rings q' hb'.queue_mem j hj) x hx hx'
    · exact Span.apart_iff_not_mem.mp (hiso q hb.queue_mem q' hb'.queue_mem hid a n rights a' n'
        rights' hg.allowed hg'.allowed) x hx hx'

theorem Shared.of_agree {L : Lane} (hb : (L.binding .driver).Bound) {d : DriverGhost}
    {v : DeviceGhost} {m m' : Memory} (h : Shared L d v m)
    (hm : ∀ x, InLane L x → m' x = m x) : Shared L d v m' := by
  refine h.frame hb (fun i hi x hx => hm x (Or.inl ⟨i, hi, hx⟩)) fun w hw x hx => hm x ?_
  have hv := h.ledger.shown_valid hw
  rcases hx with hx | ⟨p, hp, hx⟩
  · exact inLane_table hb hv (.refl _) hx
  · exact inLane_segment hb hv hp (.refl _) hx

theorem exec_outside (e : Access) (m : Memory) {x : ℕ}
    (h : e.call.writes = true → ¬ Span.Mem x e.call.span) : (e.exec m).2 x = m x := by
  obtain ⟨s, call⟩ := e
  cases call with
  | write address bytes => exact write_outside m _ bytes (h rfl)
  | storeRelease address value => exact write_outside m _ (writeU16 value) (h rfl)
  | read | loadAcquire | fence => rfl

/-! ### The small channel as a world -/

namespace Sample

def link : Link := ⟨channel, payloadAllowed⟩

def world : World := ⟨memory, fun _ => false, fun _ _ => ⟨[], .idle opened⟩⟩

theorem isolated : link.Isolated := by
  have hlow : ∀ {address size rights}, link.payloadAllowed queue.queueId address size rights = true →
      address.toNat + size.toNat ≤ 0x1400 := of_decide_eq_true
  have hhigh : ∀ {address size rights},
      link.payloadAllowed events.queueId address size rights = true →
      0x1400 ≤ address.toNat := of_decide_eq_true
  intro q hq q' hq' hne address size rights address' size' rights' h h'
  rcases List.mem_pair.mp hq with rfl | rfl <;> rcases List.mem_pair.mp hq' with rfl | rfl
  · exact absurd rfl hne
  · exact Or.inr (Or.inr (Or.inl ((hlow h).trans (hhigh h'))))
  · exact Or.inr (Or.inr (Or.inr ((hlow h').trans (hhigh h))))
  · exact absurd rfl hne

theorem opens_events (side : Side) : Opened ((link.lane events).binding side) opened := by
  refine ⟨accepted, 2, 4, ?_⟩
  cases side with
  | driver => exact ⟨_, run_execute Access.exec (bind _ _ _ _ _ .driver _ _) memory⟩
  | device => exact ⟨_, run_execute Access.exec (bind _ _ _ _ _ .device _ _) memory⟩

theorem initial : world.Initial link := by
  refine ⟨fun _ => rfl, fun _ _ _ _ _ _ => rfl, fun q hq side => ⟨opened, rfl, ?_⟩⟩
  rcases List.mem_pair.mp hq with rfl | rfl
  · exact opens side
  · exact opens_events side

def start (side : Side) (call : Call) : Move := .agent queue side (.call ⟨.bound, 7, call⟩)

def callbacks (side : Side) (n : ℕ) : List Move := List.replicate n (.agent queue side .access)

def stop (side : Side) : Move := .agent queue side .finish

def whole (side : Side) (call : Call) (n : ℕ) : List Move :=
  start side call :: (callbacks side n ++ [stop side])

def wakeup : List Move :=
  start .device (.arm true) :: callbacks .device 2 ++
    start .driver (.publish (some 0) true) :: callbacks .driver 3 ++
    (callbacks .device 1 ++ [stop .device]) ++ (callbacks .driver 3 ++ [stop .driver])

def armEvents : List Move :=
  .agent events .driver (.call ⟨.bound, 7, .arm true⟩) ::
    (List.replicate 3 (.agent events .driver .access) ++ [.agent events .driver .finish])

def exchange : List Move :=
  wakeup ++ armEvents ++ whole .driver (.arm true) 3 ++ whole .device (.takeAvailable (some 1)) 4 ++
    whole .device (.writeResponse (some 1) (.data [1, 2, 3])) 1 ++
    whole .device (.complete (some 1) true) 4 ++ whole .driver (.takeUsed true) 2 ++
    whole .driver (.copyResponse (some 0) 1 2 true) 1 ++ whole .driver (.release (some 0)) 0

theorem wakeup_runs : (world.run link wakeup).isSome = true := by decide +kernel

theorem exchange_runs : (world.run link exchange).isSome = true := by decide +kernel

def woken : World := (world.run link wakeup).get wakeup_runs

def ended : World := (world.run link exchange).get exchange_runs

theorem run_wakeup : world.run link wakeup = some woken := Option.eq_some_of_isSome wakeup_runs

theorem run_exchange : world.run link exchange = some ended :=
  Option.eq_some_of_isSome exchange_runs

end Sample

end Kobox.Virtqueue
