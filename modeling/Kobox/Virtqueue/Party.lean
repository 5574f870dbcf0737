import Kobox.Virtqueue.HostilePeer
import Kobox.Virtqueue.SafeParts

/-!
# One side of a lane in company

What a call has to keep true while the peer runs has the same form on both sides.
-/

namespace Kobox.Virtqueue
open ByteMemory Protocol Resumption

/-- One side of a lane: its ghost `G`, the view `V` its caller has, and the ghost `O` of the peer. -/
structure Party (G V O : Type) where
  lane : Lane
  side : Side
  view : G → V
  Quiet : G → Prop
  start : V
  hear : V → State → Call → Out → V
  Tracks : V → State → Prop
  Shared : G → O → Memory → Prop
  /-- What holds inside the call `r` that began with the view `base`. -/
  Keeps (base : V) (r : Request) (s : State) (g : G) : Prop
  keeps : ∀ {g s} (r : Request), Tracks (view g) s → Quiet g → Keeps (view g) r s g
  caller : ∀ {v s} {chains : ChainId → Chain}, Tracks v s →
    (∀ slot id, s.vq.slots slot = some id → chains id = s.chains id) → Tracks v { s with chains }

namespace Party
variable {G V O : Type}

abbrev binding (P : Party G V O) : Binding := P.lane.binding P.side

abbrev of (P : Party G V O) (log : List Done) : V := learned P.hear P.start log

/-- A callback writes in the lane alone. -/
structure Guard (P : Party G V O) (base : V) (r : Request) (e : Access) (g : G) : Prop where
  inLane : e.call.writes = true → ∀ x, Span.Mem x e.call.span → InLane P.lane x
  keeps : P.Keeps base r e.state g

abbrev Safe (P : Party G V O) (base : V) (r : Request) (Q : Outcome → G → Prop) (p : Op Outcome)
    (g : G) : Prop :=
  Resumption.Safe Access.exec P.Shared (P.Guard base r) Q p g

/-- Between two calls. -/
structure Idle (P : Party G V O) (g : G) (s : State) : Prop where
  sound : Sound P.binding s
  tracks : P.Tracks (P.view g) s
  quiet : P.Quiet g
  running : s.faulted = false

/-- At the end of a call; `settle` brings the ghost to the view that the reply gives. -/
structure Ends (P : Party G V O) (base : V) (s : State) (r : Request) (o : Outcome) (g : G) :
    Prop where
  keeps : P.Keeps base r o.2 g
  running : o.2.faulted = false
  settle : ∀ peer m, P.Shared g peer m →
    ∃ g', P.Shared g' peer m ∧ P.Quiet g' ∧ P.view g' = learn P.hear base ⟨r, o.1, s, o.2⟩

def Starts (P : Party G V O) (g : G) (s : State) (r : Request) (p : Op Outcome) : Prop :=
  ∀ peer m, P.Shared g peer m →
    ∃ g', P.Shared g' peer m ∧ P.Safe (P.view g) r (P.Ends (P.view g) s r) p g'

section Idle
variable {P : Party G V O} {g : G} {s : State} {r : Request} {status : Status} {p : Op Outcome}

variable (hi : P.Idle g s)
include hi

theorem Idle.guard_read {call : MemoryCall} (hc : call.writes = false) :
    P.Guard (P.view g) r ⟨s, call⟩ g := by
  refine ⟨fun hw => ?_, P.keeps r hi.tracks hi.quiet⟩
  rw [hc] at hw
  cases hw

theorem Idle.refuse (hs : status ≠ .ok) : P.Ends (P.view g) s r (⟨status, .nothing⟩, s) g :=
  ⟨P.keeps r hi.tracks hi.quiet, hi.running,
    fun _ _ h => ⟨g, h, hi.quiet, (learn_of_not_ok hs).symm⟩⟩

theorem Idle.finish (hs : status ≠ .ok) :
    P.Starts g s r (Virtqueue.finish status s) := fun _ _ h => ⟨g, h, hi.refuse hs⟩

theorem Idle.checked {vq : Handle} {generation : UInt64} (h : P.Starts g s r p) :
    P.Starts g s r (checked P.binding s vq generation p) := by
  unfold Virtqueue.checked
  split_ifs with hc
  · exact h
  · exact hi.finish hc

theorem Idle.unless {c : Prop} [Decidable c] (hs : status ≠ .ok) (h : ¬ c → P.Starts g s r p) :
    P.Starts g s r (if c then Virtqueue.finish status s else p) := by
  split_ifs with hc
  · exact hi.finish hs
  · exact h hc

theorem Idle.chained {vq : Handle} {generation : UInt64} {chain : Option ChainId}
    {bad : ChainId → Prop} [DecidablePred bad] {body : ChainId → Op Outcome} :
    (∀ id, chain = some id → ¬bad id → P.Starts g s r (body id)) →
    P.Starts g s r (Virtqueue.checked P.binding s vq generation <| match chain with
      | none => Virtqueue.finish .invalid s
      | some id => if bad id then Virtqueue.finish .invalid s else body id) := by
  refine fun h => hi.checked ?_
  cases chain with
  | none => exact hi.finish (by simp)
  | some id => exact hi.unless (by simp) (h id rfl)

end Idle

end Party

end Kobox.Virtqueue
