import Kobox.Virtqueue.Execution

/-!
# A callback that fails

Every operation tests what a callback returns before it makes the next one.
-/

namespace Kobox.Virtqueue
open Protocol Resumption List

/-- The bytes that a callback moves fit a `size_t`. -/
def MemoryCall.Sized : MemoryCall → Prop
  | .read _ size => size < 2 ^ 64
  | .write _ bytes => bytes.length < 2 ^ 64
  | _ => True

def MemoryCall.Refused : (c : MemoryCall) → c.Answer → Prop
  | .read _ _, answer => answer = none
  | .write _ _, answer => answer = false
  | .loadAcquire _, answer => answer = none
  | .storeRelease _ _, answer => answer = false
  | .fence, _ => False

/-- `KB2_VQ_IO`, with the channel's fault flag set. -/
def Outcome.Stopped (o : Outcome) : Prop := o.1.status = .io ∧ o.2.faulted = true

abbrev Strict (p : Op Outcome) : Prop :=
  FailStop (fun e => e.call.Sized) (fun e answer => e.call.Refused answer) Outcome.Stopped p

variable {b : Binding} {s : State} {vq : Handle} {generation : UInt64}

theorem strict_done (o : Outcome) : Strict (.done o) := trivial

theorem strict_fault (s : State) {refused : Prop} :
    (refused → ∃ o, (.done (fault s true) : Op Outcome) = .done o ∧ o.Stopped) ∧
      Strict (.done (fault s true)) :=
  ⟨fun _ => ⟨_, rfl, rfl, rfl⟩, trivial⟩

theorem publishIndex_strict (s : State) (ring event : UInt64) :
    Strict (publishIndex s ring event) := by
  refine ⟨trivial, fun stored => ?_⟩
  cases stored with
  | false => exact strict_fault s
  | true =>
    refine ⟨(fun h => by cases h), trivial, fun fenced => ⟨False.elim, trivial, fun loaded => ?_⟩⟩
    cases loaded with
    | none => exact strict_fault _
    | some threshold => exact ⟨(fun h => by cases h), strict_done _⟩

theorem writeAll_strict {next : Op Outcome} (hnext : Strict next) {l : List (UInt64 × List UInt8)}
    (hl : ∀ x ∈ l, x.2.length < 2 ^ 64) : Strict (writeAll s l next) := by
  induction l with
  | nil => exact hnext
  | cons x rest ih =>
    obtain ⟨hx, hrest⟩ := forall_mem_cons.mp hl
    refine ⟨hx, fun written => ?_⟩
    cases written with
    | false => exact strict_fault s
    | true => exact ⟨(fun h => by cases h), ih hrest⟩

theorem pendingIndex_strict {next : Status → UInt16 → Op Outcome}
    (hnext : ∀ status distance, Strict (next status distance)) :
    Strict (pendingIndex b s next) := by
  refine ⟨trivial, fun loaded => ?_⟩
  cases loaded with
  | none => exact strict_fault s
  | some index => exact ⟨(fun h => by cases h), .ite (strict_done _) (hnext _ _)⟩

theorem readDescriptors_strict (id : ChainId) (fuel : ℕ) (s : State) (table : UInt64) (limit : ℕ)
    (index : UInt16) (indirect : Bool) :
    Strict (readDescriptors b id fuel s table limit index indirect) := by
  induction fuel generalizing s table limit index indirect with
  | zero => exact strict_done _
  | succ fuel ih =>
    refine .ite (strict_done _) ⟨?_, fun answer => ?_⟩
    · show descSize < 2 ^ 64
      decide
    · cases answer with
      | none => exact strict_fault s
      | some bytes =>
        refine ⟨(fun h => by cases h), .ite (strict_done _) (.ite (strict_done _) (.ite ?_ ?_))⟩
        · exact .ite (strict_done _) (ih _ _ _ _ _)
        · exact .ite (strict_done _) (ih _ _ _ _ _)

theorem copyData_strict (s : State) (writable : UInt16) (write : Bool) (segs : List Segment)
    (offset : ℕ) (bytes : List UInt8) (size : ℕ) :
    Strict (copyData s writable write segs offset bytes size) := by
  induction segs generalizing offset bytes size with
  | nil => exact .ite (strict_done _) (strict_done _)
  | cons seg rest ih =>
    refine .ite (strict_done _) (.ite (ih _ _ _) (.ite (ih _ _ _) ?_))
    have hlength : seg.length.toNat < 2 ^ 32 := seg.length.toNat_lt
    cases write with
    | true =>
      refine ⟨?_, fun written => ?_⟩
      · have hle := length_take_le (min (seg.length.toNat - offset) size) bytes
        show (bytes.take _).length < 2 ^ 64
        omega
      · cases written with
        | false => exact strict_fault s
        | true => exact ⟨(fun h => by cases h), ih _ _ _⟩
    | false =>
      refine ⟨?_, fun answer => ?_⟩
      · show min _ _ < 2 ^ 64
        omega
      · cases answer with
        | none => exact strict_fault s
        | some piece => exact ⟨(fun h => by cases h), ih _ _ _⟩

theorem Outcome.Stopped.status_ne {o : Outcome} (h : o.Stopped) : o.1.status ≠ .ok := by
  rw [h.1]
  decide

theorem readChain_strict (id : ChainId) : Strict (readChain b s id) := by
  refine (readDescriptors_strict id _ _ _ _ _ _).bind (fun o ho => ⟨o, if_pos ho.status_ne, ho⟩) ?_
  intro o
  refine .ite (strict_done _) ?_
  cases validateChain b o.2.vq o.2.chains (o.2.chains id) with
  | none => exact strict_done _
  | some chain => exact strict_done _

theorem publishClaimed_strict (chain : Chain) : Strict (publishClaimed b s chain) := by
  refine writeAll_strict (publishIndex_strict _ _ _) ?_
  simp only [descriptorWrites, forall_mem_append, forall_mem_map, forall_mem_singleton,
    writeU16_length]
  refine ⟨⟨?_, ?_⟩, by decide⟩
  · intro x hx
    simp [segmentWrite, descSize]
  · split <;> simp [descSize]

theorem takeAvailable_strict (chain : Option ChainId) :
    Strict (takeAvailable b s vq generation chain) := by
  refine .ite ?_ (strict_done _)
  cases chain with
  | none => exact strict_done _
  | some id =>
    refine .ite (strict_done _) (pendingIndex_strict fun status distance => ?_)
    refine .ite (strict_done _) (.ite (strict_done _) ⟨?_, fun answer => ?_⟩)
    · show 2 < 2 ^ 64
      decide
    · cases answer with
      | none => exact strict_fault s
      | some bytes =>
        refine ⟨(fun h => by cases h), .ite (strict_done _) ?_⟩
        refine (readChain_strict id).bind (fun o ho => ⟨o, if_pos ho.status_ne, ho⟩) ?_
        exact fun o => .ite (strict_done _) (strict_done _)

theorem takeUsed_strict (chainOut : Bool) : Strict (takeUsed b s vq generation chainOut) := by
  refine .ite (.ite (strict_done _) (pendingIndex_strict fun status distance => ?_)) (strict_done _)
  refine .ite (strict_done _) ⟨?_, fun answer => ?_⟩
  · show 8 < 2 ^ 64
    decide
  · cases answer with
    | none => exact strict_fault s
    | some bytes =>
      refine ⟨(fun h => by cases h), .ite (strict_done _) ?_⟩
      cases s.vq.slots (readU32 bytes.val).toNat with
      | none => exact strict_done _
      | some id => exact .ite (strict_done _) (strict_done _)

theorem complete_strict (chain : Option ChainId) (notify : Bool) :
    Strict (complete b s vq generation chain notify) := by
  refine .ite ?_ (strict_done _)
  cases chain with
  | none => exact strict_done _
  | some id =>
    refine .ite (strict_done _) (writeAll_strict ?_ (by simp [writeU32_length]))
    refine (publishIndex_strict _ _ _).bind (fun o ho => ⟨o, if_neg ho.status_ne, ho⟩) ?_
    exact fun o => .ite (strict_done _) (strict_done _)

theorem arm_strict (ready : Bool) : Strict (arm b s vq generation ready) := by
  refine .ite (.ite (strict_done _) ⟨trivial, fun stored => ?_⟩) (strict_done _)
  cases stored with
  | false => exact strict_fault s
  | true =>
    refine ⟨(fun h => by cases h), trivial, fun fenced => ⟨False.elim, ?_⟩⟩
    exact pendingIndex_strict fun _ _ => strict_done _

/-- A callback that fails is the last one of its operation. -/
theorem perform_strict (b : Binding) (s : State) (r : Request) : Strict (perform b s r) := by
  obtain ⟨vq, generation, call⟩ := r
  cases call with
  | takeAvailable chain => exact takeAvailable_strict chain
  | takeUsed chainOut => exact takeUsed_strict chainOut
  | complete chain notify => exact complete_strict chain notify
  | arm ready => exact arm_strict ready
  | peekAvailable pending =>
    exact .ite (.ite (strict_done _) (pendingIndex_strict fun _ _ => strict_done _)) (strict_done _)
  | publish chain notify =>
    refine .ite ?_ (strict_done _)
    cases chain with
    | none => exact strict_done _
    | some id =>
      refine .ite (strict_done _) (.ite (strict_done _) ?_)
      cases validateChain b s.vq s.chains (s.chains id) with
      | none => exact strict_done _
      | some chain => exact publishClaimed_strict chain
  | moveAccepted source destination =>
    refine .ite ?_ (strict_done _)
    cases source <;> cases destination
    case some.some => exact .ite (strict_done _) (strict_done _)
    all_goals exact strict_done _
  | returnAvailable chain | release chain =>
    cases chain with
    | none => exact .ite (strict_done _) (strict_done _)
    | some id => exact .ite (.ite (strict_done _) (strict_done _)) (strict_done _)
  | copyRequest chain offset size out | copyResponse chain offset size out =>
    cases chain with
    | none => exact .ite (strict_done _) (strict_done _)
    | some id => exact .ite (.ite (strict_done _) (copyData_strict _ _ _ _ _ _ _)) (strict_done _)
  | writeResponse chain source =>
    cases chain with
    | none => exact .ite (strict_done _) (strict_done _)
    | some id =>
      refine .ite (.ite (strict_done _) ?_) (strict_done _)
      refine (copyData_strict _ _ _ _ _ _ _).bind (fun o ho => ⟨o, if_neg ho.status_ne, ho⟩) ?_
      exact fun o => .ite (strict_done _) (strict_done _)

/-- Whatever the answers, the first callback that fails is the last one of the operation, which
returns `KB2_VQ_IO` and has faulted the channel. -/
theorem failed_callback_is_last (b : Binding) (s : State) (r : Request)
    {trace : List ((e : Access) × e.call.Answer)} {o : Outcome} (hrun : Run (perform b s r) trace o)
    {before after : List ((e : Access) × e.call.Answer)} {x : (e : Access) × e.call.Answer}
    (htrace : trace = before ++ x :: after) (hx : x.1.call.Refused x.2) :
    after = [] ∧ o.1.status = .io ∧ o.2.faulted = true :=
  (perform_strict b s r).of_run hrun htrace hx

theorem failed_load_is_last :
    let load : (e : Access) × e.call.Answer :=
      ⟨⟨Sample.opened, .loadAcquire (Sample.queue.availableAddress + 2)⟩, none⟩
    let o := fault Sample.opened true
    Run (perform (Sample.binding .device) Sample.opened ⟨.bound, 7, .peekAvailable true⟩) [load] o ∧
      o.1.status = .io := by
  intro load o
  have hrun : Run (perform (Sample.binding .device) Sample.opened ⟨.bound, 7, .peekAvailable true⟩)
      [load] o := .ask (R := fun e : Access => e.call.Answer) load.1 _ none [] o (.done o)
  have hlast := failed_callback_is_last _ _ _ hrun (nil_append [load]).symm rfl
  exact ⟨hrun, hlast.2.1⟩

end Kobox.Virtqueue
