import Kobox.Virtqueue.Addresses
import Kobox.Virtqueue.Codec

/-!
# What one call can do
-/

namespace Kobox.Virtqueue
open ByteMemory Protocol Resumption List Function
variable {call : Call} {c : Chain} {id : ChainId}

def MemoryCall.span : MemoryCall → Span
  | .read address size => ⟨address.toNat, size⟩
  | .write address bytes => ⟨address.toNat, bytes.length⟩
  | .loadAcquire address => ⟨address.toNat, 2⟩
  | .storeRelease address _ => ⟨address.toNat, 2⟩
  | .fence => ⟨0, 0⟩

def MemoryCall.writes : MemoryCall → Bool
  | .write _ _ => true
  | .storeRelease _ _ => true
  | _ => false

/-- Where a queue object of each side may write in private state `s`. -/
def Writable (b : Binding) (s : State) (span : Span) : Prop :=
  match b.side with
  | .driver => Span.Within span (b.queue.ring 0) ∨ Span.Within span (b.queue.ring 1) ∨
      ∃ h c, s.held h = some c ∧ c.state = .submitted ∧ Span.Within span c.wire.table
  | .device => Span.Within span (b.queue.ring 2) ∨
      ∃ h c, s.held h = some c ∧ c.state = .accepted ∧
        ∃ seg ∈ c.segs, seg.writable ≠ 0 ∧ Span.Within span seg.span

def Contained (b : Binding) (e : Access) : Prop :=
  e.call.writes = true → Writable b e.state e.call.span

def State.produce (s : State) : State :=
  { s with vq := { s.vq with produced := s.vq.produced + 1 } }

def State.taken (s : State) (id : ChainId) (c : Chain) : State :=
  let s := claim s id c .accepted
  { s with vq := { s.vq with consumed := s.vq.consumed + 1, lastTaken := some id } }

def State.moved (s : State) (src dst : ChainId) : State :=
  { s with
    vq := { s.vq with
      slots := update s.vq.slots (s.chains src).head.toNat (some dst)
      lastTaken := if s.vq.lastTaken = some src then some dst else s.vq.lastTaken }
    chains := update
      (update s.chains dst
        { s.chains src with segments := copySegments (s.chains src) (s.chains dst) }) src
      { s.chains src with state := .free } }

def State.handedBack (s : State) (id : ChainId) : State :=
  let s := drop s id
  { s with vq := { s.vq with consumed := s.vq.consumed - 1 } }

def State.wrote (s : State) (id : ChainId) (n : ℕ) : State :=
  s.setChain id { s.chains id with written := (s.chains id).written + n }

def State.returned (s : State) (id : ChainId) (length : UInt32) : State :=
  { s.setChain id { s.chains id with usedLength := length, state := .returned } with
    vq := { s.vq with consumed := s.vq.consumed + 1 } }

def Status.refuses : Status → Bool
  | .stale => true
  | .invalid => true
  | .full => true
  | .empty => true
  | _ => false

def Call.observes : Call → Bool
  | .peekAvailable _ => true
  | .copyRequest _ _ _ _ => true
  | .copyResponse _ _ _ _ => true
  | .arm _ => true
  | _ => false

def Call.stores : Call → Bool
  | .publish _ _ => true
  | .writeResponse _ _ => true
  | .complete _ _ => true
  | .arm _ => true
  | _ => false

/-- A publication that passed every check; `c` is the chain with its totals. -/
structure Publishable (b : Binding) (s : State) (id : ChainId) (c : Chain) : Prop where
  side : b.side = .driver
  running : s.faulted = false
  free : (s.chains id).state = .free
  room : s.vq.owned ≠ b.queue.maxOutstanding.toNat
  accepted : validateChain b s.vq s.chains (s.chains id) = some c

/-- An available entry that passed every check; `snapshot` is what was read of it. -/
structure Acceptable (b : Binding) (s : State) (id : ChainId) (c : Chain) : Prop where
  side : b.side = .device
  running : s.faulted = false
  free : (s.chains id).state = .free
  room : s.vq.owned < b.queue.maxOutstanding.toNat
  accepted : ∃ snapshot, snapshot.state = .free ∧
    validateChain b s.vq (update s.chains id snapshot) snapshot = some c

/-- The call is made by `side` on a chain it owns in `state`. -/
structure Holding (b : Binding) (s : State) (side : Side) (id : ChainId) (state : ChainState) :
    Prop where
  side : b.side = side
  running : s.faulted = false
  owned : owned b s id state = true

/-- `Transition b s generation call reply s'`: from private state `s` the call, made for that
generation, can reply so and leave `s'`. -/
inductive Transition (b : Binding) (s : State) (generation : UInt64) :
    Call → Reply → State → Prop where
  | refused (call : Call) (status : Status) (h : status.refuses = true)
      (stale : status = .stale → b.channel.identity.generation ≠ generation) :
      Transition b s generation call ⟨status, .nothing⟩ s
  | stopped (call : Call) (h : s.faulted = true) : Transition b s generation call ⟨.faulted, .nothing⟩ s
  | failed (call : Call) (io : Bool) : Transition b s generation call (fault s io).1 (fault s io).2
  | observed (call : Call) (out : Out) (h : call.observes = true) (running : s.faulted = false) :
      Transition b s generation call ⟨.ok, out⟩ s
  | published (id : ChainId) (c : Chain) (notify : Bool) (h : Publishable b s id c) :
      Transition b s generation (.publish (some id) true) ⟨.ok, .flag notify⟩
        (claim s id c .submitted).produce
  | publishFailed (id : ChainId) (c : Chain) (s' : State) (h : Publishable b s id c)
      (hs : s' = claim s id c .submitted ∨ s' = (claim s id c .submitted).produce) :
      Transition b s generation (.publish (some id) true) (fault s' true).1 (fault s' true).2
  | taken (id : ChainId) (c : Chain) (h : Acceptable b s id c) :
      Transition b s generation (.takeAvailable (some id)) ⟨.ok, .nothing⟩ (s.taken id c)
  | takeFailed (id : ChainId) (c : Chain) (io : Bool) (side : b.side = .device)
      (free : (s.chains id).state = .free) (hc : c.state = .free) :
      Transition b s generation (.takeAvailable (some id)) (fault (s.setChain id c) io).1
        (fault (s.setChain id c) io).2
  | moved (src dst : ChainId) (h : Holding b s .device src .accepted) (hne : dst ≠ src)
      (free : (s.chains dst).state = .free) (stored : (s.chains dst).segments.isSome)
      (room : (s.chains src).count ≤ (s.chains dst).capacity) :
      Transition b s generation (.moveAccepted (some src) (some dst)) ⟨.ok, .nothing⟩ (s.moved src dst)
  | handedBack (id : ChainId) (h : Holding b s .device id .accepted)
      (last : s.vq.lastTaken = some id) (hw : (s.chains id).written = 0) :
      Transition b s generation (.returnAvailable (some id)) ⟨.ok, .nothing⟩ (s.handedBack id)
  | wrote (id : ChainId) (source : Source) (h : Holding b s .device id .accepted)
      (data : source.isNull = true → source.size = 0)
      (room : source.size ≤ (s.chains id).writable - (s.chains id).written)
      (width : source.size ≤ uint32Max - (s.chains id).written) :
      Transition b s generation (.writeResponse (some id) source) ⟨.ok, .nothing⟩ (s.wrote id source.size)
  | completed (id : ChainId) (notify : Bool) (h : Holding b s .device id .accepted) :
      Transition b s generation (.complete (some id) true) ⟨.ok, .flag notify⟩ (drop s.produce id)
  | completeFailed (id : ChainId) (h : Holding b s .device id .accepted) :
      Transition b s generation (.complete (some id) true) (fault s.produce true).1 (fault s.produce true).2
  | returned (id : ChainId) (length : UInt32) (h : Holding b s .driver id .submitted)
      (hle : length.toNat ≤ (s.chains id).writable)
      (pending : s.vq.produced - s.vq.consumed ≠ 0) :
      Transition b s generation (.takeUsed true) ⟨.ok, .chain id⟩ (s.returned id length)
  | released (id : ChainId) (h : Holding b s .driver id .returned) :
      Transition b s generation (.release (some id)) ⟨.ok, .nothing⟩ (drop s id)

/-! ### Parts of the operations -/

section Parts
variable {b : Binding} {s : State} {G : Access → Prop} {Q : Outcome → Prop}

/-- A callback of `call`, made from private state `s`: a write goes where the side may
write, and only some operations write at all. -/
structure Admissible (b : Binding) (s : State) (call : Call) (e : Access) : Prop where
  contained : Owns b s → Contained b e
  stores : e.call.writes = true → call.stores = true

theorem admissible_of_not_writes {e : Access} (h : e.call.writes = false) :
    Admissible b s call e := by
  constructor
  · intro _ hw
    rw [h] at hw
    cases hw
  · intro hw
    rw [h] at hw
    cases hw

theorem writeAll_always {ws : List (UInt64 × List UInt8)} {next : Op Outcome}
    (hws : ∀ w ∈ ws, G ⟨s, .write w.1 w.2⟩) (hfault : Q (fault s true)) (hnext : Always G Q next) :
    Always G Q (writeAll s ws next) := by
  induction ws with
  | nil => exact hnext
  | cons w ws ih =>
    refine ⟨hws w mem_cons_self, fun (written : Bool) => ?_⟩
    cases written with
    | true => exact ih fun v hv => hws v (mem_cons_of_mem _ hv)
    | false => exact hfault

theorem publishIndex_always {ring event : UInt64}
    (hstore : ∀ value, G ⟨s, .storeRelease (ring + 2) value⟩) (hfence : G ⟨s.produce, .fence⟩)
    (hload : G ⟨s.produce, .loadAcquire event⟩) (hfault : Q (fault s true))
    (hfault' : Q (fault s.produce true))
    (hok : ∀ notify, Q (⟨.ok, .flag notify⟩, s.produce)) :
    Always G Q (publishIndex s ring event) := by
  refine ⟨hstore _, fun (stored : Bool) => ?_⟩
  cases stored with
  | true =>
    refine ⟨hfence, fun _ => ⟨hload, fun (loaded : Option UInt16) => ?_⟩⟩
    cases loaded with
    | none => exact hfault'
    | some threshold => exact hok _
  | false => exact hfault

theorem pendingIndex_always {next : Status → UInt16 → Op Outcome}
    (hload : ∀ address, G ⟨s, .loadAcquire address⟩) (hfault : ∀ io, Q (fault s io))
    (hnext : ∀ distance : UInt16, distance.toNat ≤ b.queue.maxOutstanding.toNat →
      (b.side = .driver → distance ≤ s.vq.produced - s.vq.consumed) →
      Always G Q (next (if distance ≠ 0 then .ok else .empty) distance)) :
    Always G Q (pendingIndex b s next) := by
  refine ⟨hload _, fun (loaded : Option UInt16) => ?_⟩
  cases loaded with
  | none => exact hfault true
  | some index =>
    dsimp only
    by_cases hd : b.queue.maxOutstanding.toNat < (index - s.vq.consumed).toNat ∨
        (b.side = .driver ∧ s.vq.produced - s.vq.consumed < index - s.vq.consumed)
    · rw [if_pos hd]
      exact hfault false
    · rw [if_neg hd]
      rw [not_or, Nat.not_lt, not_and] at hd
      exact hnext (index - s.vq.consumed) hd.1 fun hside => UInt16.not_lt.mp (hd.2 hside)

section Copy
variable {kind : UInt16} {write : Bool} {seg : Segment} {rest : List Segment} {offset size : ℕ}
  {bytes : List UInt8}

theorem copyData_zero (s : State) (kind : UInt16) (write : Bool) (segs : List Segment) (offset : ℕ)
    (bytes : List UInt8) : copyData s kind write segs offset bytes 0 =
      .done (⟨.ok, if write then .nothing else .bytes bytes⟩, s) := by
  cases segs with
  | nil => simp [copyData]
  | cons p rest => simp [copyData]

theorem copyData_other (hkind : seg.writable ≠ kind) :
    copyData s kind write (seg :: rest) offset bytes size =
      copyData s kind write rest offset bytes size := by
  by_cases hz : size = 0
  · rw [hz, copyData_zero, copyData_zero]
  · rw [copyData, if_neg hz, if_pos hkind]

theorem copyData_past (hkind : seg.writable = kind) (hoff : seg.length.toNat ≤ offset) :
    copyData s kind write (seg :: rest) offset bytes size =
      copyData s kind write rest (offset - seg.length.toNat) bytes size := by
  by_cases hz : size = 0
  · rw [hz, copyData_zero, copyData_zero]
  · rw [copyData, if_neg hz, if_neg (not_not.mpr hkind), if_pos hoff]

end Copy

def Copies (s : State) (segs : List Segment) (writable : UInt16) (e : Access) : Prop :=
  e.state = s ∧
    ∃ seg ∈ segs, seg.writable = writable ∧ Span.Within e.call.span seg.span

def Copied (s : State) (write : Bool) (o : Outcome) : Prop :=
  (∃ bytes, o = (⟨.ok, if write then .nothing else .bytes bytes⟩, s)) ∨ ∃ io, o = fault s io

theorem copyData_always {writable : UInt16} {write : Bool} {segs : List Segment} {offset size : ℕ}
    {bytes : List UInt8} (hbytes : write = true → size ≤ bytes.length) :
    Always (fun e => e.call.writes = write ∧
        ((∀ seg ∈ segs, NoWrap seg.span) → Copies s segs writable e))
      (Copied s write) (copyData s writable write segs offset bytes size) := by
  induction segs generalizing offset bytes size with
  | nil =>
    unfold copyData
    split_ifs with hz hw
    · exact Or.inr ⟨false, rfl⟩
    · refine Or.inl ⟨[], ?_⟩
      rw [if_pos hw]
    · refine Or.inl ⟨bytes, ?_⟩
      rw [if_neg hw]
  | cons seg rest ih =>
    have hih : ∀ {offset : ℕ} {bytes : List UInt8} {size : ℕ},
        (write = true → size ≤ bytes.length) →
        Always (fun e => e.call.writes = write ∧
            ((∀ p ∈ seg :: rest, NoWrap p.span) → Copies s (seg :: rest) writable e))
          (Copied s write) (copyData s writable write rest offset bytes size) := by
      intro offset bytes size hle
      refine (ih hle).mono (fun e he => ⟨he.1, fun hwrap => ?_⟩) fun _ h => h
      obtain ⟨hs, p, hp, hpw, hin⟩ := he.2 fun p hp => hwrap p (mem_cons_of_mem _ hp)
      exact ⟨hs, p, mem_cons_of_mem _ hp, hpw, hin⟩
    unfold copyData
    by_cases hz : size = 0
    · rw [if_pos hz]
      exact Or.inl ⟨_, rfl⟩
    · rw [if_neg hz]
      split_ifs with hw hoff hwrite
      · exact hih hbytes
      · exact hih hbytes
      all_goals
        have hoff' : (∀ p ∈ seg :: rest, NoWrap p.span) →
            (seg.address + UInt64.ofNat offset).toNat = seg.address.toNat + offset :=
          fun hwrap => Segment.address_toNat (hwrap seg mem_cons_self) (by omega)
        have hpart : min (seg.length.toNat - offset) size ≤ size := Nat.min_le_right _ _
        have hpart' : min (seg.length.toNat - offset) size ≤ seg.length.toNat - offset :=
          Nat.min_le_left _ _
      · have hsize := hbytes hwrite
        refine ⟨⟨hwrite.symm, fun hwrap => ⟨rfl, seg, mem_cons_self, not_not.mp hw, ?_⟩⟩,
          fun (written : Bool) => ?_⟩
        · simp only [MemoryCall.span, Span.Within, Segment.span, hoff' hwrap, length_take]
          omega
        · cases written with
          | true =>
            refine hih fun _ => ?_
            rw [length_drop]
            omega
          | false => exact Or.inr ⟨true, rfl⟩
      · have hno : write = false := Bool.not_eq_true _ ▸ hwrite
        refine ⟨⟨hno.symm, fun hwrap => ⟨rfl, seg, mem_cons_self, not_not.mp hw, ?_⟩⟩,
          fun answer => ?_⟩
        · simp only [MemoryCall.span, Span.Within, Segment.span, hoff' hwrap]
          omega
        · cases answer with
          | none => exact Or.inr ⟨true, rfl⟩
          | some piece => exact hih fun h => absurd h hwrite

end Parts

theorem descriptor_within {table : UInt64} {i : UInt16} {n : ℕ} (hend : table.toNat + 16 * n < 2 ^ 64)
    (hi : i.toNat < n) {size : ℕ} (hsize : 16 * n ≤ size) :
    Span.Within ⟨(descriptorAt table i).toNat, descSize⟩ ⟨table.toNat, size⟩ := by
  have hdesc : descSize = 16 := rfl
  rw [descriptorAt_toNat hend hi, hdesc]
  simp only [Span.Within]
  omega

theorem descriptorWrites_within {b : Binding} (hb : b.Bound) (hlen : c.count ≤ c.capacity)
    (hv : c.wire.Valid b) {w : UInt64 × List UInt8} (hw : w ∈ descriptorWrites b c) :
    Span.Within ⟨w.1.toNat, w.2.length⟩ (b.queue.ring 0) ∨
      Span.Within ⟨w.1.toNat, w.2.length⟩ c.wire.table := by
  have hmain : ∀ i : UInt16, i.toNat < b.queue.queueSize.toNat →
      Span.Within ⟨(descriptorAt b.queue.descriptorAddress i).toNat, descSize⟩ (b.queue.ring 0) := by
    intro i hi
    rw [ring_zero]
    exact descriptor_within (ring_zero_lt hb.wellFormed) hi (le_refl _)
  rcases mem_append.mp hw with hw | hw
  · obtain ⟨⟨seg, i⟩, hmem, rfl⟩ := mem_map.mp hw
    have hi := mk_mem_zipIdx_iff_getElem?.mp hmem
    have hok := hv.segment i seg hi
    have hcount := wire_directCount hlen
    simp only [segmentWrite, descriptorBytes_length]
    by_cases hd : c.directCount ≤ i
    · rw [if_pos hd]
      right
      have hlt := hok.inTable (hcount ▸ hd)
      have hz : c.wire.indirectLength ≠ 0 := by
        intro hz
        rw [hz] at hlt
        exact absurd hlt (by simp)
      have hdesc : descSize = 16 := rfl
      refine descriptor_within (hv.table_lt hz) hlt ?_
      change 16 * (c.indirectLength.toNat / descSize) ≤ c.indirectLength.toNat
      rw [hdesc]
      omega
    · rw [if_neg hd]
      left
      exact hmain _ (hok.direct (by omega)).1
  · by_cases hz : c.indirectLength = 0
    · rw [if_neg (not_not.mpr hz)] at hw
      exact absurd hw not_mem_nil
    · rw [if_pos hz, mem_singleton] at hw
      subst hw
      left
      exact hmain _ (hv.table hz).descriptor_lt

/-! ### The operations -/

section Operations
variable {b : Binding} {s : State} {vq : Handle} {generation : UInt64}

/-- Every callback is admissible and every outcome is a transition of `call`. -/
abbrev Behaves (b : Binding) (s : State) (generation : UInt64) (call : Call) (p : Op Outcome) :
    Prop :=
  Always (Admissible b s call) (fun o => Transition b s generation call o.1 o.2) p

theorem checked_behaves {body : Op Outcome}
    (h : s.faulted = false → Behaves b s generation call body) :
    Behaves b s generation call (checked b s vq generation body) := by
  unfold checked
  split_ifs with hc
  · apply h
    by_contra hf
    simp only [Bool.not_eq_false] at hf
    simp [check, hf] at hc
    split_ifs at hc
  · unfold check at hc ⊢
    split_ifs at hc ⊢ with h1 h2 h3
    · exact .refused call _ rfl nofun
    · exact .refused call _ rfl fun _ => h2
    · exact .stopped call h3
    · exact absurd rfl hc

/-- The calls that take a chain check it before all else. -/
theorem chained_behaves {chain : Option ChainId} {bad : ChainId → Prop} [DecidablePred bad]
    {body : ChainId → Op Outcome} :
    (∀ id, chain = some id → s.faulted = false → ¬bad id → Behaves b s generation call (body id)) →
    Behaves b s generation call (checked b s vq generation <| match chain with
      | none => finish .invalid s
      | some id => if bad id then finish .invalid s else body id) := by
  refine fun h => checked_behaves fun hrun => ?_
  cases chain with
  | none => exact .refused _ _ rfl nofun
  | some id => exact always_ite (fun _ => .refused _ _ rfl nofun) (h id rfl hrun)

@[simp] theorem setChain_chains_self (s : State) (id : ChainId) (c : Chain) :
    (s.setChain id c).chains id = c := update_self ..

@[simp] theorem setChain_setChain (s : State) (id : ChainId) (c c' : Chain) :
    (s.setChain id c).setChain id c' = s.setChain id c' := by
  simp only [State.setChain, update_idem]

@[simp] theorem setChain_vq (s : State) (id : ChainId) (c : Chain) : (s.setChain id c).vq = s.vq :=
  rfl

theorem claim_setChain (s : State) (id : ChainId) (c c' : Chain) (state : ChainState) :
    claim (s.setChain id c') id c state = claim s id c state := by
  simp only [claim, State.setChain, update_idem]

theorem held_claim_self (s : State) (id : ChainId) (c : Chain) (state : ChainState) :
    (claim s id c state).held c.head.toNat = some { c with state } := by
  simp only [State.held, claim, update_self, Option.map_some]

theorem publishClaimed_always (hb : b.Bound) (hside : b.side = .driver)
    (hlen : c.count ≤ c.capacity) (hv : c.wire.Valid b) {Q : Outcome → Prop}
    (hfault : Q (fault (claim s id c .submitted) true))
    (hfault' : Q (fault (claim s id c .submitted).produce true))
    (hok : ∀ notify, Q (⟨.ok, .flag notify⟩, (claim s id c .submitted).produce)) :
    Always (Contained b) Q (publishClaimed b (claim s id c .submitted) c) := by
  have hring : ∀ {e : Access}, Span.Within e.call.span (b.queue.ring 1) → Contained b e := by
    intro e hin _
    rw [Writable, hside]
    exact Or.inr (Or.inl hin)
  have hw := hb.wellFormed
  refine writeAll_always (fun w hmem => ?_) hfault (publishIndex_always (fun value => ?_)
    (fun h => by cases h) (fun h => by cases h) hfault hfault' hok)
  · rcases mem_append.mp hmem with hmem | hmem
    · intro _
      rw [Writable, hside]
      rcases descriptorWrites_within hb hlen hv hmem with hin | hin
      · exact Or.inl hin
      · exact Or.inr (Or.inr ⟨_, _, held_claim_self s id c .submitted, rfl, hin⟩)
    · rw [mem_singleton] at hmem
      subst hmem
      apply hring
      have hlt := Nat.mod_lt (claim s id c .submitted).vq.produced.toNat hw.size_pos
      simp only [MemoryCall.span, availableEntry_toNat hw, writeU16_length, ring_one, Span.Within,
        Binding.size]
      omega
  · apply hring
    simp only [MemoryCall.span, availableIndex_toNat hw, ring_one, Span.Within]
    omega

theorem publish_behaves (hb : b.Bound) (chain : Option ChainId) (notify : Bool) :
    Behaves b s generation (.publish chain notify) (publish b s vq generation chain notify) := by
  apply checked_behaves
  intro hrun
  cases chain with
  | none => exact .refused _ _ rfl nofun
  | some id =>
    dsimp only
    split_ifs with harg hfull
    · exact .refused _ _ rfl nofun
    · exact .refused _ _ rfl nofun
    · cases hc : validateChain b s.vq s.chains (s.chains id) with
      | none => exact .refused _ _ rfl nofun
      | some c =>
        simp only [ne_eq, not_or, not_not, Bool.not_eq_false] at harg
        obtain ⟨hside, hfree, rfl⟩ := harg
        have hp : Publishable b s id c := ⟨hside, hrun, hfree, hfull, hc⟩
        obtain ⟨-, hlen, hv, -, rfl⟩ := validateChain_eq_some_iff.mp hc
        exact (publishClaimed_always hb (c := (s.chains id).counted) hside hlen hv
          (.publishFailed id _ _ hp (Or.inl rfl)) (.publishFailed id _ _ hp (Or.inr rfl))
          fun notify => .published id _ notify hp).mono (fun e he => ⟨fun _ => he, fun _ => rfl⟩)
            fun _ h => h

theorem peekAvailable_behaves (pending : Bool) :
    Behaves b s generation (.peekAvailable pending) (peekAvailable b s vq generation pending) := by
  apply checked_behaves
  intro hrun
  split_ifs
  · exact .refused _ _ rfl nofun
  · exact pendingIndex_always (fun _ => admissible_of_not_writes rfl) (fun io => .failed _ io)
      fun _ _ _ => .observed _ _ rfl hrun

theorem readDescriptors_always {fuel : ℕ} {table : UInt64} {limit : ℕ} {index : UInt16}
    {indirect : Bool} {G : Access → Prop} (hG : ∀ s address size, G ⟨s, .read address size⟩)
    (hc : c.state = .free) :
    Always G
      (fun o => ∃ c', c'.state = .free ∧
        (o = (⟨.ok, .nothing⟩, s.setChain id c') ∨ ∃ io, o = fault (s.setChain id c') io))
      (readDescriptors b id fuel (s.setChain id c) table limit index indirect) := by
  induction fuel generalizing c table limit index indirect with
  | zero => exact ⟨c, hc, Or.inr ⟨false, rfl⟩⟩
  | succ fuel ih =>
    have hfault : ∀ io, ∃ c', c'.state = .free ∧
        (fault (s.setChain id c) io = (⟨.ok, .nothing⟩, s.setChain id c') ∨
          ∃ io', fault (s.setChain id c) io = fault (s.setChain id c') io') :=
      fun io => ⟨c, hc, Or.inr ⟨io, rfl⟩⟩
    unfold readDescriptors
    simp only [setChain_chains_self, setChain_setChain]
    refine always_ite (fun _ => hfault false) fun _ => ?_
    refine ⟨hG _ _ _, fun answer => ?_⟩
    cases answer with
    | none => exact hfault true
    | some bytes =>
      refine always_ite (fun _ => hfault false) fun _ => ?_
      refine always_ite (fun _ => hfault false) fun _ => ?_
      refine always_ite (fun _ => ?_) fun _ => ?_
      · exact always_ite (fun _ => hfault false) fun _ => ih hc
      · exact always_ite (fun _ => ⟨_, by exact hc, Or.inl rfl⟩) fun _ => ih hc

theorem readChain_always {G : Access → Prop} (hG : ∀ s address size, G ⟨s, .read address size⟩)
    (hc : c.state = .free) :
    Always G
      (fun o => (∃ c' snapshot, snapshot.state = .free ∧
          validateChain b s.vq (update s.chains id snapshot) snapshot = some c' ∧
          o = (⟨.ok, .nothing⟩, s.setChain id c')) ∨
        ∃ c' io, c'.state = .free ∧ o = fault (s.setChain id c') io)
      (readChain b (s.setChain id c) id) := by
  unfold readChain
  rw [setChain_chains_self, setChain_setChain]
  have hcleared : c.cleared.state = .free := hc
  refine (readDescriptors_always hG hcleared).bind ?_
  rintro o ⟨c', hc', rfl | ⟨io, rfl⟩⟩
  · simp only [ne_eq, not_true_eq_false, if_false, setChain_chains_self]
    cases hval : validateChain b s.vq (s.setChain id c').chains c' with
    | none =>
      simp only [setChain_vq, hval]
      exact Or.inr ⟨c', false, hc', rfl⟩
    | some chain =>
      simp only [setChain_vq, hval, setChain_setChain]
      exact Or.inl ⟨chain, c', hc', hval, rfl⟩
  · have hne : (fault (s.setChain id c') io).1.status ≠ .ok := by cases io <;> simp [fault]
    change Always _ _ (if (fault (s.setChain id c') io).1.status ≠ .ok then _ else _)
    rw [if_pos hne]
    exact Or.inr ⟨c', io, hc', rfl⟩

theorem takeAvailable_behaves (chain : Option ChainId) :
    Behaves b s generation (.takeAvailable chain) (takeAvailable b s vq generation chain) := by
  apply chained_behaves
  rintro id rfl hrun harg
  simp only [ne_eq, not_or, not_not, Bool.not_eq_true] at harg
  obtain ⟨hside, hfree, -, -⟩ := harg
  refine pendingIndex_always (fun _ => admissible_of_not_writes rfl) (fun io => .failed _ io) ?_
  intro distance _ _
  by_cases hd : distance = 0
  · rw [if_neg (not_not.mpr hd)]
    exact .refused _ _ rfl nofun
  · rw [if_pos hd]
    simp only [ne_eq, not_true_eq_false, if_false]
    split_ifs with hroom
    · exact .failed _ false
    · have hpos : distance.toNat ≠ 0 := by
        intro hz
        apply hd
        rw [← UInt16.toNat_inj]
        exact hz
      refine ⟨admissible_of_not_writes rfl, fun answer => ?_⟩
      cases answer with
      | none => exact .failed _ true
      | some bytes =>
        dsimp only
        have hstate : ({ s.chains id with head := readU16 bytes.val } : Chain).state = .free :=
          hfree
        split_ifs
        · exact .takeFailed id _ false hside hfree hstate
        · refine (readChain_always (fun _ _ _ => admissible_of_not_writes rfl) hstate).bind ?_
          rintro o (⟨c, snapshot, hsnap, hval, rfl⟩ | ⟨c, io, hc, rfl⟩)
          · simp only [not_true_eq_false, if_false, setChain_chains_self, claim_setChain]
            exact .taken id c ⟨hside, hrun, hfree, by omega, snapshot, hsnap, hval⟩
          · have hne : (fault (s.setChain id c) io).1.status ≠ .ok := by
              cases io <;> simp [fault]
            change Always _ _ (if (fault (s.setChain id c) io).1.status ≠ .ok then _ else _)
            rw [if_pos hne]
            exact .takeFailed id c io hside hfree hc

theorem moveAccepted_behaves (source destination : Option ChainId) :
    Behaves b s generation (.moveAccepted source destination)
      (moveAccepted b s vq generation source destination) := by
  apply checked_behaves
  intro hrun
  cases source with
  | none => exact .refused _ _ rfl nofun
  | some src =>
    cases destination with
    | none => exact .refused _ _ rfl nofun
    | some dst =>
      refine always_ite (fun _ => .refused _ _ rfl nofun) fun harg => ?_
      simp only [ne_eq, not_or, not_not, Bool.not_eq_false, Bool.not_eq_true,
        Option.isNone_eq_false_iff, Nat.not_lt] at harg
      obtain ⟨hside, howned, hne, hfree, hstored, hroom⟩ := harg
      exact .moved src dst ⟨hside, hrun, howned⟩ hne hfree hstored hroom

theorem returnAvailable_behaves (chain : Option ChainId) :
    Behaves b s generation (.returnAvailable chain) (returnAvailable b s vq generation chain) := by
  apply chained_behaves
  rintro id rfl hrun harg
  simp only [ne_eq, not_or, not_not, Bool.not_eq_false] at harg
  obtain ⟨hside, howned, hlast, hwritten⟩ := harg
  exact .handedBack id ⟨hside, hrun, howned⟩ hlast hwritten

theorem owned_iff {state : ChainState} : owned b s id state = true ↔
    (s.chains id).head.toNat < b.queue.queueSize.toNat ∧ (s.chains id).state = state ∧
      s.vq.slots (s.chains id).head.toNat = some id := by
  simp only [owned, Bool.and_eq_true, decide_eq_true_eq, beq_iff_eq, and_assoc]

theorem held_of_owned {state : ChainState} (h : owned b s id state = true) :
    s.held (s.chains id).head.toNat = some (s.chains id) := by
  rw [State.held, (owned_iff.mp h).2.2, Option.map_some]

theorem Owns.segs_noWrap (ho : Owns b s) {h : ℕ} (hc : s.held h = some c) :
    ∀ seg ∈ c.segs, NoWrap seg.span := (ho.booked.held h c hc).valid.noWraps.2

theorem copyOut_behaves (hcall : call.observes = true) (hrun : s.faulted = false)
    (writable : UInt16) (segs : List Segment) (offset size : ℕ) :
    Behaves b s generation call (copyData s writable false segs offset [] size) := by
  refine (copyData_always (by simp)).mono (fun e he => admissible_of_not_writes he.1) ?_
  rintro o (⟨bytes, rfl⟩ | ⟨io, rfl⟩)
  · exact .observed _ _ hcall hrun
  · exact .failed _ io

theorem copyRequest_behaves (chain : Option ChainId) (offset size : ℕ)
    (out : Bool) :
    Behaves b s generation (.copyRequest chain offset size out)
      (copyRequest b s vq generation chain offset size out) := by
  apply chained_behaves
  rintro id rfl hrun harg
  exact copyOut_behaves rfl hrun _ _ _ _

theorem copyResponse_behaves (chain : Option ChainId) (offset size : ℕ)
    (out : Bool) :
    Behaves b s generation (.copyResponse chain offset size out)
      (copyResponse b s vq generation chain offset size out) := by
  apply chained_behaves
  rintro id rfl hrun harg
  exact copyOut_behaves rfl hrun _ _ _ _

theorem writeResponse_behaves (chain : Option ChainId) (source : Source) :
    Behaves b s generation (.writeResponse chain source)
      (writeResponse b s vq generation chain source) := by
  apply chained_behaves
  rintro id rfl hrun harg
  simp only [ne_eq, not_or, not_not, Bool.not_eq_false, not_and, Nat.not_lt] at harg
  obtain ⟨hside, howned, hdata, hroom, hwidth⟩ := harg
  have hbytes : source.size ≤ source.bytes.length := by
    cases source with
    | null size => exact le_of_eq (hdata rfl)
    | data bytes => exact le_refl _
  have hheld := held_of_owned howned
  refine Always.bind ((copyData_always fun _ => hbytes).mono ?_ fun _ h => h) ?_
  · refine fun e he => ⟨fun ho => ?_, fun _ => rfl⟩
    obtain ⟨rfl, seg, hseg, hone, hin⟩ := he.2 (ho.segs_noWrap hheld)
    intro _
    rw [Writable, hside]
    refine Or.inr ⟨_, _, hheld, (owned_iff.mp howned).2.1, seg, hseg, ?_, hin⟩
    rw [hone]
    decide
  · rintro o (⟨bytes, rfl⟩ | ⟨io, rfl⟩)
    · rw [if_pos rfl]
      exact .wrote id source ⟨hside, hrun, howned⟩ hdata hroom hwidth
    · change Always _ _ (if (fault s io).1.status = .ok then _ else _)
      rw [if_neg (by cases io <;> simp [fault])]
      exact .failed _ io

theorem complete_behaves (hb : b.Bound) (chain : Option ChainId) (notify : Bool) :
    Behaves b s generation (.complete chain notify) (complete b s vq generation chain notify) := by
  apply chained_behaves
  rintro id rfl hrun harg
  simp only [ne_eq, not_or, not_not, Bool.not_eq_false] at harg
  obtain ⟨hside, howned, rfl⟩ := harg
  have hw := hb.wellFormed
  have hring : ∀ {e : Access}, Span.Within e.call.span (b.queue.ring 2) →
      Admissible b s (.complete (some id) true) e := by
    refine fun hin => ⟨fun _ _ => ?_, fun _ => rfl⟩
    rw [Writable, hside]
    exact Or.inl hin
  refine writeAll_always (fun w hmem => ?_) (.failed _ true) ?_
  · rw [mem_singleton] at hmem
    subst hmem
    apply hring
    have hlt := Nat.mod_lt s.vq.produced.toNat hw.size_pos
    simp only [MemoryCall.span, usedEntry_toNat hw, length_append, writeU32_length,
      ring_two, Span.Within, Binding.size]
    omega
  · refine Always.bind (Q := fun o => (∃ notify, o = (⟨.ok, .flag notify⟩, s.produce)) ∨
      ∃ s', (s' = s ∨ s' = s.produce) ∧ o = fault s' true) (publishIndex_always (fun value => ?_)
        (admissible_of_not_writes rfl) (admissible_of_not_writes rfl)
        (Or.inr ⟨s, Or.inl rfl, rfl⟩) (Or.inr ⟨s.produce, Or.inr rfl, rfl⟩)
        fun notify => Or.inl ⟨notify, rfl⟩) ?_
    · apply hring
      simp only [MemoryCall.span, usedIndex_toNat hw, ring_two, Span.Within]
      omega
    · rintro o (⟨notify, rfl⟩ | ⟨s', rfl | rfl, rfl⟩)
      · exact .completed id notify ⟨hside, hrun, howned⟩
      · exact .failed _ true
      · exact .completeFailed id ⟨hside, hrun, howned⟩

theorem takeUsed_behaves (chainOut : Bool) :
    Behaves b s generation (.takeUsed chainOut) (takeUsed b s vq generation chainOut) := by
  apply checked_behaves
  intro hrun
  split_ifs with harg
  · exact .refused _ _ rfl nofun
  · simp only [ne_eq, not_or, not_not, Bool.not_eq_false] at harg
    obtain ⟨hside, rfl⟩ := harg
    refine pendingIndex_always (fun _ => admissible_of_not_writes rfl) (fun io => .failed _ io) ?_
    intro distance _ hle
    by_cases hd : distance = 0
    · rw [if_neg (not_not.mpr hd)]
      exact .refused _ _ rfl nofun
    · rw [if_pos hd]
      simp only [ne_eq, not_true_eq_false, if_false]
      have hpending : s.vq.produced - s.vq.consumed ≠ 0 := by
        intro hz
        have hle' := hle hside
        rw [hz] at hle'
        exact hd (UInt16.le_zero_iff.mp hle')
      refine ⟨admissible_of_not_writes rfl, fun answer => ?_⟩
      cases answer with
      | none => exact .failed _ true
      | some bytes =>
        dsimp only
        split_ifs
        · exact .failed _ false
        · cases hslot : s.vq.slots (readU32 bytes.val).toNat with
          | none => exact .failed _ false
          | some id =>
            dsimp only
            split_ifs with hid
            · exact .failed _ false
            · simp only [not_or, Bool.not_eq_false, Nat.not_lt] at hid
              exact .returned id _ ⟨hside, hrun, hid.1⟩ hid.2 hpending

theorem release_behaves (chain : Option ChainId) :
    Behaves b s generation (.release chain) (release b s vq generation chain) := by
  apply chained_behaves
  rintro id rfl hrun harg
  simp only [ne_eq, not_or, not_not, Bool.not_eq_false] at harg
  exact .released id ⟨harg.1, hrun, harg.2⟩

theorem arm_behaves (hb : b.Bound) (ready : Bool) :
    Behaves b s generation (.arm ready) (arm b s vq generation ready) := by
  apply checked_behaves
  intro hrun
  refine always_ite (fun _ => .refused _ _ rfl nofun) fun _ => ?_
  have hw := hb.wellFormed
  refine ⟨⟨fun _ _ => ?_, fun _ => rfl⟩, fun (stored : Bool) => ?_⟩
  · cases hside : b.side with
    | driver =>
      rw [Writable, hside]
      refine Or.inr (Or.inl ?_)
      simp only [if_true, MemoryCall.span, usedEvent_toNat hw, ring_one, Span.Within]
      omega
    | device =>
      rw [Writable, hside]
      refine Or.inl ?_
      simp only [reduceCtorEq, if_false, MemoryCall.span, availableEvent_toNat hw, ring_two,
        Span.Within]
      omega
  · cases stored with
    | true =>
      refine ⟨admissible_of_not_writes rfl, fun _ => ?_⟩
      exact pendingIndex_always (fun _ => admissible_of_not_writes rfl) (fun io => .failed _ io)
        fun _ _ _ => .observed _ _ rfl hrun
    | false => exact .failed _ true

/-- Whatever memory answers, a call writes only where its side may and ends in a transition. -/
theorem perform_behaves (hb : b.Bound) (r : Request) :
    Behaves b s r.generation r.call (perform b s r) := by
  obtain ⟨vq, generation, call⟩ := r
  cases call with
  | publish chain notify => exact publish_behaves hb chain notify
  | peekAvailable pending => exact peekAvailable_behaves pending
  | takeAvailable chain => exact takeAvailable_behaves chain
  | moveAccepted source destination => exact moveAccepted_behaves source destination
  | returnAvailable chain => exact returnAvailable_behaves chain
  | copyRequest chain offset size out => exact copyRequest_behaves chain offset size out
  | writeResponse chain source => exact writeResponse_behaves chain source
  | complete chain notify => exact complete_behaves hb chain notify
  | takeUsed chainOut => exact takeUsed_behaves chainOut
  | copyResponse chain offset size out => exact copyResponse_behaves chain offset size out
  | release chain => exact release_behaves chain
  | arm ready => exact arm_behaves hb ready

end Operations

end Kobox.Virtqueue
