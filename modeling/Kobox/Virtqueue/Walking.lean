import Kobox.Virtqueue.HostileDevice

/-!
# Walks through descriptor tables
-/

namespace Kobox.Virtqueue
open ByteMemory Protocol Resumption List

section Fuel
variable {b : Binding} {id : ChainId}

theorem readDescriptors_length (b : Binding) (id : ChainId) (fuel : ℕ) (s : State)
    (table : UInt64) (limit : ℕ) (index : UInt16) (indirect : Bool) :
    Traced (fun t _ => t.length ≤ fuel)
      (readDescriptors b id fuel s table limit index indirect) := by
  induction fuel generalizing s table limit index indirect with
  | zero => exact Nat.le_refl 0
  | succ fuel ih =>
    have hnext : ∀ s table limit index indirect, Traced (fun t _ => t.length + 1 ≤ fuel + 1)
        (readDescriptors b id fuel s table limit index indirect) :=
      fun s table limit index indirect =>
        (ih s table limit index indirect).mono fun _ _ => Nat.succ_le_succ
    have hone : 1 ≤ fuel + 1 := Nat.succ_pos fuel
    unfold readDescriptors
    refine traced_ite (fun _ => Nat.zero_le _) fun _ answer => ?_
    cases answer with
    | none => exact hone
    | some bytes =>
      refine traced_ite (fun _ => hone) fun _ => traced_ite (fun _ => hone) fun _ => ?_
      refine traced_ite (fun _ => ?_) fun _ => ?_
      · exact traced_ite (fun _ => hone) fun _ => hnext _ _ _ _ _
      · exact traced_ite (fun _ => hone) fun _ => hnext _ _ _ _ _

def turnsLeft (b : Binding) (c : Chain) (indirect : Bool) : ℕ :=
  b.queue.maxChainLength.toNat - c.count + if indirect then 0 else 1

theorem readDescriptors_fuel {fuel : ℕ} {s : State} {table : UInt64} {limit : ℕ}
    {index : UInt16} {indirect : Bool} (h : turnsLeft b (s.chains id) indirect ≤ fuel)
    (extra : ℕ) :
    readDescriptors b id (fuel + extra) s table limit index indirect =
      readDescriptors b id fuel s table limit index indirect := by
  induction fuel generalizing s table limit index indirect with
  | zero =>
    cases extra with
    | zero => rfl
    | succ extra =>
      have hfull : b.queue.maxChainLength.toNat ≤ (s.chains id).count := by
        unfold turnsLeft at h
        omega
      rw [Nat.zero_add, readDescriptors, readDescriptors, if_pos (.inr (.inl hfull))]
  | succ fuel ih =>
    rw [Nat.succ_add, readDescriptors, readDescriptors]
    refine ite_congr rfl (fun _ => rfl) fun hguard => ?_
    rw [not_or, not_or, Nat.not_le, Nat.not_le, Nat.not_le] at hguard
    obtain ⟨-, hroom, -⟩ := hguard
    rw [turnsLeft] at h
    congr 1
    funext answer
    cases answer with
    | none => rfl
    | some bytes =>
      refine ite_congr rfl (fun _ => rfl) fun _ => ite_congr rfl (fun _ => rfl) fun _ => ?_
      refine ite_congr rfl (fun _ => ?_) fun _ => ?_
      · -- A reference is only followed in the main table.
        refine ite_congr rfl (fun _ => rfl) fun hrefused => ih ?_
        rw [not_or, Bool.not_eq_true] at hrefused
        rw [hrefused.1, if_neg Bool.false_ne_true] at h
        rw [turnsLeft, setChain_chains_self, if_pos rfl]
        dsimp only
        omega
      · refine ite_congr rfl (fun _ => rfl) fun _ => ih ?_
        rw [turnsLeft, setChain_chains_self]
        dsimp only
        omega

end Fuel

/-! ### Where the descriptors are read -/

/-- The chain object keeps its array and has no more segments than it may have. -/
structure Chain.Stores (b : Binding) (capacity : ℕ) (c : Chain) : Prop where
  array : c.capacity = capacity
  count_le : c.count ≤ min capacity b.queue.maxChainLength.toNat

/-- A descriptor of the queue's own table is read, before any reference has been followed. -/
structure MainRead (b : Binding) (id : ChainId) (e : Access) : Prop where
  read : ∃ address, e.call = .read address descSize
  within : Span.Within e.call.span (b.queue.ring 0)
  direct : (e.state.chains id).indirectLength = 0

/-- A descriptor of the indirect table is read. -/
structure TableRead (id : ChainId) (table : UInt64) (length : UInt32) (e : Access) : Prop where
  read : ∃ address, e.call = .read address descSize
  within : Span.Within e.call.span ⟨table.toNat, length.toNat⟩
  referred : (e.state.chains id).indirect = table ∧ (e.state.chains id).indirectLength = length

/-- The descriptors are read in the main table, and from some point on in one indirect table. -/
structure Walked (b : Binding) (id : ChainId) (capacity : ℕ) (t : List Access) : Prop where
  stores : ∀ e ∈ t, (e.state.chains id).Stores b capacity
  tables : ∃ main inner, t = main ++ inner ∧ (∀ e ∈ main, MainRead b id e) ∧
    (inner = [] ∨ ∃ table length, length ≠ 0 ∧
      payloadRange b table length.toUInt64 regionRightRead = true ∧
        ∀ e ∈ inner, TableRead id table length e)

section Walk
variable {b : Binding} {id : ChainId} {capacity : ℕ} {s : State}

theorem walked_nil : Walked b id capacity [] := ⟨nofun, [], [], rfl, nofun, .inl rfl⟩

theorem Walked.main {t : List Access} (h : Walked b id capacity t) {e : Access}
    (he : MainRead b id e) (hstores : (e.state.chains id).Stores b capacity) :
    Walked b id capacity (e :: t) := by
  obtain ⟨main, inner, rfl, hmain, hinner⟩ := h.tables
  exact ⟨forall_mem_cons.mpr ⟨hstores, h.stores⟩, e :: main, inner, rfl,
    forall_mem_cons.mpr ⟨he, hmain⟩, hinner⟩

theorem Chain.Stores.push {c : Chain} (h : c.Stores b capacity) (seg : Segment)
    (hmax : c.count < b.queue.maxChainLength.toNat) (hroom : c.count < c.capacity) :
    Chain.Stores b capacity
      { c with segments := c.segments.map (·.set c.count seg), count := c.count + 1 } := by
  have hcapacity : Chain.capacity
      { c with segments := c.segments.map (·.set c.count seg), count := c.count + 1 } =
        c.capacity := by
    rw [Chain.capacity, Chain.storage, Chain.capacity, Chain.storage]
    cases c.segments with
    | none => rfl
    | some storage => exact length_set
  refine ⟨hcapacity.trans h.array, ?_⟩
  rw [h.array] at hroom
  dsimp only
  omega

theorem Chain.Stores.setChain {c : Chain} (h : c.Stores b capacity) :
    ((s.setChain id c).chains id).Stores b capacity := by
  rw [setChain_chains_self]
  exact h

theorem readTable_always {table : UInt64} {length : UInt32}
    (hpayload : payloadRange b table length.toUInt64 regionRightRead = true)
    (htable : (s.chains id).indirect = table ∧ (s.chains id).indirectLength = length)
    (hstores : (s.chains id).Stores b capacity) (fuel : ℕ) (index : UInt16) :
    Always (fun e => TableRead id table length e ∧ (e.state.chains id).Stores b capacity)
      (fun o => (o.2.chains id).Stores b capacity)
      (readDescriptors b id fuel s table (length.toNat / descSize) index true) := by
  induction fuel generalizing s index with
  | zero => exact hstores
  | succ fuel ih =>
    unfold readDescriptors
    refine always_ite (fun _ => hstores) fun hguard => ?_
    rw [not_or, not_or, Nat.not_le, Nat.not_le, Nat.not_le] at hguard
    obtain ⟨hindex, hmax, hroom⟩ := hguard
    have hdesc : descSize = 16 := rfl
    rw [hdesc] at hindex
    have hne : length.toNat ≠ 0 := by omega
    have hend : table.toNat + length.toNat < 2 ^ 64 := by
      have hwrap := payloadRange_noWrap hpayload
      rw [UInt32.toNat_toUInt64] at hwrap
      exact hwrap hne
    have hlast : table.toNat + 16 * (length.toNat / 16) < 2 ^ 64 := by omega
    have hwithin := descriptor_within hlast hindex (Nat.mul_div_le length.toNat 16)
    refine ⟨⟨⟨⟨_, rfl⟩, hwithin, htable⟩, hstores⟩, fun answer => ?_⟩
    cases answer with
    | none => exact hstores
    | some bytes =>
      refine always_ite (fun _ => hstores) fun _ => always_ite (fun _ => hstores) fun _ => ?_
      refine always_ite (fun _ => ?_) fun _ => ?_
      · exact always_ite (fun _ => hstores) fun hrefused => absurd (.inl rfl) hrefused
      · have hpush := hstores.push ⟨readU64 bytes.val, readU32 (bytes.val.drop 8), index,
          if readU16 (bytes.val.drop 12) &&& descWrite ≠ 0 then 1 else 0⟩ hmax hroom
        refine always_ite (fun _ => hpush.setChain) fun _ => ih ?_ hpush.setChain _
        rw [setChain_chains_self]
        exact htable

theorem readMain_traced (hb : b.Bound) (hzero : (s.chains id).indirectLength = 0)
    (hstores : (s.chains id).Stores b capacity) (fuel : ℕ) (index : UInt16) :
    Traced (fun t o => Walked b id capacity t ∧ (o.2.chains id).Stores b capacity)
      (readDescriptors b id fuel s b.queue.descriptorAddress b.queue.queueSize.toNat index
        false) := by
  induction fuel generalizing s index with
  | zero => exact ⟨walked_nil, hstores⟩
  | succ fuel ih =>
    unfold readDescriptors
    refine traced_ite (fun _ => ⟨walked_nil, hstores⟩) fun hguard answer => ?_
    rw [not_or, not_or, Nat.not_le, Nat.not_le, Nat.not_le] at hguard
    obtain ⟨hindex, hmax, hroom⟩ := hguard
    have hwithin : Span.Within ⟨(descriptorAt b.queue.descriptorAddress index).toNat, descSize⟩
        (b.queue.ring 0) := by
      rw [ring_zero]
      exact descriptor_within (ring_zero_lt hb.wellFormed) hindex (Nat.le_refl _)
    have hread : MainRead b id
        ⟨s, .read (descriptorAt b.queue.descriptorAddress index) descSize⟩ :=
      ⟨⟨_, rfl⟩, hwithin, hzero⟩
    have hstop := walked_nil.main hread hstores
    cases answer with
    | none => exact ⟨hstop, hstores⟩
    | some bytes =>
      refine traced_ite (fun _ => ⟨hstop, hstores⟩) fun _ => ?_
      refine traced_ite (fun _ => ⟨hstop, hstores⟩) fun _ => ?_
      refine traced_ite (fun _ => ?_) fun _ => ?_
      · refine traced_ite (fun _ => ⟨hstop, hstores⟩) fun hrefused => ?_
        simp only [not_or, Bool.not_eq_false] at hrefused
        obtain ⟨-, -, -, hlength, -, -, hpayload⟩ := hrefused
        have hsame : Chain.Stores b capacity { s.chains id with
            indirect := readU64 bytes.val
            indirectLength := readU32 (bytes.val.drop 8)
            indirectFirst := (s.chains id).count
            indirectDescriptor := index } := ⟨hstores.array, hstores.count_le⟩
        refine (readTable_always hpayload ?_ hsame.setChain _ _).traced fun t o ht ho => ⟨?_, ho⟩
        · rw [setChain_chains_self]
          exact ⟨rfl, rfl⟩
        · exact ⟨forall_mem_cons.mpr ⟨hstores, fun e he => (ht e he).2⟩, [_], t, rfl,
            forall_mem_singleton.mpr hread,
            .inr ⟨_, _, hlength, hpayload, fun e he => (ht e he).1⟩⟩
      · have hpush := hstores.push ⟨readU64 bytes.val, readU32 (bytes.val.drop 8), index,
          if readU16 (bytes.val.drop 12) &&& descWrite ≠ 0 then 1 else 0⟩ hmax hroom
        refine traced_ite (fun _ => ⟨hstop, hpush.setChain⟩) fun _ => ?_
        refine (ih ?_ hpush.setChain _).mono fun t o ho => ⟨ho.1.main hread hstores, ho.2⟩
        rw [setChain_chains_self]
        exact hzero

theorem readChain_traced (hb : b.Bound) (s : State) (id : ChainId) :
    Traced (fun t o => t.length ≤ b.queue.maxChainLength.toNat + 1 ∧
        Walked b id (s.chains id).capacity t ∧
          (o.2.chains id).Stores b (s.chains id).capacity)
      (readChain b s id) := by
  have hcleared : Chain.Stores b (s.chains id).capacity (s.chains id).cleared :=
    ⟨rfl, Nat.zero_le _⟩
  have hzero : ((s.setChain id (s.chains id).cleared).chains id).indirectLength = 0 := by
    rw [setChain_chains_self]
    rfl
  have hloop := (readDescriptors_length b id _ _ _ _ _ _).and
    (readMain_traced hb hzero hcleared.setChain (b.queue.maxChainLength.toNat + 1)
      (s.chains id).head)
  refine hloop.bind fun t o ho => ?_
  obtain ⟨hlength, hwalked, hstores⟩ := ho
  have hend : (t ++ []).length ≤ b.queue.maxChainLength.toNat + 1 ∧
      Walked b id (s.chains id).capacity (t ++ []) := by
    rw [append_nil]
    exact ⟨hlength, hwalked⟩
  refine traced_ite (fun _ => ⟨hend.1, hend.2, hstores⟩) fun _ => ?_
  cases hvalidate : validateChain b o.2.vq o.2.chains (o.2.chains id) with
  | none => exact ⟨hend.1, hend.2, hstores⟩
  | some chain =>
    obtain ⟨-, -, -, -, rfl⟩ := validateChain_eq_some_iff.mp hvalidate
    have hcounted : (o.2.chains id).counted.Stores b (s.chains id).capacity :=
      ⟨hstores.array, hstores.count_le⟩
    exact ⟨hend.1, hend.2, hcounted.setChain⟩

end Walk

end Kobox.Virtqueue
