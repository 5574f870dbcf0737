import Kobox.Library.SlotTable
import Kobox.Virtqueue.Validation

/-!
# Ownership tables of a queue object
-/

namespace Kobox.Virtqueue
open ByteMemory Protocol SlotTable List Function

/-- The queue is one of the queues of an accepted channel. -/
structure Binding.Bound (b : Binding) : Prop where
  accepted : Accepted b.channel.identity b.channel.queues b.channel.regions
  queue_mem : b.queue ∈ b.channel.queues

theorem Binding.Bound.wellFormed {b : Binding} (hb : b.Bound) : b.queue.WellFormed :=
  hb.accepted.queue _ hb.queue_mem

def State.held (s : State) (h : ℕ) : Option Chain := (s.vq.slots h).map s.chains

/-- States in which a chain is in a slot of a queue of this side. -/
def Side.Holds : Side → ChainState → Prop
  | .driver, state => state = .submitted ∨ state = .returned
  | .device, state => state = .accepted

/-- What a queue keeps of the chain in slot `h`. -/
structure Held (b : Binding) (h : ℕ) (c : Chain) : Prop where
  head : c.head.toNat = h
  state : b.side.Holds c.state
  stored : c.segments.isSome
  count_le : c.count ≤ c.capacity
  valid : c.wire.Valid b
  written_le : c.written ≤ c.writable
  written_max : c.written ≤ uint32Max
  used_le : c.usedLength.toNat ≤ c.writable

/-- Descriptor `d` of the main table belongs to the chain. -/
def Chain.Uses (c : Chain) (d : ℕ) : Prop := ∃ x ∈ c.wire.directDescriptors, x.toNat = d

/-- The `descriptor_owner` entry for a chain with head `h`. -/
def ownerTag (h : ℕ) : UInt16 := UInt16.ofNat (h + 1)

/-- The slots, the descriptor owners and the count of a queue object agree. -/
structure Booked (b : Binding) (t : ℕ → Option Chain) (owner : ℕ → UInt16) (owned : ℕ) : Prop where
  held : ∀ h c, t h = some c → Held b h c
  books : Books Chain.Uses ownerTag 0 t owner
  clear : Exclusive (fun c c' => c.wire.Clear c'.wire) t
  owned_eq : owned = count b.queue.queueSize.toNat t fun _ => true
  owned_le : owned ≤ b.queue.maxOutstanding.toNat

/-- The ownership invariant of a queue object, its counters apart. -/
structure Owns (b : Binding) (s : State) : Prop where
  booked : Booked b s.held s.vq.descriptorOwner s.vq.owned
  lastTaken : ∀ id, s.vq.lastTaken = some id → b.side = .device ∧ ∃ h, s.vq.slots h = some id

def Wire.NoWraps (w : Wire) : Prop := NoWrap w.table ∧ ∀ s ∈ w.segments, NoWrap s.span

theorem Wire.Valid.noWraps {b : Binding} {w : Wire} (h : w.Valid b) : w.NoWraps := by
  refine ⟨table_noWrap h.table, fun s hs => ?_⟩
  obtain ⟨i, hi⟩ := mem_iff_getElem?.mp hs
  exact span_noWrap (h.segment i s hi).payload

theorem overlaps_span_eq_false_iff {a b : UInt64} {n m : UInt32} (h : NoWrap ⟨a.toNat, n.toNat⟩)
    (h' : NoWrap ⟨b.toNat, m.toNat⟩) : overlaps a n.toUInt64 b m.toUInt64 = false ↔
      Span.Apart ⟨a.toNat, n.toNat⟩ ⟨b.toNat, m.toNat⟩ := by
  have hiff := overlaps_eq_false_iff (a := a) (n := n.toUInt64) (b := b) (m := m.toUInt64)
  simp only [UInt32.toNat_toUInt64] at hiff
  exact hiff h h'

theorem chainsOverlap_eq_false_iff {a b : Chain} (ha : a.wire.NoWraps) (hb : b.wire.NoWraps) :
    chainsOverlap a b = false ↔ a.wire.Clear b.wire := by
  have htables := overlaps_span_eq_false_iff ha.1 hb.1
  have hleft := fun s (hs : s ∈ a.segs) => overlaps_span_eq_false_iff (ha.2 s hs) hb.1
  have hright := fun s (hs : s ∈ b.segs) => overlaps_span_eq_false_iff ha.1 (hb.2 s hs)
  have hpair := fun s (hs : s ∈ a.segs) s' (hs' : s' ∈ b.segs) =>
    overlaps_span_eq_false_iff (ha.2 s hs) (hb.2 s' hs')
  simp only [chainsOverlap, Bool.or_eq_false_iff, any_eq_false, Bool.not_eq_true,
    Bool.and_eq_false_iff, bne_eq_false_iff_eq]
  constructor
  · rintro ⟨⟨h1, h2⟩, h3⟩
    refine ⟨htables.mp h1, fun s hs => (hleft s hs).mp (h2 s hs).1,
      fun s hs => (hright s hs).mp (h3 s hs), fun s hs s' hs' hw => ?_⟩
    rcases (h2 s hs).2 s' hs' with hz | hno
    · exact absurd hw (by simp [hz.1, hz.2])
    · exact (hpair s hs s' hs').mp hno
  · intro hclear
    refine ⟨⟨htables.mpr hclear.tables, fun s hs => ⟨(hleft s hs).mpr (hclear.left s hs),
      fun s' hs' => ?_⟩⟩, fun s hs => (hright s hs).mpr (hclear.right s hs)⟩
    by_cases hw : s.writable = 0 ∧ s'.writable = 0
    · exact Or.inl hw
    · exact Or.inr ((hpair s hs s' hs').mpr (hclear.segments s hs s' hs' (by tauto)))

theorem setOwner_of_not_mem {v : UInt16} {owner : ℕ → UInt16} {ds : List UInt16} {d : ℕ}
    (h : ∀ x ∈ ds, x.toNat ≠ d) : setOwner v owner ds d = owner d := by
  induction ds generalizing owner with
  | nil => rfl
  | cons x ds ih =>
    have hrest : setOwner v owner (x :: ds) d = update owner x.toNat v d :=
      ih fun y hy => h y (mem_cons_of_mem _ hy)
    exact hrest.trans (update_of_ne (h x mem_cons_self).symm _ _)

theorem setOwner_of_mem {v : UInt16} {owner : ℕ → UInt16} {ds : List UInt16} {d : ℕ}
    (h : ∃ x ∈ ds, x.toNat = d) : setOwner v owner ds d = v := by
  induction ds generalizing owner with
  | nil =>
    obtain ⟨x, hx, -⟩ := h
    exact absurd hx not_mem_nil
  | cons x ds ih =>
    by_cases hrest : ∃ y ∈ ds, y.toNat = d
    · exact ih hrest
    · have hx : x.toNat = d := by
        obtain ⟨y, hy, hd⟩ := h
        rcases mem_cons.mp hy with rfl | hy
        · exact hd
        · exact absurd ⟨y, hy, hd⟩ hrest
      have hnot : setOwner v owner (x :: ds) d = update owner x.toNat v d :=
        setOwner_of_not_mem fun y hy hd => hrest ⟨y, hy, hd⟩
      rw [hnot, hx, update_self]

theorem directDescriptors_eq {c : Chain} (h : c.count ≤ c.capacity) :
    c.directDescriptors = c.wire.directDescriptors := by
  rw [Chain.directDescriptors, Wire.directDescriptors, wire_directCount h]
  rfl

theorem ownerTag_head (c : Chain) : ownerTag c.head.toNat = c.head + 1 := by
  rw [ownerTag, UInt16.ofNat_add, UInt16.ofNat_toNat]
  rfl

theorem ownerTag_toNat {h : ℕ} (hlt : h < 32768) : (ownerTag h).toNat = h + 1 := by
  rw [ownerTag, UInt16.toNat_ofNat_of_lt']
  exact Nat.lt_of_le_of_lt hlt (by decide)

section Booked
variable {b : Binding} {t : ℕ → Option Chain} {owner : ℕ → UInt16} {n h : ℕ} {c c' : Chain}

theorem Held.lt (hc : Held b h c) : h < b.queue.queueSize.toNat := by
  rw [← hc.head]
  exact hc.valid.head_lt

section
variable (hk : Booked b t owner n) (hb : b.Bound)
include hk hb

theorem Booked.slot_lt (ht : t h = some c) :
    h < 32768 := Nat.lt_of_lt_of_le (hk.held h c ht).lt hb.wellFormed.size_le

theorem Booked.tag_ne (ht : t h = some c) : ownerTag h ≠ 0 := by
  intro hz
  have htag := ownerTag_toNat (hk.slot_lt hb ht)
  rw [hz] at htag
  exact absurd htag (Nat.succ_ne_zero h).symm

theorem Booked.tag_inj {h' : ℕ} (ht : t h = some c) (ht' : t h' = some c')
    (htag : ownerTag h = ownerTag h') : h = h' := by
  have heq := congrArg UInt16.toNat htag
  rw [ownerTag_toNat (hk.slot_lt hb ht), ownerTag_toNat (hk.slot_lt hb ht')] at heq
  exact Nat.succ.inj heq

theorem Booked.insert (hc : Held b h c) (ht : t h = none)
    (hfree : ∀ d ∈ c.wire.directDescriptors, owner d.toNat = 0)
    (hclear : ∀ h' c', t h' = some c' → c.wire.Clear c'.wire)
    (hn : n < b.queue.maxOutstanding.toNat) :
    Booked b (update t h (some c)) (setOwner (c.head + 1) owner c.directDescriptors)
      (n + 1) := by
  rw [directDescriptors_eq hc.count_le]
  refine ⟨fun i x hx => ?_, ?_, ?_, ?_, hn⟩
  · by_cases hi : i = h
    · subst hi
      rw [update_self] at hx
      cases hx
      exact hc
    · rw [update_of_ne hi] at hx
      exact hk.held i x hx
  · refine hk.books.insert (fun i x => hk.tag_ne hb) ht ?_ ?_ ?_
    · rintro d ⟨x, hx, rfl⟩
      exact hfree x hx
    · intro d hd
      rw [setOwner_of_mem hd, ← hc.head, ownerTag_head]
    · intro d hd
      exact setOwner_of_not_mem fun x hx hxd => hd ⟨x, hx, hxd⟩
  · exact hk.clear.insert (fun _ _ => Wire.Clear.symm) fun h' c' _ => hclear h' c'
  · rw [hk.owned_eq, count_insert hc.lt ht rfl]

theorem Booked.erase (ht : t h = some c) :
    Booked b (update t h none) (setOwner 0 owner c.directDescriptors) (n - 1) := by
  have hc := hk.held h c ht
  rw [directDescriptors_eq hc.count_le]
  refine ⟨fun i x hx => hk.held i x (update_none_eq_some hx).2, ?_, hk.clear.erase h, ?_, ?_⟩
  · refine hk.books.erase (fun i j x y => hk.tag_inj hb) ht ?_ ?_
    · intro d hd
      exact setOwner_of_mem hd
    · intro d hd
      exact setOwner_of_not_mem fun x hx hxd => hd ⟨x, hx, hxd⟩
  · rw [hk.owned_eq, count_remove hc.lt (by rw [ht]; rfl) rfl]
  · have := hk.owned_le
    omega

end

theorem Booked.replace (hk : Booked b t owner n) (ht : t h = some c) (hc' : Held b h c')
    (hw : c'.wire = c.wire) : Booked b (update t h (some c')) owner n := by
  refine ⟨fun i x hx => ?_, ?_, ?_, ?_, hk.owned_le⟩
  · by_cases hi : i = h
    · subst hi
      rw [update_self] at hx
      cases hx
      exact hc'
    · rw [update_of_ne hi] at hx
      exact hk.held i x hx
  · refine hk.books.replace ht fun d => ?_
    rw [Chain.Uses, Chain.Uses, hw]
  · refine hk.clear.insert (fun _ _ => Wire.Clear.symm) fun h' x hne hx => ?_
    rw [hw]
    exact hk.clear h h' c x hne.symm ht hx
  · rw [hk.owned_eq, count_keep hc'.lt (by rw [ht]; rfl)]

end Booked

end Kobox.Virtqueue
