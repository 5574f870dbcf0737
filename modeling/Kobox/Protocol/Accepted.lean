import Kobox.Library.Scan
import Kobox.Protocol.Geometry
import Mathlib.Data.List.Nodup

/-!
# What the validation of a channel accepts
-/

namespace Kobox.Protocol
open ByteMemory List
variable {regions : List Region} {q : Queue} {queues : List Queue} {channel : Channel}

/-! ### Geometry -/

def Queue.rings (q : Queue) : List Span := [q.ring 0, q.ring 1, q.ring 2]

def Queue.notifications (q : Queue) : List UInt32 :=
  [q.availableNotificationId, q.usedNotificationId]

def ringRights : UInt32 := regionRightRead ||| regionRightWrite

/-- The sizes of a queue. -/
structure Queue.Sized (q : Queue) : Prop where
  power : ∃ k, q.queueSize.toNat = 2 ^ k
  minimum : queueSizeMin ≤ q.queueSize
  maximum : q.queueSize ≤ queueSizeMax
  chain : 1 ≤ q.maxChainLength.toNat ∧ q.maxChainLength ≤ q.queueSize
  outstanding : 1 ≤ q.maxOutstanding.toNat ∧ q.maxOutstanding ≤ q.queueSize

/-- The addresses of a queue's rings. -/
structure Queue.Aligned (q : Queue) : Prop where
  descriptor : q.descriptorAddress.toNat % 16 = 0
  available : q.availableAddress.toNat % 2 = 0
  used : q.usedAddress.toNat % 4 = 0

/-- The regions are apart and so are the rings, each ring lies in a region that may be read and
written, and no id or notification is used twice. -/
structure Geometry (queues : List Queue) (regions : List Region) : Prop where
  regionIds : (regions.map Region.regionId).Nodup
  regionIdsSet : ∀ r ∈ regions, r.regionId ≠ 0
  regionsApart : (regions.map Region.span).Pairwise Span.Apart
  regionsFit : ∀ r ∈ regions, r.span.base + r.span.size < 2 ^ 64
  ringsApart : (queues.flatMap Queue.rings).Pairwise Span.Apart
  ringsFit : ∀ ring ∈ queues.flatMap Queue.rings, ring.base + ring.size < 2 ^ 64
  ringsInside : ∀ ring ∈ queues.flatMap Queue.rings,
    ∃ r ∈ regions, r.rights &&& ringRights = ringRights ∧ ring.Within r.span
  aligned : ∀ q ∈ queues, q.Aligned
  queueIds : (queues.map Queue.queueId).Nodup
  notifications : (queues.flatMap Queue.notifications).Nodup
  notificationsSet : ∀ id ∈ queues.flatMap Queue.notifications, id ≠ 0
  sized : ∀ q ∈ queues, q.Sized
  events : queues.countP (fun q => q.role = queueRoleEvent) ≤ 1
  requests : 1 ≤ queues.countP (fun q => q.role = queueRoleRequest)

/-- The fields that do not depend on one another. -/
structure InRange (channel : Channel) (queues : List Queue) (regions : List Region) : Prop where
  features : channel.featureBits = transportFeaturesRequired
  channelId : channel.channelId ≠ 0
  generation : channel.generation ≠ 0
  protocolId : channel.protocolId ≠ 0
  flags : channel.flags = channelFlagManagement ∨ channel.flags = channelFlagData
  queueCount : minQueues ≤ queues.length ∧ queues.length ≤ maxQueues
  regionCount : 1 ≤ regions.length ∧ regions.length ≤ maxRegions
  queueIds : ∀ q ∈ queues, q.queueId ≠ 0
  queueFlags : ∀ q ∈ queues, q.flags = 0
  roles : ∀ q ∈ queues, q.role = queueRoleEvent ∨ q.role = queueRoleRequest
  indirect : ∀ q ∈ queues, q.maxIndirectLength ≠ 0 ∧ q.maxIndirectLength ≤ queueSizeMax
  rights : ∀ r ∈ regions, r.rights ≠ 0 ∧
    r.rights &&& ~~~(regionRightRead ||| regionRightWrite) = 0
  lengths : ∀ r ∈ regions, r.length ≠ 0

/-- The checks of a region by itself. -/
structure Region.Valid (r : Region) : Prop where
  regionId : r.regionId ≠ 0
  rights : r.rights ≠ 0
  known : r.rights &&& ~~~(regionRightRead ||| regionRightWrite) = 0
  length : 0 < r.span.size
  fits : r.span.base + r.span.size < 2 ^ 64

theorem regionValid_iff (earlier : List Region) (r : Region) :
    regionValid earlier r = true ↔ r.Valid ∧ ∀ other ∈ earlier, r.regionId ≠ other.regionId ∧
      rangesOverlap r.transportBase r.length other.transportBase other.length = false := by
  simp only [regionValid, Bool.and_eq_true, Bool.not_eq_true', Bool.or_eq_false_iff,
    beq_eq_false_iff_ne, bne_eq_false_iff_eq, Bool.not_eq_false', u64RangeValid_iff,
    all_eq_true]
  constructor
  · rintro ⟨⟨⟨⟨hid, hrights⟩, hknown⟩, hlength, hfits⟩, hearlier⟩
    exact ⟨⟨hid, hrights, hknown, hlength, hfits⟩, hearlier⟩
  · rintro ⟨h, hearlier⟩
    exact ⟨⟨⟨⟨h.regionId, h.rights⟩, h.known⟩, h.length, h.fits⟩, hearlier⟩

theorem validateRegions_iff :
    validateRegions regions = true ↔
      (∀ r ∈ regions, r.Valid) ∧ (regions.map Region.regionId).Nodup ∧
        (regions.map Region.span).Pairwise Span.Apart := by
  rw [validateRegions, Scan.all_earlier_iff regionValid_iff, List.Nodup, pairwise_map,
    pairwise_map, ← pairwise_and_iff]
  refine and_congr_right fun hvalid => List.Pairwise.iff_of_mem fun {r other} hr hother => ?_
  rw [ne_comm, rangesOverlap_eq_false_iff (hvalid other hother).length (hvalid r hr).length
    (hvalid other hother).fits (hvalid r hr).fits, Span.apart_comm]
  rfl

/-- The checks of a queue by itself. -/
structure Queue.Valid (regions : List Region) (q : Queue) : Prop where
  queueId : q.queueId ≠ 0
  flags : q.flags = 0
  role : q.role = queueRoleEvent ∨ q.role = queueRoleRequest
  sized : q.Sized
  available : q.availableNotificationId ≠ 0
  used : q.usedNotificationId ≠ 0
  distinct : q.availableNotificationId ≠ q.usedNotificationId
  indirect : q.maxIndirectLength ≠ 0 ∧ q.maxIndirectLength ≤ queueSizeMax
  aligned : q.Aligned
  inside : ∀ i < 3, rangeHasRights (queueRangeBase q i) (queueRangeLength q i) ringRights regions =
    true
  apart : ∀ i < 3, ∀ j < i, rangesOverlap (queueRangeBase q i) (queueRangeLength q i)
    (queueRangeBase q j) (queueRangeLength q j) = false

/-- The checks of a queue against an earlier one. -/
structure Queue.Compatible (previous q : Queue) : Prop where
  queueId : q.queueId ≠ previous.queueId
  notifications : ∀ id ∈ q.notifications, id ∉ previous.notifications
  apart : ∀ i < 3, ∀ j < 3, rangesOverlap (queueRangeBase q i) (queueRangeLength q i)
    (queueRangeBase previous j) (queueRangeLength previous j) = false

theorem sized_iff :
    q.Sized ↔ (queueSizeMin ≤ q.queueSize ∧ q.queueSize ≤ queueSizeMax) ∧
      q.queueSize &&& (q.queueSize - 1) = 0 ∧
      (q.maxChainLength ≠ 0 ∧ q.maxChainLength ≤ q.queueSize) ∧
      q.maxOutstanding ≠ 0 ∧ q.maxOutstanding ≤ q.queueSize := by
  have hpos {x : UInt32} : 1 ≤ x.toNat ↔ x ≠ 0 := by
    rw [Nat.one_le_iff_ne_zero, ne_eq, ne_eq, ← UInt32.toNat_inj]
    rfl
  constructor
  · rintro ⟨hpower, hmin, hmax, ⟨hchain, hchain'⟩, hout, hout'⟩
    have hsize : 0 < q.queueSize.toNat := UInt32.le_iff_toNat_le.mp hmin
    have hmask := (Nat.and_sub_one_eq_zero_iff_isPowerOfTwo hsize.ne').mpr hpower
    refine ⟨⟨hmin, hmax⟩, ?_, ⟨hpos.mp hchain, hchain'⟩, hpos.mp hout, hout'⟩
    have hone : (1 : UInt32) ≤ q.queueSize := hmin
    rw [← UInt32.toNat_inj, UInt32.toNat_and, UInt32.toNat_sub_of_le _ _ hone]
    exact hmask
  · rintro ⟨⟨hmin, hmax⟩, hmask, ⟨hchain, hchain'⟩, hout, hout'⟩
    have hsize : 0 < q.queueSize.toNat := UInt32.le_iff_toNat_le.mp hmin
    exact ⟨size_pow_of_mask hsize hmask, hmin, hmax, ⟨hpos.mpr hchain, hchain'⟩, hpos.mpr hout, hout'⟩

theorem and_mask_eq_zero {x mask : UInt64} (k : ℕ) (hmask : mask.toNat = 2 ^ k - 1) :
    x &&& mask = 0 ↔ x.toNat % 2 ^ k = 0 := by
  rw [← UInt64.toNat_inj, UInt64.toNat_and, hmask, Nat.and_two_pow_sub_one_eq_mod]
  rfl

theorem aligned_iff :
    q.Aligned ↔ q.descriptorAddress &&& 15 = 0 ∧ q.availableAddress &&& 1 = 0 ∧
      q.usedAddress &&& 3 = 0 := by
  rw [and_mask_eq_zero 4 rfl, and_mask_eq_zero 1 rfl, and_mask_eq_zero 2 rfl]
  exact ⟨fun h => ⟨h.descriptor, h.available, h.used⟩, fun h => ⟨h.1, h.2.1, h.2.2⟩⟩

theorem queueRangesUnique_iff {earlier : List Queue} :
    queueRangesUnique earlier q = true ↔
      (∀ i < 3, ∀ j < i, rangesOverlap (queueRangeBase q i) (queueRangeLength q i)
        (queueRangeBase q j) (queueRangeLength q j) = false) ∧
      ∀ previous ∈ earlier, ∀ i < 3, ∀ j < 3,
        rangesOverlap (queueRangeBase q i) (queueRangeLength q i)
          (queueRangeBase previous j) (queueRangeLength previous j) = false := by
  simp only [queueRangesUnique, all_eq_true, mem_range, Bool.and_eq_true,
    Bool.not_eq_true']
  constructor
  · intro h
    exact ⟨fun i hi => (h i hi).2, fun previous hp i hi => (h i hi).1 previous hp⟩
  · rintro ⟨hown, hearlier⟩ i hi
    exact ⟨fun previous hp => hearlier previous hp i hi, hown i hi⟩

theorem queueIdentityUnique_iff {earlier : List Queue} :
    queueIdentityUnique earlier q = true ↔
      q.availableNotificationId ≠ q.usedNotificationId ∧
      ∀ previous ∈ earlier, q.queueId ≠ previous.queueId ∧
        ∀ id ∈ q.notifications, id ∉ previous.notifications := by
  simp only [queueIdentityUnique, Bool.and_eq_true, all_eq_true, Bool.not_eq_true',
    Bool.or_eq_false_iff, beq_eq_false_iff_ne, bne_iff_ne, Queue.notifications, mem_cons,
    not_mem_nil, or_false, not_or, forall_eq_or_imp, forall_eq]
  constructor
  · rintro ⟨hearlier, hdistinct⟩
    refine ⟨hdistinct, fun previous hp => ?_⟩
    obtain ⟨⟨⟨⟨hid, haa⟩, hau⟩, hua⟩, huu⟩ := hearlier previous hp
    exact ⟨hid, ⟨haa, hau⟩, hua, huu⟩
  · rintro ⟨hdistinct, hearlier⟩
    refine ⟨fun previous hp => ?_, hdistinct⟩
    obtain ⟨hid, ⟨haa, hau⟩, hua, huu⟩ := hearlier previous hp
    exact ⟨⟨⟨⟨hid, haa⟩, hau⟩, hua⟩, huu⟩

theorem forall_lt_three {p : ℕ → Prop} : (∀ i < 3, p i) ↔ p 0 ∧ p 1 ∧ p 2 := by
  constructor
  · intro h
    exact ⟨h 0 (by decide), h 1 (by decide), h 2 (by decide)⟩
  · rintro ⟨h0, h1, h2⟩ i hi
    obtain rfl | rfl | rfl : i = 0 ∨ i = 1 ∨ i = 2 := by omega
    · exact h0
    · exact h1
    · exact h2

theorem queueValid_iff (regions : List Region) (earlier : List Queue) (q : Queue) :
    queueValid regions earlier q = true ↔
      q.Valid regions ∧ ∀ previous ∈ earlier, previous.Compatible q := by
  simp only [queueValid, Bool.and_eq_true, Bool.not_eq_true', Bool.or_eq_false_iff,
    Bool.not_eq_false', bne_eq_false_iff_eq, beq_eq_false_iff_ne, decide_eq_false_iff_not,
    Bool.and_eq_false_iff, UInt32.not_lt, queueIdentityUnique_iff, queueRangesUnique_iff]
  constructor
  · rintro ⟨⟨⟨⟨⟨⟨⟨⟨⟨⟨⟨⟨⟨⟨⟨hid, hflags⟩, hrole⟩, hmin⟩, hmax⟩, hmask⟩, havailable⟩, hused⟩, hchain⟩,
      hchain'⟩, hindirect⟩, hindirect'⟩, hout⟩, hout'⟩, hdistinct, hidentity⟩,
      ⟨⟨⟨⟨⟨hdesc, havail⟩, husedAddress⟩, hdescRights⟩, havailRights⟩, husedRights⟩, hown,
      hearlier⟩
    refine ⟨⟨hid, hflags, hrole, sized_iff.mpr ⟨⟨hmin, hmax⟩, hmask, ⟨hchain, hchain'⟩, hout, hout'⟩,
      havailable, hused, hdistinct, ⟨hindirect, hindirect'⟩, aligned_iff.mpr
      ⟨hdesc, havail, husedAddress⟩, forall_lt_three.mpr ⟨hdescRights, havailRights, husedRights⟩, hown⟩,
      fun previous hp => ?_⟩
    exact ⟨(hidentity previous hp).1, (hidentity previous hp).2, hearlier previous hp⟩
  · rintro ⟨h, hearlier⟩
    obtain ⟨⟨hmin, hmax⟩, hmask, ⟨hchain, hchain'⟩, hout, hout'⟩ := sized_iff.mp h.sized
    obtain ⟨hdesc, havail, husedAddress⟩ := aligned_iff.mp h.aligned
    obtain ⟨hdescRights, havailRights, husedRights⟩ := forall_lt_three.mp h.inside
    refine ⟨⟨⟨⟨⟨⟨⟨⟨⟨⟨⟨⟨⟨⟨⟨h.queueId, h.flags⟩, h.role⟩, hmin⟩, hmax⟩, hmask⟩, h.available⟩, h.used⟩,
      hchain⟩, hchain'⟩, h.indirect.1⟩, h.indirect.2⟩, hout⟩, hout'⟩, h.distinct,
      fun previous hp => ?_⟩, ⟨⟨⟨⟨⟨hdesc, havail⟩, husedAddress⟩, hdescRights⟩, havailRights⟩,
      husedRights⟩, h.apart, fun previous hp => (hearlier previous hp).apart⟩
    exact ⟨(hearlier previous hp).queueId, (hearlier previous hp).notifications⟩

theorem Queue.forall_rings {p : Span → Prop} :
    (∀ ring ∈ q.rings, p ring) ↔ ∀ i < 3, p (q.ring i) := by
  rw [forall_lt_three]
  simp only [rings, mem_cons, not_mem_nil, or_false, forall_eq_or_imp, forall_eq]

theorem forall_mem_rings {p : Span → Prop} :
    (∀ ring ∈ queues.flatMap Queue.rings, p ring) ↔ ∀ q ∈ queues, ∀ i < 3, p (q.ring i) := by
  simp only [mem_flatMap, forall_exists_index, and_imp]
  rw [forall_comm]
  refine forall_congr' fun q => ?_
  rw [forall_comm]
  exact forall_congr' fun _ => Queue.forall_rings

theorem Queue.Sized.ring_pos (h : q.Sized) {i : ℕ} (hi : i < 3) :
    0 < (q.ring i).size := by
  have hsize : 1 ≤ q.queueSize.toNat := UInt32.le_iff_toNat_le.mp h.minimum
  rw [ring_length q i hi]
  split <;> omega

theorem rangeHasRights_iff (hregions : ∀ r ∈ regions, r.Valid) {base length : UInt64}
    {rights : UInt32} :
    rangeHasRights base length rights regions = true ↔
      0 < length.toNat ∧ base.toNat + length.toNat < 2 ^ 64 ∧
        ∃ r ∈ regions, r.rights &&& rights = rights ∧
          Span.Within ⟨base.toNat, length.toNat⟩ r.span := by
  simp only [rangeHasRights, Bool.and_eq_true, u64RangeValid_iff, any_eq_true, beq_iff_eq,
    decide_eq_true_eq, and_assoc]
  refine and_congr_right fun _ => and_congr_right fun hfits => exists_congr fun r =>
    and_congr_right fun hr => and_congr_right fun _ => ?_
  rw [UInt64.le_iff_toNat_le, UInt64.le_iff_toNat_le, toNat_add_of_lt hfits,
    toNat_add_of_lt (hregions r hr).fits]
  rfl

theorem rings_iff (hregions : ∀ r ∈ regions, r.Valid) (hsized : q.Sized) :
    (∀ i < 3, rangeHasRights (queueRangeBase q i) (queueRangeLength q i) ringRights regions =
        true) ↔
      ∀ i < 3, (q.ring i).base + (q.ring i).size < 2 ^ 64 ∧
        ∃ r ∈ regions, r.rights &&& ringRights = ringRights ∧ (q.ring i).Within r.span := by
  refine forall₂_congr fun i hi => ?_
  rw [rangeHasRights_iff hregions]
  exact and_iff_right (hsized.ring_pos hi)

theorem overlap_iff {q' : Queue} (hsized : q.Sized) (hsized' : q'.Sized)
    (hfits : ∀ i < 3, (q.ring i).base + (q.ring i).size < 2 ^ 64)
    (hfits' : ∀ i < 3, (q'.ring i).base + (q'.ring i).size < 2 ^ 64) {i j : ℕ} (hi : i < 3)
    (hj : j < 3) :
    rangesOverlap (queueRangeBase q i) (queueRangeLength q i) (queueRangeBase q' j)
      (queueRangeLength q' j) = false ↔ (q.ring i).Apart (q'.ring j) :=
  rangesOverlap_eq_false_iff (hsized.ring_pos hi) (hsized'.ring_pos hj) (hfits i hi) (hfits' j hj)

theorem rings_pairwise_iff :
    (queues.flatMap Queue.rings).Pairwise Span.Apart ↔
      (∀ q ∈ queues, ∀ i < 3, ∀ j < i, (q.ring i).Apart (q.ring j)) ∧
        queues.Pairwise fun previous q => ∀ i < 3, ∀ j < 3, (q.ring i).Apart (previous.ring j) := by
  rw [pairwise_flatMap]
  refine and_congr (forall₂_congr fun q _ => ?_) (List.Pairwise.iff fun previous q => ?_)
  · have hshape : q.rings.Pairwise Span.Apart ↔ ((q.ring 0).Apart (q.ring 1) ∧
        (q.ring 0).Apart (q.ring 2)) ∧ (q.ring 1).Apart (q.ring 2) := by
      simp [Queue.rings]
    rw [hshape]
    constructor
    · rintro ⟨⟨h01, h02⟩, h12⟩ i hi j hj
      obtain ⟨rfl, rfl⟩ | ⟨rfl, rfl⟩ | ⟨rfl, rfl⟩ :
          (i = 1 ∧ j = 0) ∨ (i = 2 ∧ j = 0) ∨ (i = 2 ∧ j = 1) := by omega
      · exact h01.symm
      · exact h02.symm
      · exact h12.symm
    · intro h
      exact ⟨⟨(h 1 (by decide) 0 (by decide)).symm, (h 2 (by decide) 0 (by decide)).symm⟩,
        (h 2 (by decide) 1 (by decide)).symm⟩
  · simp only [Queue.forall_rings]
    exact ⟨fun h i hi j hj => (h j hj i hi).symm, fun h j hj i hi => (h i hi j hj).symm⟩

theorem notifications_nodup_iff :
    (queues.flatMap Queue.notifications).Nodup ↔
      (∀ q ∈ queues, q.availableNotificationId ≠ q.usedNotificationId) ∧
        queues.Pairwise fun previous q => ∀ id ∈ q.notifications, id ∉ previous.notifications := by
  rw [List.Nodup, pairwise_flatMap]
  refine and_congr (forall₂_congr fun q _ => ?_) (List.Pairwise.iff fun previous q => ?_)
  · simp [Queue.notifications]
  · constructor
    · intro h id hid hprevious
      exact h id hprevious id hid rfl
    · rintro h id hprevious _ hid rfl
      exact h id hid hprevious

/-! ### Channels -/

theorem validateQueues_iff :
    validateQueues queues regions = true ↔
      (∀ q ∈ queues, q.Valid regions) ∧ queues.Pairwise Queue.Compatible ∧
        queues.countP (fun q => q.role = queueRoleEvent) ≤ 1 ∧
        1 ≤ queues.countP (fun q => q.role = queueRoleRequest) := by
  rw [validateQueues, Bool.and_eq_true, Bool.and_eq_true,
    Scan.all_earlier_iff (queueValid_iff regions), and_assoc, and_assoc]
  refine and_congr_right fun hvalid => and_congr_right fun _ => ?_
  have hrequest : queues.countP (fun q => q.role != queueRoleEvent) =
      queues.countP fun q => q.role = queueRoleRequest := by
    refine countP_congr fun q hq => ?_
    rcases (hvalid q hq).role with hrole | hrole <;> rw [hrole] <;> decide
  rw [hrequest, decide_eq_true_eq, decide_eq_true_eq]
  rfl

theorem validateChannelModel_iff :
    validateChannelModel channel queues regions = true ↔
      (channel.featureBits = transportFeaturesRequired ∧ channel.channelId ≠ 0 ∧
        channel.generation ≠ 0 ∧ channel.protocolId ≠ 0 ∧
        (channel.flags = channelFlagManagement ∨ channel.flags = channelFlagData)) ∧
      (minQueues ≤ queues.length ∧ queues.length ≤ maxQueues) ∧
      (1 ≤ regions.length ∧ regions.length ≤ maxRegions) ∧
      validateRegions regions = true ∧ validateQueues queues regions = true := by
  simp only [validateChannelModel, Bool.and_eq_true, Bool.not_eq_true', Bool.or_eq_false_iff,
    decide_eq_false_iff_not, beq_eq_false_iff_ne, bne_eq_false_iff_eq, Bool.and_eq_false_iff,
    Nat.not_lt, Nat.one_le_iff_ne_zero]
  tauto

theorem channelValidate_iff :
    channelValidate channel queues regions = .ok ↔
      validateChannelModel channel queues regions = true := by
  rw [channelValidate]
  split <;> simp [*]

theorem geometry_of_valid (hregions : validateRegions regions = true)
    (hqueues : validateQueues queues regions = true) :
    Geometry queues regions := by
  obtain ⟨hregion, hregionIds, hregionsApart⟩ := validateRegions_iff.mp hregions
  obtain ⟨hqueue, hcompatible, hevents, hrequests⟩ := validateQueues_iff.mp hqueues
  have hrings : ∀ q ∈ queues, ∀ i < 3, (q.ring i).base + (q.ring i).size < 2 ^ 64 ∧
      ∃ r ∈ regions, r.rights &&& ringRights = ringRights ∧ (q.ring i).Within r.span :=
    fun q hq => (rings_iff hregion (hqueue q hq).sized).mp (hqueue q hq).inside
  have hfits : ∀ q ∈ queues, ∀ i < 3, (q.ring i).base + (q.ring i).size < 2 ^ 64 :=
    fun q hq i hi => (hrings q hq i hi).1
  refine
    { regionIds := hregionIds
      regionIdsSet := fun r hr => (hregion r hr).regionId
      regionsApart := hregionsApart
      regionsFit := fun r hr => (hregion r hr).fits
      ringsApart := rings_pairwise_iff.mpr ⟨fun q hq i hi j hj => ?_,
        hcompatible.imp_of_mem fun {previous q} hprevious hq h i hi j hj => ?_⟩
      ringsFit := forall_mem_rings.mpr hfits
      ringsInside := forall_mem_rings.mpr fun q hq i hi => (hrings q hq i hi).2
      aligned := fun q hq => (hqueue q hq).aligned
      queueIds := pairwise_map.mpr (hcompatible.imp fun h => h.queueId.symm)
      notifications := notifications_nodup_iff.mpr
        ⟨fun q hq => (hqueue q hq).distinct, hcompatible.imp fun h => h.notifications⟩
      notificationsSet := fun id hid => ?_
      sized := fun q hq => (hqueue q hq).sized
      events := hevents
      requests := hrequests }
  · have hsized := (hqueue q hq).sized
    exact (overlap_iff hsized hsized (hfits q hq) (hfits q hq) hi (hj.trans hi)).mp
      ((hqueue q hq).apart i hi j hj)
  · exact (overlap_iff (hqueue q hq).sized (hqueue previous hprevious).sized (hfits q hq)
      (hfits previous hprevious) hi hj).mp (h.apart i hi j hj)
  · obtain ⟨q, hq, hid⟩ := mem_flatMap.mp hid
    rcases mem_pair.mp hid with rfl | rfl
    · exact (hqueue q hq).available
    · exact (hqueue q hq).used

theorem Geometry.regions_valid (h : Geometry queues regions)
    (hrange : InRange channel queues regions) :
    validateRegions regions = true := by
  refine validateRegions_iff.mpr ⟨fun r hr => ?_, h.regionIds, h.regionsApart⟩
  have hlength : 0 < r.span.size := by
    rw [Nat.pos_iff_ne_zero]
    intro hzero
    exact hrange.lengths r hr (UInt64.toNat_inj.mp hzero)
  exact ⟨h.regionIdsSet r hr, (hrange.rights r hr).1, (hrange.rights r hr).2, hlength,
    h.regionsFit r hr⟩

theorem Geometry.queues_valid (h : Geometry queues regions)
    (hrange : InRange channel queues regions) :
    validateQueues queues regions = true := by
  obtain ⟨hregion, -, -⟩ := validateRegions_iff.mp (h.regions_valid hrange)
  have hfits := forall_mem_rings.mp h.ringsFit
  have hinside := forall_mem_rings.mp h.ringsInside
  obtain ⟨hown, hothers⟩ := rings_pairwise_iff.mp h.ringsApart
  obtain ⟨hdistinct, hnotifications⟩ := notifications_nodup_iff.mp h.notifications
  have hset : ∀ q ∈ queues, ∀ id ∈ q.notifications, id ≠ 0 := fun q hq id hid =>
    h.notificationsSet id (mem_flatMap.mpr ⟨q, hq, hid⟩)
  have hids := pairwise_map.mp h.queueIds
  refine validateQueues_iff.mpr ⟨fun q hq => ?_, ?_, h.events, h.requests⟩
  · have hsized := h.sized q hq
    refine
      { queueId := hrange.queueIds q hq
        flags := hrange.queueFlags q hq
        role := hrange.roles q hq
        sized := hsized
        available := hset q hq _ (mem_pair.mpr (.inl rfl))
        used := hset q hq _ (mem_pair.mpr (.inr rfl))
        distinct := hdistinct q hq
        indirect := hrange.indirect q hq
        aligned := h.aligned q hq
        inside := (rings_iff hregion hsized).mpr fun i hi => ⟨hfits q hq i hi, hinside q hq i hi⟩
        apart := fun i hi j hj => ?_ }
    exact (overlap_iff hsized hsized (hfits q hq) (hfits q hq) hi (hj.trans hi)).mpr
      (hown q hq i hi j hj)
  · refine ((hids.and hnotifications).and hothers).imp_of_mem
      fun {previous q} hprevious hq hpair => ?_
    obtain ⟨⟨hid, hids⟩, hapart⟩ := hpair
    refine ⟨hid.symm, hids, fun i hi j hj => ?_⟩
    exact (overlap_iff (h.sized q hq) (h.sized previous hprevious) (hfits q hq)
      (hfits previous hprevious) hi hj).mpr (hapart i hi j hj)

/-- A channel is accepted exactly when its geometry is sound and its other fields are in range. -/
theorem channel_accepted_iff_geometry (channel : Channel) (queues : List Queue)
    (regions : List Region) :
    channelValidate channel queues regions = .ok ↔
      Geometry queues regions ∧ InRange channel queues regions := by
  rw [channelValidate_iff, validateChannelModel_iff]
  constructor
  · rintro ⟨⟨hfeatures, hid, hgeneration, hprotocol, hflags⟩, hqueueCount, hregionCount, hregions,
      hqueues⟩
    obtain ⟨hregion, -⟩ := validateRegions_iff.mp hregions
    obtain ⟨hqueue, -⟩ := validateQueues_iff.mp hqueues
    refine ⟨geometry_of_valid hregions hqueues,
      { features := hfeatures
        channelId := hid
        generation := hgeneration
        protocolId := hprotocol
        flags := hflags
        queueCount := hqueueCount
        regionCount := hregionCount
        queueIds := fun q hq => (hqueue q hq).queueId
        queueFlags := fun q hq => (hqueue q hq).flags
        roles := fun q hq => (hqueue q hq).role
        indirect := fun q hq => (hqueue q hq).indirect
        rights := fun r hr => ⟨(hregion r hr).rights, (hregion r hr).known⟩
        lengths := fun r hr hzero => ?_ }⟩
    have hlength := (hregion r hr).length
    rw [Region.span, hzero] at hlength
    exact absurd hlength (lt_irrefl 0)
  · rintro ⟨h, hrange⟩
    exact ⟨⟨hrange.features, hrange.channelId, hrange.generation, hrange.protocolId, hrange.flags⟩,
      hrange.queueCount, hrange.regionCount, h.regions_valid hrange, h.queues_valid hrange⟩

/-- The limits one queue meets by itself. -/
structure Queue.WellFormed (q : Queue) : Prop where
  size_pos : 0 < q.queueSize.toNat
  size_le : q.queueSize.toNat ≤ 32768
  size_pow : ∃ k, q.queueSize.toNat = 2 ^ k
  chain_pos : 0 < q.maxChainLength.toNat
  chain_le : q.maxChainLength.toNat ≤ q.queueSize.toNat
  indirect_le : q.maxIndirectLength.toNat ≤ 32768
  outstanding_pos : 0 < q.maxOutstanding.toNat
  outstanding_le : q.maxOutstanding.toNat ≤ q.queueSize.toNat
  role : q.role = queueRoleEvent ∨ q.role = queueRoleRequest
  ring_lt : ∀ i < 3, (q.ring i).base + (q.ring i).size < 2 ^ 64
  ring_apart : ∀ i < 3, ∀ j < i, Span.Apart (q.ring i) (q.ring j)

/-- What `channelValidate` guarantees about addresses and identities. -/
structure Accepted (channel : Channel) (queues : List Queue) (regions : List Region) : Prop where
  generation : channel.generation ≠ 0
  region_lt : ∀ r ∈ regions, r.span.base + r.span.size < 2 ^ 64
  queue : ∀ q ∈ queues, q.WellFormed
  identity : ∀ q ∈ queues, ∀ q' ∈ queues, q.queueId = q'.queueId → q = q'
  rings_apart : ∀ q ∈ queues, ∀ q' ∈ queues, q.queueId ≠ q'.queueId →
    ∀ i < 3, ∀ j < 3, Span.Apart (q.ring i) (q'.ring j)

theorem Queue.Valid.wellFormed (h : q.Valid regions) (hregions : ∀ r ∈ regions, r.Valid) :
    q.WellFormed := by
  have hmin := UInt32.le_iff_toNat_le.mp h.sized.minimum
  have hring := fun i hi => ((rings_iff hregions h.sized).mp h.inside i hi).1
  exact
    { size_pos := hmin
      size_le := UInt32.le_iff_toNat_le.mp h.sized.maximum
      size_pow := h.sized.power
      chain_pos := h.sized.chain.1
      chain_le := UInt32.le_iff_toNat_le.mp h.sized.chain.2
      indirect_le := UInt32.le_iff_toNat_le.mp h.indirect.2
      outstanding_pos := h.sized.outstanding.1
      outstanding_le := UInt32.le_iff_toNat_le.mp h.sized.outstanding.2
      role := h.role
      ring_lt := hring
      ring_apart := fun i hi j hj =>
        (overlap_iff h.sized h.sized hring hring hi (hj.trans hi)).mp (h.apart i hi j hj) }

theorem channelValidate_accepted (h : channelValidate channel queues regions = .ok) :
    Accepted channel queues regions := by
  obtain ⟨⟨-, -, hgeneration, -⟩, -, -, hregions, hqueues⟩ :=
    validateChannelModel_iff.mp (channelValidate_iff.mp h)
  have hgeometry := geometry_of_valid hregions hqueues
  obtain ⟨hregion, -⟩ := validateRegions_iff.mp hregions
  obtain ⟨hqueue, -⟩ := validateQueues_iff.mp hqueues
  refine ⟨hgeneration, hgeometry.regionsFit, fun q hq => (hqueue q hq).wellFormed hregion,
    fun q hq q' hq' hid => inj_on_of_nodup_map hgeometry.queueIds hq hq' hid,
    fun q hq q' hq' hid i hi j hj => ?_⟩
  have hpairs := (rings_pairwise_iff.mp hgeometry.ringsApart).2
  have hsymm : Std.Symm fun previous q : Queue =>
      ∀ i < 3, ∀ j < 3, (q.ring i).Apart (previous.ring j) :=
    ⟨fun _ _ hrings i hi j hj => (hrings j hj i hi).symm⟩
  have hne : q' ≠ q := fun heq => hid (congrArg Queue.queueId heq.symm)
  exact hpairs.forall hq' hq hne i hi j hj

end Kobox.Protocol
