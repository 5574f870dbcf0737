import Kobox.Virtqueue.Invariant

/-!
# What an endpoint's caller has seen
-/

namespace Kobox.Virtqueue
open ByteMemory Protocol SlotTable List Function Option
variable {n h' : ℕ} {id' : ChainId}

/-- A finished call, with the private state before and after it. -/
structure Done where
  request : Request
  reply : Reply
  before : State
  after : State

/-! ### What a call tells

Both sides learn from their own calls alone, and nothing from a call that fails. -/

section Learn
variable {V A : Type} {hear : V → State → Call → Out → V} {start : V}

/-- The view after a call; `hear` is what a call that succeeded adds to it. -/
def learn (hear : V → State → Call → Out → V) (v : V) (e : Done) : V :=
  if e.reply.status = .ok then hear v e.after e.request.call e.reply.out else v

def learned (hear : V → State → Call → Out → V) (start : V) (log : List Done) : V :=
  log.foldl (learn hear) start

theorem learn_of_not_ok {v : V} {e : Done} (h : e.reply.status ≠ .ok) : learn hear v e = v :=
  if_neg h

theorem learned_append (log : List Done) (e : Done) :
    learned hear start (log ++ [e]) = learn hear (learned hear start log) e := by
  simp only [learned, foldl_append, foldl_cons, foldl_nil]

/-- A list that every call only extends. -/
theorem learned_extends {field : V → List A}
    (hhear : ∀ v s call out, field v <+: field (hear v s call out)) (log later : List Done) :
    field (learned hear start log) <+: field (learned hear start (log ++ later)) := by
  induction later using List.reverseRecOn with
  | nil => rw [append_nil]
  | append_singleton later e ih =>
    rw [← append_assoc, learned_append, learn]
    split_ifs
    · exact ih.trans (hhear ..)
    · exact ih

end Learn

/-! ### Driver -/

/-- What a successful `copy_response` read of publication `number`. -/
structure Slice where
  number : ℕ
  offset : ℕ
  size : ℕ
  bytes : List UInt8

/-- Publications are numbered from 0; `tag` is the number of a chain object's last one. -/
structure DriverView where
  wires : List Wire
  tag : ChainId → ℕ
  used : List (ℕ × ℕ)
  released : List ℕ
  copies : List Slice
  notifies : List Bool
  armed : Bool

namespace DriverView

def start : DriverView := ⟨[], fun _ => 0, [], [], [], [], false⟩

def publish (v : DriverView) (id : ChainId) (w : Wire) (notify : Bool) : DriverView :=
  { v with
    wires := v.wires ++ [w]
    tag := update v.tag id v.wires.length
    notifies := v.notifies ++ [notify] }

def takeUsed (v : DriverView) (id : ChainId) (length : ℕ) : DriverView :=
  { v with used := v.used ++ [(v.tag id, length)], armed := false }

def release (v : DriverView) (id : ChainId) : DriverView :=
  { v with released := v.released ++ [v.tag id] }

def copy (v : DriverView) (id : ChainId) (offset size : ℕ) (bytes : List UInt8) : DriverView :=
  { v with copies := v.copies ++ [⟨v.tag id, offset, size, bytes⟩] }

def hear (v : DriverView) (s : State) : Call → Out → DriverView
  | .publish (some id) _, .flag notify => v.publish id (s.chains id).wire notify
  | .takeUsed _, .chain id => v.takeUsed id (s.chains id).usedLength.toNat
  | .release (some id), _ => v.release id
  | .copyResponse (some id) offset size _, .bytes bytes => v.copy id offset size bytes
  | .arm _, .flag false => { v with armed := true }
  | _, _ => v

def next : DriverView → Done → DriverView := learn hear

def of (log : List Done) : DriverView := learned hear start log

/-- The publications a driver still holds: published and not released. -/
def Live (v : DriverView) (n : ℕ) (w : Wire) : Prop := v.wires[n]? = some w ∧ n ∉ v.released

/-- Number and state of the chain `id` in a slot. -/
structure Slot (v : DriverView) (s : State) (id : ChainId) : Prop where
  live : v.Live (v.tag id) (s.chains id).wire
  state : ((s.chains id).state = .submitted ∧ v.tag id ∉ v.used.map Prod.fst) ∨
    ((s.chains id).state = .returned ∧ (v.tag id, (s.chains id).usedLength.toNat) ∈ v.used)

/-- The view of the driver against its private state. -/
structure Tracks (b : Binding) (v : DriverView) (s : State) : Prop where
  produced : s.vq.produced = UInt16.ofNat v.wires.length
  consumed : s.vq.consumed = UInt16.ofNat v.used.length
  slot : ∀ h id, s.vq.slots h = some id → Slot v s id
  live : ∀ n w, v.Live n w → ∃ id, s.vq.slots w.head.toNat = some id ∧ v.tag id = n
  used_nodup : (v.used.map Prod.fst).Nodup
  used_le : ∀ n length, (n, length) ∈ v.used → ∃ w, v.wires[n]? = some w ∧ length ≤ w.writable
  released : ∀ n ∈ v.released, n ∈ v.used.map Prod.fst
  window : v.wires.length ≤ v.used.length + b.queue.maxOutstanding.toNat
  notifies : v.notifies.length = v.wires.length

end DriverView

/-! ### Device -/

/-- Takes are numbered from 0; `responses` are the bytes written for each number. -/
structure DeviceView where
  takes : List Wire
  tag : ChainId → ℕ
  responses : ℕ → List UInt8
  completions : List (ℕ × List UInt8)
  notifies : List Bool
  armed : Bool

namespace DeviceView

def start : DeviceView := ⟨[], fun _ => 0, fun _ => [], [], [], false⟩

def take (v : DeviceView) (id : ChainId) (w : Wire) : DeviceView :=
  { v with
    takes := v.takes ++ [w]
    tag := update v.tag id v.takes.length
    responses := update v.responses v.takes.length []
    armed := false }

def move (v : DeviceView) (src dst : ChainId) : DeviceView :=
  { v with tag := update v.tag dst (v.tag src) }

def giveBack (v : DeviceView) : DeviceView := { v with takes := v.takes.dropLast, armed := false }

def write (v : DeviceView) (id : ChainId) (bytes : List UInt8) : DeviceView :=
  { v with responses := update v.responses (v.tag id) (v.responses (v.tag id) ++ bytes) }

def complete (v : DeviceView) (id : ChainId) (notify : Bool) : DeviceView :=
  { v with
    completions := v.completions ++ [(v.tag id, v.responses (v.tag id))]
    notifies := v.notifies ++ [notify] }

def hear (v : DeviceView) (s : State) : Call → Out → DeviceView
  | .takeAvailable (some id), _ => v.take id (s.chains id).wire
  | .moveAccepted (some src) (some dst), _ => v.move src dst
  | .returnAvailable (some _), _ => v.giveBack
  | .writeResponse (some id) source, _ => v.write id source.bytes
  | .complete (some id) _, .flag notify => v.complete id notify
  | .arm _, .flag false => { v with armed := true }
  | _, _ => v

def next : DeviceView → Done → DeviceView := learn hear

def of (log : List Done) : DeviceView := learned hear start log

/-- The takes a device still holds: taken and not completed. -/
def Pending (v : DeviceView) (n : ℕ) (w : Wire) : Prop :=
  v.takes[n]? = some w ∧ n ∉ v.completions.map Prod.fst

/-- Number and response of the chain `id` in a slot. -/
structure Slot (v : DeviceView) (s : State) (id : ChainId) : Prop where
  pending : v.Pending (v.tag id) (s.chains id).wire
  written : (s.chains id).written = (v.responses (v.tag id)).length

/-- The view of the device against its private state. -/
structure Tracks (b : Binding) (v : DeviceView) (s : State) : Prop where
  consumed : s.vq.consumed = UInt16.ofNat v.takes.length
  produced : s.vq.produced = UInt16.ofNat v.completions.length
  slot : ∀ h id, s.vq.slots h = some id → Slot v s id
  pending : ∀ n w, v.Pending n w → ∃ id, s.vq.slots w.head.toNat = some id ∧ v.tag id = n
  completed_nodup : (v.completions.map Prod.fst).Nodup
  completed_lt : ∀ n ∈ v.completions.map Prod.fst, n < v.takes.length
  response : ∀ n bytes, (n, bytes) ∈ v.completions → bytes = v.responses n
  window : v.takes.length ≤ v.completions.length + b.queue.maxOutstanding.toNat
  last : ∀ id, s.vq.lastTaken = some id → v.tag id + 1 = v.takes.length
  notifies : v.notifies.length = v.completions.length

end DeviceView

/-- The counters of an endpoint are 16-bit copies of two lengths that never drift far apart. -/
theorem toNat_ofNat_sub_ofNat {a c : ℕ} (h : c ≤ a) (h' : a - c ≤ 32768) :
    (UInt16.ofNat a - UInt16.ofNat c).toNat = a - c := by
  rw [UInt16.toNat_sub, UInt16.toNat_ofNat', UInt16.toNat_ofNat']
  omega

theorem ofNat_succ (n : ℕ) : UInt16.ofNat n + 1 = UInt16.ofNat (n + 1) := by
  rw [UInt16.ofNat_add]
  rfl

theorem length_le_of_nodup {l : List ℕ} (hn : l.Nodup) (h : ∀ x ∈ l, x < n) :
    l.length ≤ n := by
  rw [← toFinset_card_of_nodup hn, ← Finset.card_range n]
  apply Finset.card_le_card
  intro x hx
  exact Finset.mem_range.mpr (h x (mem_toFinset.mp hx))

theorem getElem?_append_single {α : Type} {l : List α} {a : α} {x : α} :
    (l ++ [a])[n]? = some x ↔ l[n]? = some x ∨ (n = l.length ∧ a = x) := by
  by_cases hn : n < l.length
  · rw [getElem?_append_left hn]
    constructor
    · exact Or.inl
    · rintro (h | ⟨rfl, -⟩)
      · exact h
      · exact absurd hn (Nat.lt_irrefl _)
  · have hnone : l[n]? = none := getElem?_eq_none (Nat.le_of_not_lt hn)
    by_cases he : n = l.length
    · subst he
      simp
    · have hlen : (l ++ [a]).length ≤ n := by
        rw [length_append, length_singleton]
        omega
      rw [getElem?_eq_none hlen, hnone]
      simp [he]

/-! ### Numbers and slots -/

/-- The slots of a queue object hold the chains of the numbers of `l` that are not closed. -/
structure Numbered (l : List Wire) (closed : List ℕ) (tag : ChainId → ℕ) (s : State) : Prop where
  slot : ∀ h id, s.vq.slots h = some id → l[tag id]? = some (s.chains id).wire ∧ tag id ∉ closed
  found : ∀ n w, l[n]? = some w ∧ n ∉ closed → ∃ id, s.vq.slots w.head.toNat = some id ∧ tag id = n

section Numbered
variable {b : Binding} {s s' : State} {id : ChainId} {l : List Wire} {closed : List ℕ}
  {tag : ChainId → ℕ} {w : Wire}

variable (hn : Numbered l closed tag s)
include hn

theorem Numbered.tag_inj (ho : Owns b s) {h : ℕ} (hs : s.vq.slots h = some id)
    (hs' : s.vq.slots h' = some id') (htag : tag id = tag id') : id = id' := by
  have hw := (hn.slot h id hs).1
  rw [htag, (hn.slot h' id' hs').1] at hw
  exact ho.id_of_head hs hs' (congrArg Wire.head (some.inj hw)).symm

theorem Numbered.other_slot (ho : Owns b s) (hid : s.vq.slots (s.chains id).head.toNat = some id)
    (hs : (drop s id).vq.slots h' = some id') :
    s.vq.slots h' = some id' ∧ (drop s id).chains id' = s.chains id' ∧ tag id' ≠ tag id := by
  obtain ⟨hh, hs⟩ := update_none_eq_some hs
  have he : id' ≠ id := fun he => hh ((ho.inSlot hid).unique h' (he ▸ hs))
  exact ⟨hs, update_of_ne he .., fun htag => he (hn.tag_inj ho hs hid htag)⟩

theorem Numbered.still_found (hid : s.vq.slots (s.chains id).head.toNat = some id)
    (hw : l[n]? = some w ∧ n ∉ closed) (hne : n ≠ tag id) :
    ∃ id', (drop s id).vq.slots w.head.toNat = some id' ∧ tag id' = n := by
  obtain ⟨id', hs, rfl⟩ := hn.found n w hw
  refine ⟨id', ?_, rfl⟩
  have hh : w.head.toNat ≠ (s.chains id).head.toNat := by
    intro he
    rw [he, hid] at hs
    exact hne (congrArg tag (some.inj hs)).symm
  exact (update_of_ne hh ..).trans hs

/-- A free chain gets the next number and an empty slot. -/
theorem Numbered.claim (ho : Owns b s) (hfree : (s.chains id).state = .free) {c : Chain}
    {state : ChainState} (hslots : s'.vq.slots = update s.vq.slots c.head.toNat (some id))
    (hchains : s'.chains = update s.chains id { c with state })
    (hempty : s.vq.slots c.head.toNat = none) (hclosed : ∀ n ∈ closed, n < l.length) :
    Numbered (l ++ [c.wire]) closed (update tag id l.length) s' ∧
      ∀ h' id', s'.vq.slots h' = some id' → id' = id ∨
        s.vq.slots h' = some id' ∧ s'.chains id' = s.chains id' ∧
          update tag id l.length id' = tag id' := by
  have hother : ∀ h' id', s'.vq.slots h' = some id' → id' = id ∨
      s.vq.slots h' = some id' ∧ s'.chains id' = s.chains id' ∧
        update tag id l.length id' = tag id' := by
    intro h' id' hs
    rw [or_iff_not_imp_left]
    intro hid
    rw [hslots] at hs
    by_cases hh : h' = c.head.toNat
    · rw [hh, update_self] at hs
      exact absurd (some.inj hs).symm hid
    · rw [update_of_ne hh] at hs
      rw [hchains]
      exact ⟨hs, update_of_ne hid .., update_of_ne hid ..⟩
  refine ⟨⟨fun h' id' hs => ?_, fun n w hw => ?_⟩, hother⟩
  · rcases hother h' id' hs with rfl | ⟨hs, hchain, htag⟩
    · rw [hchains, update_self, update_self]
      exact ⟨getElem?_concat_length, fun hr => absurd (hclosed _ hr) (Nat.lt_irrefl _)⟩
    · rw [hchain, htag]
      have hslot := hn.slot h' id' hs
      exact ⟨getElem?_append_single.mpr (Or.inl hslot.1), hslot.2⟩
  · rw [hslots]
    rcases getElem?_append_single.mp hw.1 with hget | ⟨rfl, rfl⟩
    · obtain ⟨id', hs, rfl⟩ := hn.found n w ⟨hget, hw.2⟩
      have hh : w.head.toNat ≠ c.head.toNat := by
        intro he
        rw [he, hempty] at hs
        cases hs
      have hid : id' ≠ id := fun he => ho.not_held hfree _ (he ▸ hs)
      exact ⟨id', (update_of_ne hh ..).trans hs, update_of_ne hid ..⟩
    · exact ⟨id, update_self .., update_self ..⟩

end Numbered

/-! ### The driver's view is kept -/

section Driver
variable {b : Binding} {v : DriverView} {s s' : State} {id : ChainId}

namespace DriverView

theorem Tracks.used_lt (ht : Tracks b v s) (h : n ∈ v.used.map Prod.fst) :
    n < v.wires.length := by
  obtain ⟨⟨k, length⟩, hmem, rfl⟩ := mem_map.mp h
  obtain ⟨w, hw, -⟩ := ht.used_le k length hmem
  exact lt_length_of_getElem? hw

theorem Tracks.used_length_le (ht : Tracks b v s) : v.used.length ≤ v.wires.length := by
  rw [← length_map (f := Prod.fst)]
  exact length_le_of_nodup ht.used_nodup fun _ => ht.used_lt

theorem Tracks.numbered (ht : Tracks b v s) : Numbered v.wires v.released v.tag s :=
  ⟨fun h id hs => (ht.slot h id hs).live, ht.live⟩

theorem Tracks.open_lt (hb : b.Bound) (ho : Owns b s) (hc : Counters b s) (ht : Tracks b v s)
    (hside : b.side = .driver) (hroom : s.vq.owned ≠ b.queue.maxOutstanding.toNat) :
    v.wires.length < v.used.length + b.queue.maxOutstanding.toNat := by
  have hle := ht.used_length_le
  have hmax := hb.wellFormed.outstanding_le.trans hb.wellFormed.size_le
  have hwindow := ht.window
  simp only [Counters, hside, ht.produced, ht.consumed] at hc
  rw [toNat_ofNat_sub_ofNat hle (by omega)] at hc
  have hsub := ho.submitted_le
  have howned := ho.booked.owned_le
  omega

theorem Tracks.caller (ht : Tracks b v s) {chains : ChainId → Chain}
    (hkeep : ∀ slot id, s.vq.slots slot = some id → chains id = s.chains id) :
    Tracks b v { s with chains } := by
  refine ⟨ht.produced, ht.consumed, fun h id hs => ?_, ht.live, ht.used_nodup, ht.used_le,
    ht.released, ht.window, ht.notifies⟩
  have hslot := ht.slot h id hs
  have hsame : ({ s with chains } : State).chains id = s.chains id := hkeep h id hs
  refine ⟨?_, ?_⟩
  · rw [hsame]
    exact hslot.live
  · rw [hsame]
    exact hslot.state

theorem Tracks.armed (ht : Tracks b v s) (armed : Bool) : Tracks b { v with armed } s :=
  ⟨ht.produced, ht.consumed, fun h id hs => ⟨(ht.slot h id hs).live, (ht.slot h id hs).state⟩,
    ht.live, ht.used_nodup, ht.used_le, ht.released, ht.window, ht.notifies⟩

theorem Tracks.copy (ht : Tracks b v s) (id : ChainId) (offset size : ℕ) (bytes : List UInt8) :
    Tracks b (v.copy id offset size bytes) s :=
  ⟨ht.produced, ht.consumed, fun h id hs => ⟨(ht.slot h id hs).live, (ht.slot h id hs).state⟩,
    ht.live, ht.used_nodup, ht.used_le, ht.released, ht.window, ht.notifies⟩

theorem Tracks.publish (hb : b.Bound) (ho : Owns b s) (hc : Counters b s) (ht : Tracks b v s)
    {c : Chain} (h : Publishable b s id c) (notify : Bool) :
    Tracks b (v.publish id c.wire notify) (claim s id c .submitted).produce := by
  have hopen := ht.open_lt hb ho hc h.side h.room
  obtain ⟨-, -, -, hfresh, rfl⟩ := validateChain_eq_some_iff.mp h.accepted
  have hreleased := fun n hn => ht.used_lt (ht.released n hn)
  have hslots : (claim s id (s.chains id).counted .submitted).produce.vq.slots =
      update s.vq.slots (s.chains id).counted.head.toNat (some id) := rfl
  obtain ⟨hnumbered, hother⟩ := ht.numbered.claim ho h.free hslots rfl hfresh.slot hreleased
  refine ⟨?_, ht.consumed, fun h' id' hs => ⟨hnumbered.slot h' id' hs, ?_⟩, hnumbered.found,
    ht.used_nodup, ?_, ht.released, ?_, ?_⟩
  · change s.vq.produced + 1 = _
    rw [ht.produced, ofNat_succ, DriverView.publish, length_append, length_singleton]
  · rcases hother h' id' hs with rfl | ⟨hs, hchain, htag⟩
    · have htag : (v.publish id' (s.chains id').counted.wire notify).tag id' = v.wires.length :=
        update_self ..
      refine Or.inl ⟨?_, ?_⟩
      · simp only [State.produce, claim, update_self]
      rw [htag]
      exact fun hu => absurd (ht.used_lt hu) (Nat.lt_irrefl _)
    · have htag' : (v.publish id (s.chains id).counted.wire notify).tag id' = v.tag id' := htag
      rw [hchain, htag']
      exact (ht.slot h' id' hs).state
  · intro n length hmem
    obtain ⟨w, hw, hle⟩ := ht.used_le n length hmem
    exact ⟨w, getElem?_append_single.mpr (Or.inl hw), hle⟩
  · change (v.wires ++ [_]).length ≤ _
    rw [length_append, length_singleton]
    exact hopen
  · change (v.notifies ++ [_]).length = (v.wires ++ [_]).length
    rw [length_append, length_append, ht.notifies]
    rfl

theorem Tracks.takeUsed (ho : Owns b s) (ht : Tracks b v s) {length : UInt32}
    (h : Holding b s .driver id .submitted) (hle : length.toNat ≤ (s.chains id).writable) :
    Tracks b (v.takeUsed id length.toNat) (s.returned id length) := by
  obtain ⟨-, hstate, hid⟩ := owned_iff.mp h.owned
  have hslot := ht.slot _ id hid
  have hunused : v.tag id ∉ v.used.map Prod.fst := by
    rcases hslot.state with hs | hs
    · exact hs.2
    · rw [hstate] at hs
      exact absurd hs.1 (by simp)
  have hused : (v.takeUsed id length.toNat).used.map Prod.fst = v.used.map Prod.fst ++ [v.tag id] := by
    rw [DriverView.takeUsed, map_append]
    rfl
  refine ⟨ht.produced, ?_, fun h' id' hs => ?_, ht.live, ?_, ?_, fun n hn => ?_, ?_, ht.notifies⟩
  · change s.vq.consumed + 1 = _
    rw [ht.consumed, ofNat_succ, DriverView.takeUsed, length_append, length_singleton]
  · by_cases he : id' = id
    · subst he
      have hchain : (s.returned id' length).chains id' =
          { s.chains id' with usedLength := length, state := .returned } := update_self ..
      refine ⟨?_, Or.inr ?_⟩
      · rw [hchain]
        exact hslot.live
      · rw [hchain]
        exact ⟨rfl, mem_append_right _ (mem_singleton_self _)⟩
    · have hchain : (s.returned id length).chains id' = s.chains id' := update_of_ne he ..
      have hother := ht.slot h' id' hs
      refine ⟨?_, ?_⟩
      · rw [hchain]
        exact hother.live
      · rw [hchain, hused]
        rcases hother.state with hsub | hret
        · refine Or.inl ⟨hsub.1, fun hmem => ?_⟩
          rcases mem_append.mp hmem with hmem | hmem
          · exact hsub.2 hmem
          · exact he (ht.numbered.tag_inj ho hs hid (mem_singleton.mp hmem))
        · exact Or.inr ⟨hret.1, mem_append_left _ hret.2⟩
  · rw [hused, ← concat_eq_append]
    exact ht.used_nodup.concat hunused
  · intro n length' hmem
    rcases mem_append.mp hmem with hmem | hmem
    · exact ht.used_le n length' hmem
    · obtain ⟨rfl, rfl⟩ := Prod.mk.inj (mem_singleton.mp hmem)
      exact ⟨_, hslot.live.1, hle⟩
  · rw [hused]
    exact mem_append_left _ (ht.released n hn)
  · have hwindow := ht.window
    simp only [DriverView.takeUsed, length_append, length_singleton]
    omega

theorem Tracks.release (ho : Owns b s) (ht : Tracks b v s) (h : Holding b s .driver id .returned) :
    Tracks b (v.release id) (drop s id) := by
  obtain ⟨-, hstate, hid⟩ := owned_iff.mp h.owned
  have hslot := ht.slot _ id hid
  have hrel : ∀ {n}, n ∉ (v.release id).released ↔ n ∉ v.released ∧ n ≠ v.tag id := by
    intro n
    rw [DriverView.release, mem_append, mem_singleton, not_or]
  refine ⟨ht.produced, ht.consumed, fun h' id' hs => ?_, ?_, ht.used_nodup, ht.used_le, ?_, ht.window,
    ht.notifies⟩
  · obtain ⟨hs, hchain, hne⟩ := ht.numbered.other_slot ho hid hs
    have hother := ht.slot h' id' hs
    refine ⟨⟨?_, hrel.mpr ⟨hother.live.2, hne⟩⟩, ?_⟩
    · rw [hchain]
      exact hother.live.1
    · rw [hchain]
      exact hother.state
  · rintro n w ⟨hw, hr⟩
    obtain ⟨hr, hne⟩ := hrel.mp hr
    exact ht.numbered.still_found hid ⟨hw, hr⟩ hne
  · intro n hn
    rcases mem_append.mp hn with hn | hn
    · exact ht.released n hn
    · rw [mem_singleton.mp hn]
      rcases hslot.state with hs | hs
      · rw [hstate] at hs
        exact absurd hs.1 (by simp)
      · exact mem_map.mpr ⟨_, hs.2, rfl⟩

theorem Tracks.next (hb : b.Bound) (hside : b.side = .driver) (ho : Owns b s)
    (hc : s.faulted = false → Counters b s) (ht : Tracks b v s) {r : Request} {reply : Reply}
    (h : Transition b s r.generation r.call reply s') (hf : s'.faulted = false) :
    Tracks b (v.next ⟨r, reply, s, s'⟩) s' := by
  obtain ⟨handle, generation, call⟩ := r
  dsimp only at h
  cases h with
  | refused _ status hs =>
    rw [DriverView.next, learn_of_not_ok]
    · exact ht
    · rintro rfl
      cases hs
  | stopped _ hs =>
    rw [hs] at hf
    cases hf
  | failed => cases hf
  | observed _ out hobs hrun =>
    change Tracks b (v.hear s call out) s
    unfold DriverView.hear
    cases call with
    | arm ready =>
      split
      all_goals first
        | exact ht
        | exact ht.armed true
        | simp_all
    | copyResponse chain offset size =>
      split
      all_goals first
        | exact ht
        | exact ht.copy ..
        | simp_all
    | peekAvailable | copyRequest => exact ht
    | publish | takeAvailable | moveAccepted | returnAvailable | writeResponse | complete | takeUsed |
        release => cases hobs
  | published id c notify h =>
    have hwire : ((claim s id c .submitted).produce.chains id).wire = c.wire := by
      simp only [State.produce, claim, update_self]
      rfl
    simp only [DriverView.next, learn, DriverView.hear, if_true, hwire]
    exact ht.publish hb ho (hc h.running) h notify
  | publishFailed => cases hf
  | returned id length h hle pending =>
    have hlen : ((s.returned id length).chains id).usedLength = length := by
      simp only [State.returned, State.setChain, update_self]
    simp only [DriverView.next, learn, DriverView.hear, if_true, hlen]
    exact ht.takeUsed ho h hle
  | released id h => exact ht.release ho h
  | taken id c h => exact absurd (hside.symm.trans h.side) (by simp)
  | takeFailed => cases hf
  | completeFailed => cases hf
  | moved _ _ h | handedBack _ h | wrote _ _ h | completed _ _ h =>
    exact absurd (hside.symm.trans h.side) (by simp)

end DriverView

end Driver

/-! ### The device's view is kept -/

section Device
variable {b : Binding} {v : DeviceView} {s s' : State} {id : ChainId}

namespace DeviceView

theorem Tracks.completions_length_le (ht : Tracks b v s) :
    v.completions.length ≤ v.takes.length := by
  rw [← length_map (f := Prod.fst)]
  exact length_le_of_nodup ht.completed_nodup ht.completed_lt

theorem Tracks.numbered (ht : Tracks b v s) :
    Numbered v.takes (v.completions.map Prod.fst) v.tag s :=
  ⟨fun h id hs => (ht.slot h id hs).pending, ht.pending⟩

theorem Tracks.owned_eq (hb : b.Bound) (hc : Counters b s) (ht : Tracks b v s)
    (hside : b.side = .device) : s.vq.owned = v.takes.length - v.completions.length := by
  have hle := ht.completions_length_le
  have hmax := hb.wellFormed.outstanding_le.trans hb.wellFormed.size_le
  have hwindow := ht.window
  simp only [Counters, hside, ht.produced, ht.consumed] at hc
  rw [toNat_ofNat_sub_ofNat hle (by omega)] at hc
  exact hc.symm

theorem Tracks.caller (ht : Tracks b v s) {chains : ChainId → Chain}
    (hkeep : ∀ slot id, s.vq.slots slot = some id → chains id = s.chains id) :
    Tracks b v { s with chains } := by
  refine { ht with slot := fun h id hs => ?_ }
  have hslot := ht.slot h id hs
  have hsame : ({ s with chains } : State).chains id = s.chains id := hkeep h id hs
  refine ⟨?_, ?_⟩
  · rw [hsame]
    exact hslot.pending
  · rw [hsame]
    exact hslot.written

theorem Tracks.armed (ht : Tracks b v s) (armed : Bool) : Tracks b { v with armed } s :=
  ⟨ht.consumed, ht.produced, fun h id hs => ⟨(ht.slot h id hs).pending, (ht.slot h id hs).written⟩,
    ht.pending, ht.completed_nodup, ht.completed_lt, ht.response, ht.window, ht.last, ht.notifies⟩

theorem take_responses_self (v : DeviceView) (id : ChainId) (w : Wire) :
    (v.take id w).responses v.takes.length = [] := update_self ..

theorem take_responses_of_lt (v : DeviceView) (id : ChainId) (w : Wire) (h : n < v.takes.length) :
    (v.take id w).responses n = v.responses n :=
  update_of_ne (Nat.ne_of_lt h) ..

theorem Tracks.take (hb : b.Bound) (ho : Owns b s) (hc : Counters b s) (ht : Tracks b v s)
    {c : Chain} (h : Acceptable b s id c) : Tracks b (v.take id c.wire) (s.taken id c) := by
  have howned := ht.owned_eq hb hc h.side
  have hroom := h.room
  obtain ⟨snapshot, -, hval⟩ := h.accepted
  obtain ⟨-, -, -, hfresh, rfl⟩ := validateChain_eq_some_iff.mp hval
  have hslots : (s.taken id snapshot.counted).vq.slots =
      update s.vq.slots snapshot.counted.head.toNat (some id) := rfl
  obtain ⟨hnumbered, hother⟩ := ht.numbered.claim ho h.free hslots rfl hfresh.slot ht.completed_lt
  have htag : (v.take id snapshot.counted.wire).tag id = v.takes.length := update_self ..
  refine ⟨?_, ht.produced, fun h' id' hs => ⟨hnumbered.slot h' id' hs, ?_⟩, hnumbered.found,
    ht.completed_nodup, fun n hn => ?_, ?_, ?_, ?_, ht.notifies⟩
  · change s.vq.consumed + 1 = _
    rw [ht.consumed, ofNat_succ, DeviceView.take, length_append, length_singleton]
  · rcases hother h' id' hs with rfl | ⟨hs, hchain, htag'⟩
    · rw [htag, take_responses_self]
      simp only [State.taken, claim, update_self]
      rfl
    · have hslot := ht.slot h' id' hs
      have hsame : (v.take id snapshot.counted.wire).tag id' = v.tag id' := htag'
      have hlt := lt_length_of_getElem? hslot.pending.1
      rw [hchain, hsame, take_responses_of_lt v id _ hlt]
      exact hslot.written
  · rw [DeviceView.take, length_append, length_singleton]
    exact Nat.lt_succ_of_lt (ht.completed_lt n hn)
  · intro n bytes hmem
    have hlt := ht.completed_lt n (mem_map.mpr ⟨_, hmem, rfl⟩)
    rw [take_responses_of_lt v id _ hlt]
    exact ht.response n bytes hmem
  · change (v.takes ++ [_]).length ≤ v.completions.length + _
    rw [length_append, length_singleton]
    omega
  · intro id' hlast
    obtain rfl : id = id' := some.inj hlast
    rw [htag, DeviceView.take, length_append, length_singleton]

theorem Tracks.move (ho : Owns b s) (ht : Tracks b v s) {src dst : ChainId}
    (h : Holding b s .device src .accepted) (hne : dst ≠ src) (free : (s.chains dst).state = .free)
    (stored : (s.chains dst).segments.isSome) : Tracks b (v.move src dst) (s.moved src dst) := by
  have hin := ho.inSlot_of_owned h.owned
  have hslot := ht.slot _ src hin.slot
  have hnot := ho.not_held free
  have hdst : (s.moved src dst).chains dst =
      { s.chains src with segments := copySegments (s.chains src) (s.chains dst) } :=
    (update_of_ne hne ..).trans (update_self ..)
  have hwire := copySegments_wire (ho.held_of_slot hin.slot).count_le stored
  have hother : ∀ {h' id'}, s.vq.slots h' = some id' → id' ≠ src →
      (v.move src dst).tag id' = v.tag id' ∧ (s.moved src dst).chains id' = s.chains id' := by
    intro h' id' hs hsrc
    have hd : id' ≠ dst := fun he => hnot h' (he ▸ hs)
    exact ⟨update_of_ne hd ..,
      (update_of_ne hsrc ..).trans (update_of_ne hd ..)⟩
  have htag : (v.move src dst).tag dst = v.tag src := update_self ..
  refine ⟨ht.consumed, ht.produced, fun h' id' hs => ?_, ?_, ht.completed_nodup, ht.completed_lt,
    ht.response, ht.window, ?_, ht.notifies⟩
  · change update s.vq.slots _ _ h' = some id' at hs
    by_cases hh : h' = (s.chains src).head.toNat
    · subst hh
      rw [update_self] at hs
      obtain rfl : dst = id' := some.inj hs
      refine ⟨?_, ?_⟩
      · rw [htag, hdst, hwire]
        exact hslot.pending
      · rw [htag, hdst]
        exact hslot.written
    · rw [update_of_ne hh] at hs
      have hsrc : id' ≠ src := fun he => hh (hin.unique h' (he ▸ hs))
      obtain ⟨htag', hchain⟩ := hother hs hsrc
      refine ⟨?_, ?_⟩
      · rw [htag', hchain]
        exact (ht.slot h' id' hs).pending
      · rw [htag', hchain]
        exact (ht.slot h' id' hs).written
  · rintro n w hp
    obtain ⟨id', hs, rfl⟩ := ht.pending n w hp
    by_cases hsrc : id' = src
    · subst hsrc
      refine ⟨dst, ?_, htag⟩
      rw [hin.unique _ hs]
      exact update_self ..
    · refine ⟨id', ?_, (hother hs hsrc).1⟩
      have hh : w.head.toNat ≠ (s.chains src).head.toNat := by
        intro he
        rw [he, hin.slot] at hs
        exact hsrc (some.inj hs).symm
      exact (update_of_ne hh ..).trans hs
  · intro id' hlast
    change (if s.vq.lastTaken = some src then some dst else s.vq.lastTaken) = some id' at hlast
    split_ifs at hlast with hl
    · obtain rfl : dst = id' := some.inj hlast
      rw [htag]
      exact ht.last src hl
    · obtain ⟨-, h', hs⟩ := ho.lastTaken id' hlast
      have hsrc : id' ≠ src := fun he => hl (he ▸ hlast)
      rw [(hother hs hsrc).1]
      exact ht.last id' hlast

section
variable (ho : Owns b s) (ht : Tracks b v s) (h : Holding b s .device id .accepted)
include ho ht h

theorem Tracks.giveBack (last : s.vq.lastTaken = some id) :
    Tracks b v.giveBack (s.handedBack id) := by
  have hid := (owned_iff.mp h.owned).2.2
  have hslot := ht.slot _ id hid
  have htag := ht.last id last
  have hget : ∀ {n : ℕ} {w : Wire}, v.giveBack.takes[n]? = some w ↔
      v.takes[n]? = some w ∧ n ≠ v.tag id := by
    intro n w
    rw [DeviceView.giveBack, getElem?_dropLast]
    split_ifs with hn
    · have hne : n ≠ v.tag id := by omega
      exact ⟨fun hw => ⟨hw, hne⟩, fun hw => hw.1⟩
    · refine ⟨fun hw => (by cases hw), fun ⟨hw, hne⟩ => ?_⟩
      have := lt_length_of_getElem? hw
      omega
  have hlen : v.giveBack.takes.length = v.tag id := by
    rw [DeviceView.giveBack, length_dropLast]
    omega
  refine ⟨?_, ht.produced, fun h' id' hs => ?_, ?_, ht.completed_nodup, fun n hn => ?_, ht.response,
    ?_, fun id' hlast => ?_, ht.notifies⟩
  · change s.vq.consumed - 1 = _
    rw [ht.consumed, hlen, ← htag, ← ofNat_succ]
    grind
  · obtain ⟨hs, hchain, hne⟩ := ht.numbered.other_slot ho hid hs
    have hother := ht.slot h' id' hs
    have hchain' : (s.handedBack id).chains id' = s.chains id' := hchain
    refine ⟨⟨?_, hother.pending.2⟩, ?_⟩
    · rw [hchain']
      exact hget.mpr ⟨hother.pending.1, hne⟩
    · rw [hchain']
      exact hother.written
  · rintro n w ⟨hw, hn⟩
    obtain ⟨hw, hne⟩ := hget.mp hw
    exact ht.numbered.still_found hid ⟨hw, hn⟩ hne
  · have hlt := ht.completed_lt n hn
    have hne : n ≠ v.tag id := fun he => hslot.pending.2 (he ▸ hn)
    omega
  · have hwindow := ht.window
    rw [hlen]
    change v.tag id ≤ v.completions.length + _
    omega
  · change (if s.vq.lastTaken = some id then none else s.vq.lastTaken) = some id' at hlast
    rw [if_pos last] at hlast
    cases hlast

theorem Tracks.write {source : Source} (data : source.isNull = true → source.size = 0) :
    Tracks b (v.write id source.bytes) (s.wrote id source.size) := by
  have hid := (owned_iff.mp h.owned).2.2
  have hslot := ht.slot _ id hid
  have hlen : source.bytes.length = source.size := by
    cases source with
    | null size => exact (data rfl).symm
    | data bytes => rfl
  refine ⟨ht.consumed, ht.produced, fun h' id' hs => ?_, ht.pending, ht.completed_nodup,
    ht.completed_lt, fun n bytes hmem => ?_, ht.window, ht.last, ht.notifies⟩
  · by_cases he : id' = id
    · subst he
      have hchain : (s.wrote id' source.size).chains id' =
          { s.chains id' with written := (s.chains id').written + source.size } :=
        update_self ..
      refine ⟨?_, ?_⟩
      · rw [hchain]
        exact hslot.pending
      · have hresp : (v.write id' source.bytes).responses (v.tag id') =
            v.responses (v.tag id') ++ source.bytes := update_self ..
        change _ = ((v.write id' source.bytes).responses (v.tag id')).length
        rw [hchain, hresp, length_append, hlen, ← hslot.written]
    · have hchain : (s.wrote id source.size).chains id' = s.chains id' := update_of_ne he ..
      have hother := ht.slot h' id' hs
      have htag : v.tag id' ≠ v.tag id := fun htag => he (ht.numbered.tag_inj ho hs hid htag)
      have hresp : (v.write id source.bytes).responses (v.tag id') = v.responses (v.tag id') :=
        update_of_ne htag ..
      refine ⟨?_, ?_⟩
      · rw [hchain]
        exact hother.pending
      · change _ = ((v.write id source.bytes).responses (v.tag id')).length
        rw [hchain, hresp]
        exact hother.written
  · have hne : n ≠ v.tag id := by
      rintro rfl
      exact hslot.pending.2 (mem_map.mpr ⟨_, hmem, rfl⟩)
    exact (ht.response n bytes hmem).trans (update_of_ne hne ..).symm

theorem Tracks.complete (notify : Bool) : Tracks b (v.complete id notify) (drop s.produce id) := by
  have hid := (owned_iff.mp h.owned).2.2
  have hslot := ht.slot _ id hid
  have hfst : (v.complete id notify).completions.map Prod.fst =
      v.completions.map Prod.fst ++ [v.tag id] := by
    rw [DeviceView.complete, map_append]
    rfl
  have hmem : ∀ {n}, n ∉ (v.complete id notify).completions.map Prod.fst ↔
      n ∉ v.completions.map Prod.fst ∧ n ≠ v.tag id := by
    intro n
    rw [hfst, mem_append, mem_singleton, not_or]
  refine ⟨ht.consumed, ?_, fun h' id' hs => ?_, ?_, ?_, fun n hn => ?_, fun n bytes hn => ?_, ?_,
    fun id' hlast => ?_, ?_⟩
  · change s.vq.produced + 1 = _
    rw [ht.produced, ofNat_succ, DeviceView.complete, length_append, length_singleton]
  · obtain ⟨hs, hchain, hne⟩ := ht.numbered.other_slot ho hid hs
    have hother := ht.slot h' id' hs
    have hchain' : (drop s.produce id).chains id' = s.chains id' := hchain
    refine ⟨⟨?_, hmem.mpr ⟨hother.pending.2, hne⟩⟩, ?_⟩
    · rw [hchain']
      exact hother.pending.1
    · rw [hchain']
      exact hother.written
  · rintro n w ⟨hw, hn⟩
    obtain ⟨hn, hne⟩ := hmem.mp hn
    exact ht.numbered.still_found hid ⟨hw, hn⟩ hne
  · rw [hfst, ← concat_eq_append]
    exact ht.completed_nodup.concat hslot.pending.2
  · rw [hfst] at hn
    rcases mem_append.mp hn with hn | hn
    · exact ht.completed_lt n hn
    · rw [mem_singleton.mp hn]
      exact lt_length_of_getElem? hslot.pending.1
  · rcases mem_append.mp hn with hn | hn
    · exact ht.response n bytes hn
    · obtain ⟨rfl, rfl⟩ := Prod.mk.inj (mem_singleton.mp hn)
      rfl
  · have hwindow := ht.window
    change v.takes.length ≤ (v.completions ++ [_]).length + _
    rw [length_append, length_singleton]
    omega
  · change (if s.vq.lastTaken = some id then none else s.vq.lastTaken) = some id' at hlast
    split_ifs at hlast
    exact ht.last id' hlast
  · change (v.notifies ++ [_]).length = (v.completions ++ [_]).length
    rw [length_append, length_append, ht.notifies]
    rfl

end

theorem Tracks.next (hb : b.Bound) (hside : b.side = .device) (ho : Owns b s)
    (hc : s.faulted = false → Counters b s) (ht : Tracks b v s) {r : Request} {reply : Reply}
    (h : Transition b s r.generation r.call reply s') (hf : s'.faulted = false) :
    Tracks b (v.next ⟨r, reply, s, s'⟩) s' := by
  obtain ⟨handle, generation, call⟩ := r
  dsimp only at h
  cases h with
  | refused _ status hs =>
    rw [DeviceView.next, learn_of_not_ok]
    · exact ht
    · rintro rfl
      cases hs
  | stopped _ hs =>
    rw [hs] at hf
    cases hf
  | failed => cases hf
  | observed _ out hobs hrun =>
    change Tracks b (v.hear s call out) s
    unfold DeviceView.hear
    cases call with
    | arm ready =>
      split
      all_goals first
        | exact ht
        | exact ht.armed true
        | simp_all
    | peekAvailable | copyRequest | copyResponse => exact ht
    | publish | takeAvailable | moveAccepted | returnAvailable | writeResponse | complete | takeUsed |
        release => cases hobs
  | taken id c h =>
    have hwire : ((s.taken id c).chains id).wire = c.wire := by
      simp only [State.taken, claim, update_self]
      rfl
    simp only [DeviceView.next, learn, DeviceView.hear, if_true, hwire]
    exact ht.take hb ho (hc h.running) h
  | takeFailed => cases hf
  | moved src dst h hne free stored room => exact ht.move ho h hne free stored
  | handedBack id h last hw => exact ht.giveBack ho h last
  | wrote id source h data room width => exact ht.write ho h data
  | completed id notify h => exact ht.complete ho h notify
  | completeFailed => cases hf
  | published id c notify h => exact absurd (hside.symm.trans h.side) (by simp)
  | publishFailed => cases hf
  | returned _ _ h | released _ h => exact absurd (hside.symm.trans h.side) (by simp)

end DeviceView

end Device

end Kobox.Virtqueue
