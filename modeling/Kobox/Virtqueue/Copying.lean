import Kobox.Library.Scatter
import Kobox.Virtqueue.HostileDevice

/-!
# Scatter and gather
-/

namespace Kobox.Virtqueue
open ByteMemory Protocol Resumption List

def kindSpans (kind : UInt16) (segs : List Segment) : List Span :=
  (segs.filter fun seg => seg.writable = kind).map Segment.span

section Parts
variable {s : State} {kind : UInt16} {seg : Segment} {segs : List Segment} {offset size : ℕ}

theorem kindSpans_cons_of_eq (h : seg.writable = kind) :
    kindSpans kind (seg :: segs) = seg.span :: kindSpans kind segs := by
  rw [kindSpans, filter_cons_of_pos (by simpa using h)]
  rfl

theorem kindSpans_cons_of_ne (h : seg.writable ≠ kind) :
    kindSpans kind (seg :: segs) = kindSpans kind segs := by
  rw [kindSpans, filter_cons_of_neg (by simpa using h)]
  rfl

theorem length_kind_cons_of_eq (h : seg.writable = kind) :
    (addresses (kindSpans kind (seg :: segs))).length =
      seg.length.toNat + (addresses (kindSpans kind segs)).length := by
  rw [kindSpans_cons_of_eq h, addresses_cons, length_append, length_range']
  rfl

theorem copyData_reads (hwrap : ∀ seg ∈ segs, NoWrap seg.span)
    (hsize : offset + size ≤ (addresses (kindSpans kind segs)).length) (m : Memory)
    (acc : List UInt8) :
    (execute Access.exec (copyData s kind false segs offset acc size) m).2 =
      ((⟨.ok, .bytes (acc ++ (((addresses (kindSpans kind segs)).drop offset).take size).map m)⟩,
        s), m) := by
  induction segs generalizing offset size acc with
  | nil =>
    have hzero : size = 0 := by
      have hnil : (addresses (kindSpans kind [])).length = 0 := rfl
      omega
    subst hzero
    simp [copyData, execute]
  | cons seg rest ih =>
    have hrest := fun seg hseg => hwrap seg (mem_cons_of_mem _ hseg)
    by_cases hkind : seg.writable = kind
    · rw [length_kind_cons_of_eq hkind] at hsize
      rw [kindSpans_cons_of_eq hkind]
      by_cases hoff : seg.length.toNat ≤ offset
      · have hskip : seg.span.size ≤ offset := hoff
        rw [copyData_past hkind hoff, ih hrest (by omega), slice_skip hskip]
        rfl
      · by_cases hzero : size = 0
        · subst hzero
          simp [copyData_zero, execute]
        have hinside : offset < seg.span.size := Nat.lt_of_not_le hoff
        have haddress : (seg.address + UInt64.ofNat offset).toNat = seg.span.base + offset :=
          Segment.address_toNat (hwrap seg mem_cons_self) (Nat.le_of_lt hinside)
        rw [copyData, if_neg hzero, if_neg (not_not.mpr hkind), if_neg hoff,
          if_neg Bool.false_ne_true]
        generalize hpart : min (seg.length.toNat - offset) size = part
        change (execute Access.exec (copyData s kind false rest 0
          (acc ++ read m (seg.address + UInt64.ofNat offset).toNat part) (size - part)) m).2 = _
        have hslice := slice_inside (kindSpans kind rest) size hinside
        rw [ih hrest (by omega), haddress, append_assoc, read_eq_map, ← map_append]
        rw [show min (seg.span.size - offset) size = part from hpart] at hslice
        rw [hslice]
    · rw [copyData_other hkind, kindSpans_cons_of_ne hkind]
      rw [kindSpans_cons_of_ne hkind] at hsize
      exact ih hrest hsize acc

theorem copyData_writes {bytes : List UInt8} (hwrap : ∀ seg ∈ segs, NoWrap seg.span)
    (hsize : offset + bytes.length ≤ (addresses (kindSpans kind segs)).length) (m : Memory) :
    (execute Access.exec (copyData s kind true segs offset bytes bytes.length) m).2 =
      ((⟨.ok, .nothing⟩, s),
        scatter m (((addresses (kindSpans kind segs)).drop offset).take bytes.length) bytes) := by
  induction segs generalizing offset bytes m with
  | nil =>
    have hzero : bytes.length = 0 := by
      have hnil : (addresses (kindSpans kind [])).length = 0 := rfl
      omega
    rw [eq_nil_of_length_eq_zero hzero, scatter_nil]
    rfl
  | cons seg rest ih =>
    have hrest := fun seg hseg => hwrap seg (mem_cons_of_mem _ hseg)
    by_cases hkind : seg.writable = kind
    · rw [length_kind_cons_of_eq hkind] at hsize
      rw [kindSpans_cons_of_eq hkind]
      by_cases hoff : seg.length.toNat ≤ offset
      · have hskip : seg.span.size ≤ offset := hoff
        rw [copyData_past hkind hoff, ih hrest (by omega), slice_skip hskip]
        rfl
      · by_cases hzero : bytes.length = 0
        · rw [eq_nil_of_length_eq_zero hzero, scatter_nil]
          rfl
        have hinside : offset < seg.span.size := Nat.lt_of_not_le hoff
        have haddress : (seg.address + UInt64.ofNat offset).toNat = seg.span.base + offset :=
          Segment.address_toNat (hwrap seg mem_cons_self) (Nat.le_of_lt hinside)
        rw [copyData, if_neg hzero, if_neg (not_not.mpr hkind), if_neg hoff, if_pos rfl]
        generalize hpart : min (seg.length.toNat - offset) bytes.length = part
        have htake : (bytes.take part).length = part := by
          rw [length_take]
          omega
        have hdrop : (bytes.drop part).length = bytes.length - part := length_drop
        change (execute Access.exec (copyData s kind true rest 0 (bytes.drop part)
          (bytes.length - part)) (write m (seg.address + UInt64.ofNat offset).toNat
            (bytes.take part))).2 = _
        have hslice := slice_inside (kindSpans kind rest) bytes.length hinside
        rw [show min (seg.span.size - offset) bytes.length = part from hpart] at hslice
        rw [← hdrop, ih hrest (by omega), haddress, write_eq_scatter, htake, hslice, hdrop]
        have hlength : (List.range' (seg.span.base + offset) part).length =
            (bytes.take part).length := by
          rw [length_range', htake]
        rw [← scatter_append hlength, take_append_drop]
    · rw [copyData_other hkind, kindSpans_cons_of_ne hkind]
      rw [kindSpans_cons_of_ne hkind] at hsize
      exact ih hrest hsize m

theorem copyData_exhausts {write : Bool} {bytes : List UInt8}
    (hsize : offset + size ≤ (addresses (kindSpans kind segs)).length) :
    Always (fun _ => True) (fun o => o.1.status = .ok ∨ o.1.status = .io)
      (copyData s kind write segs offset bytes size) := by
  induction segs generalizing offset size bytes with
  | nil =>
    have hzero : size = 0 := by
      have hnil : (addresses (kindSpans kind [])).length = 0 := rfl
      omega
    subst hzero
    exact .inl rfl
  | cons seg rest ih =>
    by_cases hkind : seg.writable = kind
    · unfold copyData
      refine always_ite (fun _ => .inl rfl) fun hzero => ?_
      rw [if_neg (not_not.mpr hkind)]
      rw [length_kind_cons_of_eq hkind] at hsize
      refine always_ite (fun hoff => ih (by omega)) fun hoff => ?_
      refine always_ite (fun _ => ?_) fun _ => ?_
      · refine ⟨trivial, fun (written : Bool) => ?_⟩
        cases written with
        | true => exact ih (by omega)
        | false => exact .inr rfl
      · refine ⟨trivial, fun answer => ?_⟩
        cases answer with
        | none => exact .inr rfl
        | some piece => exact ih (by omega)
    · rw [copyData_other hkind]
      rw [kindSpans_cons_of_ne hkind] at hsize
      exact ih hsize

end Parts

/-! ### Payloads of a chain -/

def Chain.request (c : Chain) (m : Memory) : List UInt8 := contents m (kindSpans 0 c.segs)

def Chain.response (c : Chain) (m : Memory) : List UInt8 := contents m (kindSpans 1 c.segs)

def Chain.responsePart (c : Chain) (offset size : ℕ) : List ℕ :=
  ((addresses (kindSpans 1 c.segs)).drop offset).take size

theorem readableBytes_eq (segs : List Segment) :
    readableBytes segs = (addresses (kindSpans 0 segs)).length := by
  rw [length_addresses, kindSpans, map_map]
  rfl

theorem writableBytes_eq {segs : List Segment}
    (h : ∀ seg ∈ segs, seg.writable = 0 ∨ seg.writable = 1) :
    writableBytes segs = (addresses (kindSpans 1 segs)).length := by
  have hfilter : (segs.filter fun seg => seg.writable ≠ 0) =
      segs.filter fun seg => seg.writable = 1 := by
    refine filter_congr fun seg hseg => ?_
    rcases h seg hseg with hkind | hkind <;> rw [hkind] <;> rfl
  rw [length_addresses, kindSpans, map_map, writableBytes, hfilter]
  rfl

/-- What the validation leaves for the copies of a chain. -/
structure Chain.Payload (c : Chain) : Prop where
  noWrap : ∀ seg ∈ c.segs, NoWrap seg.span
  readable : c.readable = (addresses (kindSpans 0 c.segs)).length
  writable : c.writable = (addresses (kindSpans 1 c.segs)).length
  nodup : (addresses (kindSpans 1 c.segs)).Nodup
  written_le : c.written ≤ c.writable
  used_le : c.usedLength.toNat ≤ c.writable

theorem Wire.Valid.writable_apart {b : Binding} {w : Wire} (h : w.Valid b) :
    (kindSpans 1 w.segments).Pairwise Span.Apart := by
  rw [kindSpans, pairwise_map, pairwise_filter, pairwise_iff_getElem]
  intro i j hi hj hij hwritable _
  have hpair := h.pair j i w.segments[j] w.segments[i] hij (getElem?_eq_getElem hj)
    (getElem?_eq_getElem hi)
  refine (hpair.apart (.inr ?_)).symm
  rw [of_decide_eq_true hwritable]
  decide

theorem Held.payload {b : Binding} {h : ℕ} {c : Chain} (hc : Held b h c) : c.Payload := by
  have hkind : ∀ seg ∈ c.segs, seg.writable = 0 ∨ seg.writable = 1 := by
    intro seg hseg
    obtain ⟨i, hi⟩ := mem_iff_getElem?.mp hseg
    exact (hc.valid.segment i seg hi).writable
  refine ⟨hc.valid.noWraps.2, ?_, ?_, nodup_addresses hc.valid.writable_apart, hc.written_le,
    hc.used_le⟩
  · rw [← readableBytes_eq]
    exact hc.valid.readable_eq
  · rw [← writableBytes_eq hkind]
    exact hc.valid.writable_eq

section Operations
variable {b : Binding} {s : State} {vq : Handle} {generation : UInt64} {id : ChainId}
  {offset size : ℕ} {out : Bool}

theorem Owns.payload (ho : Owns b s) {state : ChainState} (h : owned b s id state = true) :
    (s.chains id).Payload := (ho.held_of_slot (owned_iff.mp h).2.2).payload

theorem copyOut_admitted {side : Side} {state : ChainState} {n : ℕ} (hside : b.side = side)
    (howned : owned b s id state = true) (hout : out = true ∨ size = 0)
    (hsize : offset + size ≤ n) :
    ¬(b.side ≠ side ∨ owned b s id state = false ∨ (out = false ∧ size ≠ 0) ∨ n < offset ∨
      n - offset < size) := by
  simp only [hside, howned, ne_eq, not_true_eq_false, false_or, reduceCtorEq, not_or, not_and,
    not_not, Nat.not_lt]
  refine ⟨fun hfalse => hout.resolve_left ?_, by omega, by omega⟩
  rw [hfalse]
  exact Bool.false_ne_true

section
variable (ho : Owns b s) (hcheck : check b s vq generation = .ok)
include ho hcheck

theorem copyRequest_slice (hside : b.side = .device) (howned : owned b s id .accepted = true)
    (hout : out = true ∨ size = 0) (hsize : offset + size ≤ (s.chains id).readable) (m : Memory) :
    (execute Access.exec (copyRequest b s vq generation (some id) offset size out) m).2 =
      ((⟨.ok, .bytes ((((s.chains id).request m).drop offset).take size)⟩, s), m) := by
  have hpayload := ho.payload howned
  have hok := copyOut_admitted hside howned hout hsize
  rw [hpayload.readable] at hsize
  rw [copyRequest, checked, if_pos hcheck]
  dsimp only
  rw [if_neg hok, copyData_reads hpayload.noWrap hsize, nil_append, Chain.request, contents_eq,
    map_take, map_drop]

theorem copyResponse_slice (hside : b.side = .driver) (howned : owned b s id .returned = true)
    (hout : out = true ∨ size = 0) (hsize : offset + size ≤ (s.chains id).usedLength.toNat)
    (m : Memory) :
    (execute Access.exec (copyResponse b s vq generation (some id) offset size out) m).2 =
      ((⟨.ok, .bytes ((((s.chains id).response m).drop offset).take size)⟩, s), m) := by
  have hpayload := ho.payload howned
  have hok := copyOut_admitted hside howned hout hsize
  have hused := hpayload.used_le
  rw [hpayload.writable] at hused
  rw [copyResponse, checked, if_pos hcheck]
  dsimp only
  rw [if_neg hok, copyData_reads hpayload.noWrap (hsize.trans hused), nil_append,
    Chain.response, contents_eq, map_take, map_drop]

theorem writeResponse_scatters (hside : b.side = .device) (howned : owned b s id .accepted = true)
    (bytes : List UInt8) (hroom : (s.chains id).written + bytes.length ≤ (s.chains id).writable)
    (hwidth : (s.chains id).written + bytes.length ≤ uint32Max) (m : Memory) :
    (execute Access.exec (writeResponse b s vq generation (some id) (.data bytes)) m).2 =
      ((⟨.ok, .nothing⟩, s.wrote id bytes.length),
        scatter m ((s.chains id).responsePart (s.chains id).written bytes.length) bytes) := by
  have hpayload := ho.payload howned
  have hok : ¬(b.side ≠ .device ∨ owned b s id .accepted = false ∨
      ((Source.data bytes).isNull ∧ (Source.data bytes).size ≠ 0) ∨
      (s.chains id).writable - (s.chains id).written < (Source.data bytes).size ∨
      uint32Max - (s.chains id).written < (Source.data bytes).size) := by
    simp only [hside, howned, ne_eq, not_true_eq_false, false_or, reduceCtorEq, not_or,
      Source.isNull, Source.size, Bool.false_eq_true, false_and, Nat.not_lt]
    omega
  rw [hpayload.writable] at hroom
  rw [writeResponse, checked, if_pos hcheck]
  dsimp only
  rw [if_neg hok, execute_bind, Source.size, Source.bytes, copyData_writes hpayload.noWrap hroom]
  rfl

end

def writeParts (b : Binding) (vq : Handle) (generation : UInt64) (id : ChainId) :
    List (List UInt8) → State → Op Outcome
  | [], s => finish .ok s
  | bytes :: rest, s =>
    (writeResponse b s vq generation (some id) (.data bytes)).bind fun (reply, s) =>
      if reply.status = .ok then writeParts b vq generation id rest s else .done (reply, s)

theorem wrote_zero (s : State) (id : ChainId) : s.wrote id 0 = s := by
  rw [State.wrote, Nat.add_zero, State.setChain, Function.update_eq_self]

theorem wrote_wrote (s : State) (id : ChainId) (n k : ℕ) :
    (s.wrote id n).wrote id k = s.wrote id (n + k) := by
  simp only [State.wrote, setChain_chains_self, setChain_setChain, Nat.add_assoc]

theorem wrote_chain (s : State) (id : ChainId) (n : ℕ) :
    (s.wrote id n).chains id = { s.chains id with written := (s.chains id).written + n } :=
  setChain_chains_self s id _

theorem wrote_owned (n : ℕ) {state : ChainState} (h : owned b s id state = true) :
    owned b (s.wrote id n) id state = true := by
  rw [owned_iff] at h ⊢
  rw [wrote_chain]
  exact h

theorem responsePart_add (c : Chain) (offset n k : ℕ) :
    c.responsePart offset (n + k) = c.responsePart offset n ++ c.responsePart (offset + n) k := by
  rw [Chain.responsePart, take_add, drop_drop]
  rfl

theorem length_responsePart {c : Chain} (hc : c.Payload) {n : ℕ} (h : offset + n ≤ c.writable) :
    (c.responsePart offset n).length = n := by
  rw [hc.writable] at h
  rw [Chain.responsePart, length_take, length_drop]
  omega

theorem writeParts_scatters (ho : Owns b s) (hcheck : check b s vq generation = .ok)
    (hside : b.side = .device) (howned : owned b s id .accepted = true)
    {parts : List (List UInt8)}
    (hroom : (s.chains id).written + parts.flatten.length ≤ (s.chains id).writable)
    (hwidth : (s.chains id).written + parts.flatten.length ≤ uint32Max) (m : Memory) :
    (execute Access.exec (writeParts b vq generation id parts s) m).2 =
      ((⟨.ok, .nothing⟩, s.wrote id parts.flatten.length),
        scatter m ((s.chains id).responsePart (s.chains id).written parts.flatten.length)
          parts.flatten) := by
  induction parts generalizing s m with
  | nil =>
    rw [flatten_nil, scatter_nil, length_nil, wrote_zero]
    rfl
  | cons bytes rest ih =>
    rw [flatten_cons, length_append] at *
    have hpayload := ho.payload howned
    have hfirst := writeResponse_scatters ho hcheck hside howned bytes (by omega) (by omega) m
    have hholding : Holding b s .device id .accepted := ⟨hside, check_ok_running hcheck, howned⟩
    have hlater := ho.wrote hholding (n := bytes.length) (by omega) (by omega)
    have hchain := wrote_chain s id bytes.length
    have hrest := ih hlater hcheck (wrote_owned _ howned) (by rw [hchain]; dsimp only; omega)
      (by rw [hchain]; dsimp only; omega)
      (scatter m ((s.chains id).responsePart (s.chains id).written bytes.length) bytes)
    have hfits : (s.chains id).written + bytes.length ≤ (s.chains id).writable := by omega
    have hlength := length_responsePart hpayload hfits
    rw [writeParts, execute_bind, hfirst]
    dsimp only
    rw [if_pos rfl, hrest, wrote_wrote, hchain, responsePart_add, scatter_append hlength]
    rfl

/-! ### No rest -/

def Call.copies : Call → Bool
  | .copyRequest .. | .writeResponse .. | .copyResponse .. => true
  | _ => false

theorem check_ne_faulted (h : s.faulted = false) : check b s vq generation ≠ .faulted := by
  unfold check
  rw [if_neg (c := s.faulted = true) (by simp [h])]
  split_ifs <;> simp

theorem checked_exhausts (hrun : s.faulted = false) {body : Op Outcome}
    (h : Always (fun _ => True) (fun o => o.1.status ≠ .faulted) body) :
    Always (fun _ => True) (fun o => o.1.status ≠ .faulted) (checked b s vq generation body) :=
  always_ite (fun _ => h) fun _ => check_ne_faulted hrun

theorem copyOut_exhausts {kind : UInt16} {segs : List Segment} {refused : Prop}
    [Decidable refused] (n : ℕ) (hsize : ¬refused →
      (offset ≤ n ∧ size ≤ n - offset) ∧ n ≤ (addresses (kindSpans kind segs)).length) :
    Always (fun _ => True) (fun o => o.1.status ≠ .faulted)
      (if refused then finish .invalid s else copyData s kind false segs offset [] size) := by
  refine always_ite (fun _ => nofun) fun hok => ?_
  obtain ⟨⟨hoffset, hrest⟩, hn⟩ := hsize hok
  refine (copyData_exhausts (by omega)).mono (fun _ h => h) fun o ho => ?_
  rcases ho with ho | ho <;> rw [ho] <;> nofun

theorem writeResponse_exhausts (ho : Owns b s) (source : Source) :
    Always (fun _ => True) (fun o => o.1.status ≠ .faulted)
      (if b.side ≠ .device ∨ owned b s id .accepted = false ∨ (source.isNull ∧ source.size ≠ 0) ∨
          (s.chains id).writable - (s.chains id).written < source.size ∨
          uint32Max - (s.chains id).written < source.size then finish .invalid s
        else
          (copyData s 1 true (s.chains id).segs (s.chains id).written source.bytes
            source.size).bind fun (reply, s) =>
              if reply.status = .ok then
                .done (reply, s.setChain id
                  { s.chains id with written := (s.chains id).written + source.size })
              else .done (reply, s)) := by
  refine always_ite (fun _ => nofun) fun hok => ?_
  simp only [not_or, Bool.not_eq_false, Nat.not_lt] at hok
  obtain ⟨-, howned, -, hroom, -⟩ := hok
  have hpayload := ho.payload howned
  have hwritten := hpayload.written_le
  have hwritable := hpayload.writable
  refine (copyData_exhausts (by omega)).bind fun o ho => ?_
  have hstatus : o.1.status ≠ .faulted := by
    rcases ho with ho | ho <;> rw [ho] <;> nofun
  exact always_ite (fun _ => hstatus) fun _ => hstatus

theorem copies_exhaust (ho : Owns b s) (hrun : s.faulted = false) {r : Request}
    (hr : r.call.copies = true) :
    Always (fun _ => True) (fun o => o.1.status ≠ .faulted) (perform b s r) := by
  obtain ⟨vq, generation, call⟩ := r
  cases call with
  | copyRequest chain offset size out =>
    refine checked_exhausts hrun ?_
    cases chain with
    | none => exact nofun
    | some id =>
      refine copyOut_exhausts (s.chains id).readable fun hok => ?_
      simp only [not_or, Bool.not_eq_false, Nat.not_lt] at hok
      exact ⟨hok.2.2.2, (ho.payload hok.2.1).readable.le⟩
  | copyResponse chain offset size out =>
    refine checked_exhausts hrun ?_
    cases chain with
    | none => exact nofun
    | some id =>
      refine copyOut_exhausts (s.chains id).usedLength.toNat fun hok => ?_
      simp only [not_or, Bool.not_eq_false, Nat.not_lt] at hok
      have hpayload := ho.payload hok.2.1
      exact ⟨hok.2.2.2, hpayload.used_le.trans hpayload.writable.le⟩
  | writeResponse chain source =>
    refine checked_exhausts hrun ?_
    cases chain with
    | none => exact nofun
    | some id => exact writeResponse_exhausts ho source
  | publish | peekAvailable | takeAvailable | moveAccepted | returnAvailable | complete |
      takeUsed | release | arm => cases hr

end Operations

/-- In a reachable state a copy call that passes its checks moves exactly a slice of the chain's
payload, wherever the segments end: adjacent reads join into one read, `write_response` replaces
the next bytes of the response and nothing else, and writing in parts is writing the whole. A copy
call never finds that the segments are too short. -/
theorem copies_are_slices {b : Binding} {s : State} (h : Reachable b s) :
    (∀ vq generation id, check b s vq generation = .ok → b.side = .device →
      owned b s id .accepted = true → ∀ m,
      (∀ offset size out, out = true ∨ size = 0 → offset + size ≤ (s.chains id).readable →
        (execute Access.exec (copyRequest b s vq generation (some id) offset size out) m).2 =
          ((⟨.ok, .bytes ((((s.chains id).request m).drop offset).take size)⟩, s), m)) ∧
      (∀ offset n k, offset + n + k ≤ (s.chains id).readable → ∃ first second,
        (execute Access.exec (copyRequest b s vq generation (some id) offset n true) m).2 =
          ((⟨.ok, .bytes first⟩, s), m) ∧
        (execute Access.exec (copyRequest b s vq generation (some id) (offset + n) k true) m).2 =
          ((⟨.ok, .bytes second⟩, s), m) ∧
        (execute Access.exec (copyRequest b s vq generation (some id) offset (n + k) true) m).2 =
          ((⟨.ok, .bytes (first ++ second)⟩, s), m)) ∧
      (∀ bytes : List UInt8, (s.chains id).written + bytes.length ≤ (s.chains id).writable →
        (s.chains id).written + bytes.length ≤ uint32Max → ∃ m',
          (execute Access.exec (writeResponse b s vq generation (some id) (.data bytes)) m).2 =
            ((⟨.ok, .nothing⟩, s.wrote id bytes.length), m') ∧
          (s.chains id).response m' =
            ((s.chains id).response m).take (s.chains id).written ++ bytes ++
              ((s.chains id).response m).drop ((s.chains id).written + bytes.length) ∧
          ∀ x, x ∉ (s.chains id).responsePart (s.chains id).written bytes.length → m' x = m x) ∧
      ∀ parts : List (List UInt8),
        (s.chains id).written + parts.flatten.length ≤ (s.chains id).writable →
        (s.chains id).written + parts.flatten.length ≤ uint32Max →
          (execute Access.exec (writeParts b vq generation id parts s) m).2 =
            (execute Access.exec
              (writeResponse b s vq generation (some id) (.data parts.flatten)) m).2) ∧
    (∀ vq generation id, check b s vq generation = .ok → b.side = .driver →
      owned b s id .returned = true → ∀ m offset n k,
        offset + n + k ≤ (s.chains id).usedLength.toNat → ∃ first second,
        (execute Access.exec (copyResponse b s vq generation (some id) offset n true) m).2 =
          ((⟨.ok, .bytes first⟩, s), m) ∧
        (execute Access.exec (copyResponse b s vq generation (some id) (offset + n) k true) m).2 =
          ((⟨.ok, .bytes second⟩, s), m) ∧
        (execute Access.exec (copyResponse b s vq generation (some id) offset (n + k) true) m).2 =
          ((⟨.ok, .bytes (first ++ second)⟩, s), m) ∧
        first ++ second = (((s.chains id).response m).drop offset).take (n + k)) ∧
    ∀ r : Request, r.call.copies = true → s.faulted = false →
      ∀ t reply s', Run (perform b s r) t (reply, s') → reply.status ≠ .faulted := by
  have ho := h.sound.owns
  refine ⟨?_, ?_, ?_⟩
  · intro vq generation id hcheck hside howned m
    refine ⟨?_, ?_, ?_, ?_⟩
    · intro offset size out hout hsize
      exact copyRequest_slice ho hcheck hside howned hout hsize m
    · intro offset n k hsize
      have hfirst : offset + n ≤ (s.chains id).readable := by omega
      have hboth : offset + (n + k) ≤ (s.chains id).readable := by omega
      refine ⟨_, _, copyRequest_slice ho hcheck hside howned (.inl rfl) hfirst m,
        copyRequest_slice ho hcheck hside howned (.inl rfl) hsize m, ?_⟩
      rw [copyRequest_slice ho hcheck hside howned (.inl rfl) hboth, take_add, drop_drop]
    · intro bytes hroom hwidth
      have hpayload := ho.payload howned
      have hlength := hroom
      rw [hpayload.writable] at hlength
      exact ⟨_, writeResponse_scatters ho hcheck hside howned bytes hroom hwidth m,
        contents_scatter hpayload.nodup hlength, fun x hx => scatter_of_not_mem hx⟩
    · intro parts hroom hwidth
      rw [writeParts_scatters ho hcheck hside howned hroom hwidth,
        writeResponse_scatters ho hcheck hside howned _ hroom hwidth]
  · intro vq generation id hcheck hside howned m offset n k hsize
    have hfirst : offset + n ≤ (s.chains id).usedLength.toNat := by omega
    have hboth : offset + (n + k) ≤ (s.chains id).usedLength.toNat := by omega
    refine ⟨_, _, copyResponse_slice ho hcheck hside howned (.inl rfl) hfirst m,
      copyResponse_slice ho hcheck hside howned (.inl rfl) hsize m, ?_, ?_⟩
    · rw [copyResponse_slice ho hcheck hside howned (.inl rfl) hboth, take_add, drop_drop]
    · rw [take_add, drop_drop]
  · intro r hr hrun t reply s' hperform
    exact ((copies_exhaust ho hrun hr).of_run hperform).2

namespace Sample

def published : Outcome × Memory := (run .driver opened memory (.publish (some 2) true)).2

def taken : State := (run .device opened published.2 (.takeAvailable (some 1))).2.1.2

def filled : Memory := write (write published.2 0x1100 [5, 6, 7]) 0x1110 [8, 9]

/-- The device has answered with three bytes, over both segments. -/
def replied : Memory :=
  write (write (write (write filled 0x1200 [1, 2]) 0x1210 [3]) 0x1052 [1, 0])
    0x1054 [2, 0, 0, 0, 3, 0, 0, 0]

def returned : State := (run .driver published.1.2 replied (.takeUsed true)).2.1.2

theorem taken_reachable : Reachable (binding .device) taken :=
  ⟨opened, _, opens .device, .call .start _ _ _ _ (run_execute Access.exec _ _)⟩

theorem returned_reachable : Reachable (binding .driver) returned :=
  ⟨opened, _, opens .driver,
    .call (.call .start ⟨.bound, 7, .publish (some 2) true⟩ _ _ _ (run_execute Access.exec _ memory))
      ⟨.bound, 7, .takeUsed true⟩ _ _ _ (run_execute Access.exec _ replied)⟩

end Sample

theorem sample_copies :
    (execute Access.exec
      (copyRequest (Sample.binding .device) Sample.taken .bound 7 (some 1) 1 3 true)
        Sample.filled).2.1.1 = ⟨.ok, .bytes [6, 7, 8]⟩ ∧
    (∃ m, (execute Access.exec (writeResponse (Sample.binding .device) Sample.taken .bound 7 (some 1)
        (.data [1, 2, 3])) Sample.filled).2 = ((⟨.ok, .nothing⟩, Sample.taken.wrote 1 3), m) ∧
      (Sample.taken.chains 1).response m = [1, 2, 3, 0]) ∧
    (execute Access.exec
      (copyResponse (Sample.binding .driver) Sample.returned .bound 7 (some 2) 1 (1 + 1) true)
        Sample.replied).2.1.1 = ⟨.ok, .bytes [2, 3]⟩ := by
  obtain ⟨hdevice, -, -⟩ := copies_are_slices Sample.taken_reachable
  obtain ⟨-, hdriver, -⟩ := copies_are_slices Sample.returned_reachable
  obtain ⟨hslice, -, hwrite, -⟩ := hdevice .bound 7 1 (by decide +kernel) rfl (by decide +kernel)
    Sample.filled
  refine ⟨?_, ?_, ?_⟩
  · rw [hslice 1 3 true (.inl rfl) (by decide +kernel)]
    decide +kernel
  · obtain ⟨m, hm, hresponse, -⟩ := hwrite [1, 2, 3] (by decide +kernel) (by decide +kernel)
    refine ⟨m, hm, ?_⟩
    rw [hresponse]
    decide +kernel
  · obtain ⟨first, second, -, -, hboth, hpart⟩ := hdriver .bound 7 2 (by decide +kernel) rfl
      (by decide +kernel) Sample.replied 1 1 1 (by decide +kernel)
    rw [hboth, hpart]
    decide +kernel

end Kobox.Virtqueue
