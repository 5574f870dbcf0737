import Kobox.Virtqueue.Execution
import Kobox.Virtqueue.Lane

/-!
# Parts of the operations in company
-/

namespace Kobox.Virtqueue
open ByteMemory Protocol Resumption List
variable {size offset : ℕ} {segs : List Segment}

section Parts
variable {G O : Type} {I : G → O → Memory → Prop} {guard : Access → G → Prop}
  {Q : Outcome → G → Prop} {s : State} {l : G}

theorem safe_read {address : UInt64}
    {next : Option { bytes : List UInt8 // bytes.length = size } → Op Outcome}
    (hguard : guard ⟨s, .read address size⟩ l)
    (h : ∀ o m, I l o m → ∃ bytes l', read m address.toNat size = bytes ∧ I l' o m ∧
      ∀ answer : { bytes : List UInt8 // bytes.length = size }, answer.val = bytes →
        Safe Access.exec I guard Q (next (some answer)) l') :
    Safe Access.exec I guard Q (.ask ⟨s, .read address size⟩ next) l := by
  refine ⟨hguard, fun o m hI => ?_⟩
  obtain ⟨bytes, l', hread, hI', hsafe⟩ := h o m hI
  exact ⟨l', hI', hsafe _ hread⟩

theorem pendingIndex_safe {b : Binding} {next : Status → UInt16 → Op Outcome} {ring : UInt64}
    (hring : (if b.side = .driver then b.queue.usedAddress else b.queue.availableAddress) = ring)
    (hguard : guard ⟨s, .loadAcquire (ring + 2)⟩ l)
    (h : ∀ o m, I l o m → ∃ index l', readU16 (read m (ring + 2).toNat 2) = index ∧
      ¬ (b.queue.maxOutstanding.toNat < (index - s.vq.consumed).toNat ∨
        (b.side = .driver ∧ s.vq.produced - s.vq.consumed < index - s.vq.consumed)) ∧ I l' o m ∧
      Safe Access.exec I guard Q
        (next (if index - s.vq.consumed ≠ 0 then .ok else .empty) (index - s.vq.consumed)) l') :
    Safe Access.exec I guard Q (pendingIndex b s next) l := by
  subst hring
  refine ⟨hguard, fun o m hI => ?_⟩
  obtain ⟨_, l', rfl, hnear, hI', hsafe⟩ := h o m hI
  refine ⟨l', hI', ?_⟩
  refine (congrArg (fun p => Safe Access.exec I guard Q p l') (if_neg hnear)).mpr hsafe

theorem publishIndex_safe {ring event : UInt64} {k : G}
    (hstored : guard ⟨s, .storeRelease (ring + 2) (s.vq.produced + 1)⟩ l)
    (hstore : ∀ o m, I l o m →
      I k o (write m (ring + 2).toNat (writeU16 (s.vq.produced + 1))))
    (hfence : guard ⟨s.produce, .fence⟩ k) (hloaded : guard ⟨s.produce, .loadAcquire event⟩ k)
    (hload : ∀ o m, I k o m → ∃ l', I l' o m ∧
      Q (⟨.ok, .flag (s.vq.produced + 1 - readU16 (read m event.toNat 2) - 1 <
        s.vq.produced + 1 - s.vq.produced)⟩, s.produce) l') :
    Safe Access.exec I guard Q (publishIndex s ring event) l := by
  refine ⟨hstored, fun o m hI => ⟨k, hstore o m hI, ?_⟩⟩
  refine ⟨hfence, fun o m hI => ⟨k, hI, ?_⟩⟩
  exact ⟨hloaded, hload⟩

theorem writeAll_append (s : State) (xs ys : List (UInt64 × List UInt8)) (next : Op Outcome) :
    writeAll s (xs ++ ys) next = writeAll s xs (writeAll s ys next) := by
  induction xs with
  | nil => rfl
  | cons x xs ih =>
    obtain ⟨address, bytes⟩ := x
    rw [cons_append, writeAll, writeAll, ih]

theorem take_drop_split {l : List UInt8} {n part : ℕ} (h : offset ≤ n)
    (hpart : min (n - offset) size = part) :
    (l.drop offset).take size =
      (l.drop offset).take part ++ ((l.drop n).drop 0).take (size - part) := by
  have hsize : size = part + (size - part) := by omega
  conv_lhs => rw [hsize, take_add, drop_drop]
  congr 1
  by_cases hz : size - part = 0
  · rw [hz, take_zero, take_zero]
  · have hn : offset + part = n := by omega
    rw [hn, drop_zero]

theorem copyData_read_safe {response : List UInt8}
    (hbytes : ∀ o m, I l o m → ∀ k byte, response[k]? = some byte → m (locate segs k) = byte)
    (hkind : ∀ p ∈ segs, p.writable = 0 ∨ p.writable = 1) (hwrap : ∀ p ∈ segs, NoWrap p.span)
    (hroom : response.length ≤ writableBytes segs)
    (hguard : ∀ address size, guard ⟨s, .read address size⟩ l)
    (hsize : offset + size ≤ response.length) {acc : List UInt8}
    (hdone : Q (⟨.ok, .bytes (acc ++ (response.drop offset).take size)⟩, s) l) :
    Safe Access.exec I guard Q (copyData s 1 false segs offset acc size) l := by
  induction segs generalizing response offset size acc with
  | nil =>
    have hnil : response = [] := length_eq_zero_iff.mp (Nat.le_zero.mp hroom)
    subst hnil
    have hz : size = 0 := by
      rw [length_nil] at hsize
      omega
    subst hz
    simpa [copyData] using hdone
  | cons p rest ih =>
    have hrest : ∀ q ∈ rest, q ∈ p :: rest := fun q hq => mem_cons_of_mem _ hq
    rw [writableBytes_cons] at hroom
    by_cases hp : p.writable = 0
    · have hne : p.writable ≠ 1 := by
        rw [hp]
        decide
      rw [copyData_other hne]
      simp only [hp, ne_eq, not_true_eq_false, if_false, Nat.zero_add] at hroom
      refine ih (fun o m hI k byte hk => ?_) (fun q hq => hkind q (hrest q hq))
        (fun q hq => hwrap q (hrest q hq)) hroom hsize hdone
      have hloc := hbytes o m hI k byte hk
      rwa [locate, if_pos hp] at hloc
    have hone : p.writable = 1 := (hkind p mem_cons_self).resolve_left hp
    simp only [hp, ne_eq, not_false_eq_true, if_true] at hroom
    have hlater : ∀ o m, I l o m → ∀ k byte, (response.drop p.length.toNat)[k]? = some byte →
        m (locate rest k) = byte := by
      intro o m hI k byte hk
      rw [getElem?_drop] at hk
      have hloc := hbytes o m hI _ byte hk
      rw [locate, if_neg hp, if_neg (by omega), Nat.add_sub_cancel_left] at hloc
      exact hloc
    have hroom' : (response.drop p.length.toNat).length ≤ writableBytes rest := by
      rw [length_drop]
      omega
    by_cases hoff : p.length.toNat ≤ offset
    · rw [copyData_past hone hoff]
      refine ih hlater (fun q hq => hkind q (hrest q hq)) (fun q hq => hwrap q (hrest q hq)) hroom'
        ?_ ?_
      · rw [length_drop]
        omega
      · rw [drop_drop, Nat.add_sub_cancel' hoff]
        exact hdone
    · by_cases hz : size = 0
      · subst hz
        rw [copyData_zero]
        simpa using hdone
      rw [copyData, if_neg hz, if_neg (not_not.mpr hone), if_neg hoff, if_neg Bool.false_ne_true]
      have haddr := Segment.address_toNat (hwrap p mem_cons_self) (Nat.le_of_not_le hoff)
      generalize hpart : min (p.length.toNat - offset) size = part
      refine ⟨hguard _ _, fun o m hI => ⟨l, hI, ?_⟩⟩
      have hread : read m (p.address + UInt64.ofNat offset).toNat part =
          (response.drop offset).take part := by
        have hlen' : ((response.drop offset).take part).length = part := by
          rw [length_take, length_drop]
          omega
        rw [haddr]
        refine (congrArg (read m _) hlen'.symm).trans (read_eq fun i byte hi => ?_)
        rw [getElem?_take] at hi
        split_ifs at hi with hlt
        rw [getElem?_drop] at hi
        have hloc := hbytes o m hI _ byte hi
        rw [locate, if_neg hp, if_pos (by omega), ← Nat.add_assoc] at hloc
        exact hloc
      change Safe Access.exec I guard Q (copyData s 1 false rest 0
        (acc ++ read m (p.address + UInt64.ofNat offset).toNat part) (size - part)) l
      rw [hread]
      refine ih hlater (fun q hq => hkind q (hrest q hq)) (fun q hq => hwrap q (hrest q hq)) hroom'
        ?_ ?_
      · rw [length_drop]
        omega
      · rw [take_drop_split (Nat.le_of_not_le hoff) hpart, ← append_assoc] at hdone
        exact hdone

theorem copyData_request_safe (hguard : ∀ address size, guard ⟨s, .read address size⟩ l)
    (hsize : offset + size ≤ readableBytes segs) {acc : List UInt8}
    (hdone : ∀ bytes, Q (⟨.ok, .bytes bytes⟩, s) l) :
    Safe Access.exec I guard Q (copyData s 0 false segs offset acc size) l := by
  induction segs generalizing offset size acc with
  | nil =>
    have hz : size = 0 := by
      change offset + size ≤ 0 at hsize
      omega
    subst hz
    exact hdone acc
  | cons p rest ih =>
    rw [readableBytes_cons] at hsize
    by_cases hp : p.writable = 0
    · simp only [hp, ne_eq, not_true_eq_false, if_false] at hsize
      by_cases hoff : p.length.toNat ≤ offset
      · rw [copyData_past hp hoff]
        exact ih (by omega)
      · by_cases hz : size = 0
        · rw [hz, copyData_zero]
          exact hdone acc
        rw [copyData, if_neg hz, if_neg (not_not.mpr hp), if_neg hoff, if_neg Bool.false_ne_true]
        refine ⟨hguard _ _, fun o m hI => ⟨l, hI, ih ?_⟩⟩
        omega
    · simp only [hp, ne_eq, not_false_eq_true, if_true, Nat.zero_add] at hsize
      rw [copyData_other hp]
      exact ih hsize

theorem copyData_write_safe {all : List Segment} {after : List UInt8 → G} {start total : ℕ}
    (hwrite : ∀ (done part : List UInt8) (p : Segment) (offset : ℕ), p ∈ all → p.writable ≠ 0 →
      offset + part.length ≤ p.length.toNat →
      (∀ i < part.length, locate all (start + done.length + i) = p.address.toNat + offset + i) →
      start + done.length + part.length ≤ writableBytes all →
      done.length + part.length ≤ total →
      guard ⟨s, .write (p.address + UInt64.ofNat offset) part⟩ (after done) ∧
        ∀ o m, I (after done) o m → I (after (done ++ part)) o
          (write m (p.address + UInt64.ofNat offset).toNat part))
    (hkind : ∀ p ∈ segs, p.writable = 0 ∨ p.writable = 1) (hall : ∀ p ∈ segs, p ∈ all) {base : ℕ}
    (hloc : ∀ k, locate all (base + k) = locate segs k)
    (hbase : base + writableBytes segs = writableBytes all) {done bytes : List UInt8}
    (hpos : base + offset = start + done.length)
    (hsize : offset + bytes.length ≤ writableBytes segs)
    (htotal : done.length + bytes.length ≤ total)
    (hdone : Q (⟨.ok, .nothing⟩, s) (after (done ++ bytes))) :
    Safe Access.exec I guard Q (copyData s 1 true segs offset bytes bytes.length) (after done) := by
  induction segs generalizing base offset done bytes with
  | nil =>
    have hz : bytes.length = 0 := by
      change offset + bytes.length ≤ 0 at hsize
      omega
    rw [length_eq_zero_iff.mp hz, append_nil] at hdone
    rw [hz, copyData_zero]
    exact hdone
  | cons p rest ih =>
    have hkind' := fun q hq => hkind q (mem_cons_of_mem _ hq)
    have hall' := fun q hq => hall q (mem_cons_of_mem _ hq)
    rw [writableBytes_cons] at hsize hbase
    by_cases hp : p.writable = 0
    · have hne : p.writable ≠ 1 := by
        rw [hp]
        decide
      rw [copyData_other hne]
      simp only [hp, ne_eq, not_true_eq_false, if_false, Nat.zero_add] at hsize hbase
      refine ih hkind' hall' (fun k => ?_) hbase hpos hsize htotal hdone
      rw [hloc, locate, if_pos hp]
    have hone : p.writable = 1 := (hkind p mem_cons_self).resolve_left hp
    simp only [hp, ne_eq, not_false_eq_true, if_true] at hsize hbase
    have hloc' : ∀ k, locate all (base + p.length.toNat + k) = locate rest k := by
      intro k
      rw [Nat.add_assoc, hloc, locate, if_neg hp, if_neg (by omega), Nat.add_sub_cancel_left]
    by_cases hoff : p.length.toNat ≤ offset
    · rw [copyData_past hone hoff]
      exact ih hkind' hall' hloc' (by omega) (by omega) (by omega) htotal hdone
    · by_cases hz : bytes.length = 0
      · rw [length_eq_zero_iff.mp hz, append_nil] at hdone
        rw [hz, copyData_zero]
        exact hdone
      rw [copyData, if_neg hz, if_neg (not_not.mpr hone), if_neg hoff, if_pos rfl]
      generalize hpart : min (p.length.toNat - offset) bytes.length = part
      have htake : (bytes.take part).length = part := by
        rw [length_take]
        omega
      have hdrop : (bytes.drop part).length = bytes.length - part := length_drop
      have hstep := hwrite done (bytes.take part) p offset (hall p mem_cons_self) hp
        (by omega) (fun i hi => ?_) (by omega) (by omega)
      · refine ⟨hstep.1, fun o m hI => ⟨_, hstep.2 o m hI, ?_⟩⟩
        have hdone' : Q (⟨.ok, .nothing⟩, s)
            (after (done ++ bytes.take part ++ bytes.drop part)) := by
          rw [append_assoc, take_append_drop]
          exact hdone
        change Safe Access.exec I guard Q
          (copyData s 1 true rest 0 (bytes.drop part) (bytes.length - part)) _
        by_cases hlast : bytes.length - part = 0
        · rw [hlast, copyData_zero]
          rw [length_eq_zero_iff.mp (hdrop.trans hlast), append_nil] at hdone'
          exact hdone'
        · rw [← hdrop]
          refine ih hkind' hall' hloc' (by omega) ?_ (by omega) ?_ hdone'
          · rw [length_append, htake]
            omega
          · rw [length_append, htake]
            omega
      · rw [htake] at hi
        rw [← hpos, Nat.add_assoc base, hloc, locate, if_neg hp, if_pos (by omega), Nat.add_assoc]

end Parts

end Kobox.Virtqueue
