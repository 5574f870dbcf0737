import Kobox.Virtqueue.HostilePeer

/-!
# A driver against a hostile device
-/

namespace Kobox.Virtqueue
open ByteMemory Protocol Resumption SlotTable List
variable {call : Call} {reply : Reply} {index : UInt16} {generation : UInt64} {chainOut : Bool}
  {vq : Handle} {o : Outcome}

variable {b : Binding} {s s' start : State} {log : List Done}

theorem Transition.ok_running (h : Transition b s generation call reply s')
    (hok : reply.status = .ok) :
    s'.faulted = false := by
  cases h with
  | refused _ status hs =>
    dsimp only at hok
    rw [hok] at hs
    cases hs
  | stopped => cases hok
  | failed _ io => cases io <;> cases hok
  | observed _ _ _ hrun => exact hrun
  | published _ _ _ h | taken _ _ h => exact h.running
  | publishFailed => cases hok
  | takeFailed _ _ io => cases io <;> cases hok
  | moved _ _ h | handedBack _ h | wrote _ _ h | completed _ _ h | returned _ _ h | released _ h =>
    exact h.running
  | completeFailed => cases hok

theorem Transition.running_of_running (h : Transition b s generation call reply s')
    (hf : s'.faulted = false) :
    s.faulted = false := by
  cases h with
  | failed | publishFailed | takeFailed | completeFailed => cases hf
  | _ => exact hf

theorem driverView_tracks_fresh (h : s.vq = Vq.fresh) : DriverView.start.Tracks b s := by
  refine ⟨by rw [h]; rfl, by rw [h]; rfl, fun slot id hs => ?_, fun n w hl => ?_, nodup_nil,
    fun n length hmem => ?_, fun n hn => ?_, Nat.zero_le _, rfl⟩
  · rw [h] at hs
    cases hs
  · cases hl.1
  · cases hmem
  · cases hn

/-- The part of a driver's view that does not depend on its private state. -/
structure DriverView.Bounded (v : DriverView) : Prop where
  once : (v.used.map Prod.fst).Nodup
  sized : ∀ n length, (n, length) ∈ v.used → ∃ w, v.wires[n]? = some w ∧ length ≤ w.writable
  fewer : v.used.length ≤ v.wires.length

theorem DriverView.Tracks.bounded {v : DriverView} (ht : v.Tracks b s) : v.Bounded :=
  ⟨ht.used_nodup, ht.used_le, ht.used_length_le⟩

theorem Runs.driverView (hb : b.Bound) (hside : b.side = .driver) (hfresh : start.vq = Vq.fresh)
    (h : Runs b start log s) :
    (s.faulted = false → (DriverView.of log).Tracks b s) ∧ (DriverView.of log).Bounded := by
  induction h with
  | start => exact ⟨fun _ => driverView_tracks_fresh hfresh,
      (driverView_tracks_fresh (b := b) hfresh).bounded⟩
  | call h r t reply s' hr ih =>
    have hs := h.sound hb (sound_fresh b hfresh)
    have htr := ((perform_behaves hb r).of_run hr).2
    have hnext : s'.faulted = false →
        ((DriverView.of _).next ⟨r, reply, _, s'⟩).Tracks b s' := fun hf =>
      (ih.1 (htr.running_of_running hf)).next hb hside hs.owns hs.counters htr hf
    rw [DriverView.of, learned_append]
    refine ⟨hnext, ?_⟩
    by_cases hok : reply.status = .ok
    · exact (hnext (htr.ok_running hok)).bounded
    · rw [learn_of_not_ok hok]
      exact ih.2
  | caller h chains hkeep ih => exact ⟨fun hf => (ih.1 hf).caller hkeep, ih.2⟩
  | flag h ih => exact ⟨fun hf => (by cases hf), ih.2⟩

theorem Runs.transition (hb : b.Bound) (h : Runs b start log s)
    {e : Done} (he : e ∈ log) :
    Transition b e.before e.request.generation e.request.call e.reply e.after := by
  induction h with
  | start => exact absurd he not_mem_nil
  | call h r t reply s' hr ih =>
    rcases mem_append.mp he with he | he
    · exact ih he
    · rw [mem_singleton.mp he]
      exact ((perform_behaves hb r).of_run hr).2
  | caller h chains hkeep ih => exact ih he
  | flag h ih => exact ih he

theorem Transition.takeUsed_ok {id : ChainId} (h : Transition b s generation call reply s')
    (hcall : call = .takeUsed chainOut) (hreply : reply = ⟨.ok, .chain id⟩) :
    Holding b s .driver id .submitted ∧
      ∃ length : UInt32, length.toNat ≤ (s.chains id).writable ∧ s' = s.returned id length := by
  cases h with
  | refused | stopped => cases hreply
  | failed | publishFailed | takeFailed | completeFailed => cases congrArg Reply.out hreply
  | observed _ _ hobs =>
    rw [hcall] at hobs
    cases hobs
  | published | taken | moved | handedBack | wrote | completed | released => cases hcall
  | returned id' length hold hle =>
    cases hreply
    exact ⟨hold, length, hle, rfl⟩

theorem copyResponse_reads (ho : Owns b s) (vq : Handle) (generation : UInt64) (id : ChainId)
    (offset size : ℕ) (out : Bool) :
    Always (fun e : Access => owned b s id .returned = true ∧
        Copies s (s.chains id).segs 1 e) (fun _ => True)
      (copyResponse b s vq generation (some id) offset size out) := by
  refine always_ite (fun _ => ?_) fun _ => trivial
  refine always_ite (fun _ => trivial) fun harg => ?_
  simp only [ne_eq, not_or, not_not, Bool.not_eq_false] at harg
  exact (copyData_always (by simp)).mono
    (fun e he => ⟨harg.2.1, he.2 (ho.segs_noWrap (held_of_owned harg.2.1))⟩) fun _ _ => trivial

/-! ### Used indices and elements -/

def Credible (b : Binding) (s : State) (bytes : List UInt8) : Prop :=
  (readU32 bytes).toNat < b.queue.queueSize.toNat ∧
    ∃ id, s.vq.slots (readU32 bytes).toNat = some id ∧ owned b s id .submitted = true ∧
      (readU32 (bytes.drop 4)).toNat ≤ (s.chains id).writable

def usedIndexLoad (b : Binding) (s : State) : Access :=
  ⟨s, .loadAcquire (b.queue.usedAddress + 2)⟩

def usedElementRead (b : Binding) (s : State) : Access :=
  ⟨s, .read (b.queue.usedAddress + 4 + 8 * ringSlot b s.vq.consumed) 8⟩

theorem check_ok_running (h : check b s vq generation = .ok) :
    s.faulted = false := by
  unfold check at h
  split_ifs at h with h1 h2 h3
  simpa using h3

variable {t : List ((e : Access) × e.call.Answer)}

theorem takeUsed_run {x : (e : Access) × e.call.Answer}
    (hr : Run (takeUsed b s vq generation chainOut) (x :: t) o) :
    s.faulted = false ∧ b.side = .driver ∧ ∃ next, Run (pendingIndex b s next) (x :: t) o ∧
      next = fun status _ =>
        if status ≠ .ok then finish status s
        else .ask (usedElementRead b s)
          fun (answer : Option { bytes : List UInt8 // bytes.length = 8 }) =>
          match answer with
          | none => .done (fault s true)
          | some bytes =>
            if b.queue.queueSize.toNat ≤ (readU32 bytes.val).toNat then .done (fault s false)
            else match s.vq.slots (readU32 bytes.val).toNat with
              | none => .done (fault s false)
              | some id =>
                if owned b s id .submitted = false ∨
                    (s.chains id).writable < (readU32 (bytes.val.drop 4)).toNat then
                  .done (fault s false)
                else .done (⟨.ok, .chain id⟩, s.returned id (readU32 (bytes.val.drop 4))) := by
  unfold takeUsed checked at hr
  by_cases hc : check b s vq generation = .ok
  · rw [if_pos hc] at hr
    by_cases harg : b.side ≠ .driver ∨ chainOut = false
    · rw [if_pos harg] at hr
      cases hr
    · rw [if_neg harg] at hr
      exact ⟨check_ok_running hc, not_not.mp (not_or.mp harg).1, _, hr, rfl⟩
  · rw [if_neg hc] at hr
    cases hr

theorem pendingIndex_run (hside : b.side = .driver) {next : Status → UInt16 → Op Outcome}
    (hr : Run (pendingIndex b s next) (⟨usedIndexLoad b s, (some index : Option UInt16)⟩ :: t) o) :
    Run (if b.queue.maxOutstanding.toNat < (index - s.vq.consumed).toNat ∨
        (b.side = .driver ∧ s.vq.produced - s.vq.consumed < index - s.vq.consumed) then
      .done (fault s false)
      else next (if index - s.vq.consumed ≠ 0 then .ok else .empty) (index - s.vq.consumed)) t o := by
  unfold pendingIndex at hr
  rw [if_pos hside] at hr
  exact Run.answered (e := usedIndexLoad b s) hr

theorem takeUsed_index_rejected (hs : Sound b s)
    (hr : Run (takeUsed b s vq generation chainOut)
      (⟨usedIndexLoad b s, (some index : Option UInt16)⟩ :: t) o)
    (hfar : submittedCount b s < (index - s.vq.consumed).toNat) : o = fault s false := by
  obtain ⟨hrun, hside, next, hr, -⟩ := takeUsed_run hr
  have hc := hs.counters hrun
  simp only [Counters, hside] at hc
  have hbad : b.queue.maxOutstanding.toNat < (index - s.vq.consumed).toNat ∨
      (b.side = .driver ∧ s.vq.produced - s.vq.consumed < index - s.vq.consumed) := by
    refine Or.inr ⟨hside, ?_⟩
    rw [UInt16.lt_iff_toNat_lt, hc]
    exact hfar
  have hrest := pendingIndex_run hside hr
  rw [if_pos hbad] at hrest
  cases hrest
  rfl

theorem takeUsed_element_rejected {bytes : List UInt8} {hlen : bytes.length = 8}
    (hr : Run (takeUsed b s vq generation chainOut)
      (⟨usedIndexLoad b s, (some index : Option UInt16)⟩ ::
        ⟨usedElementRead b s, (some ⟨bytes, hlen⟩ : Option { bytes : List UInt8 // bytes.length = 8 })⟩ ::
        t) o)
    (hbad : ¬ Credible b s bytes) : o = fault s false := by
  obtain ⟨hrun, hside, next, hr, hnext⟩ := takeUsed_run hr
  subst hnext
  have hrest := pendingIndex_run hside hr
  by_cases hfar : b.queue.maxOutstanding.toNat < (index - s.vq.consumed).toNat ∨
      (b.side = .driver ∧ s.vq.produced - s.vq.consumed < index - s.vq.consumed)
  · rw [if_pos hfar] at hrest
    cases hrest
  rw [if_neg hfar] at hrest
  by_cases hzero : index - s.vq.consumed = 0
  · rw [if_neg (not_not.mpr hzero), if_pos (by decide)] at hrest
    cases hrest
  rw [if_pos hzero, if_neg (by decide)] at hrest
  have hrest := hrest.answered
  dsimp only at hrest
  by_cases hhead : b.queue.queueSize.toNat ≤ (readU32 bytes).toNat
  · rw [if_pos hhead] at hrest
    cases hrest
    rfl
  rw [if_neg hhead] at hrest
  cases hslot : s.vq.slots (readU32 bytes).toNat with
  | none =>
    rw [hslot] at hrest
    cases hrest
    rfl
  | some id =>
    rw [hslot] at hrest
    dsimp only at hrest
    split_ifs at hrest with hid
    · cases hrest
      rfl
    · simp only [not_or, Bool.not_eq_false, Nat.not_lt] at hid
      exact absurd ⟨Nat.lt_of_not_le hhead, id, hslot, hid.1, hid.2⟩ hbad

/-- What a driver can rely on whatever the device writes: it takes back chains it submitted, with a
length that fits them, reads in their writable segments only, and faults on an index or an element
that is not credible. -/
structure CompletionsGuarded (b : Binding) (log : List Done) (s : State) : Prop where
  bounded : (DriverView.of log).Bounded
  submitted : ∀ e ∈ log, ∀ chainOut id, e.request.call = .takeUsed chainOut →
    e.reply = ⟨.ok, .chain id⟩ → owned b e.before id .submitted = true ∧
      (e.after.chains id).usedLength.toNat ≤ (e.before.chains id).writable
  reads : ∀ vq generation id offset size out t o,
    Run (copyResponse b s vq generation (some id) offset size out) t o → ∀ x ∈ t,
      owned b s id .returned = true ∧
        ∃ seg ∈ (s.chains id).segs, seg.writable = 1 ∧ Span.Within x.1.call.span seg.span
  index : ∀ vq generation chainOut index t o,
    Run (takeUsed b s vq generation chainOut)
      (⟨usedIndexLoad b s, (some index : Option UInt16)⟩ :: t) o →
    submittedCount b s < (index - s.vq.consumed).toNat → o = fault s false
  element : ∀ vq generation chainOut index (bytes : { bytes : List UInt8 // bytes.length = 8 }) t o,
    Run (takeUsed b s vq generation chainOut)
      (⟨usedIndexLoad b s, (some index : Option UInt16)⟩ ::
        ⟨usedElementRead b s, (some bytes : Option { bytes : List UInt8 // bytes.length = 8 })⟩ ::
        t) o →
    ¬ Credible b s bytes.val → o = fault s false

/-- A device cannot forge, replay or inflate completions, whatever it puts into the used ring. -/
theorem hostile_device_guarded (hopen : Opened b start) (hside : b.side = .driver)
    (h : Runs b start log s) : CompletionsGuarded b log s := by
  have hb := hopen.bound
  have hfresh := hopen.fresh.1
  have hs := h.sound hb (sound_fresh b hfresh)
  refine ⟨(h.driverView hb hside hfresh).2, ?_, ?_, ?_, ?_⟩
  · intro e he chainOut id hcall hreply
    obtain ⟨hold, length, hle, hafter⟩ := (h.transition hb he).takeUsed_ok hcall hreply
    refine ⟨hold.owned, ?_⟩
    rw [hafter]
    simp only [State.returned, State.setChain, Function.update_self]
    exact hle
  · intro vq generation id offset size out t o hr x hx
    obtain ⟨hown, -, hseg⟩ := ((copyResponse_reads hs.owns vq generation id offset size
      out).of_run hr).1 x hx
    exact ⟨hown, hseg⟩
  · intro vq generation chainOut index t o hr hfar
    exact takeUsed_index_rejected hs hr hfar
  · intro vq generation chainOut index bytes t o hr hbad
    exact takeUsed_element_rejected hr hbad

/-- A driver that published one request and takes the answer a device claims to have given. -/
theorem sample_answer_guarded :
    let published := (Sample.run .driver Sample.opened Sample.memory (.publish (some 0) true)).2.1
    let used := (Sample.run .driver published.2 Sample.answered (.takeUsed true)).2.1
    let log : List Done := [⟨⟨.bound, 7, .publish (some 0) true⟩, published.1, Sample.opened,
      published.2⟩, ⟨⟨.bound, 7, .takeUsed true⟩, used.1, published.2, used.2⟩]
    (DriverView.of log).used = [(0, 3)] ∧
      CompletionsGuarded (Sample.binding .driver) log used.2 :=
  ⟨by decide, hostile_device_guarded (Sample.opens .driver) rfl
    (.call (.call .start _ _ _ _ (run_execute Access.exec _ Sample.memory)) _ _ _ _
      (run_execute Access.exec _ Sample.answered))⟩

end Kobox.Virtqueue
