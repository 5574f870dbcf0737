import Kobox.Virtqueue.Honest

/-!
# What the two callers see of each other
-/

namespace Kobox.Virtqueue
open Protocol List

def Agent.offers (a : Agent) : List Wire :=
  match a.thread with
  | .idle _ => []
  | .busy _ r _ => r.call.offers a.thread.state

def Agent.finishes (a : Agent) : List (ℕ × List UInt8) :=
  match a.thread with
  | .idle _ => []
  | .busy _ r _ => r.call.finishes (DeviceView.of a.log)

section Ahead
variable {L : Lane} {d : DriverGhost} {v : DeviceGhost} {a : Agent}

theorem DriverOk.ahead (h : DriverOk L d a) : (DriverView.of a.log).Ahead a.offers d.view := by
  refine h.rec_keeps (C := fun a => (DriverView.of a.log).Ahead a.offers d.view)
    (fun log s _ hview => ?_) fun _ _ _ _ hk => hk.ahead
  have hlog : d.view = DriverView.of log := hview
  rw [hlog]
  exact .refl _ _

theorem DeviceOk.ahead (h : DeviceOk L v a) : (DeviceView.of a.log).Ahead a.finishes v.view := by
  refine h.rec_keeps (C := fun a => (DeviceView.of a.log).Ahead a.finishes v.view)
    (fun log s _ hview => ?_) fun _ _ _ _ hk => hk
  have hlog : v.view = DeviceView.of log := hview
  rw [hlog]
  exact .refl _ _

end Ahead

theorem DriverView.of_copies (log later : List Done) :
    (of log).copies <+: (of (log ++ later)).copies := by
  refine learned_extends (fun v s call out => ?_) log later
  unfold hear
  split <;> first
    | exact prefix_refl _
    | exact prefix_append _ _

theorem DriverView.copied_mem {log before later : List Done} {e : Done} {id : ChainId}
    {offset size : ℕ} {out : Bool} {bytes : List UInt8} (hlog : log = before ++ e :: later)
    (hcall : e.request.call = .copyResponse (some id) offset size out)
    (hreply : e.reply = ⟨.ok, .bytes bytes⟩) :
    ⟨(of before).tag id, offset, size, bytes⟩ ∈ (of log).copies := by
  have hsplit : log = (before ++ [e]) ++ later := by
    rw [hlog, append_assoc, singleton_append]
  rw [hsplit]
  apply (of_copies (before ++ [e]) later).subset
  rw [of, learned_append]
  simp only [learn, hear, hcall, hreply, if_true, copy]
  exact mem_append_right _ (mem_singleton_self _)

section Results
variable {K : Link} {W W' : World} {moves : List Move} {q : Queue}

/-- The requests the device has taken and not given back are the first requests the driver
has published, in order and equal in every field; a request of which `publish` has not
returned yet may be the last of them. -/
theorem requests_delivered_in_order (hiso : K.Isolated) (hinit : W.Initial K)
    (hrun : W.run K moves = some W') (hq : q ∈ K.channel.queues) :
    (DeviceView.of (W'.agents q .device).log).takes <+:
      (DriverView.of (W'.agents q .driver).log).wires ++ (W'.agents q .driver).offers := by
  obtain ⟨d, v, hs, hd, hv⟩ := (hinit.ok.run hiso hrun).lane q hq
  rw [← hv.ahead.takes]
  exact hs.ledger.takes.trans hd.ahead.wires

theorem sample_request_delivered :
    (DeviceView.of (Sample.ended.agents Sample.queue .device).log).takes =
      [Sample.request.counted.wire] ∧
    (DeviceView.of (Sample.ended.agents Sample.queue .device).log).takes <+:
      (DriverView.of (Sample.ended.agents Sample.queue .driver).log).wires ++
        (Sample.ended.agents Sample.queue .driver).offers :=
  ⟨by decide +kernel, requests_delivered_in_order Sample.isolated Sample.initial Sample.run_exchange
    mem_cons_self⟩

/-- The driver gets completions back once each and in the order of the `complete` calls,
with the number of bytes written as the used length, and a `copy_response` inside
that length returns the slice of the bytes written. -/
theorem completions_delivered (hiso : K.Isolated) (hinit : W.Initial K)
    (hrun : W.run K moves = some W') (hq : q ∈ K.channel.queues) :
    ((DriverView.of (W'.agents q .driver).log).used.map Prod.fst).Nodup ∧
    (DriverView.of (W'.agents q .driver).log).used <+:
      ((DeviceView.of (W'.agents q .device).log).completions ++
        (W'.agents q .device).finishes).map (fun c => (c.1, c.2.length)) ∧
    ∀ before e later, (W'.agents q .driver).log = before ++ e :: later →
      ∀ id offset size out,
        Answerable ((K.lane q).binding .driver) e.before e.request id offset size out →
        ∃ response, ((DriverView.of before).tag id, response) ∈
            (DeviceView.of (W'.agents q .device).log).completions ++ (W'.agents q .device).finishes ∧
          offset + size ≤ response.length ∧
          e.reply = ⟨.ok, .bytes ((response.drop offset).take size)⟩ := by
  have hlane := (hinit.ok.run hiso hrun).lane q hq
  have hclean := hlane.clean .driver
  obtain ⟨d, v, hs, hd, hv⟩ := hlane
  have hused : d.view.used <+: ((DeviceView.of (W'.agents q .device).log).completions ++
      (W'.agents q .device).finishes).map (fun c => (c.1, c.2.length)) :=
    hs.ledger.used.trans (hv.ahead.completions.map _)
  rw [hd.ahead.used] at hused
  refine ⟨?_, hused, ?_⟩
  · rw [← hd.ahead.used]
    exact hs.ledger.used_nodup
  · intro before e later hlog id offset size out ha
    have he : e ∈ (W'.agents q .driver).log := by
      rw [hlog]
      exact mem_append_right _ mem_cons_self
    obtain ⟨bytes, hreply⟩ := ((hclean e he).answers id offset size out ha).resolve_right
      (by rw [(hclean e he).running]; exact Bool.false_ne_true)
    have hmem := DriverView.copied_mem hlog ha.call hreply
    rw [← hd.ahead.copies] at hmem
    obtain ⟨response, hresponse, hle, hbytes⟩ := hs.ledger.copies _ hmem
    refine ⟨response, hv.ahead.completions.subset hresponse, hle, ?_⟩
    exact hreply.trans (congrArg (fun b => Reply.mk .ok (.bytes b)) hbytes)

def Sample.log : List Done := (Sample.ended.agents Sample.queue .driver).log

theorem Sample.log_length : 3 < Sample.log.length := by decide +kernel

theorem sample_completion_delivered :
    (DriverView.of Sample.log).used = [(0, 3)] ∧
    (DeviceView.of (Sample.ended.agents Sample.queue .device).log).completions =
      [(0, [1, 2, 3])] ∧
    (DriverView.of Sample.log).used <+:
      ((DeviceView.of (Sample.ended.agents Sample.queue .device).log).completions ++
        (Sample.ended.agents Sample.queue .device).finishes).map (fun c => (c.1, c.2.length)) ∧
    ∃ before e later, Sample.log = before ++ e :: later ∧
      Answerable (Sample.binding .driver) e.before e.request 0 1 2 true ∧
      ∃ response, ((DriverView.of before).tag 0, response) ∈
          (DeviceView.of (Sample.ended.agents Sample.queue .device).log).completions ++
            (Sample.ended.agents Sample.queue .device).finishes ∧
        1 + 2 ≤ response.length ∧ e.reply = ⟨.ok, .bytes ((response.drop 1).take 2)⟩ := by
  have hended := completions_delivered Sample.isolated Sample.initial Sample.run_exchange
    (q := Sample.queue) mem_cons_self
  have hsplit : Sample.log = Sample.log.take 3 ++
      Sample.log.get ⟨3, Sample.log_length⟩ :: Sample.log.drop 4 := by
    rw [get_eq_getElem, ← drop_eq_getElem_cons Sample.log_length, take_append_drop]
  have ha : Answerable (Sample.binding .driver) (Sample.log.get ⟨3, Sample.log_length⟩).before
      (Sample.log.get ⟨3, Sample.log_length⟩).request 0 1 2 true :=
    ⟨rfl, by decide +kernel, by decide +kernel, by decide +kernel, fun _ => rfl, by decide +kernel⟩
  exact ⟨by decide +kernel, by decide +kernel, hended.2.1, _, _, _, hsplit, ha,
    hended.2.2 _ _ _ hsplit 0 1 2 true ha⟩

/-- No wakeup is lost: while a side is armed, the peer's publication with the number that
the armed side consumes next has returned, if it has, with a notification. -/
theorem no_lost_wakeup (hiso : K.Isolated) (hinit : W.Initial K) (hrun : W.run K moves = some W')
    (hq : q ∈ K.channel.queues) :
    ((DeviceView.of (W'.agents q .device).log).armed = true → ∀ notify,
      (DriverView.of (W'.agents q .driver).log).notifies[
        (DeviceView.of (W'.agents q .device).log).takes.length]? = some notify → notify = true) ∧
    ((DriverView.of (W'.agents q .driver).log).armed = true → ∀ notify,
      (DeviceView.of (W'.agents q .device).log).notifies[
        (DriverView.of (W'.agents q .driver).log).used.length]? = some notify → notify = true) := by
  obtain ⟨d, v, hs, hd, hv⟩ := (hinit.ok.run hiso hrun).lane q hq
  constructor
  · intro harmed notify hnotify
    rw [← hv.ahead.takes] at hnotify
    exact (hs.ledger.deviceArmed (hv.ahead.armed harmed)).2 notify
      (getElem?_mono hd.ahead.notifies hnotify)
  · intro harmed notify hnotify
    rw [← hd.ahead.used] at hnotify
    exact (hs.ledger.driverArmed (hd.ahead.armed harmed)).2 notify
      (getElem?_mono hv.ahead.notifies hnotify)

theorem sample_wakeup_kept :
    ((DeviceView.of (Sample.woken.agents Sample.queue .device).log).armed = true ∧
      (DriverView.of (Sample.woken.agents Sample.queue .driver).log).notifies.length = 1) ∧
    (DriverView.of (Sample.woken.agents Sample.queue .driver).log).notifies[0]? = some true := by
  have hwoken := no_lost_wakeup Sample.isolated Sample.initial Sample.run_wakeup
    (q := Sample.queue) mem_cons_self
  refine ⟨by decide +kernel, ?_⟩
  cases hn : (DriverView.of (Sample.woken.agents Sample.queue .driver).log).notifies[0]? with
  | none => exact absurd hn (by decide +kernel)
  | some notify => rw [hwoken.1 (by decide +kernel) notify hn]

end Results

end Kobox.Virtqueue
