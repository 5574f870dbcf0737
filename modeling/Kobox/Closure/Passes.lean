import Kobox.Closure.Arrays
import Kobox.Closure.Graph

/-!
# Runs of the graph validation (`src/closure.c:771-904`)
-/

namespace Kobox.Closure.Arrays
open Control (Status)
open Checked Worklist StateTransition List Option

/-! ### Links -/

def ofSize (n : ℕ) : Option ℕ := if n = sizeMax then none else some n

theorem ofSize_eq_none {n : ℕ} : ofSize n = none ↔ n = sizeMax := by
  simp [ofSize]

theorem ofSize_eq_some {n k : ℕ} : ofSize n = some k ↔ n ≠ sizeMax ∧ n = k := by
  unfold ofSize
  split_ifs with h
  · exact iff_of_false nofun fun hk => hk.1 h
  · rw [some.injEq]
    exact (and_iff_right h).symm

/-- The arrays hold the edges of the first `k` dependencies. -/
structure Links.Represents (links : Links) (s : Storage) (k : ℕ) (a : Adjacency) : Prop where
  heads : Holds ofSize links.heads s.artifacts.count s.artifacts.count a.heads
  next : Holds ofSize links.next s.dependencies.count k a.next
  targets : Holds id links.targets s.dependencies.count k a.targets
  incoming : Holds UInt32.toNat links.incoming s.artifacts.count s.artifacts.count a.incoming

def Agrees (s : Storage) (k : ℕ) : Option Adjacency → Run Status Links → Prop
  | none, r => r = .error (.finish .invalidConfiguration)
  | some a, r => ∃ links : Links, r = .ok links ∧ links.Represents s k a

theorem represents_start (s : Storage) (memory : Memory s) :
    Links.Represents ⟨List.replicate s.artifacts.count sizeMax, memory.next, memory.targets,
      List.replicate s.artifacts.count 0⟩ s 0 .empty where
  heads := holds_replicate sizeMax
  next := ⟨memory.next_length, nofun⟩
  targets := ⟨memory.targets_length, nofun⟩
  incoming := holds_replicate 0

section Linking
variable {s : Storage} {a : Adjacency} {links : Links} {index : ℕ}

theorem Links.Represents.link (h : links.Represents s index a) {consumer provider : ℕ}
    (hconsumer : consumer < s.artifacts.count) (hprovider : provider < s.artifacts.count)
    (hindex : index < s.dependencies.count) (hsize : index ≠ sizeMax)
    (hfull : a.incoming provider ≠ uint32Max) :
    ∃ links', links.link index consumer provider = .ok links' ∧
      links'.Represents s (index + 1) (a.link index consumer provider) := by
  obtain ⟨head, hhead, hmeaning⟩ := h.heads.get hconsumer
  obtain ⟨incoming, hincoming, hvalue⟩ := h.incoming.get hprovider
  have hsucc : (incoming + 1).toNat = a.incoming provider + 1 := by
    have hlt := incoming.toNat_lt
    have hmax : uint32Max = 2 ^ 32 - 1 := rfl
    rw [UInt32.toNat_add, UInt32.toNat_one, hvalue]
    omega
  have hfirst := h.heads.set hconsumer index
  have hrest := h.next.push hindex head
  have hincremented := h.incoming.set hprovider (incoming + 1)
  rw [ofSize_eq_some.mpr ⟨hsize, rfl⟩] at hfirst
  rw [hmeaning] at hrest
  rw [hsucc] at hincremented
  refine ⟨⟨links.heads.set consumer index, links.next.set index head,
    links.targets.set index provider, links.incoming.set provider (incoming + 1)⟩, ?_,
    hfirst, hrest, h.targets.push hindex provider, hincremented⟩
  rw [Links.link, load_eq hhead, ok_bind, h.next.store hindex, ok_bind, h.targets.store hindex,
    ok_bind, h.heads.store hconsumer, ok_bind, load_eq hincoming, ok_bind,
    h.incoming.store hprovider, ok_bind]
  rfl

variable (hcount : s.artifacts.records.length = s.artifacts.count)
  (hids : (s.artifacts.records.map ArtifactRecord.nodeId).Nodup)

include hcount in
theorem nodeMapFind_getD (nodeId : UInt32) :
    nodeMapFind (Closure.buildNodeMap s) s.artifacts.count nodeId =
      .ok ((Closure.nodeMapFind (Closure.buildNodeMap s) nodeId).getD sizeMax) := by
  rw [← hcount, ← buildNodeMap_length]
  exact nodeMapFind_eq _ nodeId

include hcount hids

theorem linkDependency_agrees (h : links.Represents s index a) {d : DependencyRecord}
    (hd : s.dependencies.records[index]? = some d) (hindex : index < s.dependencies.count)
    (hsize : index ≠ sizeMax) :
    Agrees s (index + 1) (Closure.linkDependency s (Closure.buildNodeMap s) a index d)
      (linkDependency s (Closure.buildNodeMap s) links index) := by
  unfold linkDependency Closure.linkDependency
  rw [load_eq hd, ok_bind, nodeMapFind_getD hcount, ok_bind, nodeMapFind_getD hcount, ok_bind]
  cases hconsumer : Closure.nodeMapFind (Closure.buildNodeMap s) d.consumerNodeId with
  | none => exact if_pos (.inl rfl)
  | some consumer =>
    cases hprovider : Closure.nodeMapFind (Closure.buildNodeMap s) d.providerNodeId with
    | none => exact if_pos (.inr rfl)
    | some provider =>
      have hc := index_lt hids hconsumer
      have hp := index_lt hids hprovider
      have hdeclared : ¬((some consumer).getD sizeMax = sizeMax ∨
          (some provider).getD sizeMax = sizeMax) :=
        not_or.mpr ⟨index_ne_sizeMax hids hconsumer, index_ne_sizeMax hids hprovider⟩
      rw [if_neg hdeclared]
      rw [hcount] at hc hp
      obtain ⟨incoming, hincoming, hvalue⟩ := h.incoming.get hp
      have hconsumerRecord := getElem?_eq_getElem (hc.trans_eq hcount.symm)
      have hproviderRecord := getElem?_eq_getElem (hp.trans_eq hcount.symm)
      have hfull : incoming = 0xFFFFFFFF ↔ a.incoming provider = uint32Max := by
        rw [← UInt32.toNat_inj, hvalue]
        rfl
      dsimp only [getD_some]
      rw [load_eq hincoming, ok_bind]
      by_cases hmax : a.incoming provider = uint32Max
      · rw [if_pos hmax, if_pos (hfull.mpr hmax)]
        rfl
      · rw [if_neg hmax, if_neg fun h => hmax (hfull.mp h), load_eq hconsumerRecord, ok_bind,
          load_eq hproviderRecord, ok_bind, artifactKind, artifactKind, hconsumerRecord,
          hproviderRecord]
        simp only [map_some, some.injEq, ne_eq]
        split_ifs
        · rfl
        · exact h.link hc hp hindex hsize hmax

omit hcount hids in
theorem linkDependencies_append (map : List NodeMapEntry) (deps : List DependencyRecord)
    (d : DependencyRecord) (index : ℕ) (a : Adjacency) :
    Closure.linkDependencies s map (deps ++ [d]) index a =
      (Closure.linkDependencies s map deps index a).bind fun a =>
        Closure.linkDependency s map a (index + deps.length) d := by
  induction deps generalizing index a with
  | nil =>
    rw [nil_append, Closure.linkDependencies]
    exact bind_fun_some _
  | cons first rest ih =>
    rw [cons_append, Closure.linkDependencies, Closure.linkDependencies, bind_assoc]
    congr 1
    funext a
    rw [ih, length_cons, Nat.add_right_comm, Nat.add_assoc]

theorem linkDependencies_agrees (memory : Memory s)
    (hdeps : s.dependencies.records.length = s.dependencies.count)
    (hmax : s.dependencies.count ≤ maxDependencies) :
    Agrees s s.dependencies.count
      (Closure.linkDependencies s (Closure.buildNodeMap s) s.dependencies.records 0 .empty)
      (linkDependencies s memory (Closure.buildNodeMap s)) := by
  have hturns : ∀ k ≤ s.dependencies.count,
      Agrees s k (Closure.linkDependencies s (Closure.buildNodeMap s)
        (s.dependencies.records.take k) 0 .empty)
        (loop k (linkDependency s (Closure.buildNodeMap s))
          ⟨List.replicate s.artifacts.count sizeMax, memory.next, memory.targets,
            List.replicate s.artifacts.count 0⟩) := by
    intro k hk
    induction k with
    | zero => exact ⟨_, rfl, represents_start s memory⟩
    | succ k ih =>
      have ih := ih (Nat.le_of_succ_le hk)
      have hlt : k < s.dependencies.records.length := by omega
      have hrecord := getElem?_eq_getElem hlt
      have hsize : k ≠ sizeMax := by
        have hsmall : maxDependencies < sizeMax := by decide
        omega
      have htake : (s.dependencies.records.take k).length = k := by
        rw [length_take]
        omega
      rw [take_add_one, hrecord, toList_some, linkDependencies_append, loop_succ, htake,
        Nat.zero_add]
      cases hfirst : Closure.linkDependencies s (Closure.buildNodeMap s)
          (s.dependencies.records.take k) 0 .empty with
      | none =>
        rw [hfirst] at ih
        rw [show loop k _ _ = _ from ih]
        rfl
      | some a =>
        rw [hfirst] at ih
        obtain ⟨links, hlinks, hrepresents⟩ := ih
        rw [hlinks]
        exact linkDependency_agrees hcount hids hrepresents hrecord hk hsize
  have hall := hturns s.dependencies.count (Nat.le_refl _)
  rw [← hdeps, take_length, hdeps] at hall
  exact hall

end Linking

/-- The providers that the inner loop meets from an edge on. -/
inductive Links.Chain (links : Links) : ℕ → List ℕ → Prop where
  | nil : links.Chain sizeMax []
  | cons {edge following provider : ℕ} {l : List ℕ} : edge ≠ sizeMax →
      links.targets[edge]? = some provider → links.next[edge]? = some following →
      links.Chain following l → links.Chain edge (provider :: l)

section Chains
variable {s : Storage} {a : Adjacency} {links : Links} {edges : List (ℕ × ℕ)}

theorem Links.Chain.eq_sizeMax {edge : ℕ} (h : links.Chain edge []) : edge = sizeMax := by
  cases h
  rfl

theorem Links.Chain.first {edge provider : ℕ} {l : List ℕ} (h : links.Chain edge (provider :: l)) :
    edge ≠ sizeMax ∧ links.targets[edge]? = some provider ∧
      ∃ following, links.next[edge]? = some following ∧ links.Chain following l := by
  cases h with
  | cons hne htarget hnext hrest => exact ⟨hne, htarget, _, hnext, hrest⟩

theorem Links.Represents.chain (h : links.Represents s edges.length a) (hholds : a.Holds edges)
    {fuel : ℕ} {start : Option ℕ} {edge : ℕ}
    (hfuel : a.chain (fuel + 1) start = a.chain fuel start)
    (hstart : ∀ e, start = some e → e < edges.length) (hedge : ofSize edge = start) :
    links.Chain edge (a.chain fuel start) := by
  induction fuel generalizing start edge with
  | zero =>
    cases start with
    | none =>
      rw [ofSize_eq_none.mp hedge]
      exact .nil
    | some e => cases hfuel
  | succ fuel ih =>
    cases start with
    | none =>
      rw [ofSize_eq_none.mp hedge]
      exact .nil
    | some e =>
      obtain ⟨hne, rfl⟩ := ofSize_eq_some.mp hedge
      have hlt := hstart edge rfl
      obtain ⟨provider, hprovider, htarget⟩ := h.targets.get hlt
      obtain ⟨following, hfollowing, hnext⟩ := h.next.get hlt
      have hrest : links.Chain following (a.chain fuel (a.next edge)) :=
        ih (List.cons.inj hfuel).2 (hholds.next edge hlt) hnext
      rw [Adjacency.chain, ← htarget]
      exact .cons hne hprovider hfollowing hrest

theorem Links.Represents.heads_chain (h : links.Represents s edges.length a)
    (hholds : a.Holds edges) {u : ℕ} (hu : u < s.artifacts.count) :
    ∃ edge, links.heads[u]? = some edge ∧ links.Chain edge (successors edges u) := by
  obtain ⟨edge, hedge, hmeaning⟩ := h.heads.get hu
  have hchain := hholds.chain u edges.length (Nat.le_refl _)
  have hlonger := hholds.chain u (edges.length + 1) (Nat.le_succ _)
  refine ⟨edge, hedge, ?_⟩
  rw [← hchain]
  exact h.chain hholds (hlonger.trans hchain.symm) (hholds.heads u) hmeaning

end Chains

/-! ### Turns of a pass -/

section Turns
variable {σ τ : Type} {p : Pass σ} {n : ℕ} {l : List ℕ}

/-- The queue has room for `n` nodes and holds those of `l`. -/
structure Pass.Queued (p : Pass σ) (n : ℕ) (l : List ℕ) : Prop where
  length : p.queue.length = n
  queueEnd : p.queueEnd = l.length
  entries : p.enqueued = l

theorem Pass.Queued.enqueue (h : p.Queued n l) (hroom : l.length < n) (node : ℕ) :
    ∃ p', p.enqueue node = .ok p' ∧ p'.Queued n (l ++ [node]) ∧ p'.state = p.state ∧
      p'.queueBegin = p.queueBegin ∧ p'.edge = p.edge := by
  have hlt : p.queueEnd < p.queue.length := by
    rw [h.queueEnd, h.length]
    exact hroom
  refine ⟨{ p with queue := p.queue.set p.queueEnd node, queueEnd := p.queueEnd + 1 }, ?_,
    ⟨?_, ?_, ?_⟩, rfl, rfl, rfl⟩
  · rw [Pass.enqueue, store_eq hlt]
    rfl
  · dsimp only
    rw [length_set, h.length]
  · rw [length_append, length_singleton, ← h.queueEnd]
  · rw [Pass.enqueued, take_set_succ hlt, ← h.entries]
    rfl

theorem Pass.Queued.get (h : p.Queued n l) {i node : ℕ} (hnode : l[i]? = some node) :
    p.queue[i]? = some node := by
  have hi := (List.getElem?_eq_some_iff.mp hnode).1
  rw [← h.queueEnd] at hi
  rw [← h.entries, Pass.enqueued, List.getElem?_take_of_lt hi] at hnode
  exact hnode

/-- The pass is at the vertices and the successors of the worklist. -/
structure Pass.Tracks (links : Links) (n : ℕ) (w : Work τ ℕ) (l : List ℕ) (p : Pass σ) : Prop where
  queued : p.Queued n (w.done ++ w.waiting)
  queueBegin : p.queueBegin = w.done.length
  chain : links.Chain p.edge l

/-- No vertex is met twice, and the vertices are numbers below `n`. -/
structure MeetsOnce (n : ℕ) (Q : List ℕ → Work τ ℕ → Prop) : Prop where
  nodup : ∀ l w, Q l w → (w.done ++ w.waiting).Nodup
  lt : ∀ l w, Q l w → ∀ v ∈ w.done ++ w.waiting, v < n

/-- A phase keeps `T` while the worklist makes its steps. -/
structure Phase.Follows (phase : Phase σ) (step : τ → ℕ → τ × Bool)
    (Q : List ℕ → Work τ ℕ → Prop) (T : Work τ ℕ → σ → Prop) : Prop where
  take : ∀ w c u rest, T w c →
    T { w with done := w.done ++ [u], waiting := rest } (phase.take c)
  visit : ∀ w v l c, Q (v :: l) w → T w c →
    ∃ c', phase.visit c v = .ok (c', (step w.state v).2) ∧ T (touch step w v) c'

variable {phase : Phase σ} {step : τ → ℕ → τ × Bool} {succ : ℕ → List ℕ} {links : Links}
  {Q : List ℕ → Work τ ℕ → Prop} {T : Work τ ℕ → σ → Prop} {w : Work τ ℕ}

theorem MeetsOnce.length_le (h : MeetsOnce n Q) (hq : Q l w) :
    w.done.length + w.waiting.length ≤ n := by
  have hle := length_le_of_subset (h.nodup l w hq) fun v hv => mem_range.mpr (h.lt l w hq v hv)
  rw [length_append, length_range] at hle
  exact hle

theorem Pass.Tracks.pop (h : p.Tracks links n w []) {u : ℕ} {rest : List ℕ}
    (hw : w.waiting = u :: rest)
    (hheads : ∃ edge, links.heads[u]? = some edge ∧ links.Chain edge (succ u)) :
    ∃ p', p.step links phase = .ok (some p') ∧ p'.state = phase.take p.state ∧
      p'.Tracks links n { w with done := w.done ++ [u], waiting := rest } (succ u) := by
  obtain ⟨edge, hedge, hchain⟩ := hheads
  have hover := h.chain.eq_sizeMax
  have hnode : (w.done ++ w.waiting)[p.queueBegin]? = some u := by
    rw [h.queueBegin, hw, getElem?_append_right (Nat.le_refl _), Nat.sub_self]
    rfl
  have hlt : p.queueBegin < p.queueEnd := by
    rw [h.queued.queueEnd]
    exact (List.getElem?_eq_some_iff.mp hnode).1
  have hload := h.queued.get hnode
  have hlist : w.done ++ w.waiting = w.done ++ [u] ++ rest := by
    rw [hw, append_assoc, singleton_append]
  refine ⟨⟨phase.take p.state, p.queue, p.queueBegin + 1, p.queueEnd, edge⟩, ?_, rfl, ?_, ?_,
    hchain⟩
  · rw [Pass.step, if_neg (not_not.mpr hover), if_pos hlt, load_eq hload, ok_bind, load_eq hedge]
    rfl
  · have hqueued := h.queued
    rw [hlist] at hqueued
    exact ⟨hqueued.length, hqueued.queueEnd, hqueued.entries⟩
  · rw [length_append, length_singleton, ← h.queueBegin]

theorem Pass.Tracks.push {v : ℕ} (h : p.Tracks links n w (v :: l)) {c : σ}
    (hvisit : phase.visit p.state v = .ok (c, (step w.state v).2))
    (hroom : (touch step w v).done.length + (touch step w v).waiting.length ≤ n) :
    ∃ p', p.step links phase = .ok (some p') ∧ p'.state = c ∧
      p'.Tracks links n (touch step w v) l := by
  obtain ⟨hne, htarget, following, hnext, hrest⟩ := h.chain.first
  have hqueued : ({ p with state := c } : Pass σ).Queued n (w.done ++ w.waiting) :=
    ⟨h.queued.length, h.queued.queueEnd, h.queued.entries⟩
  rw [Pass.step, if_pos hne, load_eq htarget, ok_bind, hvisit, ok_bind]
  dsimp only
  cases hready : (step w.state v).2 with
  | true =>
    have htouch : touch step w v = ⟨(step w.state v).1, w.done, w.waiting ++ [v]⟩ := by
      simp [touch, hready]
    rw [htouch] at hroom ⊢
    rw [length_append, length_singleton] at hroom
    have hlt : (w.done ++ w.waiting).length < n := by
      rw [length_append]
      exact hroom
    obtain ⟨p', hp', hqueue, hstate, hbegin, -⟩ := hqueued.enqueue hlt v
    rw [if_pos rfl, hp', ok_bind, load_eq hnext, ok_bind]
    rw [append_assoc] at hqueue
    exact ⟨_, rfl, hstate, ⟨hqueue.length, hqueue.queueEnd, hqueue.entries⟩,
      hbegin.trans h.queueBegin, hrest⟩
  | false =>
    have htouch : touch step w v = ⟨(step w.state v).1, w.done, w.waiting⟩ := by
      simp [touch, hready]
    rw [htouch, if_neg Bool.false_ne_true, pure_eq_ok, ok_bind, load_eq hnext, ok_bind]
    exact ⟨_, rfl, rfl, ⟨hqueued.length, hqueued.queueEnd, hqueued.entries⟩, h.queueBegin, hrest⟩

theorem Pass.Tracks.stop (h : p.Tracks links n w []) (hw : w.waiting = []) :
    p.step links phase = .ok none := by
  have hempty : ¬p.queueBegin < p.queueEnd := by
    rw [h.queueBegin, h.queued.queueEnd, hw, append_nil]
    exact Nat.lt_irrefl _
  rw [Pass.step, if_neg (not_not.mpr h.chain.eq_sizeMax), if_neg hempty]
  rfl

/-- What relates a pass to a state of its worklist. -/
structure Pass.Related (links : Links) (n : ℕ) (Q : List ℕ → Work τ ℕ → Prop)
    (T : Work τ ℕ → σ → Prop) (c : Work τ ℕ × List ℕ) (p : Pass σ) : Prop where
  invariant : Q c.2 c.1
  state : T c.1 p.state
  tracks : p.Tracks links n c.1 c.2

theorem simulates_step (hQ : Invariant step succ (Q []) Q) (hmeets : MeetsOnce n Q)
    (hphase : phase.Follows step Q T)
    (hheads : ∀ u < n, ∃ edge, links.heads[u]? = some edge ∧ links.Chain edge (succ u)) :
    Simulates (advance step succ) (Pass.step links phase) (Pass.Related links n Q T) := by
  intro ⟨w, l⟩ p ⟨hinvariant, hstate, htracks⟩
  cases l with
  | cons v l =>
    obtain ⟨c, hvisit, hc⟩ := hphase.visit w v l p.state hinvariant hstate
    have hnext := hQ.push w v l hinvariant
    obtain ⟨p', hp', hp'state, hp'tracks⟩ := htracks.push hvisit (hmeets.length_le hnext)
    rw [← hp'state] at hc
    exact ⟨_, hp', .some ⟨hnext, hc, hp'tracks⟩⟩
  | nil =>
    cases hw : w.waiting with
    | nil =>
      have hnone : advance step succ (w, []) = none := by rw [advance, hw]
      refine ⟨none, htracks.stop hw, ?_⟩
      rw [hnone]
      exact .none
    | cons u rest =>
      have hu : u ∈ w.done ++ w.waiting := by
        rw [hw]
        exact mem_append_right _ mem_cons_self
      obtain ⟨p', hp', hp'state, hp'tracks⟩ :=
        htracks.pop hw (hheads u (hmeets.lt [] w hinvariant u hu))
      have htake := hphase.take w p.state u rest hstate
      rw [← hp'state] at htake
      refine ⟨some p', hp', ?_⟩
      rw [advance_pop hw]
      exact .some ⟨hQ.pop w u rest hinvariant hw, htake, hp'tracks⟩

theorem run_ok {m fuel : ℕ}
    (hsim : Simulates (advance step succ) (Pass.step links phase) (Pass.Related links n Q T))
    (hmeets : MeetsOnce n Q) (hsucc : ∀ u, (succ u).length ≤ m)
    (hstart : p.Related links n Q T (w, [])) (hdone : w.done = [])
    (hdry : (drain step succ fuel w).waiting = []) :
    ∃ p', runFor (Pass.step links phase) (n * (m + 1) + 1) p = .ok p' ∧
      p'.Related links n Q T (drain step succ fuel w, []) := by
  have hfuel : stepsLeft n m (w, []) < n * (m + 1) + 1 := by
    rw [stepsLeft, hdone]
    exact Nat.lt_succ_self _
  obtain ⟨c, p', hrun, heval, hend⟩ := hsim.runFor (stepsLeft n m)
    (fun c p c' hR hstep => stepsLeft_advance hstep (hmeets.length_le hR.invariant) hsucc) hstart hfuel
  rw [Part.mem_unique heval (drain_mem_eval hdry)] at hend
  exact ⟨p', hrun, hend⟩

end Turns

/-- The counters are those of the worklist, and the nodes that are done have been counted. -/
structure Counters.Counts (n : ℕ) (w : Work (ℕ → ℕ) ℕ) (c : Counters) : Prop where
  incoming : Holds UInt32.toNat c.incoming n n w.state
  processed : c.processed = w.done.length

theorem counted_meets (n : ℕ) (succ : ℕ → List ℕ) :
    MeetsOnce n (Counted (List.range n) succ) where
  nodup _ _ h := h.nodup
  lt _ _ h v hv := mem_range.mp (h.subset v hv)

theorem topological_follows (n : ℕ) (succ : ℕ → List ℕ) :
    topological.Follows kahnStep (Counted (List.range n) succ) (Counters.Counts n) where
  take w c u rest h := by
    refine ⟨h.incoming, ?_⟩
    rw [length_append, length_singleton, ← h.processed]
    rfl
  visit w v l c hq h := by
    have hv := mem_range.mp (hq.touched v mem_cons_self)
    obtain ⟨incoming, hload, hvalue⟩ := h.incoming.get hv
    have hpos := hq.state_ne_zero
    -- The counter is not zero, so that taking one off it does not wrap.
    have hpred : (incoming - 1).toNat = w.state v - 1 := by
      have hone : (1 : UInt32) ≤ incoming := by
        rw [UInt32.le_iff_toNat_le, UInt32.toNat_one]
        omega
      rw [UInt32.toNat_sub_of_le _ _ hone, hvalue, UInt32.toNat_one]
    have hzero : (incoming - 1 == 0) = (kahnStep w.state v).2 := by
      rw [Bool.eq_iff_iff, beq_iff_eq, ← UInt32.toNat_inj, hpred]
      exact beq_iff_eq.symm
    have hset := h.incoming.set hv (incoming - 1)
    rw [hpred] at hset
    refine ⟨{ c with incoming := c.incoming.set v (incoming - 1) }, ?_, hset, h.processed⟩
    rw [← hzero]
    simp only [topological]
    rw [load_eq hload, ok_bind, h.incoming.store hv]
    rfl

def Marks (n : ℕ) (w : Work (ℕ → Bool) ℕ) (reachable : List Bool) : Prop :=
  Holds id reachable n n w.state

theorem marked_meets (n : ℕ) (roots : List ℕ) (succ : ℕ → List ℕ) :
    MeetsOnce n (Marked (List.range n) roots succ) where
  nodup _ _ h := h.nodup
  lt _ _ h v hv := mem_range.mp (h.subset v hv)

theorem reachability_follows (n : ℕ) (roots : List ℕ) (succ : ℕ → List ℕ) :
    reachability.Follows reachStep (Marked (List.range n) roots succ) (Marks n) where
  take _ _ _ _ h := h
  visit w v l reachable hq h := by
    have hv := mem_range.mp (hq.touched v mem_cons_self).1
    obtain ⟨mark, hload, hmark⟩ := Holds.get h hv
    simp only [reachability]
    rw [load_eq hload, ok_bind]
    rw [id_eq] at hmark
    cases mark with
    | true =>
      have hsame : Function.update w.state v true = w.state := by
        rw [hmark]
        exact Function.update_eq_self v w.state
      refine ⟨reachable, ?_, ?_⟩
      · simp [reachStep, ← hmark]
      · rw [touch, reachStep, hsame]
        exact h
    | false =>
      refine ⟨reachable.set v true, ?_, Holds.set h hv true⟩
      rw [if_neg Bool.false_ne_true, Holds.store h hv]
      simp [reachStep, ← hmark]

section Starts
variable {σ : Type} {n : ℕ} {queue : List ℕ}

theorem seed_ok {body : Pass σ → ℕ → Run Status (Pass σ)} {K : ℕ → σ → Prop} (test : ℕ → Bool)
    (hqueue : queue.length = n) {c : σ} (hstart : K 0 c)
    (hpass : ∀ i p, i < n → K i p.state → test i = true →
      ∃ c, body p i = ({ p with state := c } : Pass σ).enqueue i ∧ K (i + 1) c)
    (hfail : ∀ i p, i < n → K i p.state → test i = false →
      body p i = .ok p ∧ K (i + 1) p.state) :
    ∃ p, loop n body ⟨c, queue, 0, 0, sizeMax⟩ = .ok p ∧
      p.Queued n ((List.range n).filter test) ∧ p.queueBegin = 0 ∧ p.edge = sizeMax ∧
        K n p.state := by
  refine loop_ok (I := fun i (p : Pass σ) => p.Queued n ((List.range i).filter test) ∧
    p.queueBegin = 0 ∧ p.edge = sizeMax ∧ K i p.state) ⟨⟨hqueue, rfl, rfl⟩, rfl, rfl, hstart⟩ ?_
  intro i p hi ⟨hqueued, hbegin, hedge, hK⟩
  rw [range_succ, filter_append]
  cases htest : test i with
  | true =>
    obtain ⟨c, hbody, hK'⟩ := hpass i p hi hK htest
    have hroom : ((List.range i).filter test).length < n := by
      have hle := length_filter_le test (List.range i)
      rw [length_range] at hle
      omega
    have hqueued' : ({ p with state := c } : Pass σ).Queued n ((List.range i).filter test) :=
      ⟨hqueued.length, hqueued.queueEnd, hqueued.entries⟩
    obtain ⟨p', hp', hq, hstate, hbegin', hedge'⟩ := hqueued'.enqueue hroom i
    rw [filter_singleton, htest, hbody]
    refine ⟨p', hp', hq, hbegin'.trans hbegin, hedge'.trans hedge, ?_⟩
    rw [hstate]
    exact hK'
  | false =>
    obtain ⟨hbody, hK'⟩ := hfail i p hi hK htest
    rw [filter_singleton, htest, hbody]
    refine ⟨p, rfl, ?_, hbegin, hedge, hK'⟩
    rw [cond_false, append_nil]
    exact hqueued

end Starts

end Kobox.Closure.Arrays
