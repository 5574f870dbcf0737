import Kobox.Closure.Passes

/-!
# Graph validation on arrays (`src/closure.c:771-904`)
-/

namespace Kobox.Closure.Arrays
open Control (Status)
open Checked Worklist StateTransition List

/-! ### The worklists of the two passes -/

/-- The arrays hold the edges that the dependencies stand for. -/
structure Links.Stand (links : Links) (s : Storage) (a : Adjacency) (edges : List (ℕ × ℕ)) :
    Prop where
  represents : links.Represents s edges.length a
  holds : a.Holds edges
  joins : List.Forall₂ (Joins s (Closure.buildNodeMap s)) s.dependencies.records edges

section Runs
variable {s : Storage} {links : Links} {a : Adjacency} {edges : List (ℕ × ℕ)} {queue : List ℕ}
  (hcount : s.artifacts.records.length = s.artifacts.count)
  (hids : (s.artifacts.records.map ArtifactRecord.nodeId).Nodup)
  (hlinks : links.Stand s a edges)

include hlinks in
theorem Links.Stand.successors_length_le
    (hdeps : s.dependencies.records.length = s.dependencies.count) (u : ℕ) :
    (successors edges u).length ≤ s.dependencies.count := by
  rw [successors, length_reverse, length_map, ← hdeps, hlinks.joins.length_eq]
  exact length_filter_le _ _

include hcount hids hlinks

theorem closed_edges : Closed (List.range s.artifacts.count) (successors edges) := by
  rw [← hcount]
  exact edges_closed hids hlinks.joins

theorem topological_simulates :
    Simulates (advance kahnStep (successors edges)) (Pass.step links topological)
      (Pass.Related links s.artifacts.count
        (Counted (List.range s.artifacts.count) (successors edges))
        (Counters.Counts s.artifacts.count)) :=
  simulates_step (counted_invariant nodup_range (closed_edges hcount hids hlinks))
    (counted_meets _ _) (topological_follows _ _) fun _ hu => hlinks.represents.heads_chain hlinks.holds hu

theorem reachability_simulates (roots : List ℕ) :
    Simulates (advance reachStep (successors edges)) (Pass.step links reachability)
      (Pass.Related links s.artifacts.count
        (Marked (List.range s.artifacts.count) roots (successors edges))
        (Marks s.artifacts.count)) :=
  simulates_step (marked_invariant (closed_edges hcount hids hlinks))
    (marked_meets _ _ _) (reachability_follows _ _ _) fun _ hu => hlinks.represents.heads_chain hlinks.holds hu

theorem incoming_edges (v : ℕ) :
    a.incoming v = edgesInto (List.range s.artifacts.count) (successors edges) [] v := by
  have hsource := edges_source hids hlinks.joins
  rw [hcount] at hsource
  rw [edgesInto_successors nodup_range hsource]
  exact hlinks.holds.incoming v

theorem topologicalStart_ok (hqueue : queue.length = s.artifacts.count) :
    ∃ p, topologicalStart s links queue = .ok p ∧
      p.Related links s.artifacts.count
        (Counted (List.range s.artifacts.count) (successors edges))
        (Counters.Counts s.artifacts.count)
        (⟨a.incoming, [], (List.range s.artifacts.count).filter fun v => a.incoming v == 0⟩, []) := by
  have hrepresents := hlinks.represents
  have hloop : ∃ p, topologicalStart s links queue = .ok p ∧
      p.Queued s.artifacts.count
        ((List.range s.artifacts.count).filter fun v => a.incoming v == 0) ∧
      p.queueBegin = 0 ∧ p.edge = sizeMax ∧ p.state = ⟨links.incoming, 0⟩ := by
    refine seed_ok (K := fun _ (c : Counters) => c = ⟨links.incoming, 0⟩) _ hqueue rfl ?_ ?_
    · intro i p hi hstate htest
      obtain ⟨incoming, hload, hvalue⟩ := hrepresents.incoming.get hi
      have hzero : incoming = 0 := by
        rw [← UInt32.toNat_inj, hvalue]
        exact beq_iff_eq.mp htest
      refine ⟨p.state, ?_, hstate⟩
      rw [hstate, load_eq hload, ok_bind, if_pos hzero, ← hstate]
    · intro i p hi hstate htest
      obtain ⟨incoming, hload, hvalue⟩ := hrepresents.incoming.get hi
      have hzero : ¬incoming = 0 := by
        rw [← UInt32.toNat_inj, hvalue]
        exact beq_eq_false_iff_ne.mp htest
      refine ⟨?_, hstate⟩
      rw [hstate, load_eq hload, ok_bind, if_neg hzero]
      rfl
  obtain ⟨p, hp, hqueued, hbegin, hedge, hstate⟩ := hloop
  refine ⟨p, hp, counted_start nodup_range (incoming_edges hcount hids hlinks), ?_,
    hqueued, hbegin, ?_⟩
  · rw [hstate]
    exact ⟨hrepresents.incoming, rfl⟩
  · rw [hedge]
    exact .nil

omit hcount hids hlinks in
theorem decide_mem_filter_range (test : ℕ → Bool) (i : ℕ) :
    (fun v => decide (v ∈ (List.range (i + 1)).filter test)) =
      Function.update (fun v => decide (v ∈ (List.range i).filter test)) i (test i) := by
  funext v
  by_cases hv : v = i
  · rw [hv, Function.update_self]
    simp
  · rw [Function.update_of_ne hv, range_succ, filter_append]
    simp [hv]

omit hids hlinks in
theorem reachabilityStart_ok (hqueue : queue.length = s.artifacts.count) :
    ∃ p, reachabilityStart s queue = .ok p ∧
      p.Related links s.artifacts.count
        (Marked (List.range s.artifacts.count) (rootIndices s) (successors edges))
        (Marks s.artifacts.count)
        (⟨fun v => decide (v ∈ rootIndices s), [], rootIndices s⟩, []) := by
  have hloop : ∃ p, reachabilityStart s queue = .ok p ∧
      p.Queued s.artifacts.count (rootIndices s) ∧ p.queueBegin = 0 ∧ p.edge = sizeMax ∧
        Holds id p.state s.artifacts.count s.artifacts.count
          (fun v => decide (v ∈ rootIndices s)) := by
    refine seed_ok (K := fun i reachable => Holds id reachable s.artifacts.count s.artifacts.count
      fun v => decide (v ∈ (List.range i).filter fun index =>
        (s.artifacts.records[index]?).any ArtifactRecord.isRoot)) _ hqueue
      (holds_replicate false) ?_ ?_
    · intro i p hi hmarks htest
      have hrecord := getElem?_eq_getElem (hi.trans_eq hcount.symm)
      have hroot : (s.artifacts.records[i]).isRoot = true := by
        rw [hrecord] at htest
        exact htest
      refine ⟨p.state.set i true, ?_, ?_⟩
      · rw [load_eq hrecord, ok_bind, if_pos hroot, hmarks.store hi]
        rfl
      · rw [decide_mem_filter_range, htest]
        exact hmarks.set hi true
    · intro i p hi hmarks htest
      have hrecord := getElem?_eq_getElem (hi.trans_eq hcount.symm)
      have hroot : ¬(s.artifacts.records[i]).isRoot = true := by
        rw [hrecord] at htest
        exact Bool.eq_false_iff.mp htest
      refine ⟨?_, ?_⟩
      · rw [load_eq hrecord, ok_bind, if_neg hroot]
        rfl
      · rw [range_succ, filter_append, filter_singleton, htest]
        simpa using hmarks
  obtain ⟨p, hp, hqueued, hbegin, hedge, hmarks⟩ := hloop
  have hroots : ∀ r ∈ rootIndices s, r ∈ List.range s.artifacts.count :=
    fun r hr => (mem_filter.mp hr).1
  refine ⟨p, hp, marked_start (nodup_range.filter _) hroots, hmarks, hqueued,
    hbegin, ?_⟩
  rw [hedge]
  exact .nil

theorem topologicalPass_ok (hdeps : s.dependencies.records.length = s.dependencies.count)
    (hqueue : queue.length = s.artifacts.count) :
    ∃ p, topologicalPass s links queue = .ok p ∧ p.queue.length = s.artifacts.count ∧
      p.state.processed = (kahn (List.range s.artifacts.count) (successors edges)
        a.incoming).done.length := by
  have hin := incoming_edges hcount hids hlinks
  have hclosed := closed_edges hcount hids hlinks
  obtain ⟨p, hp, hrelated⟩ := topologicalStart_ok hcount hids hlinks hqueue
  obtain ⟨p', hrun, hend⟩ := run_ok (topological_simulates hcount hids hlinks)
    (counted_meets _ _) (hlinks.successors_length_le hdeps) hrelated rfl
    (counted_kahn nodup_range hclosed hin).2
  refine ⟨p', ?_, hend.tracks.queued.length, hend.state.processed⟩
  rw [topologicalPass, hp]
  exact hrun

theorem reachabilityPass_ok (hdeps : s.dependencies.records.length = s.dependencies.count)
    (hqueue : queue.length = s.artifacts.count) :
    ∃ p, reachabilityPass s links queue = .ok p ∧
      Holds id p.state s.artifacts.count s.artifacts.count
        (reach (List.range s.artifacts.count) (rootIndices s) (successors edges)).state := by
  have hclosed := closed_edges hcount hids hlinks
  obtain ⟨p, hp, hrelated⟩ := reachabilityStart_ok hcount hqueue
  obtain ⟨p', hrun, hend⟩ := run_ok (reachability_simulates hcount hids hlinks (rootIndices s))
    (marked_meets _ _ _) (hlinks.successors_length_le hdeps) hrelated rfl
    (marked_reach hclosed (nodup_range.filter _) fun r hr => (mem_filter.mp hr).1).2
  refine ⟨p', ?_, hend.state⟩
  rw [reachabilityPass, hp]
  exact hrun

end Runs

theorem checkReachable_eq {s : Storage} {reachable : List Bool} {f : ℕ → Bool}
    (h : Holds id reachable s.artifacts.count s.artifacts.count f) :
    checkReachable s reachable = if (List.range s.artifacts.count).all f = false then
      .error (.finish .invalidConfiguration) else .ok () := by
  have hturns : ∀ k ≤ s.artifacts.count, loop k (fun _ index => do
      if (← load reachable index) = false then throw (.finish .invalidConfiguration)) () =
        if (List.range k).all f = false then
          (.error (.finish .invalidConfiguration) : Run Status Unit) else .ok () := by
    intro k hk
    induction k with
    | zero => rfl
    | succ k ih =>
      obtain ⟨mark, hload, hmark⟩ := h.get hk
      rw [loop_succ, ih (Nat.le_of_succ_le hk), range_succ, all_append]
      cases hall : (List.range k).all f with
      | false => rfl
      | true =>
        rw [if_neg (by decide), ok_bind, load_eq hload, ok_bind, Bool.true_and, all_cons,
          all_nil, Bool.and_true, ← hmark]
        rfl
  exact hturns _ (Nat.le_refl _)

section Whole
variable {s : Storage} (hcount : s.artifacts.records.length = s.artifacts.count)
  (hids : (s.artifacts.records.map ArtifactRecord.nodeId).Nodup)
  (hdeps : s.dependencies.records.length = s.dependencies.count)
  (hmax : s.dependencies.count ≤ maxDependencies) (memory : Memory s)

include hcount hids hdeps hmax

theorem linkDependencies_stand {links : Links}
    (h : linkDependencies s memory (Closure.buildNodeMap s) = .ok links) :
    ∃ a edges, Closure.linkDependencies s (Closure.buildNodeMap s) s.dependencies.records 0 .empty =
      some a ∧ links.Stand s a edges := by
  have hagrees := linkDependencies_agrees hcount hids memory hdeps hmax
  rw [h] at hagrees
  cases hlink : Closure.linkDependencies s (Closure.buildNodeMap s) s.dependencies.records 0
      .empty with
  | none =>
    rw [hlink] at hagrees
    cases hagrees
  | some a =>
    rw [hlink] at hagrees
    obtain ⟨links', heq, hrepresents⟩ := hagrees
    obtain rfl := Except.ok.inj heq
    obtain ⟨edges, hedges, hholds⟩ := linkDependencies_holds Adjacency.holds_empty hlink
    rw [nil_append] at hholds
    rw [← hdeps, hedges.length_eq] at hrepresents
    exact ⟨a, edges, rfl, hrepresents, hholds, hedges⟩

theorem validateGraph_status (grants : ℕ → Bool) (n : ℕ) :
    status (validateGraph s memory (Closure.buildNodeMap s) grants n) =
      some (Closure.validateGraph s (Closure.buildNodeMap s) grants n) := by
  unfold validateGraph Closure.validateGraph
  cases hgranted : graphAllocated s grants n with
  | false => rfl
  | true =>
    rw [if_neg (by decide), if_neg (by decide)]
    cases hlinked : linkDependencies s memory (Closure.buildNodeMap s) with
    | error e =>
      have hagrees := linkDependencies_agrees hcount hids memory hdeps hmax
      rw [hlinked] at hagrees
      cases hlink : Closure.linkDependencies s (Closure.buildNodeMap s) s.dependencies.records 0
          .empty with
      | none =>
        rw [hlink] at hagrees
        rw [show (Except.error e : Run Status Links) = _ from hagrees]
        rfl
      | some a =>
        rw [hlink] at hagrees
        obtain ⟨links, heq, -⟩ := hagrees
        cases heq
    | ok links =>
      obtain ⟨a, edges, hlink, hlinks⟩ :=
        linkDependencies_stand hcount hids hdeps hmax memory hlinked
      have hchain : (fun node => a.chain s.dependencies.count (a.heads node)) =
          successors edges := by
        funext node
        refine hlinks.holds.chain node _ ?_
        rw [← hlinks.joins.length_eq, hdeps]
      obtain ⟨sorted, hsorted, hlength, hprocessed⟩ :=
        topologicalPass_ok hcount hids hlinks hdeps memory.queue_length
      obtain ⟨reached, hreached, hmarks⟩ :=
        reachabilityPass_ok hcount hids hlinks hdeps hlength
      rw [hlink, ok_bind, hsorted, ok_bind, hprocessed]
      dsimp only
      rw [hchain]
      split_ifs with hcyclic hrooted
      · rfl
      · rw [hreached, ok_bind, checkReachable_eq hmarks, if_pos hrooted]
        rfl
      · rw [hreached, ok_bind, checkReachable_eq hmarks, if_neg hrooted]
        rfl

end Whole

/-! ### States of the passes -/

def TopologicalState (s : Storage) (memory : Memory s) (map : List NodeMapEntry) (links : Links)
    (p : Pass Counters) : Prop :=
  linkDependencies s memory map = .ok links ∧
    ∃ start, topologicalStart s links memory.queue = .ok start ∧
      Passes (Pass.step links topological) start p

def ReachabilityState (s : Storage) (memory : Memory s) (map : List NodeMapEntry) (links : Links)
    (p : Pass (List Bool)) : Prop :=
  linkDependencies s memory map = .ok links ∧
    ∃ sorted start, topologicalPass s links memory.queue = .ok sorted ∧
      sorted.state.processed = s.artifacts.count ∧
      reachabilityStart s sorted.queue = .ok start ∧ Passes (Pass.step links reachability) start p

/-- No node is in the queue twice, and a turn puts at most one node into it, after the others. -/
structure Pass.Once {σ : Type} (links : Links) (phase : Phase σ) (p : Pass σ) : Prop where
  room : p.queueEnd ≤ p.queue.length
  nodup : p.enqueued.Nodup
  grows : ∀ p', p.step links phase = .ok (some p') →
    p'.enqueued = p.enqueued ∨ ∃ node, p'.enqueued = p.enqueued ++ [node]

def Pass.CountsDown (links : Links) (p : Pass Counters) : Prop :=
  p.edge ≠ sizeMax → ∃ provider incoming, links.targets[p.edge]? = some provider ∧
    p.state.incoming[provider]? = some incoming ∧ incoming ≠ 0

section States

theorem Pass.Related.once {σ τ : Type} {p : Pass σ} {phase : Phase σ} {links : Links} {n : ℕ}
    {step : τ → ℕ → τ × Bool} {succ : ℕ → List ℕ} {Q : List ℕ → Work τ ℕ → Prop}
    {T : Work τ ℕ → σ → Prop} {c : Work τ ℕ × List ℕ} (h : p.Related links n Q T c)
    (hsim : Simulates (advance step succ) (Pass.step links phase) (Pass.Related links n Q T))
    (hmeets : MeetsOnce n Q) : p.Once links phase where
  room := by
    have hle := hmeets.length_le h.invariant
    rw [← length_append, ← h.tracks.queued.queueEnd] at hle
    rw [h.tracks.queued.length]
    exact hle
  nodup := by
    rw [h.tracks.queued.entries]
    exact hmeets.nodup _ _ h.invariant
  grows p' hstep := by
    obtain ⟨o, ho, hrel⟩ := hsim _ _ h
    rw [hstep] at ho
    obtain rfl := Except.ok.inj ho
    generalize hnext : advance step succ c = x at hrel
    cases hrel with
    | some h' =>
      rw [h'.tracks.queued.entries, h.tracks.queued.entries]
      exact advance_met hnext

theorem Pass.Related.countsDown {p : Pass Counters} {links : Links} {n : ℕ} {succ : ℕ → List ℕ}
    {c : Work (ℕ → ℕ) ℕ × List ℕ}
    (h : p.Related links n (Counted (List.range n) succ) (Counters.Counts n) c) :
    p.CountsDown links := by
  intro hedge
  obtain ⟨w, l⟩ := c
  obtain ⟨hcounted, hcounts, htracks⟩ := h
  cases l with
  | nil => exact absurd htracks.chain.eq_sizeMax hedge
  | cons v l =>
    obtain ⟨-, htarget, -⟩ := htracks.chain.first
    have hv := mem_range.mp (hcounted.touched v mem_cons_self)
    obtain ⟨incoming, hload, hvalue⟩ := hcounts.incoming.get hv
    refine ⟨v, incoming, htarget, hload, fun hzero => hcounted.state_ne_zero ?_⟩
    rw [← hvalue, hzero]
    rfl

variable {s : Storage} (hcount : s.artifacts.records.length = s.artifacts.count)
  (hids : (s.artifacts.records.map ArtifactRecord.nodeId).Nodup)
  (hdeps : s.dependencies.records.length = s.dependencies.count)
  (hmax : s.dependencies.count ≤ maxDependencies) {memory : Memory s} {links : Links}

include hcount hids hdeps hmax

theorem TopologicalState.once {p : Pass Counters}
    (h : TopologicalState s memory (Closure.buildNodeMap s) links p) :
    p.Once links topological ∧ p.CountsDown links := by
  obtain ⟨hlinked, start, hstart, hpasses⟩ := h
  obtain ⟨a, edges, -, hlinks⟩ := linkDependencies_stand hcount hids hdeps hmax memory hlinked
  have hsim := topological_simulates hcount hids hlinks
  obtain ⟨p₀, hp₀, hrelated⟩ := topologicalStart_ok hcount hids hlinks memory.queue_length
  rw [hstart] at hp₀
  obtain rfl := Except.ok.inj hp₀
  obtain ⟨c, -, hp⟩ := hsim.passes hrelated hpasses
  exact ⟨hp.once hsim (counted_meets _ _), hp.countsDown⟩

theorem ReachabilityState.once {p : Pass (List Bool)}
    (h : ReachabilityState s memory (Closure.buildNodeMap s) links p) :
    p.Once links reachability := by
  obtain ⟨hlinked, sorted, start, hsorted, -, hstart, hpasses⟩ := h
  obtain ⟨a, edges, -, hlinks⟩ := linkDependencies_stand hcount hids hdeps hmax memory hlinked
  have hsim := reachability_simulates hcount hids hlinks (rootIndices s)
  obtain ⟨q, hq, hlength, -⟩ := topologicalPass_ok hcount hids hlinks hdeps memory.queue_length
  rw [hsorted] at hq
  obtain rfl := Except.ok.inj hq
  obtain ⟨p₀, hp₀, hrelated⟩ := reachabilityStart_ok hcount hlength
  rw [hstart] at hp₀
  obtain rfl := Except.ok.inj hp₀
  obtain ⟨c, -, hp⟩ := hsim.passes hrelated hpasses
  exact hp.once hsim (marked_meets _ _ _)

end States

/-- On any table of nodes and any dependencies the node map finds the nodes, the validation
decides what a valid graph is, and its two passes put no node into the queue twice. -/
theorem graph_validation_correct (s : Storage)
    (hartifacts : s.artifacts.count ≤ s.artifacts.capacity)
    (hdependencies : s.dependencies.count ≤ s.dependencies.capacity)
    (hids : (s.artifacts.records.map ArtifactRecord.nodeId).Nodup)
    (hmax : s.dependencies.count ≤ maxDependencies) (memory : Memory s) (n : ℕ) :
    ∃ map, buildNodeMap s memory true = .ok map ∧
      (∀ index a, s.artifacts.records[index]? = some a →
        nodeMapFind map s.artifacts.count a.nodeId = .ok index ∧ index ≠ sizeMax) ∧
      (∀ nodeId, ¬s.records.Declares nodeId →
        nodeMapFind map s.artifacts.count nodeId = .ok sizeMax) ∧
      (status (validateGraph s memory map (fun _ => true) n) = some .ok ↔ s.records.GraphValid) ∧
      (¬s.records.GraphValid →
        status (validateGraph s memory map (fun _ => true) n) = some .invalidConfiguration) ∧
      (∀ links p, TopologicalState s memory map links p →
        p.Once links topological ∧ p.CountsDown links) ∧
      ∀ links p, ReachabilityState s memory map links p → p.Once links reachability := by
  have hcount : s.artifacts.records.length = s.artifacts.count := length_take_of_le hartifacts
  have hdeps : s.dependencies.records.length = s.dependencies.count :=
    length_take_of_le hdependencies
  have hstatus := validateGraph_status hcount hids hdeps hmax memory (fun _ => true) n
  have hdecides := validateGraph_decides hids hcount hdeps hmax n
  refine ⟨Closure.buildNodeMap s, buildNodeMap_ok hcount hids memory, fun index a ha => ?_,
    fun nodeId hnot => nodeMapFind_absent hcount hids hnot, ?_, fun hinvalid => ?_,
    fun links p h => h.once hcount hids hdeps hmax, fun links p h => h.once hcount hids hdeps hmax⟩
  · exact ⟨nodeMapFind_present hcount hids ha,
      index_ne_sizeMax hids ((nodeMapFind_iff hids).mpr ⟨a, ha, rfl⟩)⟩
  · rw [hstatus, Option.some.injEq]
    refine ⟨fun hok => ?_, hdecides.ok⟩
    by_contra hinvalid
    rw [hdecides.refused hinvalid] at hok
    cases hok
  · rw [hstatus, hdecides.refused hinvalid]

def unsortedStorage : Storage :=
  { Storage.created [] with
    artifacts := ⟨[{ ArtifactRecord.zero with nodeId := 7 },
      { ArtifactRecord.zero with nodeId := 3, isRoot := true },
      { ArtifactRecord.zero with nodeId := 5, kind := .sharedProvider }], 3⟩
    dependencies := ⟨[⟨7, 5⟩, ⟨3, 7⟩, ⟨7, 5⟩], 3⟩ }

def usedMemory : Memory unsortedStorage :=
  ⟨[⟨9, 4⟩, ⟨9, 4⟩, ⟨0, 8⟩], [6, 6, 6], [1, 1, 1], [7, 0, 7], rfl, rfl, rfl, rfl⟩

theorem unsorted_graph_valid :
    buildNodeMap unsortedStorage usedMemory true = .ok [⟨3, 1⟩, ⟨5, 2⟩, ⟨7, 0⟩] ∧
      unsortedStorage.records.GraphValid := by
  have hbuilt : buildNodeMap unsortedStorage usedMemory true =
      .ok [⟨3, 1⟩, ⟨5, 2⟩, ⟨7, 0⟩] := by rfl
  obtain ⟨map, hmap, -, -, hvalid, -⟩ := graph_validation_correct unsortedStorage (by decide)
    (by decide) (by decide) (by decide) usedMemory 0
  obtain rfl := Except.ok.inj (hmap.symm.trans hbuilt)
  have hstatus : status (validateGraph unsortedStorage usedMemory [⟨3, 1⟩, ⟨5, 2⟩, ⟨7, 0⟩]
      (fun _ => true) 0) = some .ok := by rfl
  exact ⟨hbuilt, hvalid.mp hstatus⟩

end Kobox.Closure.Arrays
