import Mathlib.Algebra.GroupWithZero.Nat
import Mathlib.Computability.StateTransition
import Mathlib.Data.Fintype.Card
import Mathlib.Data.List.Nodup
import Mathlib.Logic.Relation
import Mathlib.Order.Preorder.Finite
import Mathlib.Order.WellFounded
import Mathlib.Data.Fintype.Order

/-!
# Worklist searches of a finite graph

A waiting vertex is taken off, and `step` is run on each of its successors and says which of them
are to wait. Kahn's count of incoming edges and breadth-first search are two such steps.
-/

namespace Worklist
open List Function

structure Work (σ V : Type) where
  state : σ
  done : List V
  waiting : List V

section Loop
variable {σ V : Type} (step : σ → V → σ × Bool) (succ : V → List V)

def touch (w : Work σ V) (v : V) : Work σ V :=
  { w with
    state := (step w.state v).1
    waiting := if (step w.state v).2 then w.waiting ++ [v] else w.waiting }

def drain : ℕ → Work σ V → Work σ V
  | 0, w => w
  | fuel + 1, w =>
    match w.waiting with
    | [] => w
    | u :: rest =>
      drain fuel ((succ u).foldl (touch step) { w with done := w.done ++ [u], waiting := rest })

variable {step succ} {P : Work σ V → Prop} {Q : List V → Work σ V → Prop}

theorem foldl_touch_done (l : List V) (w : Work σ V) :
    (l.foldl (touch step) w).done = w.done := by
  induction l generalizing w with
  | nil => rfl
  | cons v l ih => exact ih _

/-- An invariant `P` of the loop, with `Q l` while the successors `l` are still to be
touched. -/
structure Invariant (step : σ → V → σ × Bool) (succ : V → List V) (P : Work σ V → Prop)
    (Q : List V → Work σ V → Prop) : Prop where
  pop : ∀ w u rest, P w → w.waiting = u :: rest →
    Q (succ u) { w with done := w.done ++ [u], waiting := rest }
  push : ∀ w v l, Q (v :: l) w → Q l (touch step w v)
  close : ∀ w, Q [] w → P w

section
variable (h : Invariant step succ P Q)
include h

theorem Invariant.foldl (l : List V) (w : Work σ V) (hq : Q l w) : P (l.foldl (touch step) w) := by
  induction l generalizing w with
  | nil => exact h.close w hq
  | cons v l ih => exact ih _ (h.push w v l hq)

theorem Invariant.drain (fuel : ℕ) (w : Work σ V) (hp : P w) : P (drain step succ fuel w) := by
  induction fuel generalizing w with
  | zero => exact hp
  | succ fuel ih =>
    rw [Worklist.drain]
    split
    · exact hp
    · rename_i u rest hwaiting
      exact ih _ (h.foldl _ _ (h.pop w u rest hp hwaiting))

theorem Invariant.drain_waiting {n : ℕ} (hbound : ∀ w, P w → w.done.length + w.waiting.length ≤ n)
    (fuel : ℕ) (w : Work σ V) (hp : P w) (hfuel : n ≤ fuel + w.done.length) :
    (Worklist.drain step succ fuel w).waiting = [] := by
  induction fuel generalizing w with
  | zero =>
    have hle := hbound w hp
    change w.waiting = []
    exact eq_nil_of_length_eq_zero (by omega)
  | succ fuel ih =>
    rw [Worklist.drain]
    split
    · rename_i hwaiting
      exact hwaiting
    · rename_i u rest hwaiting
      refine ih _ (h.foldl _ _ (h.pop w u rest hp hwaiting)) ?_
      rw [foldl_touch_done, length_append, length_singleton]
      omega

end

section Steps
open StateTransition
variable (step succ)

def advance : Work σ V × List V → Option (Work σ V × List V)
  | (w, v :: l) => some (touch step w v, l)
  | (w, []) =>
    match w.waiting with
    | [] => none
    | u :: rest => some ({ w with done := w.done ++ [u], waiting := rest }, succ u)

def stepsLeft (n m : ℕ) (c : Work σ V × List V) : ℕ :=
  (n - c.1.done.length) * (m + 1) + c.2.length

variable {step succ} {w : Work σ V}

theorem advance_pop {u : V} {rest : List V} (h : w.waiting = u :: rest) :
    advance step succ (w, []) =
      some ({ w with done := w.done ++ [u], waiting := rest }, succ u) := by
  rw [advance, h]

variable {c c' : Work σ V × List V}

theorem advance_cases (h : advance step succ c = some c') :
    (∃ w v l, c = (w, v :: l) ∧ c' = (touch step w v, l)) ∨
      ∃ w u rest, c = (w, []) ∧ w.waiting = u :: rest ∧
        c' = ({ w with done := w.done ++ [u], waiting := rest }, succ u) := by
  obtain ⟨w, l⟩ := c
  cases l with
  | cons v l => exact .inl ⟨w, v, l, rfl, (Option.some.inj h).symm⟩
  | nil =>
    cases hwaiting : w.waiting with
    | nil =>
      rw [advance, hwaiting] at h
      cases h
    | cons u rest =>
      rw [advance_pop hwaiting] at h
      exact .inr ⟨w, u, rest, rfl, hwaiting, (Option.some.inj h).symm⟩

theorem advance_met (hstep : advance step succ c = some c') :
    c'.1.done ++ c'.1.waiting = c.1.done ++ c.1.waiting ∨
      ∃ v, c'.1.done ++ c'.1.waiting = c.1.done ++ c.1.waiting ++ [v] := by
  rcases advance_cases hstep with ⟨w, v, l, rfl, rfl⟩ | ⟨w, u, rest, rfl, hwaiting, rfl⟩
  · cases hready : (step w.state v).2 with
    | true =>
      refine .inr ⟨v, ?_⟩
      simp [touch, hready]
    | false =>
      refine .inl ?_
      simp [touch, hready]
  · refine .inl ?_
    dsimp only
    rw [hwaiting, append_assoc, singleton_append]

theorem stepsLeft_advance {n m : ℕ} (hstep : advance step succ c = some c')
    (hn : c.1.done.length + c.1.waiting.length ≤ n) (hm : ∀ u, (succ u).length ≤ m) :
    stepsLeft n m c' < stepsLeft n m c := by
  rcases advance_cases hstep with ⟨w, v, l, rfl, rfl⟩ | ⟨w, u, rest, rfl, hwaiting, rfl⟩
  · exact Nat.add_lt_add_left (Nat.lt_succ_self l.length) _
  · dsimp only at hn
    rw [hwaiting, length_cons] at hn
    have hleft : n - w.done.length = n - (w.done.length + 1) + 1 := by omega
    have hu := hm u
    simp only [stepsLeft, length_append, length_singleton, length_nil]
    rw [hleft, Nat.succ_mul]
    omega

theorem foldl_touch_reaches (l : List V) (w : Work σ V) :
    Reaches (advance step succ) (w, l) (l.foldl (touch step) w, []) := by
  induction l generalizing w with
  | nil => exact .refl
  | cons v l ih => exact .head rfl (ih _)

theorem drain_reaches (fuel : ℕ) (w : Work σ V) :
    Reaches (advance step succ) (w, []) (drain step succ fuel w, []) := by
  induction fuel generalizing w with
  | zero => exact .refl
  | succ fuel ih =>
    cases hwaiting : w.waiting with
    | nil =>
      rw [drain, hwaiting]
      exact .refl
    | cons u rest =>
      rw [drain, hwaiting]
      exact .head (advance_pop hwaiting) ((foldl_touch_reaches _ _).trans (ih _))

theorem drain_mem_eval {fuel : ℕ} (h : (drain step succ fuel w).waiting = []) :
    (drain step succ fuel w, []) ∈ eval (advance step succ) (w, []) := by
  refine mem_eval.mpr ⟨drain_reaches fuel w, ?_⟩
  rw [advance, h]

end Steps

end Loop

section Graph
variable {V : Type} [DecidableEq V] (verts : List V) (succ : V → List V)

def Edge (u v : V) : Prop := u ∈ verts ∧ v ∈ succ u

def Acyclic : Prop := ∀ v, ¬ Relation.TransGen (Edge verts succ) v v

def Closed : Prop := ∀ u v, Edge verts succ u v → v ∈ verts

def edgesInto (done : List V) (v : V) : ℕ :=
  ((verts.filter (· ∉ done)).map fun u => (succ u).count v).sum

variable {verts succ} {done : List V} {u v : V}

theorem edgesInto_eq_zero :
    edgesInto verts succ done v = 0 ↔ ∀ u ∈ verts, v ∈ succ u → u ∈ done := by
  rw [edgesInto, List.sum_eq_zero_iff_forall_eq_nat]
  constructor
  · intro h u hu hv
    by_contra hd
    have hcount := h _ (List.mem_map_of_mem (List.mem_filter.mpr ⟨hu, by simpa using hd⟩))
    exact List.count_eq_zero.mp hcount hv
  · intro h n hn
    obtain ⟨u, hu, rfl⟩ := List.mem_map.mp hn
    obtain ⟨hu, hd⟩ := List.mem_filter.mp hu
    refine List.count_eq_zero.mpr fun hv => ?_
    simp only [decide_not, Bool.not_eq_true', decide_eq_false_iff_not] at hd
    exact hd (h u hu hv)

theorem edgesInto_append (hn : verts.Nodup) (hu : u ∈ verts) (hd : u ∉ done) :
    edgesInto verts succ done v = edgesInto verts succ (done ++ [u]) v + (succ u).count v := by
  have hperm : (verts.filter (· ∉ done)).Perm (u :: verts.filter (· ∉ done ++ [u])) := by
    have hmem : u ∈ verts.filter (· ∉ done) := mem_filter.mpr ⟨hu, by simpa using hd⟩
    have herase : (verts.filter (· ∉ done)).erase u = verts.filter (· ∉ done ++ [u]) := by
      rw [(hn.filter _).erase_eq_filter, filter_filter]
      refine filter_congr fun w _ => ?_
      by_cases hw : w = u <;> simp [hw]
    rw [← herase]
    exact perm_cons_erase hmem
  have hsum := (hperm.map fun u => (succ u).count v).sum_eq
  rw [map_cons, sum_cons] at hsum
  rw [edgesInto, edgesInto, hsum, Nat.add_comm]

end Graph

theorem length_le_of_subset {V : Type} {l l' : List V} (hn : l.Nodup) (hs : ∀ v ∈ l, v ∈ l') :
    l.length ≤ l'.length := (List.Nodup.subperm hn hs).length_le

/-! ### Kahn's algorithm -/

section Kahn
variable {V : Type} [DecidableEq V]

def kahnStep (incoming : V → ℕ) (v : V) : (V → ℕ) × Bool :=
  (update incoming v (incoming v - 1), incoming v - 1 == 0)

def kahn (verts : List V) (succ : V → List V) (incoming : V → ℕ) : Work (V → ℕ) V :=
  drain kahnStep succ verts.length ⟨incoming, [], verts.filter fun v => incoming v == 0⟩

/-- What Kahn's algorithm keeps, with the successors `l` still to be touched. -/
structure Counted (verts : List V) (succ : V → List V) (l : List V) (w : Work (V → ℕ) V) :
    Prop where
  nodup : (w.done ++ w.waiting).Nodup
  subset : ∀ v ∈ w.done ++ w.waiting, v ∈ verts
  incoming : ∀ v, w.state v = edgesInto verts succ w.done v + l.count v
  ready : ∀ v ∈ verts, v ∈ w.done ++ w.waiting ↔ w.state v = 0
  touched : ∀ v ∈ l, v ∈ verts
  before : ∀ p v q, w.done = p ++ v :: q → ∀ u ∈ verts, v ∈ succ u → u ∈ p

variable {verts : List V} {succ : V → List V} {incoming : V → ℕ} {w : Work (V → ℕ) V}

theorem Counted.pop (h : Counted verts succ [] w) (hn : verts.Nodup) (hc : Closed verts succ)
    {u : V} {rest : List V} (hw : w.waiting = u :: rest) :
    Counted verts succ (succ u) { w with done := w.done ++ [u], waiting := rest } := by
  have hlist : w.done ++ w.waiting = w.done ++ [u] ++ rest := by
    rw [hw, append_assoc, singleton_append]
  have hu : u ∈ w.done ++ w.waiting := by
    rw [hw]
    exact mem_append_right _ mem_cons_self
  have huverts := h.subset u hu
  have hud : u ∉ w.done := by
    have hnodup := h.nodup
    rw [hw] at hnodup
    exact fun hd => (nodup_append.mp hnodup).2.2 u hd u mem_cons_self rfl
  have hfree := (h.ready u huverts).mp hu
  refine ⟨?_, ?_, fun v => ?_, ?_, fun v hv => hc u v ⟨huverts, hv⟩, fun p v q hq x hx hv => ?_⟩
  · rw [← hlist]
    exact h.nodup
  · rw [← hlist]
    exact h.subset
  · have hv := h.incoming v
    rw [count_nil, Nat.add_zero, edgesInto_append hn huverts hud] at hv
    exact hv
  · rw [← hlist]
    exact h.ready
  · -- The vertex taken off has no edge from a vertex that is not done.
    rcases eq_nil_or_concat q with rfl | ⟨q', y, rfl⟩
    · obtain ⟨rfl, he⟩ := append_inj' hq rfl
      obtain rfl := singleton_inj.mp he
      rw [h.incoming, count_nil, Nat.add_zero] at hfree
      exact edgesInto_eq_zero.mp hfree x hx hv
    · rw [concat_eq_append, ← cons_append, ← append_assoc] at hq
      exact h.before p v q' (append_inj' hq rfl).1 x hx hv

variable {l : List V}

theorem Counted.state_ne_zero {v : V} (h : Counted verts succ (v :: l) w) : w.state v ≠ 0 := by
  rw [h.incoming, count_cons_self]
  omega

theorem Counted.length_le (h : Counted verts succ l w) :
    w.done.length + w.waiting.length ≤ verts.length := by
  rw [← length_append]
  exact length_le_of_subset h.nodup h.subset

theorem Counted.push {v : V} (h : Counted verts succ (v :: l) w) :
    Counted verts succ l (touch kahnStep w v) := by
  have hv := h.touched v mem_cons_self
  have hstate : w.state v = edgesInto verts succ w.done v + (l.count v + 1) := by
    rw [h.incoming, count_cons_self]
  have hne := h.state_ne_zero
  have hnot : v ∉ w.done ++ w.waiting := fun hm => hne ((h.ready v hv).mp hm)
  have hincoming : ∀ x, update w.state v (w.state v - 1) x =
      edgesInto verts succ w.done x + l.count x := by
    intro x
    by_cases hx : x = v
    · subst hx
      rw [update_self]
      omega
    · rw [update_of_ne hx, h.incoming, count_cons_of_ne (Ne.symm hx)]
  have hready : ∀ x ∈ verts, x ≠ v → (x ∈ w.done ++ w.waiting ↔
      update w.state v (w.state v - 1) x = 0) := by
    intro x hx hxv
    rw [update_of_ne hxv]
    exact h.ready x hx
  have hself : update w.state v (w.state v - 1) v = w.state v - 1 :=
    update_self v _ _
  by_cases hz : w.state v - 1 = 0
  · have htouch : touch kahnStep w v =
        ⟨update w.state v (w.state v - 1), w.done, w.waiting ++ [v]⟩ := by
      simp [touch, kahnStep, hz]
    rw [htouch]
    refine ⟨?_, fun x hx => ?_, hincoming, fun x hx => ?_, fun x hx => h.touched x
      (mem_cons_of_mem v hx), h.before⟩
    · rw [← append_assoc]
      exact nodup_append.mpr ⟨h.nodup, nodup_singleton v,
        fun a ha b hb he => hnot (mem_singleton.mp hb ▸ he ▸ ha)⟩
    · rw [← append_assoc] at hx
      rcases mem_append.mp hx with hx | hx
      · exact h.subset x hx
      · rw [mem_singleton.mp hx]
        exact hv
    · rw [← append_assoc, mem_append, mem_singleton]
      by_cases hxv : x = v
      · subst hxv
        exact iff_of_true (Or.inr rfl) (hself.trans hz)
      · rw [or_iff_left hxv]
        exact hready x hx hxv
  · have htouch : touch kahnStep w v =
        ⟨update w.state v (w.state v - 1), w.done, w.waiting⟩ := by
      simp [touch, kahnStep, hz]
    rw [htouch]
    refine ⟨h.nodup, h.subset, hincoming, fun x hx => ?_, fun x hx => h.touched x
      (mem_cons_of_mem v hx), h.before⟩
    by_cases hxv : x = v
    · subst hxv
      exact iff_of_false hnot fun he => hz (hself.symm.trans he)
    · exact hready x hx hxv

theorem counted_invariant (hn : verts.Nodup) (hc : Closed verts succ) :
    Invariant kahnStep succ (Counted verts succ []) (Counted verts succ) :=
  ⟨fun _ _ _ h hw => h.pop hn hc hw, fun _ _ _ h => h.push, fun _ h => h⟩

theorem counted_start (hn : verts.Nodup) (hin : ∀ v, incoming v = edgesInto verts succ [] v) :
    Counted verts succ [] ⟨incoming, [], verts.filter fun v => incoming v == 0⟩ := by
  refine ⟨?_, fun v hv => ?_, fun v => ?_, fun v hv => ?_, nofun, fun p v q hq => ?_⟩
  · exact hn.filter _
  · exact (mem_filter.mp hv).1
  · rw [count_nil, Nat.add_zero]
    exact hin v
  · simp [mem_filter, hv]
  · simp at hq

theorem counted_kahn (hn : verts.Nodup) (hc : Closed verts succ)
    (hin : ∀ v, incoming v = edgesInto verts succ [] v) :
    Counted verts succ [] (kahn verts succ incoming) ∧
      (kahn verts succ incoming).waiting = [] :=
  ⟨(counted_invariant hn hc).drain _ _ (counted_start hn hin),
    (counted_invariant hn hc).drain_waiting (fun _ hw => hw.length_le) _ _ (counted_start hn hin)
      (Nat.le_add_right _ _)⟩

theorem Counted.before_of_path (h : Counted verts succ l w) {u v : V}
    (hp : Relation.TransGen (Edge verts succ) u v) {p q : List V} (hd : w.done = p ++ v :: q) :
    u ∈ p := by
  induction hp generalizing p q with
  | single he => exact h.before p _ q hd u he.1 he.2
  | tail hp he ih =>
    rename_i x y
    obtain ⟨p', q', rfl⟩ := append_of_mem (h.before p y q hd x he.1 he.2)
    have hu := ih (p := p') (q := q' ++ y :: q) (by rw [hd, append_assoc, cons_append])
    exact mem_append_left _ hu

/-- Kahn's algorithm comes to every vertex exactly when the graph has no cycle. -/
theorem kahn_iff (hn : verts.Nodup) (hc : Closed verts succ)
    (hin : ∀ v, incoming v = edgesInto verts succ [] v) :
    (kahn verts succ incoming).done.length = verts.length ↔ Acyclic verts succ := by
  obtain ⟨h, hempty⟩ := counted_kahn hn hc hin
  have hnodup : (kahn verts succ incoming).done.Nodup := by
    have hall := h.nodup
    rw [hempty, append_nil] at hall
    exact hall
  have hsubset : ∀ v ∈ (kahn verts succ incoming).done, v ∈ verts := fun v hv =>
    h.subset v (mem_append_left _ hv)
  constructor
  · intro hlength v hcycle
    have hall : verts ⊆ (kahn verts succ incoming).done :=
      ((List.Nodup.subperm hnodup hsubset).perm_of_length_le hlength.symm.le).symm.subset
    have hv : v ∈ verts := by
      obtain ⟨x, hx, -⟩ := Relation.TransGen.head'_iff.mp hcycle
      exact hx.1
    obtain ⟨p, q, hd⟩ := append_of_mem (hall hv)
    have hvp := h.before_of_path hcycle hd
    rw [hd] at hnodup
    exact (nodup_append.mp hnodup).2.2 v hvp v mem_cons_self rfl
  · intro hacyclic
    by_contra hlength
    -- Among the vertices left over, one has no edge from another one left over.
    have hleft : ∃ v ∈ verts, v ∉ (kahn verts succ incoming).done := by
      by_contra hnone
      refine hlength (Nat.le_antisymm (length_le_of_subset hnodup hsubset) ?_)
      refine length_le_of_subset hn fun v hv => ?_
      by_contra hd
      exact hnone ⟨v, hv, hd⟩
    have hpred : ∀ v ∈ verts, v ∉ (kahn verts succ incoming).done →
        ∃ u, Edge verts succ u v ∧ u ∉ (kahn verts succ incoming).done := by
      intro v hv hd
      have hstate : (kahn verts succ incoming).state v ≠ 0 := by
        intro hz
        have hm := (h.ready v hv).mpr hz
        rw [hempty, append_nil] at hm
        exact hd hm
      rw [h.incoming, count_nil, Nat.add_zero, ne_eq, edgesInto_eq_zero] at hstate
      push Not at hstate
      obtain ⟨u, hu, huv, hud⟩ := hstate
      exact ⟨u, ⟨hu, huv⟩, hud⟩
    let Left := {v // v ∈ verts ∧ v ∉ (kahn verts succ incoming).done}
    have hfinite : Finite Left :=
      Set.Finite.subset (finite_toSet verts) (fun v hv => hv.1)
    let path : Left → Left → Prop := fun a b => Relation.TransGen (Edge verts succ) a.1 b.1
    have htrans : IsTrans Left path := ⟨fun a b c => Relation.TransGen.trans⟩
    have hirrefl : Std.Irrefl path := ⟨fun a => hacyclic a.1⟩
    have hwf : WellFounded path := Finite.wellFounded_of_trans_of_irrefl path
    obtain ⟨v, hv, hd⟩ := hleft
    obtain ⟨m, -, hmin⟩ := hwf.has_min Set.univ ⟨⟨v, hv, hd⟩, trivial⟩
    obtain ⟨u, hedge, hud⟩ := hpred m.1 m.2.1 m.2.2
    exact hmin ⟨u, hedge.1, hud⟩ trivial (Relation.TransGen.single hedge)

end Kahn

/-! ### Breadth-first search -/

section Reach
variable {V : Type} [DecidableEq V]

def reachStep (reached : V → Bool) (v : V) : (V → Bool) × Bool :=
  (update reached v true, !reached v)

def reach (verts roots : List V) (succ : V → List V) : Work (V → Bool) V :=
  drain reachStep succ verts.length ⟨fun v => decide (v ∈ roots), [], roots⟩

def Reachable (verts roots : List V) (succ : V → List V) (v : V) : Prop :=
  ∃ r ∈ roots, Relation.ReflTransGen (Edge verts succ) r v

/-- What the search keeps, with the successors `l` still to be touched. -/
structure Marked (verts roots : List V) (succ : V → List V) (l : List V) (w : Work (V → Bool) V) :
    Prop where
  nodup : (w.done ++ w.waiting).Nodup
  subset : ∀ v ∈ w.done ++ w.waiting, v ∈ verts
  marked : ∀ v, w.state v = true ↔ v ∈ w.done ++ w.waiting
  sound : ∀ v ∈ w.done ++ w.waiting, Reachable verts roots succ v
  closed : ∀ u ∈ w.done, ∀ v ∈ succ u, v ∈ w.done ++ w.waiting ∨ v ∈ l
  touched : ∀ v ∈ l, v ∈ verts ∧ Reachable verts roots succ v
  started : ∀ r ∈ roots, r ∈ w.done ++ w.waiting

variable {verts roots : List V} {succ : V → List V} {w : Work (V → Bool) V}

omit [DecidableEq V] in
theorem Marked.pop (h : Marked verts roots succ [] w) (hc : Closed verts succ) {u : V}
    {rest : List V} (hw : w.waiting = u :: rest) :
    Marked verts roots succ (succ u) { w with done := w.done ++ [u], waiting := rest } := by
  have hlist : w.done ++ w.waiting = w.done ++ [u] ++ rest := by
    rw [hw, append_assoc, singleton_append]
  have hu : u ∈ w.done ++ w.waiting := by
    rw [hw]
    exact mem_append_right _ mem_cons_self
  have huverts := h.subset u hu
  obtain ⟨hnodup, hsubset, hmarked, hsound, hclosed, -, hstarted⟩ := h
  rw [hlist] at hnodup hsubset hmarked hsound hclosed hstarted hu
  refine ⟨hnodup, hsubset, hmarked, hsound, fun x hx v hv => ?_, fun v hv => ?_, hstarted⟩
  · rcases mem_append.mp hx with hx | hx
    · exact Or.inl ((hclosed x hx v hv).resolve_right not_mem_nil)
    · rw [mem_singleton.mp hx] at hv
      exact Or.inr hv
  · obtain ⟨r, hr, hpath⟩ := hsound u hu
    exact ⟨hc u v ⟨huverts, hv⟩, r, hr, hpath.tail ⟨huverts, hv⟩⟩

theorem Marked.push {v : V} {l : List V} (h : Marked verts roots succ (v :: l) w) :
    Marked verts roots succ l (touch reachStep w v) := by
  obtain ⟨hv, hreach⟩ := h.touched v mem_cons_self
  have htouched : ∀ x ∈ l, x ∈ verts ∧ Reachable verts roots succ x := fun x hx =>
    h.touched x (mem_cons_of_mem v hx)
  cases hm : w.state v with
  | true =>
    have hmem := (h.marked v).mp hm
    have htouch : touch reachStep w v = w := by
      have hupdate : update w.state v true = w.state := by
        rw [← hm]
        exact update_eq_self v w.state
      simp [touch, reachStep, hm, hupdate]
    rw [htouch]
    refine ⟨h.nodup, h.subset, h.marked, h.sound, fun u hu x hx => ?_, htouched, h.started⟩
    rcases h.closed u hu x hx with hx | hx
    · exact Or.inl hx
    · rcases mem_cons.mp hx with rfl | hx
      · exact Or.inl hmem
      · exact Or.inr hx
  | false =>
    have hnot : v ∉ w.done ++ w.waiting := by
      rw [← h.marked v, hm]
      exact Bool.false_ne_true
    have htouch : touch reachStep w v =
        ⟨update w.state v true, w.done, w.waiting ++ [v]⟩ := by
      simp [touch, reachStep, hm]
    have hin : ∀ x, x ∈ w.done ++ (w.waiting ++ [v]) ↔ x ∈ w.done ++ w.waiting ∨ x = v := by
      intro x
      rw [← append_assoc, mem_append, mem_singleton]
    rw [htouch]
    refine ⟨?_, fun x hx => ?_, fun x => ?_, fun x hx => ?_, fun u hu x hx => ?_, htouched,
      fun r hr => (hin r).mpr (Or.inl (h.started r hr))⟩
    · rw [← append_assoc]
      exact nodup_append.mpr ⟨h.nodup, nodup_singleton v,
        fun a ha b hb he => hnot (mem_singleton.mp hb ▸ he ▸ ha)⟩
    · rcases (hin x).mp hx with hx | rfl
      · exact h.subset x hx
      · exact hv
    · refine Iff.trans ?_ (hin x).symm
      by_cases hx : x = v
      · subst hx
        exact iff_of_true (update_self x _ _) (Or.inr rfl)
      · rw [or_iff_left hx, ← h.marked x]
        exact iff_of_eq (congrArg (· = true) (update_of_ne hx _ _))
    · rcases (hin x).mp hx with hx | rfl
      · exact h.sound x hx
      · exact hreach
    · rcases h.closed u hu x hx with hx | hx
      · exact Or.inl ((hin x).mpr (Or.inl hx))
      · rcases mem_cons.mp hx with rfl | hx
        · exact Or.inl ((hin x).mpr (Or.inr rfl))
        · exact Or.inr hx

theorem marked_invariant (hc : Closed verts succ) :
    Invariant reachStep succ (Marked verts roots succ []) (Marked verts roots succ) :=
  ⟨fun _ _ _ h hw => h.pop hc hw, fun _ _ _ h => h.push, fun _ h => h⟩

omit [DecidableEq V] in
theorem Marked.length_le {l : List V} (h : Marked verts roots succ l w) :
    w.done.length + w.waiting.length ≤ verts.length := by
  rw [← length_append]
  exact length_le_of_subset h.nodup h.subset

theorem marked_start (hn : roots.Nodup) (hr : ∀ r ∈ roots, r ∈ verts) :
    Marked verts roots succ [] ⟨fun v => decide (v ∈ roots), [], roots⟩ :=
  ⟨hn, hr, fun _ => decide_eq_true_iff, fun v hv => ⟨v, hv, .refl⟩, nofun, nofun, fun _ hr => hr⟩

theorem marked_reach (hc : Closed verts succ) (hn : roots.Nodup) (hr : ∀ r ∈ roots, r ∈ verts) :
    Marked verts roots succ [] (reach verts roots succ) ∧
      (reach verts roots succ).waiting = [] :=
  ⟨(marked_invariant hc).drain _ _ (marked_start hn hr),
    (marked_invariant hc).drain_waiting (fun _ hw => hw.length_le) _ _ (marked_start hn hr)
      (Nat.le_add_right _ _)⟩

/-- The search marks exactly the vertices a path leads to from a root. -/
theorem reach_iff (hc : Closed verts succ) (hn : roots.Nodup) (hr : ∀ r ∈ roots, r ∈ verts)
    (v : V) : (reach verts roots succ).state v = true ↔ Reachable verts roots succ v := by
  obtain ⟨h, hempty⟩ := marked_reach hc hn hr
  rw [h.marked v]
  constructor
  · exact h.sound v
  · rintro ⟨r, hroot, hpath⟩
    induction hpath with
    | refl => exact h.started r hroot
    | tail _ he ih =>
      rw [hempty, append_nil] at ih
      exact (h.closed _ ih _ he.2).resolve_right not_mem_nil

end Reach

section EdgeList
variable {V : Type} [DecidableEq V] {verts : List V} {edges : List (V × V)} {u v : V}

def successors (edges : List (V × V)) (u : V) : List V :=
  ((edges.filter fun edge => edge.1 = u).map Prod.snd).reverse

theorem mem_successors : v ∈ successors edges u ↔ (u, v) ∈ edges := by
  simp only [successors, mem_reverse, mem_map, mem_filter, decide_eq_true_eq]
  constructor
  · rintro ⟨edge, ⟨hmem, rfl⟩, rfl⟩
    exact hmem
  · intro h
    exact ⟨(u, v), ⟨h, rfl⟩, rfl⟩

theorem successors_append (edge : V × V) :
    successors (edges ++ [edge]) u =
      if edge.1 = u then edge.2 :: successors edges u else successors edges u := by
  by_cases h : edge.1 = u
  · simp [successors, h]
  · simp [successors, h]

theorem edge_successors (hsource : ∀ edge ∈ edges, edge.1 ∈ verts) :
    Edge verts (successors edges) u v ↔ (u, v) ∈ edges := by
  rw [Edge, mem_successors]
  exact ⟨fun h => h.2, fun h => ⟨hsource _ h, h⟩⟩

theorem sum_indicator {l : List V} (hn : l.Nodup) (hu : u ∈ l) :
    (l.map fun w => if u = w then 1 else 0).sum = 1 := by
  induction l with
  | nil => cases hu
  | cons w rest ih =>
    obtain ⟨hw, hrest⟩ := nodup_cons.mp hn
    rw [map_cons, sum_cons]
    rcases mem_cons.mp hu with rfl | hu
    · have hzero : (rest.map fun w => if u = w then 1 else 0).sum = 0 := by
        rw [List.sum_eq_zero_iff_forall_eq_nat]
        intro n hn
        obtain ⟨w, hmem, rfl⟩ := mem_map.mp hn
        have hne : u ≠ w := fun h => hw (h ▸ hmem)
        exact if_neg hne
      rw [hzero, if_pos rfl]
    · have hne : u ≠ w := fun h => hw (h ▸ hu)
      rw [ih hrest hu, if_neg hne]

theorem edgesInto_successors (hn : verts.Nodup) (hsource : ∀ edge ∈ edges, edge.1 ∈ verts) :
    edgesInto verts (successors edges) [] v = edges.countP fun edge => edge.2 = v := by
  have hfilter : verts.filter (· ∉ ([] : List V)) = verts := by simp
  rw [edgesInto, hfilter]
  induction edges using List.reverseRecOn with
  | nil => simp [successors]
  | append_singleton edges edge ih =>
    have hmem := hsource edge (mem_append_right _ (mem_singleton_self _))
    have ih := ih fun e he => hsource e (mem_append_left _ he)
    have hcount : ∀ u, (successors (edges ++ [edge]) u).count v =
        (successors edges u).count v + if edge.1 = u ∧ edge.2 = v then 1 else 0 := by
      intro u
      rw [successors_append]
      by_cases hu : edge.1 = u <;> by_cases hv : edge.2 = v <;> simp [hu, hv]
    have hone : (verts.map fun u => if edge.1 = u ∧ edge.2 = v then 1 else 0).sum =
        if edge.2 = v then 1 else 0 := by
      by_cases hv : edge.2 = v
      · simp only [hv, and_true, if_true]
        exact sum_indicator hn hmem
      · simp [hv]
    simp only [hcount]
    rw [sum_map_add, ih, hone, countP_append]
    simp

end EdgeList

section Coded
open Relation
variable {A B : Type} {S : A → A → Prop} {R : B → B → Prop} {code : A → Option B}

/-- The pairs of `R` are the codes of the pairs of `S`, and a code has one meaning. -/
structure Coded (code : A → Option B) (S : A → A → Prop) (R : B → B → Prop) : Prop where
  injective : ∀ {a a' b}, code a = some b → code a' = some b → a = a'
  encode : ∀ {a a'}, S a a' → ∃ b b', code a = some b ∧ code a' = some b' ∧ R b b'
  decode : ∀ {b b'}, R b b' → ∃ a a', code a = some b ∧ code a' = some b' ∧ S a a'

variable (h : Coded code S R)
include h

theorem Coded.transGen_encode {a a' : A} (hp : TransGen S a a') :
    ∃ b b', code a = some b ∧ code a' = some b' ∧ TransGen R b b' := by
  induction hp with
  | single hs =>
    obtain ⟨b, b', hb, hb', hr⟩ := h.encode hs
    exact ⟨b, b', hb, hb', .single hr⟩
  | tail hp hs ih =>
    obtain ⟨b, b', hb, hb', hr⟩ := ih
    obtain ⟨c, c', hc, hc', hr'⟩ := h.encode hs
    obtain rfl : b' = c := Option.some.inj (hb'.symm.trans hc)
    exact ⟨b, c', hb, hc', hr.tail hr'⟩

theorem Coded.transGen_decode {b b' : B} (hp : TransGen R b b') :
    ∃ a a', code a = some b ∧ code a' = some b' ∧ TransGen S a a' := by
  induction hp with
  | single hr =>
    obtain ⟨a, a', ha, ha', hs⟩ := h.decode hr
    exact ⟨a, a', ha, ha', .single hs⟩
  | tail hp hr ih =>
    obtain ⟨a, a', ha, ha', hs⟩ := ih
    obtain ⟨c, c', hc, hc', hs'⟩ := h.decode hr
    obtain rfl := h.injective ha' hc
    exact ⟨a, c', ha, hc', hs.tail hs'⟩

theorem Coded.transGen_iff {a a' : A} {b b' : B} (ha : code a = some b) (ha' : code a' = some b') :
    TransGen R b b' ↔ TransGen S a a' := by
  constructor
  · intro hp
    obtain ⟨c, c', hc, hc', hp⟩ := h.transGen_decode hp
    obtain rfl := h.injective ha hc
    obtain rfl := h.injective ha' hc'
    exact hp
  · intro hp
    obtain ⟨c, c', hc, hc', hp⟩ := h.transGen_encode hp
    obtain rfl : b = c := Option.some.inj (ha.symm.trans hc)
    obtain rfl : b' = c' := Option.some.inj (ha'.symm.trans hc')
    exact hp

theorem Coded.reflTransGen_iff {a a' : A} {b b' : B} (ha : code a = some b)
    (ha' : code a' = some b') : ReflTransGen R b b' ↔ ReflTransGen S a a' := by
  rw [reflTransGen_iff_eq_or_transGen, reflTransGen_iff_eq_or_transGen, h.transGen_iff ha ha']
  refine or_congr_left ⟨?_, ?_⟩
  · rintro rfl
    exact h.injective ha' ha
  · rintro rfl
    exact Option.some.inj (ha'.symm.trans ha)

theorem Coded.acyclic_iff : (∀ b, ¬ TransGen R b b) ↔ ∀ a, ¬ TransGen S a a := by
  constructor
  · intro hr a hp
    obtain ⟨b, b', hb, hb', hp⟩ := h.transGen_encode hp
    obtain rfl : b = b' := Option.some.inj (hb.symm.trans hb')
    exact hr b hp
  · intro hs b hp
    obtain ⟨a, a', ha, ha', hp⟩ := h.transGen_decode hp
    obtain rfl := h.injective ha ha'
    exact hs a hp

end Coded

end Worklist
