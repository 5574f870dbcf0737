import Mathlib.Computability.StateTransition
import Mathlib.Data.List.Basic
import Mathlib.Logic.Function.Basic

/-!
# Programs over arrays

A program stops at an access outside of its array, and when the fuel of a loop is used up. Its
loops are compared with transition functions that know no arrays.
-/

namespace Checked
open StateTransition List Function

inductive Stop (ρ : Type) where
  | finish (result : ρ)
  | outside
  | running
  deriving DecidableEq, Repr

abbrev Run (ρ : Type) := Except (Stop ρ)

section Results
variable {ρ α β : Type}

@[simp] theorem ok_bind (x : α) (f : α → Run ρ β) : ((.ok x : Run ρ α) >>= f) = f x := rfl

@[simp] theorem error_bind (e : Stop ρ) (f : α → Run ρ β) :
    ((.error e : Run ρ α) >>= f) = .error e := rfl

@[simp] theorem pure_eq_ok (x : α) : (pure x : Run ρ α) = .ok x := rfl

@[simp] theorem throw_eq_error (e : Stop ρ) : (throw e : Run ρ α) = .error e := rfl

end Results

/-! ### Arrays -/

section Arrays
variable {ρ α β : Type} {array : List α} {i k n : ℕ} {x : α} {read : α → β} {f : ℕ → β}

def load (array : List α) (i : ℕ) : Run ρ α :=
  match array[i]? with
  | some x => .ok x
  | none => .error .outside

def store (array : List α) (i : ℕ) (x : α) : Run ρ (List α) :=
  if i < array.length then .ok (array.set i x) else .error .outside

theorem load_eq (h : array[i]? = some x) : (load array i : Run ρ α) = .ok x := by
  rw [load, h]

theorem store_eq (h : i < array.length) (x : α) :
    (store array i x : Run ρ (List α)) = .ok (array.set i x) := if_pos h

/-- The array has `n` entries, and the first `k` are those of `f`, as `read` understands them. -/
structure Holds (read : α → β) (array : List α) (n k : ℕ) (f : ℕ → β) : Prop where
  length : array.length = n
  entries : ∀ i < k, (array[i]?).map read = some (f i)

section
variable (h : Holds read array n k f)
include h

theorem Holds.get (hi : i < k) :
    ∃ x, array[i]? = some x ∧ read x = f i := Option.map_eq_some_iff.mp (h.entries i hi)

theorem Holds.store (hi : i < n) (x : α) :
    (store array i x : Run ρ (List α)) = .ok (array.set i x) := store_eq (hi.trans_eq h.length.symm) x

theorem Holds.write (hi : i < n) (x : α) {k' : ℕ} (hk : ∀ j < k', j ≠ i → j < k) :
    Holds read (array.set i x) n k' (update f i (read x)) := by
  refine ⟨length_set.trans h.length, fun j hj => ?_⟩
  by_cases hij : j = i
  · rw [hij, getElem?_set_self (hi.trans_eq h.length.symm), update_self]
    rfl
  · rw [getElem?_set_ne (Ne.symm hij), update_of_ne hij]
    exact h.entries j (hk j hj hij)

theorem Holds.set (hi : i < n) (x : α) :
    Holds read (array.set i x) n k (update f i (read x)) := h.write hi x fun _ hj _ => hj

theorem Holds.push (hk : k < n) (x : α) :
    Holds read (array.set k x) n (k + 1) (update f k (read x)) :=
  h.write hk x fun j hj hne => by omega

end

theorem holds_replicate (x : α) : Holds read (List.replicate n x) n n fun _ => read x := by
  refine ⟨length_replicate, fun i hi => ?_⟩
  rw [getElem?_replicate_of_lt hi]
  rfl

theorem take_set_succ (hk : k < array.length) (x : α) :
    (array.set k x).take (k + 1) = array.take k ++ [x] := by
  rw [take_add_one, take_set_of_le (Nat.le_refl k), getElem?_set_self hk]
  rfl

end Arrays

section Loop
variable {ρ α : Type} {count : ℕ} {body : α → ℕ → Run ρ α} {a : α}

/-- `for (i = 0; i < count; ++i)`. -/
def loop (count : ℕ) (body : α → ℕ → Run ρ α) (a : α) : Run ρ α :=
  (List.range count).foldlM body a

theorem loop_succ :
    loop (count + 1) body a = (loop count body a >>= fun a => body a count) := by
  rw [loop, range_succ, foldlM_append]
  simp only [foldlM_cons, foldlM_nil, bind_pure]
  rfl

theorem loop_ok {I : ℕ → α → Prop} (hstart : I 0 a)
    (hbody : ∀ i a, i < count → I i a → ∃ a', body a i = .ok a' ∧ I (i + 1) a') :
    ∃ a', loop count body a = .ok a' ∧ I count a' := by
  induction count with
  | zero => exact ⟨a, rfl, hstart⟩
  | succ count ih =>
    obtain ⟨b, hb, hI⟩ := ih fun i a hi => hbody i a (Nat.lt_succ_of_lt hi)
    obtain ⟨a', ha', hI'⟩ := hbody count b (Nat.lt_succ_self count) hI
    refine ⟨a', ?_, hI'⟩
    rw [loop_succ, hb]
    exact ha'

end Loop

section Machine
variable {ρ A C : Type} {next : A → Option A} {step : C → Run ρ (Option C)} {R : A → C → Prop}
  {a : A} {c : C}

/-- Steps until `step` says that the loop is over, at most `fuel` times. -/
def runFor (step : C → Run ρ (Option C)) : ℕ → C → Run ρ C
  | 0, _ => .error .running
  | fuel + 1, c => do
    match ← step c with
    | none => return c
    | some c' => runFor step fuel c'

def Passes (step : C → Run ρ (Option C)) : C → C → Prop :=
  Relation.ReflTransGen fun c c' => step c = .ok (some c')

def Simulates (next : A → Option A) (step : C → Run ρ (Option C)) (R : A → C → Prop) : Prop :=
  ∀ a c, R a c → ∃ o, step c = .ok o ∧ Option.Rel R (next a) o

theorem Simulates.passes (h : Simulates next step R) (hR : R a c) {c' : C}
    (hp : Passes step c c') : ∃ a', Reaches next a a' ∧ R a' c' := by
  induction hp with
  | refl => exact ⟨a, .refl, hR⟩
  | tail _ hstep ih =>
    obtain ⟨b, hreach, hb⟩ := ih
    obtain ⟨o, ho, hrel⟩ := h _ _ hb
    rw [hstep] at ho
    obtain rfl := Except.ok.inj ho
    generalize hnext : next b = x at hrel
    cases hrel with
    | some hR' => exact ⟨_, hreach.tail hnext, hR'⟩

theorem Simulates.runFor (h : Simulates next step R) (rank : A → ℕ)
    (hrank : ∀ a c a', R a c → next a = some a' → rank a' < rank a) {fuel : ℕ}
    (hR : R a c) (hfuel : rank a < fuel) :
    ∃ a' c', runFor step fuel c = .ok c' ∧ a' ∈ eval next a ∧ R a' c' := by
  induction fuel generalizing a c with
  | zero => exact absurd hfuel (Nat.not_lt_zero _)
  | succ fuel ih =>
    obtain ⟨o, ho, hrel⟩ := h a c hR
    generalize hnext : next a = x at hrel
    cases hrel with
    | none =>
      refine ⟨a, c, ?_, mem_eval.mpr ⟨.refl, hnext⟩, hR⟩
      rw [Checked.runFor, ho]
      rfl
    | some hR' =>
      rename_i b d
      have hlt := hrank a c b hR hnext
      obtain ⟨a', c', hrun, heval, hend⟩ := ih hR' (by omega)
      refine ⟨a', c', ?_, ?_, hend⟩
      · rw [Checked.runFor, ho]
        exact hrun
      · rw [reaches_eval (Relation.ReflTransGen.single hnext)]
        exact heval

end Machine

end Checked
