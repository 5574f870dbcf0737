import Mathlib.Tactic.Common

/-!
# Programs that ask and continue

A `Program E R α` either is done with a result or issues a request `e : E` and continues with any
answer in `R e`. `Always` reads it against an adversary, `Safe` in company: requests are executed on
a shared memory between which a peer may act.
-/

namespace Resumption

inductive Program (E : Type) (R : E → Type) (α : Type) : Type where
  | done (a : α) : Program E R α
  | ask (e : E) (k : R e → Program E R α) : Program E R α

variable {E : Type} {R : E → Type} {α β : Type}

namespace Program

def bind : Program E R α → (α → Program E R β) → Program E R β
  | .done a, f => f a
  | .ask e k, f => .ask e fun r => (k r).bind f

@[simp] theorem bind_done (a : α) (f : α → Program E R β) : (Program.done a).bind f = f a := rfl

@[simp] theorem bind_ask (e : E) (k : R e → Program E R α) (f : α → Program E R β) :
    (Program.ask e k).bind f = .ask e fun r => (k r).bind f := rfl

end Program

/-- A finished run: the requests with their answers, and the result. -/
inductive Run : Program E R α → List ((e : E) × R e) → α → Prop where
  | done (a : α) : Run (.done a) [] a
  | ask (e : E) (k : R e → Program E R α) (r : R e) (t : List ((e : E) × R e)) (a : α)
      (rest : Run (k r) t a) : Run (.ask e k) (⟨e, r⟩ :: t) a

theorem Run.answered {e : E} {k : R e → Program E R α} {r : R e} {t : List ((e : E) × R e)} {a : α}
    (h : Run (.ask e k) (⟨e, r⟩ :: t) a) : Run (k r) t a := by
  cases h with
  | ask _ _ _ _ _ rest => exact rest

/-- The run on a memory that nobody else touches: the exchange, the result and the memory left. -/
def execute {M : Type} (exec : (e : E) → M → R e × M) :
    Program E R α → M → List ((e : E) × R e) × α × M
  | .done a, m => ([], a, m)
  | .ask e k, m =>
    let rest := execute exec (k (exec e m).1) (exec e m).2
    (⟨e, (exec e m).1⟩ :: rest.1, rest.2)

theorem run_execute {M : Type} (exec : (e : E) → M → R e × M) (p : Program E R α) (m : M) :
    Run p (execute exec p m).1 (execute exec p m).2.1 := by
  induction p generalizing m with
  | done a => exact .done a
  | ask e k ih => exact .ask e k _ _ _ (ih _ _)

theorem execute_bind {M : Type} (exec : (e : E) → M → R e × M) (p : Program E R α)
    (f : α → Program E R β) (m : M) :
    (execute exec (p.bind f) m).2 =
      (execute exec (f (execute exec p m).2.1) (execute exec p m).2.2).2 := by
  induction p generalizing m with
  | done a => rfl
  | ask e k ih => exact ih _ _

/-- Whatever the answers, requests meet `G` and the result meets `Q`. -/
def Always (G : E → Prop) (Q : α → Prop) : Program E R α → Prop
  | .done a => Q a
  | .ask e k => G e ∧ ∀ r, Always G Q (k r)

section Always
variable {G G' : E → Prop} {Q Q' : α → Prop}

@[simp] theorem always_done (a : α) : Always G Q (.done a : Program E R α) ↔ Q a := Iff.rfl

@[simp] theorem always_ask (e : E) (k : R e → Program E R α) :
    Always G Q (.ask e k) ↔ G e ∧ ∀ r, Always G Q (k r) := Iff.rfl

variable {p : Program E R α}

theorem Always.mono (h : Always G Q p) (hG : ∀ e, G e → G' e) (hQ : ∀ a, Q a → Q' a) :
    Always G' Q' p := by
  induction p with
  | done a => exact hQ a h
  | ask e k ih => exact ⟨hG e h.1, fun r => ih r (h.2 r)⟩

theorem Always.bind {f : α → Program E R β} {P : β → Prop} (h : Always G Q p)
    (hf : ∀ a, Q a → Always G P (f a)) : Always G P (p.bind f) := by
  induction p with
  | done a => exact hf a h
  | ask e k ih => exact ⟨h.1, fun r => ih r (h.2 r)⟩

theorem always_ite {c : Prop} [Decidable c] {p p' : Program E R α} (h : c → Always G Q p)
    (h' : ¬ c → Always G Q p') : Always G Q (if c then p else p') := by
  split_ifs with hc
  · exact h hc
  · exact h' hc

theorem Always.of_run {t : List ((e : E) × R e)} {a : α} (h : Always G Q p) (hr : Run p t a) :
    (∀ x ∈ t, G x.1) ∧ Q a := by
  induction hr with
  | done a => exact ⟨fun x hx => absurd hx List.not_mem_nil, h⟩
  | ask e k r t a _ ih =>
    have hrest := ih (h.2 r)
    refine ⟨fun x hx => ?_, hrest.2⟩
    rcases List.mem_cons.mp hx with rfl | hx
    · exact h.1
    · exact hrest.1 x hx

/-- Whatever the answers, the requests in their order and the result meet `P`. -/
def Traced (P : List E → α → Prop) : Program E R α → Prop
  | .done a => P [] a
  | .ask e k => ∀ r, Traced (fun t a => P (e :: t) a) (k r)

section Traced
variable {P P' : List E → α → Prop} {p p' : Program E R α}

theorem Traced.mono (h : Traced P p) (hP : ∀ t a, P t a → P' t a) : Traced P' p := by
  induction p generalizing P P' with
  | done a => exact hP [] a h
  | ask e k ih => exact fun r => ih r (h r) fun t a => hP (e :: t) a

theorem Traced.and (h : Traced P p) (h' : Traced P' p) :
    Traced (fun t a => P t a ∧ P' t a) p := by
  induction p generalizing P P' with
  | done a => exact ⟨h, h'⟩
  | ask e k ih => exact fun r => ih r (h r) (h' r)

theorem traced_ite {c : Prop} [Decidable c] (h : c → Traced P p) (h' : ¬ c → Traced P p') :
    Traced P (if c then p else p') := by
  split_ifs with hc
  · exact h hc
  · exact h' hc

theorem Traced.bind {f : α → Program E R β} {Q : List E → β → Prop} (h : Traced P p)
    (hf : ∀ t a, P t a → Traced (fun t' x => Q (t ++ t') x) (f a)) : Traced Q (p.bind f) := by
  induction p generalizing P Q with
  | done a => exact hf [] a h
  | ask e k ih => exact fun r => ih r (h r) fun t a ha => hf (e :: t) a ha

theorem Always.traced (h : Always G Q p)
    (hP : ∀ t a, (∀ e ∈ t, G e) → Q a → P t a) : Traced P p := by
  induction p generalizing P with
  | done a => exact hP [] a nofun h
  | ask e k ih =>
    refine fun r => ih r (h.2 r) fun t a ht ha => hP (e :: t) a ?_ ha
    exact List.forall_mem_cons.mpr ⟨h.1, ht⟩

theorem Traced.of_run {t : List ((e : E) × R e)} {a : α} (h : Traced P p) (hr : Run p t a) :
    P (t.map Sigma.fst) a := by
  induction hr generalizing P with
  | done a => exact h
  | ask e k r t a _ ih => exact ih (h r)

end Traced

/-- A result outside `Q` comes without a request. -/
def Prompt (Q : α → Prop) : Program E R α → Prop
  | .done _ => True
  | .ask e k => Always (fun _ => True) Q (.ask e k)

theorem Always.prompt {p : Program E R α} (h : Always G Q p) : Prompt Q p := by
  cases p with
  | done a => trivial
  | ask e k => exact h.mono (fun _ _ => trivial) fun _ hq => hq

theorem prompt_ite {c : Prop} [Decidable c] {p p' : Program E R α} (h : c → Prompt Q p)
    (h' : ¬ c → Prompt Q p') : Prompt Q (if c then p else p') := by
  split_ifs with hc
  · exact h hc
  · exact h' hc

theorem Prompt.of_run {p : Program E R α} {t : List ((e : E) × R e)} {a : α} (h : Prompt Q p)
    (hr : Run p t a) (hq : ¬ Q a) : t = [] := by
  cases hr with
  | done a => rfl
  | ask e k r t a rest => exact absurd (Always.of_run h (.ask e k r t a rest)).2 hq

end Always

section FailStop
variable {G : E → Prop} {fails : (e : E) → R e → Prop} {stopped : α → Prop}

/-- A request whose answer fails is the last one, and the result is then `stopped`. -/
def FailStop (G : E → Prop) (fails : (e : E) → R e → Prop) (stopped : α → Prop) :
    Program E R α → Prop
  | .done _ => True
  | .ask e k => G e ∧ ∀ r, (fails e r → ∃ a, k r = .done a ∧ stopped a) ∧
      FailStop G fails stopped (k r)

theorem FailStop.ite {c : Prop} [Decidable c] {p p' : Program E R α}
    (h : FailStop G fails stopped p) (h' : FailStop G fails stopped p') :
    FailStop G fails stopped (if c then p else p') := by
  split <;> assumption

variable {p : Program E R α}

theorem FailStop.bind {f : α → Program E R β} {stopped' : β → Prop}
    (h : FailStop G fails stopped p) (hstop : ∀ a, stopped a → ∃ a', f a = .done a' ∧ stopped' a')
    (hf : ∀ a, FailStop G fails stopped' (f a)) : FailStop G fails stopped' (p.bind f) := by
  induction p with
  | done a => exact hf a
  | ask e k ih =>
    refine ⟨h.1, fun r => ⟨fun hfail => ?_, ih r (h.2 r).2⟩⟩
    obtain ⟨a, hk, ha⟩ := (h.2 r).1 hfail
    simp only [hk]
    exact hstop a ha

theorem FailStop.of_run {t : List ((e : E) × R e)} {a : α} (h : FailStop G fails stopped p)
    (hrun : Run p t a) {before after : List ((e : E) × R e)} {x : (e : E) × R e}
    (ht : t = before ++ x :: after) (hx : fails x.1 x.2) : after = [] ∧ stopped a := by
  induction hrun generalizing before with
  | done a => simp at ht
  | ask e k r t a hrest ih =>
    obtain ⟨-, h⟩ := h
    cases before with
    | nil =>
      obtain ⟨rfl, rfl⟩ := List.cons.inj ht
      obtain ⟨a', hk, ha⟩ := (h r).1 hx
      rw [hk] at hrest
      cases hrest
      exact ⟨rfl, ha⟩
    | cons y before => exact ih (h r).2 (List.cons.inj ht).2

/-- A backend whose requests fail or do what another does to what it shows of its memory. -/
theorem FailStop.execute_view {M N : Type} {exec : (e : E) → M → R e × M}
    {exec' : (e : E) → N → R e × N} {view : M → N}
    (hexec : ∀ e m, G e →
      fails e (exec e m).1 ∨ exec' e (view m) = ((exec e m).1, view (exec e m).2))
    (h : FailStop G fails stopped p) (m : M) :
    stopped (execute exec p m).2.1 ∨ execute exec' p (view m) =
      ((execute exec p m).1, (execute exec p m).2.1, view (execute exec p m).2.2) := by
  induction p generalizing m with
  | done a => exact .inr rfl
  | ask e k ih =>
    obtain ⟨hG, h⟩ := h
    rcases hexec e m hG with hfail | hsame
    · obtain ⟨a, hk, ha⟩ := (h _).1 hfail
      simp only [execute, hk]
      exact .inl ha
    · simp only [execute, hsame]
      rcases ih _ (h _).2 (exec e m).2 with hstop | hrest
      · exact .inl hstop
      · rw [hrest]
        exact .inr rfl

end FailStop

section Safe
variable {M L O : Type}

/-- The thread at ghost value `l` keeps `I` at every request, issues requests
that meet `G`, and ends with `Q`. The peer's value `o` and the memory are
arbitrary again at every request. -/
def Safe (exec : (e : E) → M → R e × M) (I : L → O → M → Prop) (G : E → L → Prop)
    (Q : α → L → Prop) : Program E R α → L → Prop
  | .done a, l => Q a l
  | .ask e k, l => G e l ∧ ∀ o m, I l o m →
      ∃ l', I l' o (exec e m).2 ∧ Safe exec I G Q (k (exec e m).1) l'

variable {exec : (e : E) → M → R e × M} {I : L → O → M → Prop} {G : E → L → Prop}
  {Q Q' : α → L → Prop}

@[simp] theorem safe_done (a : α) (l : L) :
    Safe exec I G Q (.done a : Program E R α) l ↔ Q a l := Iff.rfl

@[simp] theorem safe_ask (e : E) (k : R e → Program E R α) (l : L) :
    Safe exec I G Q (.ask e k) l ↔ G e l ∧ ∀ o m, I l o m →
      ∃ l', I l' o (exec e m).2 ∧ Safe exec I G Q (k (exec e m).1) l' := Iff.rfl

theorem Safe.bind {p : Program E R α} {f : α → Program E R β} {P : β → L → Prop} {l : L}
    (h : Safe exec I G Q p l) (hf : ∀ a l', Q a l' → Safe exec I G P (f a) l') :
    Safe exec I G P (p.bind f) l := by
  induction p generalizing l with
  | done a => exact hf a l h
  | ask e k ih =>
    refine ⟨h.1, fun o m hI => ?_⟩
    obtain ⟨l', hI', hs⟩ := h.2 o m hI
    exact ⟨l', hI', ih _ hs⟩

end Safe

end Resumption
