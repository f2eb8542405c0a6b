import Mathlib.Logic.Basic

namespace Aetheris.Lib

/-- A computation over a store that commits when it returns and leaves the
store as it was when it raises. -/
abbrev Transaction (σ ε α : Type) := StateT σ (Except ε) α

namespace Transaction

variable {σ ε ι α β : Type}

theorem pure_ok {a : α} {s : σ} {r : α × σ} :
    (pure a : Transaction σ ε α) s = .ok r ↔ r = (a, s) := by
  change Except.ok (a, s) = Except.ok r ↔ _
  rw [Except.ok.injEq, eq_comm]

theorem throw_ok {e : ε} {s : σ} {r : α × σ} :
    (throw e : Transaction σ ε α) s = .ok r ↔ False := by
  change Except.error e = Except.ok r ↔ False
  simp

theorem bind_ok {x : Transaction σ ε α} {f : α → Transaction σ ε β} {s : σ} {r : β × σ} :
    (x >>= f) s = .ok r ↔ ∃ a t, x s = .ok (a, t) ∧ f a t = .ok r := by
  change Except.bind (x s) (fun p => f p.1 p.2) = .ok r ↔ _
  cases hx : x s with
  | error e => simp [Except.bind]
  | ok p =>
      constructor
      · intro h
        exact ⟨p.1, p.2, rfl, h⟩
      · rintro ⟨a, t, he, h⟩
        cases he
        exact h

theorem bind_of_ok {x : Transaction σ ε α} {f : α → Transaction σ ε β} {s t : σ} {a : α}
    (h : x s = .ok (a, t)) : (x >>= f) s = f a t := by
  change Except.bind (x s) (fun p => f p.1 p.2) = f a t
  rw [h]
  rfl

theorem bind_of_error {x : Transaction σ ε α} {f : α → Transaction σ ε β} {s : σ} {e : ε}
    (h : x s = .error e) : (x >>= f) s = .error e := by
  change Except.bind (x s) (fun p => f p.1 p.2) = .error e
  rw [h]
  rfl

variable (perform : ι → Transaction σ ε Unit)

/-- One operation as its caller leaves the store: a call that raises stores nothing. -/
def attempt (s : σ) (op : ι) : σ :=
  match perform op s with
  | .ok (_, t) => t
  | .error _ => s

def run (s : σ) (ops : List ι) : σ := ops.foldl (attempt perform) s

def Along (admits : σ → ι → Prop) : σ → List ι → Prop
  | _, [] => True
  | s, op :: ops => admits s op ∧ Along admits (attempt perform s op) ops

instance decidableAlong (admits : σ → ι → Prop) [∀ s op, Decidable (admits s op)] :
    ∀ s ops, Decidable (Along perform admits s ops)
  | _, [] => isTrue trivial
  | s, op :: ops =>
      have := decidableAlong admits (attempt perform s op) ops
      inferInstanceAs (Decidable (_ ∧ _))

theorem attempt_cases (s : σ) (op : ι) :
    (∃ t, perform op s = .ok ((), t) ∧ attempt perform s op = t) ∨ attempt perform s op = s := by
  unfold attempt
  cases h : perform op s with
  | ok p => exact .inl ⟨p.2, rfl, rfl⟩
  | error e => exact .inr rfl

theorem run_append (s : σ) (ops more : List ι) :
    run perform s (ops ++ more) = run perform (run perform s ops) more := by
  simp [run, List.foldl_append]

variable {perform}

theorem Along.at {admits : σ → ι → Prop} {before after : List ι} {op : ι} {s : σ}
    (h : Along perform admits s (before ++ op :: after)) : admits (run perform s before) op := by
  induction before generalizing s with
  | nil => exact h.1
  | cons _ _ ih => exact ih h.2

theorem Along.before {admits : σ → ι → Prop} {before after : List ι} {s : σ}
    (h : Along perform admits s (before ++ after)) : Along perform admits s before := by
  induction before generalizing s with
  | nil => trivial
  | cons _ _ ih => exact ⟨h.1, ih h.2⟩

theorem along_of_forall {admits : σ → ι → Prop} {ops : List ι} (h : ∀ op ∈ ops, ∀ s, admits s op) (s : σ) :
    Along perform admits s ops := by
  induction ops generalizing s with
  | nil => trivial
  | cons op ops ih =>
      have hrest : ∀ op ∈ ops, ∀ s, admits s op := fun op hop => h op (List.mem_cons_of_mem _ hop)
      exact ⟨h op (List.mem_cons_self ..) s, ih hrest _⟩

/-- What every admitted operation that commits preserves, every admitted run preserves. -/
theorem run_invariant {admits : σ → ι → Prop} {I : σ → Prop}
    (hstep : ∀ s op t, I s → admits s op → perform op s = .ok ((), t) → I t)
    {ops : List ι} {s : σ} (ha : Along perform admits s ops) (hs : I s) :
    I (run perform s ops) := by
  induction ops generalizing s with
  | nil => exact hs
  | cons op ops ih =>
      refine ih ha.2 ?_
      rcases attempt_cases perform s op with ⟨t, ht, he⟩ | he
      · rw [he]
        exact hstep s op t hs ha.1 ht
      · rw [he]
        exact hs

end Transaction

end Aetheris.Lib
