import Mathlib.Logic.Relation

namespace Aetheris.Lib

open Relation

/-- A computation over a mutable store: what it wrote before it raised stays written. -/
abbrev Mutation (σ ε α : Type) := ExceptT ε (StateM σ) α

namespace Mutation

variable {σ ε α β ω : Type}

theorem run_bind (x : Mutation σ ε α) (f : α → Mutation σ ε β) (s : σ) :
    (x >>= f).run s = (ExceptT.bindCont f (x.run s).1).run (x.run s).2 := rfl

theorem run_bind_ok {x : Mutation σ ε α} {f : α → Mutation σ ε β} {s t : σ} {a : α} (h : x.run s = (.ok a, t)) :
    (x >>= f).run s = (f a).run t := by
  rw [run_bind, h]
  rfl

theorem run_bind_error {x : Mutation σ ε α} {f : α → Mutation σ ε β} {s t : σ} {e : ε}
    (h : x.run s = (.error e, t)) : (x >>= f).run s = (.error e, t) := by
  rw [run_bind, h]
  rfl

/-- Where a sequence of two returned, the first did. -/
theorem of_run_bind {x : Mutation σ ε α} {f : α → Mutation σ ε β} {s : σ} {b : β}
    (h : ((x >>= f).run s).1 = .ok b) : ∃ a t, x.run s = (.ok a, t) ∧ ((f a).run t).1 = .ok b := by
  rw [run_bind] at h
  rcases hx : x.run s with ⟨e | a, t⟩
  · rw [hx] at h
    cases h
  · rw [hx] at h
    exact ⟨a, t, rfl, h⟩

/-- From a store that satisfies `pre` the computation, however it ends, moves
what `view` shows of the store by steps of `move`; where it returns, `post` holds. -/
def Moves (view : σ → ω) (move : ω → ω → Prop) (pre : σ → Prop) (x : Mutation σ ε α) (post : α → σ → Prop) :
    Prop :=
  ∀ s, pre s → ReflTransGen move (view s) (view (x.run s).2) ∧
    ∀ a, (x.run s).1 = .ok a → post a (x.run s).2

variable {view : σ → ω} {move : ω → ω → Prop} {pre : σ → Prop} {post : α → σ → Prop}

theorem moves_throw {e : ε} : Moves view move pre (throw e : Mutation σ ε α) post := by
  intro s _
  refine ⟨.refl, fun b hb => ?_⟩
  cases hb

theorem moves_bind {x : Mutation σ ε α} {f : α → Mutation σ ε β} {q : α → σ → Prop} {post : β → σ → Prop}
    (hx : Moves view move pre x q) (hf : ∀ a, Moves view move (q a) (f a) post) :
    Moves view move pre (x >>= f) post := by
  intro s hs
  obtain ⟨hmove, hmid⟩ := hx s hs
  rw [run_bind]
  rcases hr : x.run s with ⟨_ | a, t⟩
  · rw [hr] at hmove
    refine ⟨hmove, fun b hb => ?_⟩
    cases hb
  · rw [hr] at hmove hmid
    obtain ⟨hrest, hpost⟩ := hf a t (hmid a rfl)
    exact ⟨hmove.trans hrest, hpost⟩

theorem moves_returning {x : Mutation σ ε α} {g : α → β} {q : σ → Prop} (h : Moves view move pre x fun _ => q) :
    Moves view move pre (x >>= fun a => pure (g a)) fun _ => q := by
  refine moves_bind h fun a s hs => ⟨.refl, fun b hb => ?_⟩
  cases hb
  exact hs

theorem moves_modify {f : σ → σ} {post : Unit → σ → Prop}
    (h : ∀ s, pre s → ReflTransGen move (view s) (view (f s)) ∧ post () (f s)) :
    Moves view move pre (modify f : Mutation σ ε Unit) post := by
  intro s hs
  obtain ⟨hmove, hpost⟩ := h s hs
  exact ⟨hmove, fun _ _ => hpost⟩

theorem moves_consequence {x : Mutation σ ε α} {p : σ → Prop} {q : α → σ → Prop}
    (h : Moves view move p x q) (hpre : ∀ s, pre s → p s) (hpost : ∀ a s, q a s → post a s) :
    Moves view move pre x post := by
  intro s hs
  obtain ⟨hmove, hret⟩ := h s (hpre s hs)
  exact ⟨hmove, fun a ha => hpost a _ (hret a ha)⟩

theorem moves_pre {x : Mutation σ ε α} {p : σ → Prop} (h : Moves view move p x post) (hpre : ∀ s, pre s → p s) :
    Moves view move pre x post := moves_consequence h hpre fun _ _ hr => hr

theorem moves_forget {x : Mutation σ ε α} {q : α → σ → Prop} (h : Moves view move pre x q) :
    Moves view move pre x (fun _ _ => True) := moves_consequence h (fun _ hr => hr) fun _ _ _ => trivial

/-- What every step preserves, every sequence of steps preserves. -/
theorem reflTransGen_invariant {I : ω → Prop} (hI : ∀ a b, move a b → I a → I b) {a b : ω}
    (h : ReflTransGen move a b) (ha : I a) : I b := by
  induction h with
  | refl => exact ha
  | tail _ hm ih => exact hI _ _ hm ih

/-- The computation leaves what is shown of the store as it was. -/
def Silent (view : σ → ω) (x : Mutation σ ε α) : Prop := ∀ s, view (x.run s).2 = view s

theorem silent_pure {a : α} : Silent view (pure a : Mutation σ ε α) := fun _ => rfl

theorem silent_throw {e : ε} : Silent view (throw e : Mutation σ ε α) := fun _ => rfl

theorem silent_get : Silent view (get : Mutation σ ε σ) := fun _ => rfl

theorem silent_modify {f : σ → σ} (h : ∀ s, view (f s) = view s) :
    Silent view (modify f : Mutation σ ε Unit) := h

theorem silent_bind {x : Mutation σ ε α} {f : α → Mutation σ ε β} (hx : Silent view x)
    (hf : ∀ a, Silent view (f a)) : Silent view (x >>= f) := by
  intro s
  have hfirst := hx s
  rw [run_bind]
  rcases hr : x.run s with ⟨_ | a, t⟩
  · rw [hr] at hfirst
    exact hfirst
  · rw [hr] at hfirst
    exact (hf a t).trans hfirst

theorem moves_silent {x : Mutation σ ε α} (h : Silent view x) (P : ω → Prop) :
    Moves view move (fun s => P (view s)) x (fun _ s => P (view s)) := by
  intro s hs
  refine ⟨?_, fun _ _ => ?_⟩
  · rw [h s]
  · change P (view _)
    rwa [h s]

theorem moves_after_silent {x : Mutation σ ε α} {f : α → Mutation σ ε β} {P : ω → Prop} {post : β → σ → Prop}
    (hx : Silent view x) (hf : ∀ a, Moves view move (fun s => P (view s)) (f a) post) :
    Moves view move (fun s => P (view s)) (x >>= f) post := moves_bind (moves_silent hx P) hf

/-- The computation leaves what is shown of the store as it was, or changes it once. -/
def Once (view : σ → ω) (change : ω → ω → Prop) (x : Mutation σ ε α) : Prop :=
  ∀ s, view (x.run s).2 = view s ∨ change (view s) (view (x.run s).2)

variable {change : ω → ω → Prop}

theorem once_silent {x : Mutation σ ε α} (h : Silent view x) : Once view change x := fun s => .inl (h s)

theorem once_modify {f : σ → σ} (h : ∀ s, change (view s) (view (f s))) :
    Once view change (modify f : Mutation σ ε Unit) := fun s => .inr (h s)

theorem once_after {x : Mutation σ ε α} {f : α → Mutation σ ε β} (hx : Silent view x)
    (hf : ∀ a, Once view change (f a)) : Once view change (x >>= f) := by
  intro s
  have hfirst := hx s
  rw [run_bind]
  rcases hr : x.run s with ⟨e | a, t⟩
  · rw [hr] at hfirst
    exact .inl hfirst
  · rw [hr] at hfirst
    have hrest := hf a t
    rwa [show view t = view s from hfirst] at hrest

theorem once_then {x : Mutation σ ε α} {f : α → Mutation σ ε β} (hx : Once view change x)
    (hf : ∀ a, Silent view (f a)) : Once view change (x >>= f) := by
  intro s
  have hfirst := hx s
  rw [run_bind]
  rcases hr : x.run s with ⟨e | a, t⟩
  · rw [hr] at hfirst
    exact hfirst
  · rw [hr] at hfirst
    have hrest : view ((f a).run t).2 = view t := hf a t
    change view ((f a).run t).2 = view s ∨ change (view s) (view ((f a).run t).2)
    rwa [hrest]

section Runs

variable {ι : Type} (step : σ → ι → σ)

/-- Every operation of a run is admitted in the store it finds. -/
def Along (admits : σ → ι → Prop) : σ → List ι → Prop
  | _, [] => True
  | s, op :: ops => admits s op ∧ Along admits (step s op) ops

variable {step} {admits : σ → ι → Prop} {I : σ → Prop}

theorem foldl_invariant (hstep : ∀ s op, I s → admits s op → I (step s op)) {ops : List ι} {s : σ}
    (ha : Along step admits s ops) (hs : I s) : I (ops.foldl step s) := by
  induction ops generalizing s with
  | nil => exact hs
  | cons op ops ih => exact ih ha.2 (hstep s op hs ha.1)

theorem along_concat {ops : List ι} {op : ι} {s : σ} (h : Along step admits s ops)
    (hop : admits (ops.foldl step s) op) : Along step admits s (ops ++ [op]) := by
  induction ops generalizing s with
  | nil => exact ⟨hop, trivial⟩
  | cons first rest ih => exact ⟨h.1, ih h.2 hop⟩

theorem along_of_forall {ops : List ι} (h : ∀ op ∈ ops, ∀ s, admits s op) (s : σ) : Along step admits s ops := by
  induction ops generalizing s with
  | nil => trivial
  | cons op ops ih =>
      have hrest : ∀ op ∈ ops, ∀ s, admits s op := fun op hop => h op (List.mem_cons_of_mem _ hop)
      exact ⟨h op (List.mem_cons_self ..) s, ih hrest _⟩

end Runs

end Mutation

end Aetheris.Lib
