import Aetheris.Lib.Transaction

namespace Aetheris.Lib.Paired

open Transaction

variable {σ τ ε ε' ι α α' β β' : Type} {R R' : σ → τ → Prop} {Q : α → α' → Prop} {Q' : β → β' → Prop}

/-- Two calls that raise both, or return both with results and stores that belong together. -/
inductive Alike (R : σ → τ → Prop) (Q : α → α' → Prop) : Except ε (α × σ) → Except ε' (α' × τ) → Prop
  | returned {a s a' t} (hs : R s t) (ha : Q a a') : Alike R Q (.ok (a, s)) (.ok (a', t))
  | raised (e : ε) (e' : ε') : Alike R Q (.error e) (.error e')

variable {x : Transaction σ ε α} {y : Transaction τ ε' α'} {f : α → Transaction σ ε β} {g : α' → Transaction τ ε' β'}
  {s : σ} {t : τ}

theorem alike_pure {a : α} {a' : α'} (hs : R s t) (ha : Q a a') :
    Alike R Q ((pure a : Transaction σ ε α) s) ((pure a' : Transaction τ ε' α') t) :=
  .returned hs ha

theorem alike_throw (e : ε) (e' : ε') :
    Alike R Q ((throw e : Transaction σ ε α) s) ((throw e' : Transaction τ ε' α') t) :=
  .raised e e'

theorem Alike.mono {P : σ → τ → Prop} {P' : α → α' → Prop} {u : Except ε (α × σ)} {v : Except ε' (α' × τ)}
    (h : Alike R Q u v) (hR : ∀ s t, R s t → P s t) (hQ : ∀ a a', Q a a' → P' a a') : Alike P P' u v := by
  cases h with
  | returned hs ha => exact .returned (hR _ _ hs) (hQ _ _ ha)
  | raised e e' => exact .raised e e'

/-- What goes on from two calls alike, with results and stores that belong together, is alike. -/
theorem Alike.bind (hx : Alike R Q (x s) (y t))
    (hf : ∀ a a' s' t', R s' t' → Q a a' → Alike R' Q' (f a s') (g a' t')) :
    Alike R' Q' ((x >>= f) s) ((y >>= g) t) := by
  change Alike R' Q' (Except.bind (x s) fun p => f p.1 p.2) (Except.bind (y t) fun p => g p.1 p.2)
  cases hxs : x s with
  | error e =>
      cases hyt : y t with
      | error e' => exact .raised e e'
      | ok q =>
          rw [hxs, hyt] at hx
          cases hx
  | ok p =>
      cases hyt : y t with
      | error e' =>
          rw [hxs, hyt] at hx
          cases hx
      | ok q =>
          rw [hxs, hyt] at hx
          cases hx with
          | returned hs ha => exact hf _ _ _ _ hs ha

variable {perform : ι → Transaction σ ε Unit} {perform' : ι → Transaction τ ε' Unit} {op : ι} {ops : List ι}

/-- Which calls of a run return, in their order. -/
def returns (perform : ι → Transaction σ ε Unit) : σ → List ι → List Bool
  | _, [] => []
  | s, op :: ops => (perform op s).isOk :: returns perform (attempt perform s op) ops

theorem Alike.isOk {u : Except ε (α × σ)} {v : Except ε' (α' × τ)} (h : Alike R Q u v) : u.isOk = v.isOk := by
  cases h <;> rfl

theorem alike_attempt {P : Unit → Unit → Prop} (hs : R s t) (h : Alike R P (perform op s) (perform' op t)) :
    R (attempt perform s op) (attempt perform' t op) := by
  unfold attempt
  cases hx : perform op s with
  | error e =>
      cases hy : perform' op t with
      | error e' => exact hs
      | ok q =>
          rw [hx, hy] at h
          cases h
  | ok p =>
      cases hy : perform' op t with
      | error e' =>
          rw [hx, hy] at h
          cases h
      | ok q =>
          rw [hx, hy] at h
          cases h with
          | returned hs ha => exact hs

/-- Where each admitted call is alike over two stores, so is a run of them. -/
theorem run_alike {admits : σ → ι → Prop}
    (hstep : ∀ s t op, R s t → admits s op → Alike R (fun _ _ => True) (perform op s) (perform' op t))
    (h : Along perform admits s ops) (hs : R s t) :
    returns perform s ops = returns perform' t ops ∧ R (run perform s ops) (run perform' t ops) := by
  induction ops generalizing s t with
  | nil => exact ⟨rfl, hs⟩
  | cons op ops ih =>
      have hcall := hstep s t op hs h.1
      obtain ⟨hreturns, hrun⟩ := ih h.2 (alike_attempt hs hcall)
      refine ⟨?_, hrun⟩
      rw [returns, returns, hreturns, hcall.isOk]

end Aetheris.Lib.Paired
