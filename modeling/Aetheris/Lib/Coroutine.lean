import Mathlib.Logic.Relation

namespace Aetheris.Lib

/-- A computation that runs to its next await without interference and resumes
with the answer, or the exception, that the awaited effect produced. -/
inductive Coroutine (F : Type → Type 1) (ε α : Type) : Type 1
  | ret (a : α)
  | raise (e : ε)
  | await {β : Type} (f : F β) (k : Except ε β → Coroutine F ε α)

namespace Coroutine

variable {F : Type → Type 1} {ε α β W : Type}

def bind : Coroutine F ε α → (α → Coroutine F ε β) → Coroutine F ε β
  | ret a, k => k a
  | raise e, _ => raise e
  | await f k, k' => await f (fun r => (k r).bind k')

instance : Monad (Coroutine F ε) where
  pure := ret
  bind := bind

/-- Await an effect and let its exception through. -/
def perform (f : F α) : Coroutine F ε α :=
  await f fun
    | .ok a => ret a
    | .error e => raise e

/-- The body of a `try`: its exception becomes a value. -/
def caught : Coroutine F ε α → Coroutine F ε (Except ε α)
  | ret a => ret (.ok a)
  | raise e => ret (.error e)
  | await f k => await f (fun r => (k r).caught)

def finished : Except ε α → Coroutine F ε α
  | .ok a => ret a
  | .error e => raise e

def interp (env : {β : Type} → F β → W → Except ε β × W) : Coroutine F ε α → W → Except ε α × W
  | ret a, w => (.ok a, w)
  | raise e, w => (.error e, w)
  | await f k, w => (k (env f w).1).interp env (env f w).2

/-- As far as the answers to the next `n` effects carry it. -/
def advance (env : {β : Type} → F β → W → Except ε β × W) : Nat → Coroutine F ε α → W → Coroutine F ε α × W
  | n + 1, await f k, w => advance env n (k (env f w).1) (env f w).2
  | _, c, w => (c, w)

/-- The effects among the next `n` all pass the check, each where it is performed. -/
def passes (env : {β : Type} → F β → W → Except ε β × W) (check : {β : Type} → F β → W → Bool) :
    Nat → Coroutine F ε α → W → Bool
  | n + 1, await f k, w => check f w && passes env check n (k (env f w).1) (env f w).2
  | _, _, _ => true

theorem passes_of_forall {env : {β : Type} → F β → W → Except ε β × W} (n : Nat) (c : Coroutine F ε α) (w : W) :
    c.passes env (fun _ _ => true) n w = true := by
  induction n generalizing c w with
  | zero => cases c <;> rfl
  | succ n ih =>
      cases c with
      | ret a => rfl
      | raise e => rfl
      | await f k => exact ih _ _

section

variable (env : {β : Type} → F β → W → Except ε β × W)

theorem interp_bind (c : Coroutine F ε α) (k : α → Coroutine F ε β) (w : W) :
    (c >>= k).interp env w =
      match c.interp env w with
      | (.ok a, w') => (k a).interp env w'
      | (.error e, w') => (.error e, w') := by
  change (c.bind k).interp env w = _
  induction c generalizing w with
  | ret a => rfl
  | raise e => rfl
  | await f k' ih => exact ih (env f w).1 (env f w).2

theorem interp_bind_of_ok {c : Coroutine F ε α} {k : α → Coroutine F ε β} {w w' : W} {a : α}
    (h : c.interp env w = (.ok a, w')) : (c >>= k).interp env w = (k a).interp env w' := by
  rw [interp_bind, h]

theorem interp_bind_of_error {c : Coroutine F ε α} {k : α → Coroutine F ε β} {w w' : W} {e : ε}
    (h : c.interp env w = (.error e, w')) : (c >>= k).interp env w = (.error e, w') := by
  rw [interp_bind, h]

theorem interp_returns (c : Coroutine F ε α) (f : α → β) (w : W) :
    ((c >>= fun a => pure (f a)).interp env w).2 = (c.interp env w).2 := by
  cases hc : c.interp env w with
  | mk r w' =>
      cases r with
      | ok a => rw [interp_bind_of_ok env hc]; rfl
      | error e => rw [interp_bind_of_error env hc]

theorem interp_perform (f : F α) (w : W) : (perform f : Coroutine F ε α).interp env w = env f w := by
  change interp env (match (env f w).1 with
    | .ok a => ret a
    | .error e => raise e) (env f w).2 = _
  cases h : (env f w).1 <;> simp [interp, ← h]

theorem interp_caught (c : Coroutine F ε α) (w : W) :
    c.caught.interp env w = (.ok (c.interp env w).1, (c.interp env w).2) := by
  induction c generalizing w with
  | ret a => rfl
  | raise e => rfl
  | await f k ih => exact ih (env f w).1 (env f w).2

end

section

variable {Q : {β : Type} → F β → Prop}

/-- Whatever it is answered, the coroutine performs no effect but those of `Q`. -/
def Performs (Q : {β : Type} → F β → Prop) : Coroutine F ε α → Prop
  | ret _ | raise _ => True
  | await f k => Q f ∧ ∀ r, (k r).Performs Q

theorem performs_bind {c : Coroutine F ε α} {k : α → Coroutine F ε β} (hc : c.Performs Q)
    (hk : ∀ a, (k a).Performs Q) : (c >>= k).Performs Q := by
  change (c.bind k).Performs Q
  induction c with
  | ret a => exact hk a
  | raise e => exact trivial
  | await f k' ih => exact ⟨hc.1, fun r => ih r (hc.2 r)⟩

theorem performs_caught {c : Coroutine F ε α} (hc : c.Performs Q) : c.caught.Performs Q := by
  induction c with
  | ret a => exact trivial
  | raise e => exact trivial
  | await f k ih => exact ⟨hc.1, fun r => ih r (hc.2 r)⟩

theorem performs_perform {f : F α} (h : Q f) : (perform f : Coroutine F ε α).Performs Q :=
  ⟨h, fun r => by cases r <;> exact trivial⟩

theorem performs_then {f : F α} {k : α → Coroutine F ε β} (h : Q f) (hk : ∀ a, (k a).Performs Q) :
    (perform f >>= k).Performs Q := performs_bind (performs_perform h) hk

theorem performs_finished (r : Except ε α) : (finished r : Coroutine F ε α).Performs Q := by
  cases r <;> exact trivial

theorem performs_mono {Q' : {β : Type} → F β → Prop} (hmono : ∀ {β : Type} (f : F β), Q f → Q' f)
    {c : Coroutine F ε α} (h : c.Performs Q) : c.Performs Q' := by
  induction c with
  | ret a => exact trivial
  | raise e => exact trivial
  | await f k ih => exact ⟨hmono f h.1, fun r => ih r (h.2 r)⟩

theorem performs_of_forall (h : ∀ {β : Type} (f : F β), Q f) (c : Coroutine F ε α) : c.Performs Q := by
  induction c with
  | ret a => exact trivial
  | raise e => exact trivial
  | await f k ih => exact ⟨h f, ih⟩

end

end Coroutine

end Aetheris.Lib
