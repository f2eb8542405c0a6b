import Aetheris.Lib.Causal
import Mathlib.Algebra.Field.Defs

namespace Aetheris.Lib

/-- What a division by zero raises: of zero, that it has no value, and else that it has none that is finite. -/
inductive DivisionError
  | invalidOperation | divisionByZero
  deriving DecidableEq

def divide {K : Type} [Field K] [DecidableEq K] (x y : K) : Except DivisionError K :=
  if y = 0 then .error (if x = 0 then .invalidOperation else .divisionByZero) else .ok (x / y)

theorem divide_ok {K : Type} [Field K] [DecidableEq K] {x y : K} (h : y ≠ 0) : divide x y = .ok (x / y) := if_neg h

namespace Raising

variable {ε α β γ : Type}

/-- What passes a test that nothing raised passes was not raised. -/
theorem exists_ok {x : Except ε α} {p : α → Bool} (h : x.toOption.any p = true) : ∃ a, x = .ok a ∧ p a = true := by
  cases x with
  | error e => cases h
  | ok a => exact ⟨a, rfl, h⟩

/-- A loop over a list raises nothing if none of its turns does. -/
theorem mapM_ok {f : α → Except ε β} {g : α → β} {xs : List α} (h : ∀ x ∈ xs, f x = .ok (g x)) :
    xs.mapM f = .ok (xs.map g) := by
  induction xs with
  | nil => rfl
  | cons x xs ih =>
      rw [List.mapM_cons, h x List.mem_cons_self, ih fun y hy => h y (List.mem_cons_of_mem _ hy)]
      rfl

/-- A loop over two lists at once. -/
def zipWithM (f : α → β → Except ε γ) (xs : List α) (ys : List β) : Except ε (List γ) :=
  (xs.zip ys).mapM fun pair => f pair.1 pair.2

theorem zipWithM_ok {f : α → β → Except ε γ} {g : α → β → γ} {xs : List α} {ys : List β}
    (h : ∀ x ∈ xs, ∀ y ∈ ys, f x y = .ok (g x y)) : zipWithM f xs ys = .ok (List.zipWith g xs ys) := by
  rw [zipWithM, mapM_ok fun pair hpair => h pair.1 (List.of_mem_zip hpair).1 pair.2 (List.of_mem_zip hpair).2,
    List.map_zip_eq_zipWith]
  rfl

/-- A recursion that goes on from a value until an input breaks it, where a step may raise. -/
def resumeM (next : β → α → Except ε (Option β)) : β → List α → Except ε (List (Option β))
  | _, [] => pure []
  | previous, x :: xs => do
      match ← next previous x with
      | none => pure (none :: xs.map fun _ => none)
      | some value => return some value :: (← resumeM next value xs)

theorem resumeM_ok {next : β → α → Except ε (Option β)} {next' : β → α → Option β}
    (h : ∀ previous x, next previous x = .ok (next' previous x)) (previous : β) (xs : List α) :
    resumeM next previous xs = .ok (resume next' previous xs) := by
  induction xs generalizing previous with
  | nil => rfl
  | cons x xs ih =>
      rw [resumeM, resume, h]
      cases next' previous x with
      | none => rfl
      | some value =>
          change (resumeM next value xs).bind _ = _
          rw [ih]
          rfl

end Raising

end Aetheris.Lib
