import Mathlib.Order.Basic

namespace Aetheris.Lib.WhileLoop

variable {σ ε : Type} {test : σ → Bool} {body : σ → Except ε σ} {s : σ} {r : Except ε σ} {fuel enough n : Nat}

/-- A loop that tests its state before each turn, and whose turns may raise. Out of fuel, it has not
ended and gives nothing. -/
def run (test : σ → Bool) (body : σ → Except ε σ) : Nat → σ → Option (Except ε σ)
  | 0, _ => none
  | fuel + 1, s =>
      if test s then
        match body s with
        | .ok t => run test body fuel t
        | .error e => some (.error e)
      else some (.ok s)

/-- A loop that has ended ends the same way with more fuel. -/
theorem run_of_le (h : run test body enough s = some r) (hle : enough ≤ fuel) :
    run test body fuel s = some r := by
  induction enough generalizing s fuel with
  | zero => cases h
  | succ enough ih =>
      obtain ⟨rest, rfl⟩ := Nat.exists_eq_add_of_le' hle
      rw [← Nat.add_assoc]
      rw [run] at h ⊢
      split at h
      · rw [if_pos ‹_›]
        cases hbody : body s with
        | error e => simpa only [hbody] using h
        | ok t =>
            rw [hbody] at h
            exact ih h (Nat.le_add_left _ _)
      · rwa [if_neg ‹_›]

/-- A loop whose turns go along a sequence of states ends in the first of them that fails its test. -/
theorem run_along (states : Nat → σ)
    (hturn : ∀ k, k < n → test (states k) = true ∧ body (states k) = .ok (states (k + 1)))
    (hend : test (states n) = false) : run test body (n + 1) (states 0) = some (.ok (states n)) := by
  induction n generalizing states with
  | zero => simp [run, hend]
  | succ n ih =>
      obtain ⟨htest, hbody⟩ := hturn 0 (Nat.succ_pos n)
      rw [run, if_pos htest, hbody]
      exact ih (fun k => states (k + 1)) (fun k hk => hturn (k + 1) (Nat.succ_lt_succ hk)) hend

end Aetheris.Lib.WhileLoop
