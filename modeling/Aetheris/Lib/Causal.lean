import Mathlib.Data.List.Basic
import Mathlib.Data.List.Forall2
import Mathlib.Order.Basic

namespace Aetheris.Lib

variable {α β γ δ σ : Type}

/-- One value for each input, and on the first inputs the first values. -/
structure Causal (f : List α → List β) : Prop where
  length : ∀ xs, (f xs).length = xs.length
  take : ∀ xs n, f (xs.take n) = (f xs).take n

namespace Causal

variable {f : List α → List β} {g : List α → List γ} {xs : List α}

/-- What stands at an index is what stands last on the inputs up to it. -/
theorem getElem?_take (hf : Causal f) (xs : List α) {n i : Nat} (hi : i < n) : (f (xs.take n))[i]? = (f xs)[i]? := by
  rw [hf.take, List.getElem?_take_of_lt hi]

theorem prefix_append (hf : Causal f) (xs ys : List α) : f xs = (f (xs ++ ys)).take xs.length := by
  rw [← hf.take, List.take_left]

theorem map (h : α → β) : Causal (List.map h) where
  length _ := List.length_map _
  take _ _ := List.map_take

theorem comp {h : List β → List γ} (hh : Causal h) (hf : Causal f) : Causal fun xs => h (f xs) where
  length xs := (hh.length _).trans (hf.length xs)
  take xs n := by rw [hf.take, hh.take]

theorem zipWith (h : β → γ → δ) (hf : Causal f) (hg : Causal g) : Causal fun xs => List.zipWith h (f xs) (g xs) where
  length xs := by rw [List.length_zipWith, hf.length, hg.length, Nat.min_self]
  take xs n := by rw [hf.take, hg.take, List.take_zipWith]

end Causal

/-- A value for each input, of the inputs before it by way of a state. -/
def scan (step : σ → α → σ × β) : σ → List α → List β
  | _, [] => []
  | s, x :: xs => (step s x).2 :: scan step (step s x).1 xs

theorem causal_scan (step : σ → α → σ × β) (s : σ) : Causal (scan step s) where
  length xs := by
    induction xs generalizing s with
    | nil => rfl
    | cons x xs ih => exact congrArg (· + 1) (ih _)
  take xs n := by
    induction xs generalizing s n with
    | nil => cases n <;> rfl
    | cons x xs ih =>
        cases n with
        | zero => rfl
        | succ n => exact congrArg (_ :: ·) (ih _ n)

/-- Nothing at the first input, and at each other what it and the one before it give. -/
def stepwise (h : α → α → β) : List α → List (Option β) :=
  scan (fun previous x => (some x, previous.map fun y => h y x)) none

theorem causal_stepwise (h : α → α → β) : Causal (stepwise h) := causal_scan _ _

/-- A recursion that goes on from a value until an input breaks it, and is undefined from there on. -/
def resume (next : β → α → Option β) : β → List α → List (Option β)
  | _, [] => []
  | previous, x :: xs =>
      match next previous x with
      | none => none :: xs.map fun _ => none
      | some value => some value :: resume next value xs

theorem causal_resume (next : β → α → Option β) (previous : β) : Causal (resume next previous) where
  length xs := by
    induction xs generalizing previous with
    | nil => rfl
    | cons x xs ih =>
        unfold resume
        split
        · simp
        · simp [ih]
  take xs n := by
    induction xs generalizing previous n with
    | nil => simp [resume]
    | cons x xs ih =>
        cases n with
        | zero => rfl
        | succ n =>
            rw [List.take_succ_cons, resume, resume]
            split
            · simp
            · rw [ih, List.take_succ_cons]

section Related

/-- Two runs on related inputs, in states that stay related, give related values. -/
theorem scan_related {τ : Type} {R : α → γ → Prop} {S : σ → τ → Prop} {step : σ → α → σ × β} {step' : τ → γ → τ × δ}
    (φ : β → δ)
    (hstep : ∀ s s' x x', S s s' → R x x' →
      S (step s x).1 (step' s' x').1 ∧ (step' s' x').2 = φ (step s x).2)
    {s : σ} {s' : τ} (hs : S s s') {xs : List α} {ys : List γ} (hxs : List.Forall₂ R xs ys) :
    scan step' s' ys = (scan step s xs).map φ := by
  induction hxs generalizing s s' with
  | nil => rfl
  | cons hx _ ih =>
      obtain ⟨hnext, hvalue⟩ := hstep _ _ _ _ hs hx
      rw [scan, scan, List.map_cons, hvalue, ih hnext]

/-- What two successive inputs give depends on them as the relation lets it. -/
theorem stepwise_related {R : α → γ → Prop} {h : α → α → β} {h' : γ → γ → δ} (φ : β → δ)
    (hh : ∀ y y' x x', R y y' → R x x' → h' y' x' = φ (h y x)) {xs : List α} {ys : List γ}
    (hxs : List.Forall₂ R xs ys) : stepwise h' ys = (stepwise h xs).map (Option.map φ) := by
  refine scan_related (S := Option.Rel R) (Option.map φ) ?_ Option.Rel.none hxs
  intro previous previous' x x' hprevious hx
  refine ⟨Option.Rel.some hx, ?_⟩
  cases hprevious with
  | none => rfl
  | some hy => exact congrArg some (hh _ _ _ _ hy hx)

theorem stepwise_same {R : α → γ → Prop} {h : α → α → β} {h' : γ → γ → β}
    (hh : ∀ y y' x x', R y y' → R x x' → h' y' x' = h y x) {xs : List α} {ys : List γ}
    (hxs : List.Forall₂ R xs ys) : stepwise h' ys = stepwise h xs := by
  rw [stepwise_related id hh hxs, Option.map_id, List.map_id]

theorem resume_map {next : β → α → Option β} {next' : δ → γ → Option δ} (φ : β → δ) (ψ : α → γ)
    (hnext : ∀ previous x, next' (φ previous) (ψ x) = (next previous x).map φ) (previous : β) (xs : List α) :
    resume next' (φ previous) (xs.map ψ) = (resume next previous xs).map (Option.map φ) := by
  induction xs generalizing previous with
  | nil => rfl
  | cons x xs ih =>
      rw [List.map_cons, resume, resume, hnext]
      cases next previous x with
      | none => simp [Function.comp_def]
      | some value => exact congrArg (some (φ value) :: ·) (ih value)

/-- The same of a series that is undefined before an index and goes on from there. -/
theorem seeded_map {next : β → α → Option β} {next' : δ → γ → Option δ} (φ : β → δ) (ψ : α → γ)
    (hnext : ∀ previous x, next' (φ previous) (ψ x) = (next previous x).map φ) (k : Nat) (first : β) (xs : List α) :
    List.replicate k none ++ some (φ first) :: resume next' (φ first) (xs.map ψ) =
      (List.replicate k none ++ some first :: resume next first xs).map (Option.map φ) := by
  rw [resume_map φ ψ hnext, List.map_append, List.map_replicate, List.map_cons, Option.map_none, Option.map_some]

end Related

section LastInput

/-- What one more input adds is of it and the input before it. -/
theorem scan_concat (step : σ → α → σ × β) (s : σ) (xs : List α) (x : α) :
    scan step s (xs ++ [x]) = scan step s xs ++ [(step (xs.foldl (fun s x => (step s x).1) s) x).2] := by
  induction xs generalizing s with
  | nil => rfl
  | cons y xs ih => exact congrArg ((step s y).2 :: ·) (ih _)

theorem stepwise_concat (h : α → α → β) (xs : List α) (x : α) :
    stepwise h (xs ++ [x]) = stepwise h xs ++ [xs.getLast?.map fun y => h y x] := by
  have hlast (previous : Option α) : xs.foldl (fun _ y => some y) previous = xs.getLast?.or previous := by
    induction xs generalizing previous with
    | nil => rfl
    | cons y xs ih =>
        rw [List.foldl_cons, ih, List.getLast?_cons]
        cases xs.getLast? <;> rfl
  rw [stepwise, scan_concat, hlast, Option.or_none]

/-- One more input goes on from the last value, if there still is one. -/
theorem resume_concat (next : β → α → Option β) (previous : β) (xs : List α) (x : α) :
    resume next previous (xs ++ [x]) = resume next previous xs ++
      [(some previous :: resume next previous xs).getLast?.join.bind fun value => next value x] := by
  induction xs generalizing previous with
  | nil =>
      rw [List.nil_append, resume, resume]
      cases hx : next previous x <;> simp [hx, resume]
  | cons y xs ih =>
      rw [List.cons_append, resume, resume]
      cases next previous y with
      | none =>
          have hgap : (none :: xs.map fun _ => (none : Option β)).getLast? = some none := by
            rw [List.map_const', ← List.replicate_succ, List.getLast?_replicate]
            rfl
          dsimp only
          rw [List.getLast?_cons_cons, hgap, List.map_append]
          rfl
      | some value =>
          dsimp only
          rw [ih, List.cons_append, List.getLast?_cons_cons]

end LastInput

section Values

/-- Each value of the series has a property. -/
def Every (P : β → Prop) (series : List (Option β)) : Prop := ∀ entry ∈ series, ∀ value ∈ entry, P value

variable {P : β → Prop}

theorem every_undefined (n : Nat) : Every P (List.replicate n none) := by
  intro entry hentry value hvalue
  rw [List.eq_of_mem_replicate hentry] at hvalue
  cases hvalue

theorem every_append {first rest : List (Option β)} (hfirst : Every P first) (hrest : Every P rest) :
    Every P (first ++ rest) :=
  fun entry hentry => (List.mem_append.mp hentry).elim (hfirst entry) (hrest entry)

theorem every_cons {value : β} {rest : List (Option β)} (hvalue : P value) (hrest : Every P rest) :
    Every P (some value :: rest) := by
  intro entry hentry found hfound
  rcases List.mem_cons.mp hentry with rfl | hentry
  · obtain rfl := Option.mem_some.mp hfound
    exact hvalue
  · exact hrest entry hentry found hfound

theorem every_stepwise {h : α → α → β} (hh : ∀ y x, P (h y x)) (xs : List α) : Every P (stepwise h xs) := by
  have hscan (previous : Option α) :
      Every P (scan (fun previous x => (some x, previous.map fun y => h y x)) previous xs) := by
    induction xs generalizing previous with
    | nil => exact fun entry hentry => absurd hentry List.not_mem_nil
    | cons x xs ih =>
        intro entry hentry value hvalue
        rcases List.mem_cons.mp hentry with rfl | hentry
        · obtain ⟨y, -, rfl⟩ := Option.map_eq_some_iff.mp hvalue
          exact hh y x
        · exact ih (some x) entry hentry value hvalue
  exact hscan none

theorem every_resume {next : β → α → Option β} {xs : List α} {previous : β}
    (hnext : ∀ previous, P previous → ∀ x ∈ xs, ∀ value ∈ next previous x, P value) (hprevious : P previous) :
    Every P (resume next previous xs) := by
  induction xs generalizing previous with
  | nil => exact fun entry hentry => absurd hentry List.not_mem_nil
  | cons x xs ih =>
      intro entry hentry value hvalue
      rw [resume] at hentry
      cases hx : next previous x with
      | none =>
          rw [hx] at hentry
          rcases List.mem_cons.mp hentry with rfl | hrest
          · cases hvalue
          · obtain ⟨_, -, rfl⟩ := List.mem_map.mp hrest
            cases hvalue
      | some found =>
          rw [hx] at hentry
          have hfound : P found := hnext previous hprevious x List.mem_cons_self found hx
          rcases List.mem_cons.mp hentry with rfl | hentry
          · obtain rfl := Option.mem_some.mp hvalue
            exact hfound
          · exact ih (fun previous hP x hx => hnext previous hP x (List.mem_cons_of_mem _ hx)) hfound
              entry hentry value hvalue

end Values

/-- A series that is undefined before an index and goes on from there by a recursion
is causal, if its inputs up to that index say that it starts there, and with what. -/
theorem causal_seeded {f : List α → List (Option β)} (locate : List α → Option Nat) (init : Nat → List α → β)
    (next : β → α → Option β)
    (hf : ∀ xs, f xs = match locate xs with
      | none => List.replicate xs.length none
      | some k => List.replicate k none ++ some (init k xs) :: resume next (init k xs) (xs.drop (k + 1)))
    (hlocate : ∀ xs, ∀ k ∈ locate xs, k < xs.length)
    (htake : ∀ xs n, locate (xs.take n) = (locate xs).filter (· < n))
    (hinit : ∀ xs n, ∀ k ∈ locate xs, k < n → init k (xs.take n) = init k xs) : Causal f where
  length xs := by
    rw [hf]
    split
    · exact List.length_replicate
    · rename_i k hk
      have hlt := hlocate xs k hk
      rw [List.length_append, List.length_replicate, List.length_cons, (causal_resume _ _).length, List.length_drop]
      omega
  take xs n := by
    rw [hf, hf, htake]
    cases hk : locate xs with
    | none => simp
    | some k =>
        have hlt := hlocate xs k hk
        by_cases hn : k < n
        · obtain ⟨m, rfl⟩ : ∃ m, n = k + (m + 1) := ⟨n - k - 1, by omega⟩
          have hrest : k + (m + 1) - (k + 1) = m := by omega
          have hseen : min (k + (m + 1)) k = k := Nat.min_eq_right (Nat.le_add_right _ _)
          rw [Option.filter_some_pos (by simp)]
          dsimp only
          rw [hinit xs _ k hk hn, List.drop_take, (causal_resume _ _).take, hrest, List.take_append, List.length_replicate,
            Nat.add_sub_cancel_left, List.take_succ_cons, List.take_replicate, hseen]
        · rw [Option.filter_some_neg (by simpa using hn)]
          dsimp only
          have hle : n ≤ k := Nat.le_of_not_lt hn
          have hshort : min n xs.length = n := Nat.min_eq_left (by omega)
          rw [List.take_append_of_le_length (by simpa using hle), List.take_replicate, List.length_take,
            Nat.min_eq_left hle, hshort]

end Aetheris.Lib
