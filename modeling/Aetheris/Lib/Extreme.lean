import Mathlib.Data.List.Induction
import Mathlib.Order.Bounds.Basic

namespace Aetheris.Lib.Extreme

variable {α : Type} [LinearOrder α] {up : Bool} {s t : Set α} {x y z : α}

/-- The further of two on the side asked for. -/
def outer (up : Bool) (x y : α) : α := if up then max x y else min x y

/-- A member of a set that no other lies beyond. -/
def IsExtreme (up : Bool) (s : Set α) (x : α) : Prop := if up then IsGreatest s x else IsLeast s x

theorem isExtreme_singleton (up : Bool) (x : α) : IsExtreme up {x} x := by
  cases up with
  | true => exact isGreatest_singleton
  | false => exact isLeast_singleton

theorem IsExtreme.insert (h : IsExtreme up s x) (y : α) : IsExtreme up (insert y s) (outer up x y) := by
  cases up with
  | true =>
      change IsGreatest (insert y s) (max x y)
      rw [max_comm]
      exact IsGreatest.insert y h
  | false =>
      change IsLeast (insert y s) (min x y)
      rw [min_comm]
      exact IsLeast.insert y h

theorem IsExtreme.unique (hx : IsExtreme up s x) (hy : IsExtreme up s y) : x = y := by
  cases up with
  | true => exact IsGreatest.unique hx hy
  | false => exact IsLeast.unique hx hy

/-- What a list leaves of a start, outermost of all. -/
theorem isExtreme_foldl (up : Bool) (x : α) (l : List α) :
    IsExtreme up (insert x {y | y ∈ l}) (l.foldl (outer up) x) := by
  induction l using List.reverseRecOn with
  | nil =>
      have hempty : {y | y ∈ ([] : List α)} = ∅ := by simp
      rw [hempty, insert_empty_eq]
      exact isExtreme_singleton up x
  | append_singleton l y ih =>
      have hseen : {z | z ∈ l ++ [y]} = insert y {z | z ∈ l} := by
        ext z
        simp [or_comm]
      rw [List.foldl_append, hseen, Set.insert_comm]
      exact ih.insert y

section Folds

variable {β : Type} {R : β → β → Prop} {keep : β → β → β}

/-- A fold that keeps one of two ends with one that it saw. -/
theorem foldl_mem (hkeep : ∀ a b, keep a b = a ∨ keep a b = b) (l : List β) (a : β) : l.foldl keep a ∈ a :: l := by
  induction l generalizing a with
  | nil => exact List.mem_singleton_self a
  | cons b l ih =>
      rw [List.foldl_cons]
      rcases List.mem_cons.mp (ih (keep a b)) with hfirst | hrest
      · rw [hfirst]
        rcases hkeep a b with h | h
        · rw [h]
          exact List.mem_cons_self
        · rw [h]
          exact List.mem_cons_of_mem _ List.mem_cons_self
      · exact List.mem_cons_of_mem _ (List.mem_cons_of_mem _ hrest)

/-- A fold that keeps one of two, the one that is at least as good as both,
ends with one that is at least as good as all. -/
theorem foldl_keep (hrefl : ∀ a, R a a)
    (htrans : ∀ {a b c}, R a b → R b c → R a c) (hkeep : ∀ a b, keep a b = a ∨ keep a b = b) (l : List β) (a : β)
    (h : (a :: l).Pairwise fun b x => R (keep b x) b ∧ R (keep b x) x) :
    l.foldl keep a ∈ a :: l ∧ ∀ x ∈ a :: l, R (l.foldl keep a) x := by
  refine ⟨foldl_mem hkeep l a, ?_⟩
  induction l generalizing a with
  | nil => exact fun x hx => List.mem_singleton.mp hx ▸ hrefl a
  | cons b l ih =>
      obtain ⟨hfirst, hrest⟩ := List.pairwise_cons.mp h
      obtain ⟨hafter, htail⟩ := List.pairwise_cons.mp hrest
      obtain ⟨hka, hkb⟩ := hfirst b (List.mem_cons_self ..)
      have hkept : (keep a b :: l).Pairwise fun b x => R (keep b x) b ∧ R (keep b x) x := by
        refine List.pairwise_cons.mpr ⟨fun x hx => ?_, htail⟩
        rcases hkeep a b with hk | hk
        · rw [hk]
          exact hfirst x (List.mem_cons_of_mem b hx)
        · rw [hk]
          exact hafter x hx
      have hbest := ih (keep a b) hkept
      rw [List.foldl_cons]
      intro x hx
      have hfold := hbest (keep a b) (List.mem_cons_self ..)
      rcases List.mem_cons.mp hx with rfl | hx
      · exact htrans hfold hka
      · rcases List.mem_cons.mp hx with rfl | hx
        · exact htrans hfold hkb
        · exact hbest x (List.mem_cons_of_mem _ hx)

end Folds

end Aetheris.Lib.Extreme
