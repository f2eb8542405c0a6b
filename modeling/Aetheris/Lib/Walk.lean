import Mathlib.Data.List.Chain

namespace Aetheris.Lib

variable {α : Type} {R S : α → α → Prop} {start : α → Prop} {l : List α}

/-- A list that begins where it may and goes on along a relation. -/
structure Walk (R : α → α → Prop) (start : α → Prop) (l : List α) : Prop where
  starts : ∀ a ∈ l.head?, start a
  chain : l.IsChain R

namespace Walk

theorem nil : Walk R start [] := ⟨fun _ ha => (nomatch ha), .nil⟩

theorem mono (h : Walk R start l) (hRS : ∀ a b, R a b → S a b) : Walk S start l :=
  ⟨h.starts, h.chain.imp hRS⟩

theorem snoc (h : Walk R start l) {a : α} (hstart : l = [] → start a) (hstep : ∀ b ∈ l.getLast?, R b a) :
    Walk R start (l ++ [a]) := by
  constructor
  · intro b hb
    cases l with
    | nil =>
        cases hb
        exact hstart rfl
    | cons c l => exact h.starts b hb
  · rw [List.isChain_append]
    refine ⟨h.chain, by simp, ?_⟩
    intro b hb c hc
    cases hc
    exact hstep b hb

theorem step {before after : List α} {a b : α} (h : Walk R start (before ++ a :: b :: after)) : R a b := by
  have hsuffix : (a :: b :: after).IsChain R := (List.isChain_append.mp h.chain).2.1
  exact (List.isChain_cons_cons.mp hsuffix).1

/-- Where no walk starts, and where one gets only from there or from a gate,
it gets through the gate. -/
theorem passes (gate goal : α → Prop) (hstart : ∀ a, start a → ¬ goal a)
    (hinto : ∀ a b, R a b → goal b → goal a ∨ gate a) {before after : List α} {a : α}
    (h : Walk R start (before ++ a :: after)) (ha : goal a) : ∃ b ∈ before, gate b := by
  induction before using List.reverseRecOn generalizing a after with
  | nil => exact absurd ha (hstart a (h.starts a rfl))
  | append_singleton before b ih =>
      rw [List.append_assoc, List.singleton_append] at h
      rcases hinto b a h.step ha with hb | hb
      · obtain ⟨c, hc, hgate⟩ := ih h hb
        exact ⟨c, List.mem_append_left [b] hc, hgate⟩
      · exact ⟨b, List.mem_append_right before (List.mem_singleton_self b), hb⟩

end Walk

end Aetheris.Lib
