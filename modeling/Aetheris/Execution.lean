import Mathlib.Order.Basic

namespace Aetheris

variable {α : Type} [PartialOrder α] [Zero α]

/-- An order as its owner needs to know it: how much of it has been executed,
and whether that is the last word. -/
@[ext]
structure Execution (α : Type) [PartialOrder α] [Zero α] where
  quantity : α
  executed : α
  final : Prop
  executed_nonneg : 0 ≤ executed
  executed_le : executed ≤ quantity

namespace Execution

/-- Later knowledge of the same order: nothing executed is undone, and the
last word is not taken back. -/
instance : PartialOrder (Execution α) where
  le a b := a.quantity = b.quantity ∧ a.executed ≤ b.executed ∧ (a.final → b = a)
  le_refl a := ⟨rfl, le_refl _, fun _ => rfl⟩
  le_trans a b c := by
    rintro ⟨hq, he, hf⟩ ⟨hq', he', hf'⟩
    refine ⟨hq.trans hq', he.trans he', fun ha => ?_⟩
    have hb := hf ha
    subst hb
    exact hf' ha
  le_antisymm a b := by
    rintro ⟨hq, he, hf⟩ ⟨_, he', hf'⟩
    by_cases ha : a.final
    · exact (hf ha).symm
    · by_cases hb : b.final
      · exact hf' hb
      · exact Execution.ext hq (le_antisymm he he') (by simp [ha, hb])

end Execution

end Aetheris
