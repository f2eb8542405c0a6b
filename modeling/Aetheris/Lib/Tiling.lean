import Mathlib.Algebra.Order.Monoid.Defs
import Mathlib.Algebra.Order.Monoid.Unbundled.Pow
import Mathlib.Data.List.Basic
import Mathlib.Order.CompletePartialOrder
import Mathlib.Order.Interval.Set.Disjoint

namespace Aetheris.Lib.Tiling

section Order

variable {α : Type} [LinearOrder α] {lo mid hi x : α} {windows more : List (α × α)} {w : α × α}

/-- Half-open windows, none of them empty, of which the first starts at one end, each of the others
where the one before it ends, and the last ends at the other end. -/
inductive Tiles : α → List (α × α) → α → Prop
  | nil (lo : α) : Tiles lo [] lo
  | cons {lo mid hi : α} {windows : List (α × α)} (first : lo < mid) (rest : Tiles mid windows hi) :
      Tiles lo ((lo, mid) :: windows) hi

namespace Tiles

theorem le (h : Tiles lo windows hi) : lo ≤ hi := by
  induction h with
  | nil lo => exact le_refl lo
  | cons first rest ih => exact first.le.trans ih

theorem single (h : lo < hi) : Tiles lo [(lo, hi)] hi := .cons h (.nil hi)

theorem append (h : Tiles lo windows mid) (hmore : Tiles mid more hi) : Tiles lo (windows ++ more) hi := by
  induction h with
  | nil lo => exact hmore
  | cons first rest ih => exact .cons first (ih hmore)

/-- No window is empty, and none reaches outside. -/
theorem within (h : Tiles lo windows hi) (hw : w ∈ windows) : lo ≤ w.1 ∧ w.1 < w.2 ∧ w.2 ≤ hi := by
  induction h with
  | nil lo => exact absurd hw List.not_mem_nil
  | cons first rest ih =>
      rcases List.mem_cons.mp hw with rfl | hw
      · exact ⟨le_refl _, first, rest.le⟩
      · exact ⟨first.le.trans (ih hw).1, (ih hw).2⟩

/-- Each point between the ends lies in one of the windows, and in no other. -/
theorem existsUnique (h : Tiles lo windows hi) (hlo : lo ≤ x) (hhi : x < hi) :
    ∃! w, w ∈ windows ∧ w.1 ≤ x ∧ x < w.2 := by
  induction h with
  | nil lo => exact absurd hhi hlo.not_gt
  | @cons lo mid hi windows first rest ih =>
      by_cases hx : x < mid
      · refine ⟨(lo, mid), ⟨List.mem_cons_self, hlo, hx⟩, ?_⟩
        rintro v ⟨hv, hstart, -⟩
        rcases List.mem_cons.mp hv with rfl | hv
        · rfl
        · exact absurd hstart (hx.trans_le (rest.within hv).1).not_ge
      · obtain ⟨w, ⟨hw, hin⟩, honly⟩ := ih (not_lt.mp hx) hhi
        refine ⟨w, ⟨List.mem_cons_of_mem _ hw, hin⟩, ?_⟩
        rintro v ⟨hv, hv'⟩
        rcases List.mem_cons.mp hv with rfl | hv
        · exact absurd hv'.2 hx
        · exact honly v ⟨hv, hv'⟩

end Tiles

/-- Windows of which each ends before any later one starts have nothing in common. -/
theorem disjoint_of_ordered (h : windows.Pairwise fun v w => v.2 ≤ w.1) :
    windows.Pairwise fun v w => Disjoint (Set.Ico v.1 v.2) (Set.Ico w.1 w.2) :=
  h.imp fun hle => Set.Ico_disjoint_Ico.mpr ((min_le_left _ _).trans (hle.trans (le_max_right _ _)))

end Order

section Stepped

variable {α : Type} [AddCommMonoid α] [LinearOrder α] [IsOrderedCancelAddMonoid α] {lo step width : α}

/-- Windows of one width, whose starts are a step apart. -/
def stepped (lo step width : α) (n : Nat) : List (α × α) :=
  (List.range n).map fun k => (lo + k • step, lo + k • step + width)

/-- Windows no wider than the step between their starts are in order. -/
theorem stepped_ordered (hstep : 0 ≤ step) (hwidth : width ≤ step) (n : Nat) :
    (stepped lo step width n).Pairwise fun v w => v.2 ≤ w.1 := by
  apply List.pairwise_map.mpr
  refine List.pairwise_lt_range.imp ?_
  intro k l hkl
  calc lo + k • step + width ≤ lo + k • step + step := by gcongr
    _ = lo + (k + 1) • step := by rw [succ_nsmul, add_assoc]
    _ ≤ lo + l • step := by gcongr; exact hkl

/-- Windows as wide as the step between their starts are a tiling. -/
theorem stepped_tiles (hstep : 0 < step) (n : Nat) : Tiles lo (stepped lo step step n) (lo + n • step) := by
  induction n with
  | zero =>
      rw [zero_nsmul, add_zero]
      exact .nil lo
  | succ n ih =>
      rw [stepped, List.range_succ, List.map_append, succ_nsmul, ← add_assoc]
      exact ih.append (.single (lt_add_of_pos_right _ hstep))

end Stepped

end Aetheris.Lib.Tiling
