import Mathlib.Algebra.Order.Archimedean.Basic
import Mathlib.Algebra.Order.Floor.Ring
import Mathlib.Algebra.Order.Field.Basic
import Mathlib.Algebra.Order.Ring.Abs
import Mathlib.Tactic.FieldSimp
import Mathlib.Tactic.Linarith
import Mathlib.Tactic.Ring

namespace Aetheris.Lib.FixedPoint

variable {K : Type} [Field K] [LinearOrder K] [IsStrictOrderedRing K] [FloorRing K] {u x y : K}

/-- A whole number of units, `u` of them to one. -/
def Grid (u x : K) : Prop := ∃ n : ℤ, x = n / u

/-- To the nearest unit, ties away from zero. -/
def halfUp (u x : K) : K :=
  if 0 ≤ x then ⌊x * u + 1 / 2⌋ / u else -(⌊-x * u + 1 / 2⌋ / u)

omit [LinearOrder K] [IsStrictOrderedRing K] [FloorRing K] in
theorem grid_zero : Grid u (0 : K) := ⟨0, by simp⟩

omit [LinearOrder K] [IsStrictOrderedRing K] [FloorRing K] in
theorem Grid.add (hx : Grid u x) (hy : Grid u y) : Grid u (x + y) := by
  obtain ⟨m, rfl⟩ := hx
  obtain ⟨n, rfl⟩ := hy
  exact ⟨m + n, by push_cast; ring⟩

omit [LinearOrder K] [IsStrictOrderedRing K] [FloorRing K] in
theorem Grid.neg (hx : Grid u x) : Grid u (-x) := by
  obtain ⟨n, rfl⟩ := hx
  exact ⟨-n, by push_cast; ring⟩

omit [LinearOrder K] [IsStrictOrderedRing K] [FloorRing K] in
theorem Grid.sub (hx : Grid u x) (hy : Grid u y) : Grid u (x - y) := by
  rw [sub_eq_add_neg]
  exact hx.add hy.neg

omit [LinearOrder K] [IsStrictOrderedRing K] [FloorRing K] in
theorem grid_sum {xs : List K} (h : ∀ x ∈ xs, Grid u x) : Grid u xs.sum := by
  induction xs with
  | nil => exact grid_zero
  | cons x xs ih =>
      rw [List.sum_cons]
      exact (h x (List.mem_cons_self ..)).add (ih fun y hy => h y (List.mem_cons_of_mem _ hy))

omit [IsStrictOrderedRing K] in
theorem halfUp_of_nonneg (h : 0 ≤ x) : halfUp u x = ⌊x * u + 1 / 2⌋ / u := if_pos h

theorem halfUp_of_neg (h : x < 0) : halfUp u x = -halfUp u (-x) := by
  rw [halfUp, if_neg (not_le.mpr h), halfUp_of_nonneg (neg_nonneg.mpr h.le)]

omit [IsStrictOrderedRing K] in
theorem grid_halfUp (u x : K) : Grid u (halfUp u x) := by
  unfold halfUp
  split
  · exact ⟨_, rfl⟩
  · exact ⟨-⌊-x * u + 1 / 2⌋, by push_cast; ring⟩

/-- A value rounds as its opposite does. -/
theorem halfUp_neg (u x : K) : halfUp u (-x) = -halfUp u x := by
  rcases lt_trichotomy x 0 with h | h | h
  · rw [halfUp_of_neg h, neg_neg]
  · have hfloor : ⌊(1 : K) / 2⌋ = 0 := Int.floor_eq_iff.mpr (by constructor <;> norm_num)
    rw [h, neg_zero, halfUp_of_nonneg le_rfl, zero_mul, zero_add, hfloor, Int.cast_zero, zero_div, neg_zero]
  · rw [halfUp_of_neg (neg_lt_zero.mpr h), neg_neg]

section

variable (hu : 0 < u)

include hu

theorem halfUp_of_grid (h : Grid u x) : halfUp u x = x := by
  have hfloor : ∀ n : ℤ, ⌊(n : K) / u * u + 1 / 2⌋ = n := by
    intro n
    rw [div_mul_cancel₀ _ hu.ne', Int.floor_eq_iff]
    constructor <;> linarith
  obtain ⟨n, rfl⟩ := h
  unfold halfUp
  split
  · rw [hfloor]
  · have hneg : -((n : K) / u) = ((-n : ℤ) : K) / u := by push_cast; ring
    rw [hneg, hfloor]
    push_cast
    ring

theorem halfUp_nonneg (h : 0 ≤ x) : 0 ≤ halfUp u x := by
  rw [halfUp_of_nonneg h]
  have hfloor : (0 : ℤ) ≤ ⌊x * u + 1 / 2⌋ := Int.floor_nonneg.mpr (by positivity)
  have hcast : (0 : K) ≤ (⌊x * u + 1 / 2⌋ : K) := by exact_mod_cast hfloor
  exact div_nonneg hcast hu.le

/-- Rounding moves a value by half a unit at most. -/
theorem halfUp_le (x : K) : halfUp u x ≤ x + 1 / (2 * u) := by
  have hhalf : 1 / (2 * u) * u = 1 / 2 := by field_simp
  rcases le_or_gt 0 x with h | h
  · rw [halfUp_of_nonneg h, div_le_iff₀ hu, add_mul, hhalf]
    exact Int.floor_le _
  · rw [halfUp_of_neg h, halfUp_of_nonneg (neg_nonneg.mpr h.le), neg_le, le_div_iff₀ hu]
    have hfloor := Int.lt_floor_add_one (-x * u + 1 / 2)
    have hexpand : -(x + 1 / (2 * u)) * u = -x * u - 1 / 2 := by
      rw [neg_mul, add_mul, hhalf]
      ring
    rw [hexpand]
    linarith

theorem le_halfUp (x : K) : x - 1 / (2 * u) ≤ halfUp u x := by
  have hneg : halfUp u (-x) ≤ -x + 1 / (2 * u) := halfUp_le hu (-x)
  rw [halfUp_neg] at hneg
  linarith

theorem abs_halfUp_sub_le (x : K) : |halfUp u x - x| ≤ 1 / (2 * u) :=
  abs_le.mpr ⟨by linarith [le_halfUp hu x], by linarith [halfUp_le hu x]⟩

omit [FloorRing K] in
/-- Of two numbers of units, one that is short of the unit above the other is no more than it. -/
theorem Grid.le_of_lt (hx : Grid u x) (hy : Grid u y) (h : x < y + 1 / u) : x ≤ y := by
  obtain ⟨m, rfl⟩ := hx
  obtain ⟨n, rfl⟩ := hy
  rw [← add_div, div_lt_div_iff_of_pos_right hu] at h
  have hlt : m < n + 1 := by exact_mod_cast h
  rw [div_le_div_iff_of_pos_right hu]
  exact_mod_cast Int.lt_add_one_iff.mp hlt

/-- A value below the midpoint above a unit does not round past it. -/
theorem halfUp_le_grid (hy : Grid u y) (h : x < y + 1 / (2 * u)) : halfUp u x ≤ y := by
  obtain ⟨n, rfl⟩ := hy
  have hhalf : 1 / (2 * u) * u = 1 / 2 := by field_simp
  have hscaled : x * u < n + 1 / 2 := by
    have hmul := mul_lt_mul_of_pos_right h hu
    rwa [add_mul, div_mul_cancel₀ _ hu.ne', hhalf] at hmul
  rcases le_or_gt 0 x with hx | hx
  · rw [halfUp_of_nonneg hx, div_le_div_iff_of_pos_right hu]
    have hfloor : ⌊x * u + 1 / 2⌋ < n + 1 := Int.floor_lt.mpr (by push_cast; linarith)
    exact_mod_cast Int.lt_add_one_iff.mp hfloor
  · rw [halfUp_of_neg hx, halfUp_of_nonneg (neg_nonneg.mpr hx.le), ← neg_div, div_le_div_iff_of_pos_right hu]
    have hfloor : -n ≤ ⌊-x * u + 1 / 2⌋ := Int.le_floor.mpr (by push_cast; linarith)
    have hcast : ((-n : ℤ) : K) ≤ (⌊-x * u + 1 / 2⌋ : K) := by exact_mod_cast hfloor
    push_cast at hcast
    linarith

/-- What rounds to more than nothing is half a unit at least. -/
theorem halfUp_pos_iff : 0 < halfUp u x ↔ 1 / (2 * u) ≤ x := by
  constructor
  · intro h
    by_contra hx
    have hle : halfUp u x ≤ 0 := halfUp_le_grid hu grid_zero (by linarith)
    exact absurd h (not_lt.mpr hle)
  · intro h
    have hhalf : 1 / (2 * u) * u = 1 / 2 := by field_simp
    have hscaled : 1 / 2 ≤ x * u := by
      have hmul := mul_le_mul_of_nonneg_right h hu.le
      rwa [hhalf] at hmul
    have hfloor : (1 : ℤ) ≤ ⌊x * u + 1 / 2⌋ := Int.le_floor.mpr (by push_cast; linarith)
    have hcast : (1 : K) ≤ (⌊x * u + 1 / 2⌋ : K) := by exact_mod_cast hfloor
    rw [halfUp_of_nonneg (le_trans (by positivity) h)]
    exact div_pos (by linarith) hu

/-- What rounds to a positive grid value or more lies half a unit below it at least. -/
theorem grid_le_halfUp_iff (hy : Grid u y) (hpos : 0 < y) : y ≤ halfUp u x ↔ y - 1 / (2 * u) ≤ x := by
  constructor
  · intro h
    linarith [halfUp_le hu x]
  · intro h
    obtain ⟨n, rfl⟩ := hy
    have hhalf : 1 / (2 * u) * u = 1 / 2 := by field_simp
    have hscaled : (n : K) ≤ x * u + 1 / 2 := by
      have hmul := mul_le_mul_of_nonneg_right h hu.le
      rw [sub_mul, div_mul_cancel₀ _ hu.ne', hhalf] at hmul
      linarith
    have hn : (1 : K) ≤ n := by
      have hcast : (0 : K) < n := (div_pos_iff_of_pos_right hu).mp hpos
      exact_mod_cast Int.add_one_le_iff.mpr (by exact_mod_cast hcast : (0 : ℤ) < n)
    have hx : 0 ≤ x := nonneg_of_mul_nonneg_left (by linarith : 0 ≤ x * u) hu
    rw [halfUp_of_nonneg hx, div_le_div_iff_of_pos_right hu]
    exact_mod_cast Int.le_floor.mpr hscaled

theorem halfUp_mono (h : x ≤ y) : halfUp u x ≤ halfUp u y := by
  rcases le_or_gt 0 x with hx | hx
  · rw [halfUp_of_nonneg hx, halfUp_of_nonneg (hx.trans h), div_le_div_iff_of_pos_right hu]
    have hfloor : ⌊x * u + 1 / 2⌋ ≤ ⌊y * u + 1 / 2⌋ :=
      Int.floor_le_floor (by linarith [mul_le_mul_of_nonneg_right h hu.le])
    exact_mod_cast hfloor
  · rcases le_or_gt 0 y with hy | hy
    · have hleft := halfUp_nonneg hu (neg_nonneg.mpr hx.le)
      have hright := halfUp_nonneg hu hy
      rw [halfUp_of_neg hx]
      linarith
    · rw [halfUp_of_neg hx, halfUp_of_neg hy, neg_le_neg_iff, halfUp_of_nonneg (neg_nonneg.mpr hy.le),
        halfUp_of_nonneg (neg_nonneg.mpr hx.le), div_le_div_iff_of_pos_right hu]
      have hfloor : ⌊-y * u + 1 / 2⌋ ≤ ⌊-x * u + 1 / 2⌋ :=
        Int.floor_le_floor (by linarith [mul_le_mul_of_nonneg_right h hu.le])
      exact_mod_cast hfloor

end

section Steps

variable {s : K} (hs : 0 < s)

include hs

/-- Whole steps of a value are within a bound exactly where the value is short of the first step past it. -/
theorem floor_mul_le_iff (x y : K) : (⌊x / s⌋ : K) * s ≤ y ↔ x < (⌊y / s⌋ + 1) * s := by
  rw [← le_div_iff₀ hs, ← Int.le_floor, ← div_lt_iff₀ hs, ← Int.lt_add_one_iff, Int.floor_lt]
  push_cast
  rfl

/-- Whole steps of a value reach a bound exactly where the value reaches the first step at or past it. -/
theorem le_floor_mul_iff (x y : K) : y ≤ (⌊x / s⌋ : K) * s ↔ (⌈y / s⌉ : K) * s ≤ x := by
  rw [← div_le_iff₀ hs, ← Int.ceil_le, Int.le_floor, ← le_div_iff₀ hs]

end Steps

section HalfEven

/-- The nearest whole number, ties to the even one. -/
def halfEven (x : K) : ℤ :=
  let rest := x - ⌊x⌋
  if rest < 1 / 2 then ⌊x⌋
  else if 1 / 2 < rest then ⌊x⌋ + 1
  else if ⌊x⌋ % 2 = 0 then ⌊x⌋ else ⌊x⌋ + 1

/-- What the nearest whole number is, by where the value stands between its neighbours. -/
theorem halfEven_cases (x : K) :
    (x < ⌊x⌋ + 1 / 2 ∧ halfEven x = ⌊x⌋) ∨ ((⌊x⌋ : K) + 1 / 2 < x ∧ halfEven x = ⌊x⌋ + 1) ∨
      (x = ⌊x⌋ + 1 / 2 ∧ halfEven x = ⌊x⌋ + ⌊x⌋ % 2) := by
  rw [halfEven]
  split
  · exact Or.inl ⟨by linarith, rfl⟩
  · split
    · exact Or.inr (Or.inl ⟨by linarith, rfl⟩)
    · refine Or.inr (Or.inr ⟨by linarith, ?_⟩)
      split <;> omega

theorem halfEven_intCast (n : ℤ) : halfEven (n : K) = n := by
  have hfloor : ⌊(n : K)⌋ = n := Int.floor_intCast n
  rcases halfEven_cases (n : K) with ⟨-, h⟩ | ⟨hlt, -⟩ | ⟨heq, -⟩
  · rw [h, hfloor]
  · rw [hfloor] at hlt
    linarith
  · rw [hfloor] at heq
    linarith

theorem floor_le_halfEven (x : K) : ⌊x⌋ ≤ halfEven x := by
  rcases halfEven_cases x with ⟨-, h⟩ | ⟨-, h⟩ | ⟨-, h⟩ <;> omega

theorem halfEven_le_floor_add_one (x : K) : halfEven x ≤ ⌊x⌋ + 1 := by
  rcases halfEven_cases x with ⟨-, h⟩ | ⟨-, h⟩ | ⟨-, h⟩ <;> omega

theorem halfEven_mono (h : x ≤ y) : halfEven x ≤ halfEven y := by
  rcases (Int.floor_le_floor h).eq_or_lt with hfloor | hfloor
  · have hmod := Int.emod_two_eq_zero_or_one ⌊y⌋
    rcases halfEven_cases x with ⟨hx, hroundx⟩ | ⟨hx, hroundx⟩ | ⟨hx, hroundx⟩ <;>
      rcases halfEven_cases y with ⟨hy, hroundy⟩ | ⟨hy, hroundy⟩ | ⟨hy, hroundy⟩ <;>
      rw [hfloor] at hx hroundx <;> first | omega | (exfalso; linarith)
  · have hleft := halfEven_le_floor_add_one x
    have hright := floor_le_halfEven y
    omega

/-- Rounding moves a value by half at most. -/
theorem abs_halfEven_sub_le (x : K) : |(halfEven x : K) - x| ≤ 1 / 2 := by
  have hle := Int.floor_le x
  have hlt := Int.lt_floor_add_one x
  rw [abs_le]
  rcases halfEven_cases x with ⟨hx, h⟩ | ⟨hx, h⟩ | ⟨hx, h⟩
  · rw [h]
    constructor <;> linarith
  · rw [h]
    push_cast
    constructor <;> linarith
  · rcases Int.emod_two_eq_zero_or_one ⌊x⌋ with hmod | hmod <;> rw [h, hmod] <;> push_cast <;> constructor <;> linarith

/-- A value rounds as its opposite does. -/
theorem halfEven_neg (x : K) : halfEven (-x) = -halfEven x := by
  have hle := Int.floor_le x
  have hlt := Int.lt_floor_add_one x
  by_cases hx : x = ⌊x⌋
  · rw [hx, ← Int.cast_neg, halfEven_intCast, halfEven_intCast]
  · have hstrict : (⌊x⌋ : K) < x := lt_of_le_of_ne hle (Ne.symm hx)
    have hfloor : ⌊-x⌋ = -⌊x⌋ - 1 := by
      rw [Int.floor_eq_iff]
      push_cast
      constructor <;> linarith
    have hcast : (⌊-x⌋ : K) = -⌊x⌋ - 1 := by
      rw [hfloor]
      push_cast
      rfl
    have hmod := Int.emod_two_eq_zero_or_one ⌊x⌋
    rcases halfEven_cases x with ⟨hx, hroundx⟩ | ⟨hx, hroundx⟩ | ⟨hx, hroundx⟩ <;>
      rcases halfEven_cases (-x) with ⟨hy, hroundy⟩ | ⟨hy, hroundy⟩ | ⟨hy, hroundy⟩ <;>
      rw [hcast] at hy <;> rw [hfloor] at hroundy <;> first | omega | (exfalso; linarith)

/-- A tie above an even number goes down to it. -/
theorem halfEven_le_iff_of_even {n : ℤ} (hn : n % 2 = 0) : halfEven x ≤ n ↔ x ≤ n + 1 / 2 := by
  have hle := Int.floor_le x
  have hlt := Int.lt_floor_add_one x
  rcases lt_trichotomy ⌊x⌋ n with hfloor | hfloor | hfloor
  · have hcast : (⌊x⌋ : K) + 1 ≤ n := by exact_mod_cast hfloor
    exact iff_of_true ((halfEven_le_floor_add_one x).trans hfloor) (by linarith)
  · rcases halfEven_cases x with ⟨hx, h⟩ | ⟨hx, h⟩ | ⟨hx, h⟩
    · rw [h, ← hfloor]
      exact iff_of_true (le_refl _) hx.le
    · rw [h, ← hfloor]
      exact iff_of_false (by omega) (not_le.mpr hx)
    · rw [h, ← hfloor]
      exact iff_of_true (by omega) hx.le
  · have hcast : (n : K) + 1 ≤ ⌊x⌋ := by exact_mod_cast hfloor
    exact iff_of_false (not_le.mpr (hfloor.trans_le (floor_le_halfEven x))) (by linarith)

end HalfEven

end Aetheris.Lib.FixedPoint
