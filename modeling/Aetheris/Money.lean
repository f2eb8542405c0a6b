import Mathlib.Data.Rat.Floor
import Mathlib.Tactic.NormNum
import Aetheris.Lib.FixedPoint

namespace Aetheris.Money

open Lib.FixedPoint

/-- A Python `Decimal` by its exact value. Trailing zeros and the precision
of the arithmetic context are not part of the value. -/
abbrev Decimal := ℚ

def usdtUnits : Decimal := 100000000

/-- Eight decimals, half up: ties go away from zero. -/
def quantizeUsdt (value : Decimal) : Decimal :=
  if 0 ≤ value then ⌊value * usdtUnits + 1 / 2⌋ / usdtUnits
  else -(⌊-value * usdtUnits + 1 / 2⌋ / usdtUnits)

def truncDiv (value step : Decimal) : ℤ :=
  if 0 ≤ value / step then ⌊value / step⌋ else ⌈value / step⌉

/-- The number of decimals a value needs, up to the precision of the context. -/
def decimals (value : Decimal) : Nat :=
  (List.range 28).find? (fun n => (value * 10 ^ n).den = 1) |>.getD 28

def digits (width n : Nat) : String :=
  let text := toString n
  "".pushn '0' (width - text.length) ++ text

/-- Positional notation without trailing zeros. -/
def str (value : Decimal) : String :=
  let n := decimals value
  let scaled := (value * 10 ^ n).floor.natAbs
  let sign := if value < 0 then "-" else ""
  let whole := toString (scaled / 10 ^ n)
  if n = 0 then sign ++ whole else sign ++ whole ++ "." ++ digits n (scaled % 10 ^ n)

def roundHalfEven (value : Decimal) : ℤ :=
  let rest := value - ⌊value⌋
  if rest < 1 / 2 then ⌊value⌋
  else if 1 / 2 < rest then ⌊value⌋ + 1
  else if ⌊value⌋ % 2 = 0 then ⌊value⌋ else ⌊value⌋ + 1

/-- A float as `:.1f` or `:.0f` prints it. -/
def fixed (places : Nat) (value : Decimal) : String :=
  let scaled := (roundHalfEven (|value| * 10 ^ places)).natAbs
  let sign := if value < 0 then "-" else ""
  let whole := toString (scaled / 10 ^ places)
  if places = 0 then sign ++ whole else sign ++ whole ++ "." ++ digits places (scaled % 10 ^ places)

def floorToStep (value step : Decimal) : Except String Decimal :=
  let shown := str step
  if step ≤ 0 then .error s!"step must be positive, got {shown}" else .ok (truncDiv value step * step)

/-- At most eight decimals. -/
abbrev EightPlaces (value : Decimal) : Prop := Grid usdtUnits value

theorem usdtUnits_pos : 0 < usdtUnits := by norm_num [usdtUnits]

theorem eightPlaces_quantizeUsdt (value : Decimal) : EightPlaces (quantizeUsdt value) :=
  grid_halfUp usdtUnits value

theorem quantizeUsdt_of_eightPlaces {value : Decimal} (h : EightPlaces value) : quantizeUsdt value = value :=
  halfUp_of_grid usdtUnits_pos h

theorem quantizeUsdt_mono {x y : Decimal} (h : x ≤ y) : quantizeUsdt x ≤ quantizeUsdt y :=
  halfUp_mono usdtUnits_pos h

theorem quantizeUsdt_nonneg {value : Decimal} (h : 0 ≤ value) : 0 ≤ quantizeUsdt value :=
  halfUp_nonneg usdtUnits_pos h

theorem quantizeUsdt_le (value : Decimal) : quantizeUsdt value ≤ value + 1 / (2 * usdtUnits) :=
  halfUp_le usdtUnits_pos value

theorem quantizeUsdt_neg (value : Decimal) : quantizeUsdt (-value) = -quantizeUsdt value :=
  halfUp_neg usdtUnits value

theorem abs_quantizeUsdt_sub_le (value : Decimal) : |quantizeUsdt value - value| ≤ 1 / (2 * usdtUnits) :=
  abs_halfUp_sub_le usdtUnits_pos value

theorem le_quantizeUsdt_iff {x y : Decimal} (hy : EightPlaces y) (hpos : 0 < y) :
    y ≤ quantizeUsdt x ↔ y - 1 / (2 * usdtUnits) ≤ x :=
  grid_le_halfUp_iff usdtUnits_pos hy hpos

theorem quantizeUsdt_pos_iff {value : Decimal} : 0 < quantizeUsdt value ↔ 1 / (2 * usdtUnits) ≤ value :=
  halfUp_pos_iff usdtUnits_pos

theorem truncDiv_mul_le {value step : Decimal} (hstep : 0 < step) (h : 0 ≤ value) :
    truncDiv value step * step ≤ value := by
  rw [truncDiv, if_pos (div_nonneg h hstep.le)]
  exact (le_div_iff₀ hstep).mp (Int.floor_le _)

/-- Truncated to so many steps, a value is worth them and less than one more. -/
theorem truncDiv_eq_iff {value step : Decimal} (hstep : 0 < step) (h : 0 ≤ value) (n : ℤ) :
    truncDiv value step * step = n * step ↔ n * step ≤ value ∧ value < n * step + step := by
  have hvalue : truncDiv value step = ⌊value / step⌋ := if_pos (div_nonneg h hstep.le)
  have hcast : (truncDiv value step * step = n * step) ↔ ⌊value / step⌋ = n := by
    rw [hvalue, mul_left_inj' hstep.ne']
    exact Int.cast_inj
  rw [hcast, Int.floor_eq_iff, le_div_iff₀ hstep, div_lt_iff₀ hstep, add_mul, one_mul]

theorem truncDiv_nonpos {value step : Decimal} (hstep : 0 < step) (h : value ≤ 0) :
    truncDiv value step * step ≤ 0 := by
  have hdiv : value / step ≤ 0 := div_nonpos_of_nonpos_of_nonneg h hstep.le
  have htrunc : truncDiv value step ≤ 0 := by
    unfold truncDiv
    split
    · exact Int.floor_nonpos hdiv
    · exact Int.ceil_nonpos.mpr hdiv
  have hcast : (truncDiv value step : Decimal) ≤ 0 := by exact_mod_cast htrunc
  exact mul_nonpos_of_nonpos_of_nonneg hcast hstep.le

theorem floorToStep_ok {value step quantity : Decimal} :
    floorToStep value step = .ok quantity ↔ 0 < step ∧ quantity = truncDiv value step * step := by
  unfold floorToStep
  by_cases h : step ≤ 0
  · simp [h]
  · simp [h, not_le.mp h, eq_comm]

end Aetheris.Money
