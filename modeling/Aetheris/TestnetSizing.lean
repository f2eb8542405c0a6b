import Aetheris.TestnetDesk

namespace Aetheris.TestnetSizing

open Lib Coroutine FixedPoint Money Clock Enums RiskEngine RiskEnvelope OrderRecords OrderStore OrderIdentity TestnetService
  TestnetRuling TestnetDesk
open PaperService (Observation Ticker VolatilityMeasurement)

variable {durable : Bool} {service : TestnetExecutionService} {settings : RiskSettings}

section Sizes

variable (settings) (x : Grounds) (approved quantity : Decimal)

/-- The quantity that goes out was approved, and is one the symbol and the settings admit. -/
structure Within : Prop where
  approved : quantity ≤ approved
  stepped : ∃ n : ℤ, quantity = n * x.step
  least : x.sizingFilters.minQuantity ≤ quantity
  most : ∀ most ∈ x.sizingFilters.maxQuantity, quantity ≤ most
  worth : ∀ least ∈ x.sizingFilters.minNotional, least ≤ quantity * x.price
  notional : quantity * x.price ≤ settings.maxPositionNotional

/-- What the margin is worth lies, at the price the order is sized at, between the
least that counts in whole steps and the first step that is too much. -/
structure Fits : Prop where
  approved : x.worth < (⌊approved / x.step⌋ + 1) * x.step * x.price
  least : ⌈x.sizingFilters.minQuantity / x.step⌉ * x.step * x.price ≤ x.worth
  most : ∀ most ∈ x.sizingFilters.maxQuantity, x.worth < (⌊most / x.step⌋ + 1) * x.step * x.price
  worth : ∀ least ∈ x.sizingFilters.minNotional, ⌈least / x.price / x.step⌉ * x.step * x.price ≤ x.worth
  notional : x.worth < (⌊settings.maxPositionNotional / x.price / x.step⌋ + 1) * x.step * x.price

end Sizes

variable {x : Grounds} {approved quantity : Decimal}

theorem worth_nonneg [Runtime] (h : x.Ruled service settings) : 0 ≤ x.worth := by
  obtain ⟨_, l, _, hcleared⟩ := evaluate_cleared h.evaluated h.approved
  obtain ⟨_, _, hpermitted⟩ := hcleared.leverage
  have hsame : l = x.leverage := Option.some.inj (hcleared.approvedLeverage.symm.trans h.leverage)
  have hl : 0 ≤ x.leverage := hsame ▸ le_trans (by norm_num [Leverage.leverageMin]) hpermitted.min
  exact mul_nonneg hcleared.funded.1.le hl

theorem sized_eq (h : x.Sized quantity) (hworth : 0 ≤ x.worth) : quantity = ⌊x.worth / x.price / x.step⌋ * x.step := by
  have hnonneg : 0 ≤ x.worth / x.price / x.step := div_nonneg (div_nonneg hworth h.price_pos.le) h.step_pos.le
  rw [h.quantity, truncDiv]
  exact congrArg (fun n : ℤ => (n : Decimal) * x.step) (if_pos hnonneg)

theorem sized_le_iff (h : x.Sized quantity) (hworth : 0 ≤ x.worth) (bound : Decimal) :
    quantity ≤ bound ↔ x.worth < (⌊bound / x.step⌋ + 1) * x.step * x.price := by
  have hstep : 0 < x.step := h.step_pos
  have hprice : 0 < x.price := h.price_pos
  rw [sized_eq h hworth, floor_mul_le_iff hstep, div_lt_iff₀ hprice]

theorem le_sized_iff (h : x.Sized quantity) (hworth : 0 ≤ x.worth) (bound : Decimal) :
    bound ≤ quantity ↔ ⌈bound / x.step⌉ * x.step * x.price ≤ x.worth := by
  have hstep : 0 < x.step := h.step_pos
  have hprice : 0 < x.price := h.price_pos
  rw [sized_eq h hworth, le_floor_mul_iff hstep, le_div_iff₀ hprice]

theorem within_iff (h : x.Sized quantity) (hworth : 0 ≤ x.worth) :
    Within settings x approved quantity ↔ Fits settings x approved := by
  have hprice : 0 < x.price := h.price_pos
  constructor
  · intro hw
    exact ⟨(sized_le_iff h hworth _).mp hw.approved, (le_sized_iff h hworth _).mp hw.least,
      fun most hmost => (sized_le_iff h hworth _).mp (hw.most most hmost),
      fun least hleast => (le_sized_iff h hworth _).mp ((div_le_iff₀ hprice).mpr (hw.worth least hleast)),
      (sized_le_iff h hworth _).mp ((le_div_iff₀ hprice).mpr hw.notional)⟩
  · intro hf
    exact ⟨(sized_le_iff h hworth _).mpr hf.approved, ⟨_, sized_eq h hworth⟩, (le_sized_iff h hworth _).mpr hf.least,
      fun most hmost => (sized_le_iff h hworth _).mpr (hf.most most hmost),
      fun least hleast => (div_le_iff₀ hprice).mp ((le_sized_iff h hworth _).mpr (hf.worth least hleast)),
      (le_div_iff₀ hprice).mp ((sized_le_iff h hworth _).mpr hf.notional)⟩

variable [Runtime]

omit [Runtime]

def steady (_ : List Reading) : Decimal := 100

/-- Half of the price is lost between the ruling and the sizing. -/
def falling (notes : List Reading) : Decimal := if notes.length < 5 then 100 else 50

def sentAt (price : List Reading → Decimal) : Desk true :=
  @afterSubmission referenceRuntime price Submission.exampleRequest (emptyDesk 0)

theorem sentAt_reachable (price : List Reading → Decimal) : @ReachableDesk referenceRuntime (emptyDesk 0) (sentAt price) :=
  @afterSubmission_reachable referenceRuntime price _ _ _ ⟨[], .refl⟩

end Aetheris.TestnetSizing
