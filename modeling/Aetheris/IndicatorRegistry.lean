import Aetheris.IndicatorLibrary

namespace Aetheris.IndicatorRegistry

open Lib Money Indicators IndicatorLibrary

/-- Every tunable parameter, explicitly named and bounded. -/
structure IndicatorParams where
  smaPeriod : Nat := 20
  emaPeriod : Nat := 21
  rsiPeriod : Nat := 14
  atrPeriod : Nat := 14
  adxPeriod : Nat := 14
  rocPeriod : Nat := 12
  cciPeriod : Nat := 20
  vwapPeriod : Nat := 20
  bbPeriod : Nat := 20
  bbDeviations : Decimal := 2
  macdFast : Nat := 12
  macdSlow : Nat := 26
  macdSignal : Nat := 9
  stochPeriod : Nat := 14
  stochSmoothK : Nat := 3
  stochPeriodD : Nat := 3
  smaPeriod_bounds : 2 ≤ smaPeriod ∧ smaPeriod ≤ 400 := by decide
  emaPeriod_bounds : 2 ≤ emaPeriod ∧ emaPeriod ≤ 400 := by decide
  rsiPeriod_bounds : 2 ≤ rsiPeriod ∧ rsiPeriod ≤ 200 := by decide
  atrPeriod_bounds : 2 ≤ atrPeriod ∧ atrPeriod ≤ 200 := by decide
  adxPeriod_bounds : 2 ≤ adxPeriod ∧ adxPeriod ≤ 200 := by decide
  rocPeriod_bounds : 1 ≤ rocPeriod ∧ rocPeriod ≤ 200 := by decide
  cciPeriod_bounds : 2 ≤ cciPeriod ∧ cciPeriod ≤ 200 := by decide
  vwapPeriod_bounds : 2 ≤ vwapPeriod ∧ vwapPeriod ≤ 400 := by decide
  bbPeriod_bounds : 2 ≤ bbPeriod ∧ bbPeriod ≤ 400 := by decide
  bbDeviations_bounds : 0 < bbDeviations ∧ bbDeviations ≤ 10 := by decide
  macdFast_bounds : 2 ≤ macdFast ∧ macdFast ≤ 200 := by decide
  macdSlow_bounds : 3 ≤ macdSlow ∧ macdSlow ≤ 400 := by decide
  macdSignal_bounds : 2 ≤ macdSignal ∧ macdSignal ≤ 200 := by decide
  stochPeriod_bounds : 2 ≤ stochPeriod ∧ stochPeriod ≤ 200 := by decide
  stochSmoothK_bounds : 1 ≤ stochSmoothK ∧ stochSmoothK ≤ 50 := by decide
  stochPeriodD_bounds : 1 ≤ stochPeriodD ∧ stochPeriodD ≤ 50 := by decide
  macdFast_lt_macdSlow : macdFast < macdSlow := by decide

structure IndicatorSpec where
  key : String
  valueKeys : List String
  compute : List Candle → IndicatorParams → List (String × Series)

/-- A closed whitelist. -/
def indicators : List IndicatorSpec :=
  [{ key := "sma"
     valueKeys := ["sma"]
     compute := fun candles p => [("sma", smaIndicator candles p.smaPeriod)] },
   { key := "ema"
     valueKeys := ["ema"]
     compute := fun candles p => [("ema", emaIndicator candles p.emaPeriod)] },
   { key := "bollinger"
     valueKeys := ["upper", "middle", "lower"]
     compute := fun candles p =>
       let b := bollingerBands candles p.bbPeriod p.bbDeviations
       [("upper", b.upper), ("middle", b.middle), ("lower", b.lower)] },
   { key := "vwap"
     valueKeys := ["vwap"]
     compute := fun candles p => [("vwap", vwap candles p.vwapPeriod)] },
   { key := "rsi"
     valueKeys := ["rsi"]
     compute := fun candles p => [("rsi", rsi candles p.rsiPeriod)] },
   { key := "macd"
     valueKeys := ["macd", "signal", "histogram"]
     compute := fun candles p =>
       let m := macd candles p.macdFast p.macdSlow p.macdSignal
       [("macd", m.macd), ("signal", m.signal), ("histogram", m.histogram)] },
   { key := "stochastic"
     valueKeys := ["k", "d"]
     compute := fun candles p =>
       let s := stochastic candles p.stochPeriod p.stochSmoothK p.stochPeriodD
       [("k", s.k), ("d", s.d)] },
   { key := "atr"
     valueKeys := ["atr"]
     compute := fun candles p => [("atr", atr candles p.atrPeriod)] },
   { key := "adx"
     valueKeys := ["adx", "plus_di", "minus_di"]
     compute := fun candles p =>
       let a := adx candles p.adxPeriod
       [("adx", a.adx), ("plus_di", a.plusDi), ("minus_di", a.minusDi)] },
   { key := "roc"
     valueKeys := ["roc"]
     compute := fun candles p => [("roc", roc candles p.rocPeriod)] },
   { key := "cci"
     valueKeys := ["cci"]
     compute := fun candles p => [("cci", cci candles p.cciPeriod)] }]

section Causality

variable {compute : List Candle → List (String × Series)} {valueKeys : List String}

/-- The lines are named by the keys, have one entry for each candle, and have on the first candles
their first entries. -/
structure Aligned (compute : List Candle → List (String × Series)) (valueKeys : List String) : Prop where
  keys : ∀ candles, (compute candles).map Prod.fst = valueKeys
  length : ∀ candles, ∀ line ∈ compute candles, line.2.length = candles.length
  take : ∀ candles n, compute (candles.take n) = (compute candles).map fun line => (line.1, line.2.take n)

theorem aligned_of_causal (lines : List (String × (List Candle → Series))) (hlines : ∀ line ∈ lines, Causal line.2)
    (hkeys : lines.map Prod.fst = valueKeys)
    (hcompute : ∀ candles, compute candles = lines.map fun line => (line.1, line.2 candles)) :
    Aligned compute valueKeys where
  keys candles := by
    rw [hcompute, List.map_map, ← hkeys]
    rfl
  length candles line hline := by
    rw [hcompute] at hline
    obtain ⟨source, hsource, rfl⟩ := List.mem_map.mp hline
    exact (hlines source hsource).length candles
  take candles n := by
    rw [hcompute, hcompute, List.map_map]
    refine List.map_congr_left fun line hline => ?_
    rw [(hlines line hline).take candles n]
    rfl

theorem aligned_single {key : String} {line : List Candle → Series} (hline : Causal line) :
    Aligned (fun candles => [(key, line candles)]) [key] :=
  aligned_of_causal [(key, line)] (by simpa using hline) rfl fun _ => rfl

variable (params : IndicatorParams)

/-- Each line of each indicator of the registry is aligned with the candles and looks at none to come. -/
theorem registered_aligned (spec : IndicatorSpec) (hspec : spec ∈ indicators) :
    Aligned (fun candles => spec.compute candles params) spec.valueKeys := by
  have hadx : 1 ≤ params.adxPeriod := le_trans (by decide) params.adxPeriod_bounds.1
  simp only [indicators, List.mem_cons, List.not_mem_nil, or_false] at hspec
  rcases hspec with rfl | rfl | rfl | rfl | rfl | rfl | rfl | rfl | rfl | rfl | rfl
  · exact aligned_single (causal_smaIndicator _)
  · exact aligned_single (causal_emaIndicator _)
  · refine aligned_of_causal [("upper", fun candles => (bollingerBands candles params.bbPeriod params.bbDeviations).upper),
      ("middle", fun candles => (bollingerBands candles params.bbPeriod params.bbDeviations).middle),
      ("lower", fun candles => (bollingerBands candles params.bbPeriod params.bbDeviations).lower)] ?_ rfl fun _ => rfl
    simpa using ⟨causal_upper _ _, causal_middle _ _, causal_lower _ _⟩
  · exact aligned_single (causal_vwap _)
  · exact aligned_single (causal_rsi _)
  · refine aligned_of_causal [("macd", fun candles => (macd candles params.macdFast params.macdSlow params.macdSignal).macd),
      ("signal", fun candles => (macd candles params.macdFast params.macdSlow params.macdSignal).signal),
      ("histogram", fun candles => (macd candles params.macdFast params.macdSlow params.macdSignal).histogram)]
      ?_ rfl fun _ => rfl
    simpa using ⟨causal_macdLine _ _ _, causal_signalLine _ _ _, causal_histogram _ _ _⟩
  · refine aligned_of_causal
      [("k", fun candles => (stochastic candles params.stochPeriod params.stochSmoothK params.stochPeriodD).k),
      ("d", fun candles => (stochastic candles params.stochPeriod params.stochSmoothK params.stochPeriodD).d)]
      ?_ rfl fun _ => rfl
    simpa using ⟨causal_kLine _ _ _, causal_dLine _ _ _⟩
  · exact aligned_single (causal_atr _)
  · refine aligned_of_causal [("adx", fun candles => (adx candles params.adxPeriod).adx),
      ("plus_di", fun candles => (adx candles params.adxPeriod).plusDi),
      ("minus_di", fun candles => (adx candles params.adxPeriod).minusDi)] ?_ rfl fun _ => rfl
    simpa using ⟨causal_adx hadx, causal_plusDi _, causal_minusDi _⟩
  · exact aligned_single (causal_roc _)
  · exact aligned_single (causal_cci _)

theorem registered_aligned_stochastic : ∃ spec ∈ indicators, spec.key = "stochastic" ∧ spec.valueKeys = ["k", "d"] ∧
    Aligned (fun candles => spec.compute candles {}) spec.valueKeys :=
  ⟨indicators[6], List.getElem_mem _, rfl, rfl, registered_aligned {} indicators[6] (List.getElem_mem _)⟩

end Causality

end Aetheris.IndicatorRegistry
