import Mathlib.Order.UpperLower.Basic
import Aetheris.CandlePreparation
import Aetheris.IndicatorStart
import Aetheris.Intelligence
import Aetheris.RiskEnvelope
import Aetheris.TestnetRuling

namespace Aetheris.Volatility

open Lib Money Clock Enums Indicators Strategies

section Measuring

def atrPeriod : Nat := 14

/-- Fourteen true ranges, and the bar that the first of them is measured against. -/
def minCandlesForAtr : Nat := atrPeriod + 1

/-- ATR as a percent of price, or the reason that there is none. -/
structure Measurement extends PaperService.VolatilityMeasurement where
  candlesUsed : Nat := 0
  coherent : atrPercent.isSome = decide (status = .measured)

theorem coherent_unknown {status : VolatilityStatus} (h : status ≠ .measured) :
    (none : Option Decimal).isSome = decide (status = .measured) :=
  (decide_eq_false h).symm

def unknown (status : VolatilityStatus) (h : status ≠ .measured) (candlesUsed : Nat) (detail : String) :
    Measurement where
  status := status
  detail := some detail
  candlesUsed := candlesUsed
  coherent := coherent_unknown h

def measured (atrPercent : Decimal) (candlesUsed : Nat) : Measurement where
  status := .measured
  atrPercent := some atrPercent
  candlesUsed := candlesUsed
  coherent := rfl

theorem short_ne : VolatilityStatus.insufficientHistory ≠ .measured := VolatilityStatus.noConfusion

theorem unavailable_ne : VolatilityStatus.candlesUnavailable ≠ .measured := VolatilityStatus.noConfusion

theorem stale_ne : VolatilityStatus.candlesStale ≠ .measured := VolatilityStatus.noConfusion

/-- The last value that a series has. -/
def latest (series : Series) : Option Decimal := series.reverse.findSome? id

/-- ATR as a percent of the last close, over closed bars. -/
def measureAtrPercent (candles : List Candle) : Measurement :=
  match candles.getLast? with
  | none => unknown .candlesUnavailable unavailable_ne 0 "No candles were available to measure volatility from."
  | some last =>
      if candles.length < minCandlesForAtr then
        unknown .insufficientHistory short_ne candles.length
          (s!"Only {candles.length} closed candle(s) are available; ATR({atrPeriod}) needs {minCandlesForAtr}. This " ++
            "instrument does not have enough history yet, and volatility is not estimated from a shorter window.")
      else
        match latest (IndicatorLibrary.atr candles atrPeriod) with
        | none => unproduced candles.length
        | some value =>
            if last.close ≤ 0 then unproduced candles.length
            else measured (Intelligence.fourPlaces (value / last.close * 100)) candles.length
where
  unproduced (candlesUsed : Nat) : Measurement := unknown .insufficientHistory short_ne candlesUsed
    ("ATR did not produce a value over the available candles, so volatility is unknown rather than assumed.")

end Measuring

section Services

/-- What a request for candles fails with: an error of the application, under its code, or another. -/
inductive Failure
  | aetheris (code : String)
  | other
  deriving DecidableEq

/-- What a service says of candles that it cannot use. -/
structure Wording where
  unfetched : String → String → String
  stale : String → String

/-- Real candles, measured. -/
def measureVolatility (wording : Wording) (symbol : String) (answer : Except Failure KlinesObservation)
    (now : Timestamp) : Except Failure Measurement :=
  match answer with
  | .error (.aetheris code) => .ok (unknown .candlesUnavailable unavailable_ne 0 (wording.unfetched symbol code))
  | .error .other => .error .other
  | .ok observation =>
      if observation.status = DataStatus.stale.value then
        .ok (unknown .candlesStale stale_ne 0 (wording.stale symbol))
      else
        let prepared := prepareCandles (observation.candles.getD []) now
        let detail := prepared.detail.getD "None"
        if prepared.problem = .noProblem then .ok (measureAtrPercent prepared.candles)
        else .ok (unknown .candlesUnavailable unavailable_ne 0 s!"Candles for {symbol} are unusable: {detail}")

def paperWording : Wording where
  unfetched symbol code := s!"Candles for {symbol} could not be fetched ({code}), so volatility is unknown. The " ++
    "price may be fresh; the history is not available, and it is not estimated."
  stale symbol := s!"Candles for {symbol} are stale, so the volatility they describe is not the present one."

def testnetWording : Wording where
  unfetched symbol code := s!"Candles for {symbol} could not be fetched ({code}), so volatility is unknown and is " ++
    "not estimated."
  stale symbol := s!"Candles for {symbol} are stale."

def PaperTradingService.measureVolatility : String → Except Failure KlinesObservation → Timestamp →
    Except Failure Measurement :=
  Volatility.measureVolatility paperWording

def TestnetExecutionService.measureVolatility : String → Except Failure KlinesObservation → Timestamp →
    Except Failure Measurement :=
  Volatility.measureVolatility testnetWording

end Services

section Figure

variable {series : Series} {candles : List Candle} {value lo hi : Decimal}

theorem latest_of_getLast (h : series.getLast?.join = some value) : latest series = some value := by
  rcases List.eq_nil_or_concat series with rfl | ⟨before, entry, rfl⟩
  · cases h
  · rw [List.concat_eq_append] at h ⊢
    rw [List.getLast?_concat] at h
    rw [latest, List.reverse_append, List.reverse_singleton, List.singleton_append, List.findSome?_cons]
    change entry = some value at h
    rw [h]
    rfl

/-- Enough bars have an average that is current. -/
theorem exists_latest (h : minCandlesForAtr ≤ candles.length) :
    ∃ value, latest (IndicatorLibrary.atr candles atrPeriod) = some value := by
  have hlength : (IndicatorLibrary.atr candles atrPeriod).length = candles.length :=
    (IndicatorLibrary.causal_atr atrPeriod).length candles
  have hpos : atrPeriod < candles.length := h
  have hfrom : IndicatorStart.From atrPeriod (IndicatorLibrary.atr candles atrPeriod) :=
    IndicatorStart.from_atr (by decide) candles
  have hlast := (hfrom (candles.length - 1)).mpr ⟨by omega, by omega⟩
  obtain ⟨value, hvalue⟩ := Option.isSome_iff_exists.mp hlast
  refine ⟨value, latest_of_getLast ?_⟩
  rw [List.getLast?_eq_getElem?, hlength]
  exact hvalue

theorem mem_of_latest (h : latest series = some value) : some value ∈ series := by
  obtain ⟨entry, hentry, hvalue⟩ := List.exists_of_findSome?_eq_some h
  rw [id_eq] at hvalue
  rw [← hvalue]
  exact List.mem_reverse.mp hentry

theorem fourPlaces_mono {x y : Decimal} (h : x ≤ y) : Intelligence.fourPlaces x ≤ Intelligence.fourPlaces y := by
  have hround := FixedPoint.halfEven_mono (mul_le_mul_of_nonneg_right h (by norm_num : (0 : Decimal) ≤ 10000))
  exact div_le_div_of_nonneg_right (Int.cast_le.mpr hround) (by norm_num)

theorem percent_mono {x y close : Decimal} (hclose : 0 < close) (h : x ≤ y) :
    Intelligence.fourPlaces (x / close * 100) ≤ Intelligence.fourPlaces (y / close * 100) := by
  refine fourPlaces_mono (mul_le_mul_of_nonneg_right ?_ (by norm_num))
  exact div_le_div_of_nonneg_right h hclose.le

end Figure

section Answers

variable {wording : Wording} {symbol : String} {answer : Except Failure KlinesObservation} {now : Timestamp}
  {bars : List Candle} {m : Measurement}

/-- Enough closed bars, the last of them at a price. -/
def Enough (history : List Candle) : Prop :=
  minCandlesForAtr ≤ history.length ∧ ∃ last ∈ history.getLast?, 0 < last.close

def Stale (answer : Except Failure KlinesObservation) : Prop :=
  ∃ observation, answer = .ok observation ∧ observation.status = DataStatus.stale.value

/-- The bars that an answer is measured over. -/
def history (answer : Except Failure KlinesObservation) (now : Timestamp) : List Candle :=
  match answer with
  | .error _ => []
  | .ok observation =>
      if observation.status = DataStatus.stale.value then []
      else (prepareCandles (observation.candles.getD []) now).candles

theorem history_of_fresh {observation : KlinesObservation} (h : observation.status ≠ DataStatus.stale.value) :
    history (.ok observation) now = (prepareCandles (observation.candles.getD []) now).candles :=
  if_neg h

/-- What is made of prepared bars. -/
inductive Judged (bars : List Candle) : Measurement → Prop
  | measured {last : Candle} {value : Decimal} (hlong : minCandlesForAtr ≤ bars.length)
      (hlast : bars.getLast? = some last) (hpos : 0 < last.close)
      (hvalue : latest (IndicatorLibrary.atr bars atrPeriod) = some value) :
      Judged bars (measured (Intelligence.fourPlaces (value / last.close * 100)) bars.length)
  | short (detail : String) (hne : bars ≠ []) (hshort : ¬ Enough bars) :
      Judged bars (unknown .insufficientHistory short_ne bars.length detail)

theorem judged (hne : bars ≠ []) : Judged bars (measureAtrPercent bars) := by
  obtain ⟨last, hlast⟩ := Option.isSome_iff_exists.mp (List.getLast?_isSome.mpr hne)
  rw [measureAtrPercent, hlast]
  dsimp only
  by_cases hlong : bars.length < minCandlesForAtr
  · rw [if_pos hlong]
    exact .short _ hne fun h => absurd h.1 (not_le.mpr hlong)
  · obtain ⟨value, hvalue⟩ := exists_latest (not_lt.mp hlong)
    rw [if_neg hlong, hvalue]
    dsimp only
    by_cases hclose : last.close ≤ 0
    · rw [if_pos hclose]
      refine .short _ hne ?_
      rintro ⟨-, last', hlast', hpos⟩
      rw [hlast] at hlast'
      obtain rfl := Option.some.inj hlast'
      exact absurd hpos (not_lt.mpr hclose)
    · rw [if_neg hclose]
      exact .measured (not_lt.mp hlong) hlast (not_le.mp hclose) hvalue

/-- Candles are refused, or those of them in order are cut where they are still forming. -/
theorem prepared_cases (candles : List Candle) (now : Timestamp) :
    ((prepareCandles candles now).problem ≠ .noProblem ∧ (prepareCandles candles now).candles = []) ∨
      ∃ ordered, StrictlyAscending ordered ∧ (candles = ordered ∨ candles = ordered.reverse) ∧
        (prepareCandles candles now).problem = .noProblem ∧
        (prepareCandles candles now).candles = closedBars ordered now ∧ closedBars ordered now ≠ [] := by
  by_cases hnil : candles = []
  · subst hnil
    exact .inl ⟨PreparationProblem.noConfusion, rfl⟩
  · by_cases hordered : StrictlyAscending candles ∨ StrictlyDescending candles
    · obtain ⟨ordered, hascending, hcandles⟩ := exists_ordered hordered
      have hne : ordered ≠ [] := by
        rintro rfl
        exact hnil (hcandles.elim id id)
      obtain ⟨way, hway⟩ := prepareCandles_of_ordered now hne hascending hcandles
      by_cases hclosed : closedBars ordered now = []
      · refine .inl ⟨fun hok => absurd hclosed ((dropForming_ok ordered way now).mp (hway ▸ hok)), ?_⟩
        rw [hway, dropForming_candles, hclosed]
      · refine .inr ⟨ordered, hascending, hcandles, ?_, ?_, hclosed⟩
        · rw [hway]
          exact (dropForming_ok ordered way now).mpr hclosed
        · rw [hway, dropForming_candles]
    · obtain ⟨hascending, hdescending⟩ := not_or.mp hordered
      exact .inl (prepareCandles_of_unordered now hnil hascending hdescending)

/-- What a service makes of an answer. -/
inductive Told (answer : Except Failure KlinesObservation) (now : Timestamp) : Measurement → Prop
  | unavailable (detail : String) (hnil : history answer now = []) (hfresh : ¬ Stale answer) :
      Told answer now (unknown .candlesUnavailable unavailable_ne 0 detail)
  | stale (detail : String) (hnil : history answer now = []) (hstale : Stale answer) :
      Told answer now (unknown .candlesStale stale_ne 0 detail)
  | judged {m : Measurement} (hfresh : ¬ Stale answer) (h : Judged (history answer now) m) : Told answer now m

theorem told (h : measureVolatility wording symbol answer now = .ok m) : Told answer now m := by
  cases answer with
  | error failure =>
      cases failure with
      | aetheris code =>
          cases h
          exact .unavailable _ rfl fun ⟨_, heq, _⟩ => by cases heq
      | other => cases h
  | ok observation =>
      rw [measureVolatility] at h
      by_cases hstale : observation.status = DataStatus.stale.value
      · rw [if_pos hstale] at h
        cases h
        exact .stale _ (if_pos hstale) ⟨observation, rfl, hstale⟩
      · have hfresh : ¬ Stale (.ok observation) := by
          rintro ⟨_, heq, hold⟩
          cases heq
          exact hstale hold
        have hhistory := @history_of_fresh now observation hstale
        rw [if_neg hstale] at h
        dsimp only at h
        rcases prepared_cases (observation.candles.getD []) now with ⟨hproblem, hnil⟩ | ⟨ordered, -, -, hok, hbars, hne⟩
        · rw [if_neg hproblem] at h
          cases h
          exact .unavailable _ (hhistory.trans hnil) hfresh
        · rw [if_pos hok] at h
          cases h
          rw [← hbars, ← hhistory] at hne
          exact .judged hfresh (hhistory ▸ judged hne)

end Answers

section Reported

variable {wording : Wording} {symbol : String} {answer : Except Failure KlinesObservation} {now : Timestamp}
  {bars : List Candle} {m : Measurement}

theorem not_enough_nil : ¬ Enough [] := fun h => absurd h.1 (by decide)

/-- What is measured over is in order, and its last bar has closed. -/
theorem history_sound (answer : Except Failure KlinesObservation) (now : Timestamp) :
    StrictlyAscending (history answer now) ∧ ∀ last ∈ (history answer now).getLast?, last.closeTime ≤ now := by
  have hnone (h : history answer now = []) :
      StrictlyAscending (history answer now) ∧ ∀ last ∈ (history answer now).getLast?, last.closeTime ≤ now := by
    rw [h]
    exact ⟨.nil, fun last hlast => by cases hlast⟩
  cases answer with
  | error failure => exact hnone rfl
  | ok observation =>
      by_cases hstale : observation.status = DataStatus.stale.value
      · exact hnone (if_pos hstale)
      · have hhistory := @history_of_fresh now observation hstale
        rcases prepared_cases (observation.candles.getD []) now with ⟨-, hnil⟩ | ⟨ordered, hordered, -, -, hbars, hne⟩
        · exact hnone (hhistory.trans hnil)
        · rw [hhistory, hbars]
          constructor
          · exact ascending_iff.mpr ((ascending_iff.mp hordered).sublist (List.rdropWhile_prefix _ _).sublist)
          · intro last hlast
            rw [List.getLast?_eq_some_getLast hne] at hlast
            obtain rfl := Option.some.inj hlast
            have hclosed := List.rdropWhile_last_not (fun bar : Candle => decide (now < bar.closeTime)) ordered hne
            exact not_lt.mp fun hopen => hclosed (decide_eq_true hopen)

/-- What a measurement says of the bars that it was made over. -/
structure Reports (answer : Except Failure KlinesObservation) (now : Timestamp) (m : Measurement) : Prop where
  ascending : StrictlyAscending (history answer now)
  closed : ∀ last ∈ (history answer now).getLast?, last.closeTime ≤ now
  used : m.candlesUsed = (history answer now).length
  measured_iff : m.status = .measured ↔ Enough (history answer now)
  short_iff : m.status = .insufficientHistory ↔ history answer now ≠ [] ∧ ¬ Enough (history answer now)
  stale_iff : m.status = .candlesStale ↔ Stale answer
  unavailable_iff : m.status = .candlesUnavailable ↔ history answer now = [] ∧ ¬ Stale answer
  figure : ∀ percent ∈ m.atrPercent, ∃ last ∈ (history answer now).getLast?, 0 < last.close ∧
    ∀ s : Set Decimal, Convex Decimal s → Every (· ∈ s) (trueRanges (history answer now)) →
      ∃ average ∈ s, percent = Intelligence.fourPlaces (average / last.close * 100)

/-- Where nothing is left to measure, only the reason is to be told. -/
theorem reports_of_nil (hnil : history answer now = []) (hused : m.candlesUsed = 0) (hnone : m.atrPercent = none)
    (hmeasured : m.status ≠ .measured) (hshort : m.status ≠ .insufficientHistory)
    (hstale : m.status = .candlesStale ↔ Stale answer)
    (hunavailable : m.status = .candlesUnavailable ↔ ¬ Stale answer) : Reports answer now m where
  ascending := (history_sound answer now).1
  closed := (history_sound answer now).2
  used := by rw [hused, hnil, List.length_nil]
  measured_iff := iff_of_false hmeasured fun h => not_enough_nil (hnil ▸ h)
  short_iff := iff_of_false hshort fun h => h.1 hnil
  stale_iff := hstale
  unavailable_iff := hunavailable.trans (and_iff_right hnil).symm
  figure := by
    intro percent hpercent
    rw [hnone] at hpercent
    cases hpercent

theorem Told.reports (h : Told answer now m) : Reports answer now m := by
  obtain ⟨hascending, hclosed⟩ := history_sound answer now
  cases h with
  | unavailable detail hnil hfresh =>
      refine reports_of_nil hnil rfl rfl VolatilityStatus.noConfusion VolatilityStatus.noConfusion ?_ ?_
      · exact iff_of_false VolatilityStatus.noConfusion hfresh
      · exact iff_of_true rfl hfresh
  | stale detail hnil hstale =>
      refine reports_of_nil hnil rfl rfl VolatilityStatus.noConfusion VolatilityStatus.noConfusion ?_ ?_
      · exact iff_of_true rfl hstale
      · exact iff_of_false VolatilityStatus.noConfusion (not_not.mpr hstale)
  | judged hfresh h =>
      cases h with
      | measured hlong hlast hpos hvalue =>
          have henough : Enough (history answer now) := ⟨hlong, _, hlast, hpos⟩
          exact
            { ascending := hascending
              closed := hclosed
              used := rfl
              measured_iff := iff_of_true rfl henough
              short_iff := iff_of_false VolatilityStatus.noConfusion fun h => h.2 henough
              stale_iff := iff_of_false VolatilityStatus.noConfusion hfresh
              unavailable_iff := iff_of_false VolatilityStatus.noConfusion fun h => not_enough_nil (h.1 ▸ henough)
              figure := fun percent hpercent => by
                obtain rfl := Option.some.inj hpercent
                refine ⟨_, hlast, hpos, fun s hs hranges => ⟨_, ?_, rfl⟩⟩
                exact IndicatorRanges.every_wilderAverage_mem hs (by decide) hranges _ (mem_of_latest hvalue) _ rfl }
      | short detail hne hshort =>
          exact
            { ascending := hascending
              closed := hclosed
              used := rfl
              measured_iff := iff_of_false VolatilityStatus.noConfusion hshort
              short_iff := iff_of_true rfl ⟨hne, hshort⟩
              stale_iff := iff_of_false VolatilityStatus.noConfusion hfresh
              unavailable_iff := iff_of_false VolatilityStatus.noConfusion fun h => hne h.1
              figure := fun percent h => by cases h }

end Reported

section Unmoved

variable {wording : Wording} {symbol : String} {now : Timestamp} {candles forming : List Candle} {c : Decimal}

/-- What a reader goes by: the status, and the figure. -/
def reading (r : Except Failure Measurement) : Except Failure (VolatilityStatus × Option Decimal) :=
  r.map fun m => (m.status, m.atrPercent)

def readingOf (bars : List Candle) : VolatilityStatus × Option Decimal :=
  ((measureAtrPercent bars).status, (measureAtrPercent bars).atrPercent)

theorem reading_eq (wording : Wording) (symbol : String) {observation : KlinesObservation}
    (hfresh : observation.status ≠ DataStatus.stale.value) (now : Timestamp) :
    reading (measureVolatility wording symbol (.ok observation) now) =
      .ok (readingOf (prepareCandles (observation.candles.getD []) now).candles) := by
  rw [measureVolatility, if_neg hfresh]
  dsimp only
  rcases prepared_cases (observation.candles.getD []) now with ⟨hproblem, hnil⟩ | ⟨ordered, -, -, hok, -, -⟩
  · rw [if_neg hproblem, hnil]
    rfl
  · rw [if_pos hok]
    rfl

/-- Both services read the same off an answer. -/
theorem reading_wording (wording wording' : Wording) (symbol : String) (answer : Except Failure KlinesObservation)
    (now : Timestamp) :
    reading (measureVolatility wording symbol answer now) = reading (measureVolatility wording' symbol answer now) := by
  cases answer with
  | error failure => cases failure <;> rfl
  | ok observation =>
      by_cases hstale : observation.status = DataStatus.stale.value
      · rw [measureVolatility, measureVolatility, if_pos hstale, if_pos hstale]
        rfl
      · rw [reading_eq wording symbol hstale, reading_eq wording' symbol hstale]

/-- In either order, what is prepared is what has closed. -/
theorem prepared_ordered {served : List Candle} (h : StrictlyAscending candles)
    (hserved : served = candles ∨ served = candles.reverse) :
    (prepareCandles served now).candles = closedBars candles now := by
  by_cases hnil : candles = []
  · subst hnil
    rcases hserved with rfl | rfl <;> rfl
  · obtain ⟨way, hway⟩ := prepareCandles_of_ordered now hnil h hserved
    rw [hway, dropForming_candles]

theorem closedBars_append (h : ∀ bar ∈ forming, now < bar.closeTime) :
    closedBars (candles ++ forming) now = closedBars candles now := by
  induction forming using List.reverseRecOn with
  | nil => rw [List.append_nil]
  | append_singleton forming bar ih =>
      have hbar : now < bar.closeTime := h bar (List.mem_append_right forming (List.mem_singleton_self bar))
      rw [← List.append_assoc, closedBars, List.rdropWhile_concat_pos _ _ _ (by simpa using hbar)]
      exact ih fun bar hmem => h bar (List.mem_append_left _ hmem)

theorem closedBars_scaled (hc : 0 < c) (candles : List Candle) :
    closedBars (scaled c hc candles) now = scaled c hc (closedBars candles now) := by
  rw [closedBars, scaled, List.rdropWhile, ← List.map_reverse, List.dropWhile_map, ← List.map_reverse]
  rfl

theorem ascending_scaled (hc : 0 < c) (h : StrictlyAscending candles) : StrictlyAscending (scaled c hc candles) := by
  rw [ascending_iff, scaled, List.pairwise_map]
  exact ascending_iff.mp h

theorem latest_onValues (f : Decimal → Decimal) (series : Series) :
    latest (onValues f series) = (latest series).map f := by
  rw [latest, latest, onValues, ← List.map_reverse, List.findSome?_map]
  induction series.reverse with
  | nil => rfl
  | cons entry series ih =>
      rw [List.findSome?_cons, List.findSome?_cons]
      cases entry with
      | none => exact ih
      | some value => rfl

theorem atr_scaled (hc : 0 < c) (bars : List Candle) (period : Nat) :
    IndicatorLibrary.atr (scaled c hc bars) period = onValues (c * ·) (IndicatorLibrary.atr bars period) := by
  rw [IndicatorLibrary.atr, IndicatorLibrary.atr, trueRanges_scale, wilderAverage_scale]

/-- Volatility has no unit of price. -/
theorem readingOf_scaled (hc : 0 < c) (bars : List Candle) : readingOf (scaled c hc bars) = readingOf bars := by
  have hclose (last : Candle) : (last.scale c hc).close ≤ 0 ↔ last.close ≤ 0 := by
    change c * last.close ≤ 0 ↔ last.close ≤ 0
    rw [← not_lt, ← not_lt, mul_pos_iff_of_pos_left hc]
  have hshare (value : Decimal) (last : Candle) : c * value / (last.scale c hc).close = value / last.close :=
    mul_div_mul_left value last.close hc.ne'
  rw [readingOf, readingOf, measureAtrPercent, measureAtrPercent, length_scaled, atr_scaled, latest_onValues, scaled,
    List.getLast?_map]
  cases bars.getLast? with
  | none => rfl
  | some last =>
      rw [Option.map_some]
      dsimp only
      split
      · rfl
      · cases latest (IndicatorLibrary.atr bars atrPeriod) with
        | none => rfl
        | some value =>
            rw [Option.map_some]
            dsimp only
            rw [hshare]
            by_cases hlast : last.close ≤ 0
            · rw [if_pos hlast, if_pos ((hclose last).mpr hlast)]
            · rw [if_neg hlast, if_neg fun h => hlast ((hclose last).mp h)]

end Unmoved

section Results

/-- Whatever is answered, both services measure what it served: a figure is there exactly for enough closed bars
that are not stale, it is the rounded share of an average of their true ranges, and each of the other statuses
says what was missing. Only a failure that is none of the application's gets through. -/
theorem volatility_reported (symbol : String) (answer : Except Failure KlinesObservation) (now : Timestamp) :
    (match PaperTradingService.measureVolatility symbol answer now with
      | .ok m => Reports answer now m
      | .error e => e = .other ∧ answer = .error .other) ∧
    (match TestnetExecutionService.measureVolatility symbol answer now with
      | .ok m => Reports answer now m
      | .error e => e = .other ∧ answer = .error .other) ∧
    reading (PaperTradingService.measureVolatility symbol answer now) =
      reading (TestnetExecutionService.measureVolatility symbol answer now) := by
  have hreports (wording : Wording) : match measureVolatility wording symbol answer now with
      | .ok m => Reports answer now m
      | .error e => e = .other ∧ answer = .error .other := by
    cases hm : measureVolatility wording symbol answer now with
    | ok m => exact (told hm).reports
    | error e =>
        cases answer with
        | error failure =>
            cases failure with
            | aetheris code => cases hm
            | other =>
                cases hm
                exact ⟨rfl, rfl⟩
        | ok observation =>
            have hread := congrArg reading hm
            by_cases hstale : observation.status = DataStatus.stale.value
            · rw [measureVolatility, if_pos hstale] at hm
              cases hm
            · rw [reading_eq wording symbol hstale] at hread
              cases hread
  exact ⟨hreports paperWording, hreports testnetWording, reading_wording _ _ _ _ _⟩

variable {c : Decimal} {now measuredAt : Timestamp} {symbol : String}

theorem rocking_still : (0 : Decimal) ≤ 0 := le_rfl

theorem rocking_low : (0 : Decimal) ≤ 99 := by norm_num

theorem rocking_below : (99 : Decimal) ≤ 100 := by norm_num

theorem rocking_above : (100 : Decimal) ≤ 101 := by norm_num

theorem rocking_ordered (openTime : Timestamp) : openTime < openTime + 10 := lt_add_of_pos_right openTime (by decide)

/-- A bar that ends where it began. -/
def rocking (openTime : Timestamp) : Candle where
  openTime := openTime
  closeTime := openTime + 10
  open_ := 100
  high := 101
  low := 99
  close := 100
  volume := 0
  low_nonneg := rocking_low
  low_le_open := rocking_below
  open_le_high := rocking_above
  low_le_close := rocking_below
  close_le_high := rocking_above
  volume_nonneg := rocking_still
  ordered := rocking_ordered openTime

def exampleServed : KlinesObservation :=
  ⟨some ((List.range 15).map fun n : Nat => rocking (10 * n)), "BINANCE", "OK", some 1⟩

def exampleMark : PaperRecords.MarkPrice where
  symbol := "BTCUSDT"
  status := .ok
  source := "BINANCE"
  lastPrice := some 61
  ageSeconds := some 1

open RiskEngine OrderIdentity RiskEnvelope

/-- A market as one of the services shows it to the risk engine, with this volatility. -/
def Shown (market : RiskMarketView) (m : Measurement) : Prop :=
  (∃ mark listed, market = PaperService.PaperTradingService.marketView mark m.toVolatilityMeasurement listed) ∨
    ∃ mark price filters maxLeverage,
      market = TestnetRuling.marketView mark price m.toVolatilityMeasurement filters maxLeverage

def exampleMarket (m : Measurement) : RiskMarketView :=
  PaperService.PaperTradingService.marketView exampleMark m.toVolatilityMeasurement ⟨exampleFilters, some 20⟩

def exampleRuling (m : Measurement) : Except EvaluateError RiskVerdict :=
  @RiskEngine.evaluate referenceRuntime exampleProposal exampleAccount (exampleMarket m) examplePolicy 60000000

variable [Runtime] {wording : Wording} {answer : Except Failure KlinesObservation} {m : Measurement}
  {proposal : RiskProposal} {account : RiskAccountView} {market : RiskMarketView} {policy : RiskPolicy}
  {verdict : RiskVerdict}

/-- No entry of either service is approved but on volatility that was measured: over enough bars, all of an answer
that is not stale, of which the last has closed, and one of which moved by no more than the ceiling. -/
theorem approved_on_measured_bars (hm : measureVolatility wording symbol answer measuredAt = .ok m)
    (hmarket : Shown market m) (h : RiskEngine.evaluate proposal account market policy now = .ok verdict)
    (ha : verdict.approved = true) :
    ¬ Stale answer ∧ minCandlesForAtr ≤ (history answer measuredAt).length ∧
      ∃ last ∈ (history answer measuredAt).getLast?, last.closeTime ≤ measuredAt ∧ 0 < last.close ∧
        ∃ range, some range ∈ trueRanges (history answer measuredAt) ∧
          Intelligence.fourPlaces (range / last.close * 100) ≤ policy.maxAtrPercent := by
  have hreports := (told hm).reports
  obtain ⟨_, _, _, hcleared⟩ := evaluate_cleared h ha
  obtain ⟨hmeasured, percent, hpercent, hceiling⟩ := hcleared.volatility
  have hview : market.volatilityStatus = m.status ∧ market.atrPercent = m.atrPercent := by
    rcases hmarket with ⟨_, _, rfl⟩ | ⟨_, _, _, _, rfl⟩ <;> exact ⟨rfl, rfl⟩
  rw [hview.1] at hmeasured
  rw [hview.2] at hpercent
  obtain ⟨hlong, -⟩ := hreports.measured_iff.mp hmeasured
  obtain ⟨last, hlast, hpos, hfigure⟩ := hreports.figure percent hpercent
  refine ⟨fun hstale => ?_, hlong, last, hlast, hreports.closed last hlast, hpos, ?_⟩
  · rw [hreports.stale_iff.mpr hstale] at hmeasured
    cases hmeasured
  · -- Were each range beyond the ceiling, so would be their average: such ranges are a convex set.
    by_contra hnone
    have hupper : IsUpperSet {x : Decimal | policy.maxAtrPercent < Intelligence.fourPlaces (x / last.close * 100)} :=
      fun x y hle hx => lt_of_lt_of_le hx (percent_mono hpos hle)
    have hranges : Every (fun range => policy.maxAtrPercent < Intelligence.fourPlaces (range / last.close * 100))
        (trueRanges (history answer measuredAt)) :=
      fun entry hentry range hrange => not_le.mp fun hle => hnone ⟨range, Option.mem_def.mp hrange ▸ hentry, hle⟩
    obtain ⟨average, haverage, rfl⟩ := hfigure _ (IsUpperSet.ordConnected hupper).convex hranges
    exact absurd hceiling (not_le.mpr haverage)

omit [Runtime] in
theorem approved_on_measured_bars_example : ∃ (m : Measurement) (verdict : RiskVerdict),
    PaperTradingService.measureVolatility "BTCUSDT" (.ok exampleServed) 150 = .ok m ∧
      exampleRuling m = .ok verdict ∧ minCandlesForAtr ≤ (history (.ok exampleServed) 150).length := by
  have hrun : (match PaperTradingService.measureVolatility "BTCUSDT" (.ok exampleServed) 150 with
      | .ok m => (exampleRuling m).toOption.any RiskVerdict.approved
      | .error _ => false) = true := by decide +kernel
  cases hm : PaperTradingService.measureVolatility "BTCUSDT" (.ok exampleServed) 150 with
  | error e =>
      rw [hm] at hrun
      cases hrun
  | ok m =>
      rw [hm] at hrun
      obtain ⟨verdict, hverdict, ha⟩ := Raising.exists_ok hrun
      have hbars := @approved_on_measured_bars _ _ _ referenceRuntime paperWording _ _ _ _ _ _ _ hm
        (.inl ⟨exampleMark, ⟨exampleFilters, some 20⟩, rfl⟩) hverdict ha
      exact ⟨m, verdict, rfl, hverdict, hbars.2.1⟩

end Results

end Aetheris.Volatility
