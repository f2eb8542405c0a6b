import Aetheris.IndicatorSymmetry

namespace Aetheris.Indicators

open Lib Money

section Shapes

/-- Where a series has a value. -/
def shape (series : Series) : List Bool := series.map Option.isSome

variable {period index run i start : Nat} {values others : Series}

theorem length_of_shape (h : shape values = shape others) : values.length = others.length := by
  simpa [shape] using congrArg List.length h

theorem valueAt_isSome (series : Series) (i : Nat) : (valueAt series i).isSome = ((shape series)[i]?).getD false := by
  rw [valueAt, shape, List.getElem?_map]
  cases hentry : series[i]? with
  | none => rfl
  | some entry => cases entry <;> rfl

theorem isSome_of_shape (h : shape values = shape others) (i : Nat) :
    (valueAt values i).isSome = (valueAt others i).isSome := by
  rw [valueAt_isSome, valueAt_isSome, h]

theorem shape_slice (h : shape values = shape others) (start stop : Nat) :
    shape (slice values start stop) = shape (slice others start stop) := by
  have hslice := congrArg (fun entries => slice entries start stop) h
  rwa [shape, shape, slice_map, slice_map] at hslice

theorem seedEnd_shape (h : shape values = shape others) :
    seedEnd period index run values = seedEnd period index run others := by
  induction values generalizing others index run with
  | nil => rw [List.length_eq_zero_iff.mp (length_of_shape h).symm]
  | cons value values ih =>
      cases others with
      | nil => cases h
      | cons other others =>
          injection h with hfirst hrest
          rw [seedEnd, seedEnd, hfirst]
          simp only [ih hrest]

theorem shape_resume {f g : Decimal → Decimal → Decimal} {previous previous' : Decimal}
    (h : shape values = shape others) :
    shape (resume (fun previous value => value.map (f previous)) previous values) =
      shape (resume (fun previous value => value.map (g previous)) previous' others) := by
  induction values generalizing others previous previous' with
  | nil =>
      rw [List.length_eq_zero_iff.mp (length_of_shape h).symm]
      rfl
  | cons value values ih =>
      cases others with
      | nil => cases h
      | cons other others =>
          injection h with hfirst hrest
          rw [resume, resume]
          cases value with
          | none =>
              cases other with
              | none => simp [shape, length_of_shape hrest]
              | some other => cases hfirst
          | some value =>
              cases other with
              | none => cases hfirst
              | some other => exact congrArg (true :: ·) (ih hrest)

theorem shape_seeded {f g : Decimal → Decimal → Decimal} {previous previous' : Decimal}
    (h : shape values = shape others) (k : Nat) :
    shape (List.replicate k none ++ some previous ::
        resume (fun previous value => value.map (f previous)) previous values) =
      shape (List.replicate k none ++ some previous' ::
        resume (fun previous value => value.map (g previous)) previous' others) := by
  have hrest : shape (resume (fun previous value => value.map (f previous)) previous values) =
      shape (resume (fun previous value => value.map (g previous)) previous' others) := shape_resume h
  rw [shape, shape, List.map_append, List.map_append, List.map_cons, List.map_cons]
  exact congrArg (fun rest => List.map Option.isSome (List.replicate k none) ++ true :: rest) hrest

theorem shape_drop (h : shape values = shape others) (n : Nat) : shape (values.drop n) = shape (others.drop n) := by
  rw [shape, shape, List.map_drop, List.map_drop]
  exact congrArg (List.drop n) h

/-- Where an average has a value depends on where its input has one. -/
theorem shape_ema (h : shape values = shape others) : shape (ema values period) = shape (ema others period) := by
  rw [ema, ema, seedEnd_shape h, length_of_shape h]
  dsimp only
  split
  · rfl
  · exact shape_seeded (shape_drop h _) _

theorem total_isSome (window : Series) : (total window).isSome = (shape window).all id := by
  induction window with
  | nil => rfl
  | cons value window ih =>
      rw [total_cons]
      cases value with
      | none => rfl
      | some x => simpa [shape] using ih

theorem shape_wilderAverage (h : shape values = shape others) :
    shape (wilderAverage values period start) = shape (wilderAverage others period start) := by
  have htotal := total_isSome (slice values start (start + period - 1 + 1))
  rw [shape_slice h, ← total_isSome] at htotal
  rw [wilderAverage, wilderAverage, length_of_shape h]
  dsimp only
  split
  · rfl
  · cases hvalues : total (slice values start (start + period - 1 + 1)) with
    | none =>
        have hothers : total (slice others start (start + period - 1 + 1)) = none := by
          rw [hvalues] at htotal
          simpa using htotal.symm
        rw [hothers]
    | some sum =>
        rw [hvalues] at htotal
        obtain ⟨other, hother⟩ := Option.isSome_iff_exists.mp htotal.symm
        rw [hother]
        exact shape_seeded (shape_drop h _) _

theorem shape_zipWith {g : Option Decimal → Option Decimal → Option Decimal} {xs ys xs' ys' : Series}
    (hg : ∀ x y, (g x y).isSome = (x.isSome && y.isSome)) (hx : shape xs = shape xs') (hy : shape ys = shape ys') :
    shape (List.zipWith g xs ys) = shape (List.zipWith g xs' ys') := by
  have hshape (xs ys : Series) : shape (List.zipWith g xs ys) = List.zipWith and (shape xs) (shape ys) := by
    rw [shape, List.map_zipWith, shape, shape, List.zipWith_map]
    exact congrArg (fun g => List.zipWith g xs ys) (funext fun x => funext fun y => hg x y)
  rw [hshape, hshape, hx, hy]

end Shapes

section LastValue

variable {period start i : Nat} {values : Series} {value : Option Decimal}

theorem valueAt_concat (values : Series) (value : Option Decimal) : valueAt (values ++ [value]) values.length = value := by
  rw [valueAt, List.getElem?_concat_length]
  rfl

theorem slice_concat (values : Series) (value : Option Decimal) (h : start ≤ values.length) :
    slice (values ++ [value]) start (values.length + 1) = slice values start values.length ++ [value] := by
  rw [slice, slice, List.take_of_length_le (by simp), List.take_length, List.drop_append_of_le_length h]

theorem total_concat (window : Series) (value : Option Decimal) :
    total (window ++ [value]) = (total window).bind fun sum => value.map (sum + ·) := by
  induction window with
  | nil =>
      rw [List.nil_append, total_cons]
      cases value with
      | none => rfl
      | some x => exact congrArg some (add_comm x 0)
  | cons first window ih =>
      rw [List.cons_append, total_cons, total_cons, ih]
      cases first with
      | none => rfl
      | some x =>
          cases total window with
          | none => rfl
          | some sum =>
              cases value with
              | none => rfl
              | some y => exact congrArg some (add_assoc x sum y).symm

theorem valueAt_last {series : Series} (h : series.length = i + 1) : valueAt series i = series.getLast?.join := by
  rw [valueAt, List.getLast?_eq_getElem?, h, Nat.add_sub_cancel]

theorem length_wilderAverage (values : Series) (period start : Nat) :
    (wilderAverage values period start).length = values.length := (causal_wilderAverage period start).length values

/-- Past its seed Wilder's average goes on from its last value. -/
theorem wilderAverage_later (h : start + period - 1 < values.length) (value : Option Decimal) :
    wilderAverage (values ++ [value]) period start = wilderAverage values period start ++
      [(wilderAverage values period start).getLast?.join.bind fun p =>
        value.map fun v => (p * ((period : Decimal) - 1) + v) / period] := by
  have hwindow : slice (values ++ [value]) start (start + period - 1 + 1) = slice values start (start + period - 1 + 1) := by
    rw [slice, slice, List.take_append_of_le_length h]
  have hlength : (values ++ [value]).length = values.length + 1 := by simp
  rw [wilderAverage, wilderAverage, hwindow, hlength]
  dsimp only
  rw [if_neg (by omega), if_neg (by omega)]
  cases total (slice values start (start + period - 1 + 1)) with
  | none =>
      dsimp only
      have hlast : (undefinedSeries values.length).getLast?.join = none := by
        rw [undefinedSeries, List.getLast?_replicate]
        split <;> rfl
      rw [hlast, undefinedSeries, undefinedSeries, List.replicate_succ']
      rfl
  | some sum =>
      dsimp only
      rw [List.drop_append_of_le_length h, resume_concat, List.getLast?_append_cons, List.append_assoc, List.cons_append]

/-- Wilder's average of a value after one that is defined. -/
theorem wilderAverage_step {p : Decimal} (hlength : values.length = i + 1)
    (hp : valueAt (wilderAverage values period start) i = some p) (value : Option Decimal) :
    valueAt (wilderAverage (values ++ [value]) period start) (i + 1) =
      value.map fun v => (p * ((period : Decimal) - 1) + v) / period := by
  have hseed := startsAt_wilderAverage values period start i (by rw [hp]; rfl)
  have hlast := (valueAt_last ((length_wilderAverage values period start).trans hlength)).symm.trans hp
  rw [wilderAverage_later (by omega), hlast, ← hlength, ← length_wilderAverage values period start, valueAt_concat]
  rfl

/-- Wilder's average takes in the last value with the weight of one in so many, if it takes it in at all. -/
theorem wilderAverage_concat (hperiod : 1 ≤ period) (values : Series) (start : Nat) : ∃ rest : Option Decimal,
    (Every (0 ≤ ·) values → ∀ r ∈ rest, 0 ≤ r) ∧
      ∀ v : Decimal, valueAt (wilderAverage (values ++ [some v]) period start) values.length =
        rest.map fun r => r + v / period := by
  have hlength (v : Decimal) : (values ++ [some v]).length = values.length + 1 := by simp
  rcases lt_trichotomy values.length (start + period - 1) with hbefore | hseed | hlater
  · refine ⟨none, fun _ r hr => absurd hr (Option.not_mem_none r), fun v => ?_⟩
    rw [wilderAverage, hlength]
    dsimp only
    rw [if_pos (by omega), undefinedSeries, valueAt_undefined]
    rfl
  · refine ⟨(total (slice values start values.length)).map (· / (period : Decimal)), fun h r hr => ?_, fun v => ?_⟩
    · obtain ⟨sum, hsum, rfl⟩ := Option.map_eq_some_iff.mp hr
      have hwindow : Every (0 ≤ ·) (slice values start values.length) := fun entry hentry =>
        h entry (List.mem_of_mem_take (List.mem_of_mem_drop hentry))
      exact div_nonneg (total_nonneg hwindow sum hsum) (Nat.cast_nonneg period)
    · rw [wilderAverage, hlength]
      dsimp only
      rw [if_neg (by omega), ← hseed, slice_concat values (some v) (by omega), total_concat]
      cases total (slice values start values.length) with
      | none =>
          dsimp only [Option.bind_none]
          rw [undefinedSeries, valueAt_undefined]
          rfl
      | some sum =>
          dsimp only [Option.bind_some, Option.map_some]
          rw [← hlength v, List.drop_length, resume, valueAt, undefinedSeries, List.getElem?_append_right (by simp),
            List.length_replicate, Nat.sub_self, add_div]
          rfl
  · refine ⟨(wilderAverage values period start).getLast?.join.map fun p => p * ((period : Decimal) - 1) / period,
      fun h r hr => ?_, fun v => ?_⟩
    · obtain ⟨p, hp, rfl⟩ := Option.map_eq_some_iff.mp hr
      have hcast : (0 : Decimal) ≤ period - 1 := sub_nonneg_of_le (by exact_mod_cast hperiod)
      have hnonneg : 0 ≤ p := by
        have hmem := Option.join_eq_some_iff.mp hp
        exact every_wilderAverage hperiod h _ (List.mem_of_getLast? hmem) p rfl
      exact div_nonneg (mul_nonneg hnonneg hcast) (Nat.cast_nonneg period)
    · rw [wilderAverage_later hlater, ← length_wilderAverage values period start, valueAt_concat]
      cases (wilderAverage values period start).getLast?.join with
      | none => rfl
      | some p => exact congrArg some (add_div _ _ _)

end LastValue

section Persistence

variable {period i : Nat} {candles : List Candle}

theorem trueRanges_nonneg (candles : List Candle) : Every (0 ≤ ·) (trueRanges candles) :=
  every_stepwise (fun _ current => le_max_of_le_left
    (sub_nonneg_of_le (current.low_le_open.trans current.open_le_high))) candles

theorem plusMoves_nonneg (candles : List Candle) : Every (0 ≤ ·) (plusMoves candles) := by
  refine every_stepwise (fun previous current => ?_) candles
  dsimp only
  split
  · exact le_of_lt (And.right ‹_›)
  · exact le_refl 0

theorem minusMoves_nonneg (candles : List Candle) : Every (0 ≤ ·) (minusMoves candles) := by
  refine every_stepwise (fun previous current => ?_) candles
  dsimp only
  split
  · exact le_of_lt (And.right ‹_›)
  · exact le_refl 0

theorem valueAt_of_lt {series : Series} (h : i < series.length) : series[i]? = some (valueAt series i) := by
  rw [valueAt, List.getElem?_eq_getElem h]
  rfl

theorem valueAt_zipWith {g : Option Decimal → Option Decimal → Option Decimal} {xs ys : Series} (hx : i < xs.length)
    (hy : i < ys.length) : valueAt (List.zipWith g xs ys) i = g (valueAt xs i) (valueAt ys i) := by
  rw [valueAt, List.getElem?_zipWith, valueAt_of_lt hx, valueAt_of_lt hy]
  rfl

/-- The three smoothed series that the directional indicators are made of. -/
def smoothedRange (candles : List Candle) (period : Nat) : Series := wilderAverage (trueRanges candles) period 1

def smoothedPlus (candles : List Candle) (period : Nat) : Series := wilderAverage (plusMoves candles) period 1

def smoothedMinus (candles : List Candle) (period : Nat) : Series := wilderAverage (minusMoves candles) period 1

theorem valueAt_dx (hi : i < candles.length) :
    valueAt (dx candles period) i =
      directionalIndex
        (directional (valueAt (smoothedRange candles period) i) (valueAt (smoothedPlus candles period) i)
          (valueAt (smoothedMinus candles period) i))
        (directional (valueAt (smoothedRange candles period) i) (valueAt (smoothedMinus candles period) i)
          (valueAt (smoothedPlus candles period) i)) := by
  have hrange : i < (smoothedRange candles period).length := by
    rwa [smoothedRange, length_wilderAverage, causal_trueRanges.length]
  have hplus : i < (smoothedPlus candles period).length := by
    rwa [smoothedPlus, length_wilderAverage, plusMoves, (causal_stepwise _).length]
  have hminus : i < (smoothedMinus candles period).length := by
    rwa [smoothedMinus, length_wilderAverage, minusMoves, (causal_stepwise _).length]
  have hmoves : ((smoothedPlus candles period).zip (smoothedMinus candles period))[i]? =
      some (valueAt (smoothedPlus candles period) i, valueAt (smoothedMinus candles period) i) :=
    List.getElem?_zip_eq_some.mpr ⟨valueAt_of_lt hplus, valueAt_of_lt hminus⟩
  rw [dx, valueAt_zipWith (by rwa [(causal_plusDi period).length]) (by rwa [(causal_minusDi period).length]), plusDi_eq,
    minusDi_eq, ← smoothedRange, ← smoothedPlus, ← smoothedMinus, valueAt, valueAt, List.getElem?_zipWith,
    List.getElem?_zipWith, hmoves, valueAt_of_lt hrange]
  rfl

/-- The directional index is there where there is a range, and movement in it. -/
theorem directionalIndex_isSome {range plus minus : Option Decimal} :
    (directionalIndex (directional range plus minus) (directional range minus plus)).isSome ↔
      ∃ r p m, range = some r ∧ plus = some p ∧ minus = some m ∧ r ≠ 0 ∧ p + m ≠ 0 := by
  cases range with
  | none => simp [directional, directionalIndex]
  | some range =>
      cases plus with
      | none => simp [directional, directionalIndex]
      | some plus =>
          cases minus with
          | none => simp [directional, directionalIndex]
          | some minus =>
              by_cases hzero : range = 0
              · simp [directional, directionalIndex, hzero]
              · have htotal : plus / range * 100 + minus / range * 100 = (plus + minus) / range * 100 := by ring
                by_cases hmoves : plus + minus = 0
                · simp [directional, directionalIndex, hzero, htotal, hmoves]
                · simp [directional, directionalIndex, hzero, htotal, hmoves]

/-- What was averaged once stays in the average, as long as the bars do not bring less than nothing. -/
theorem smoothed_persists {values : Series} {p v : Decimal} (hperiod : 2 ≤ period) (hnonneg : Every (0 ≤ ·) values)
    (hlength : values.length = i + 1) (hp : valueAt (wilderAverage values period 1) i = some p) (hv : 0 ≤ v) :
    0 ≤ p ∧ ∃ q, valueAt (wilderAverage (values ++ [some v]) period 1) (i + 1) = some q ∧ 0 ≤ q ∧ (0 < p → 0 < q) := by
  have hcast : (2 : Decimal) ≤ period := by exact_mod_cast hperiod
  have hpos : (0 : Decimal) < period := by linarith
  have hweight : (0 : Decimal) < period - 1 := by linarith
  have hmem : some p ∈ wilderAverage values period 1 := by
    have hi : i < (wilderAverage values period 1).length := by
      rw [length_wilderAverage]
      omega
    have hentry := valueAt_of_lt hi
    rw [hp] at hentry
    exact List.mem_of_getElem? hentry
  have hp0 : 0 ≤ p := every_wilderAverage (by omega) hnonneg _ hmem p rfl
  refine ⟨hp0, _, wilderAverage_step hlength hp (some v), ?_, fun hp0 => ?_⟩
  · exact div_nonneg (add_nonneg (mul_nonneg hp0 hweight.le) hv) hpos.le
  · exact div_pos (add_pos_of_pos_of_nonneg (mul_pos hp0 hweight) hv) hpos

/-- A directional index that is there at the last bar is there at the next one, whatever bar that is. -/
theorem dx_step (hperiod : 2 ≤ period) (hlength : candles.length = i + 1) (h : (valueAt (dx candles period) i).isSome)
    (bar : Candle) : (valueAt (dx (candles ++ [bar]) period) (i + 1)).isSome := by
  obtain ⟨last, hlast⟩ : ∃ last, candles.getLast? = some last := by
    cases hlast : candles.getLast? with
    | none =>
        rw [List.getLast?_eq_none_iff.mp hlast] at hlength
        cases hlength
    | some last => exact ⟨last, rfl⟩
  rw [valueAt_dx (by omega)] at h
  obtain ⟨r, p, m, hr, hp, hm, hrange, hmoves⟩ := directionalIndex_isSome.mp h
  -- One more bar adds one value to each of the three series.
  have hstep (f : Candle → Candle → Decimal) :
      stepwise f (candles ++ [bar]) = stepwise f candles ++ [some (f last bar)] := by
    rw [stepwise_concat, hlast, Option.map_some]
  have hlengths (f : Candle → Candle → Decimal) : (stepwise f candles).length = i + 1 := by
    rw [(causal_stepwise f).length, hlength]
  have hadded (f : Candle → Candle → Decimal) (hf : ∀ candles, Every (0 ≤ ·) (stepwise f candles)) : 0 ≤ f last bar :=
    hf [last, bar] (some (f last bar)) (by simp [stepwise, scan]) _ rfl
  obtain ⟨hr0, r', hr', -, hrpos⟩ := smoothed_persists hperiod (trueRanges_nonneg candles) (hlengths _) hr
    (hadded _ trueRanges_nonneg)
  obtain ⟨hp0, p', hp', hp0', hppos⟩ := smoothed_persists hperiod (plusMoves_nonneg candles) (hlengths _) hp
    (hadded _ plusMoves_nonneg)
  obtain ⟨hm0, m', hm', hm0', hmpos⟩ := smoothed_persists hperiod (minusMoves_nonneg candles) (hlengths _) hm
    (hadded _ minusMoves_nonneg)
  rw [valueAt_dx (by simp [hlength])]
  refine directionalIndex_isSome.mpr ⟨r', p', m', ?_, ?_, ?_, (hrpos (lt_of_le_of_ne hr0 (Ne.symm hrange))).ne', ?_⟩
  · rw [smoothedRange, trueRanges, hstep]
    exact hr'
  · rw [smoothedPlus, plusMoves, hstep]
    exact hp'
  · rw [smoothedMinus, minusMoves, hstep]
    exact hm'
  · rcases hp0.eq_or_lt with rfl | hp0
    · have hm0 : 0 < m := lt_of_le_of_ne hm0 fun h => hmoves (by rw [← h, add_zero])
      exact (add_pos_of_nonneg_of_pos hp0' (hmpos hm0)).ne'
    · exact (add_pos_of_pos_of_nonneg (hppos hp0) hm0').ne'

theorem dx_concat (candles : List Candle) (bar : Candle) (period : Nat) :
    dx (candles ++ [bar]) period = dx candles period ++ [valueAt (dx (candles ++ [bar]) period) candles.length] := by
  have htake := (causal_dx period).take (candles ++ [bar]) candles.length
  have hlength : (dx (candles ++ [bar]) period).length = candles.length + 1 := by simp [(causal_dx period).length]
  rw [List.take_left] at htake
  rw [htake]
  conv_lhs => rw [← List.take_append_drop candles.length (dx (candles ++ [bar]) period)]
  rw [List.drop_eq_getElem_cons (by omega), List.drop_eq_nil_of_le (by omega), valueAt, List.getElem?_eq_getElem (by omega)]
  rfl

/-- Once the directional index is there, it stays. -/
theorem dx_persists (hperiod : 2 ≤ period) (h : (dx candles period).any Option.isSome) (bar : Candle) :
    (valueAt (dx (candles ++ [bar]) period) candles.length).isSome := by
  induction candles using List.reverseRecOn generalizing bar with
  | nil => cases h
  | append_singleton candles last ih =>
      have hlast : (valueAt (dx (candles ++ [last]) period) candles.length).isSome := by
        rw [dx_concat, List.any_append, Bool.or_eq_true] at h
        rcases h with h | h
        · exact ih h last
        · simpa using h
      rw [List.length_append, List.length_singleton]
      exact dx_step hperiod (by simp) hlast bar

theorem adx_isSome (hperiod : 2 ≤ period) (candles : List Candle) (bar bar' : Candle) :
    (valueAt (adx (candles ++ [bar]) period).adx candles.length).isSome =
      (valueAt (adx (candles ++ [bar']) period).adx candles.length).isSome := by
  by_cases h : (dx candles period).any Option.isSome
  · have hshape : shape (dx (candles ++ [bar]) period) = shape (dx (candles ++ [bar']) period) := by
      rw [dx_concat, dx_concat candles bar', shape, shape, List.map_append, List.map_append, List.map_singleton,
        List.map_singleton, dx_persists hperiod h, dx_persists hperiod h]
    have hfirst : (dx (candles ++ [bar]) period).findIdx? Option.isSome = (dx (candles ++ [bar']) period).findIdx? Option.isSome := by
      have hfind (series : Series) : series.findIdx? Option.isSome = (shape series).findIdx? id := by
        rw [shape, List.findIdx?_map]
        rfl
      rw [hfind, hfind, hshape]
    rw [adx_eq, adx_eq, hfirst, length_of_shape hshape]
    cases (dx (candles ++ [bar']) period).findIdx? Option.isSome with
    | none => rfl
    | some first => exact isSome_of_shape (shape_wilderAverage hshape) _
  · -- The last bar comes too early for the average of the index.
    have hnone (bar : Candle) : (valueAt (adx (candles ++ [bar]) period).adx candles.length).isSome = false := by
      rw [← Bool.not_eq_true]
      intro hdefined
      rw [adx_eq, dx_concat, List.findIdx?_append] at hdefined
      have hbefore : (dx candles period).findIdx? Option.isSome = none := by
        rw [List.findIdx?_eq_none_iff]
        simpa using h
      rw [hbefore, Option.none_or] at hdefined
      split at hdefined
      · rename_i first hfirst
        obtain ⟨j, -, rfl⟩ := Option.map_eq_some_iff.mp hfirst
        have hstart := startsAt_wilderAverage _ _ _ _ hdefined
        rw [(causal_dx period).length] at hstart
        omega
      · rw [undefinedSeries, valueAt_undefined] at hdefined
        cases hdefined
    rw [hnone, hnone]

end Persistence

section Definedness

variable {period : Nat}

theorem closes_concat (candles : List Candle) (bar : Candle) : closes (candles ++ [bar]) = closes candles ++ [bar.close] :=
  List.map_append

theorem shape_stepwise {α : Type} (f : α → α → Decimal) (xs : List α) (x x' : α) :
    shape (stepwise f (xs ++ [x])) = shape (stepwise f (xs ++ [x'])) := by
  rw [stepwise_concat, stepwise_concat, shape, shape, List.map_append, List.map_append, List.map_singleton,
    List.map_singleton, Option.isSome_map, Option.isSome_map]

theorem shape_closes (candles : List Candle) (bar bar' : Candle) :
    shape ((closes (candles ++ [bar])).map some) = shape ((closes (candles ++ [bar'])).map some) := by
  rw [closes_concat, closes_concat, shape, shape, List.map_append, List.map_append, List.map_append, List.map_append]
  rfl

theorem shape_emaOfCloses (candles : List Candle) (bar bar' : Candle) (period : Nat) :
    shape (ema ((closes (candles ++ [bar])).map some) period) = shape (ema ((closes (candles ++ [bar'])).map some) period) :=
  shape_ema (shape_closes candles bar bar')

theorem difference_isSome (x y : Option Decimal) : (difference x y).isSome = (x.isSome && y.isSome) := by
  cases x <;> cases y <;> rfl

theorem shape_histogram (candles : List Candle) (bar bar' : Candle) (fast slow signal : Nat) :
    shape (macd (candles ++ [bar]) fast slow signal).histogram =
      shape (macd (candles ++ [bar']) fast slow signal).histogram := by
  have hline : shape (macd (candles ++ [bar]) fast slow signal).macd = shape (macd (candles ++ [bar']) fast slow signal).macd :=
    shape_zipWith difference_isSome (shape_emaOfCloses candles bar bar' fast) (shape_emaOfCloses candles bar bar' slow)
  exact shape_zipWith difference_isSome hline (shape_ema hline)

theorem relativeStrength_isSome (gain loss : Option Decimal) :
    (relativeStrength gain loss).isSome = (gain.isSome && loss.isSome) := by
  cases gain with
  | none => rfl
  | some gain =>
      cases loss with
      | none => rfl
      | some loss =>
          rw [relativeStrength]
          split
          · rfl
          · split <;> rfl

theorem shape_rsi (candles : List Candle) (bar bar' : Candle) (period : Nat) :
    shape (rsi (candles ++ [bar]) period) = shape (rsi (candles ++ [bar']) period) := by
  rw [rsi_eq, rsi_eq, closes_concat, closes_concat]
  exact shape_zipWith relativeStrength_isSome (shape_wilderAverage (shape_stepwise _ _ _ _))
    (shape_wilderAverage (shape_stepwise _ _ _ _))

end Definedness

section Overbought

variable {period : Nat} {limit : Decimal}

/-- A gain large enough against the losses brings the strength up to a limit below its bound. -/
theorem relativeStrength_ge {gain loss : Decimal} (hgain : 0 < gain) (hloss : 0 ≤ loss) (hlimit : limit < 100)
    (h : loss * limit ≤ gain * (100 - limit)) : ∀ value ∈ relativeStrength (some gain) (some loss), limit ≤ value := by
  intro value hvalue
  rw [relativeStrength, if_neg hgain.ne'] at hvalue
  rcases hloss.eq_or_lt with rfl | hloss
  · rw [if_pos rfl, if_pos hgain] at hvalue
    obtain rfl := Option.mem_some.mp hvalue
    exact hlimit.le
  · rw [if_neg hloss.ne'] at hvalue
    obtain rfl := Option.mem_some.mp hvalue
    have hratio : (100 : Decimal) / (1 + gain / loss) = 100 * loss / (loss + gain) := by
      field_simp
    have hle : 100 * loss / (loss + gain) ≤ 100 - limit := by
      rw [div_le_iff₀ (add_pos hloss hgain)]
      linarith
    rw [hratio]
    linarith

theorem moves_risen {candles : List Candle} {last bar : Candle} {rise : Decimal} (hlast : candles.getLast? = some last)
    (hbar : bar.close - last.close = rise) (hrise : 0 < rise) :
    gains (closes (candles ++ [bar])) = gains (closes candles) ++ [some rise] ∧
      losses (closes (candles ++ [bar])) = losses (closes candles) ++ [some 0] := by
  have hprice : (closes candles).getLast? = some last.close := by rw [closes, List.getLast?_map, hlast, Option.map_some]
  constructor
  · rw [closes_concat, gains, stepwise_concat, hprice, Option.map_some, hbar, if_pos hrise]
    rfl
  · rw [closes_concat, losses, stepwise_concat, hprice, Option.map_some, hbar, if_neg hrise.le.not_gt]
    rfl

/-- What a rise of the last close makes of the RSI, from what the averages were before it. -/
theorem rsi_risen (hperiod : 1 ≤ period) (candles : List Candle) : ∃ gain loss : Option Decimal,
    (∀ g ∈ gain, 0 ≤ g) ∧ (∀ l ∈ loss, 0 ≤ l) ∧
      ∀ (last bar : Candle) (rise : Decimal), candles.getLast? = some last → bar.close - last.close = rise → 0 < rise →
        valueAt (rsi (candles ++ [bar]) period) candles.length =
          relativeStrength (gain.map fun g => g + rise / period) loss := by
  obtain ⟨gain, hgain, hgains⟩ := wilderAverage_concat hperiod (gains (closes candles)) 1
  obtain ⟨loss, hloss, hlosses⟩ := wilderAverage_concat hperiod (losses (closes candles)) 1
  have hlengths : (gains (closes candles)).length = candles.length ∧ (losses (closes candles)).length = candles.length := by
    rw [gains, losses, (causal_stepwise _).length, (causal_stepwise _).length, closes, List.length_map]
    exact ⟨rfl, rfl⟩
  rw [hlengths.1] at hgains
  rw [hlengths.2] at hlosses
  refine ⟨gain, loss, hgain (gains_nonneg _), hloss (losses_nonneg _), fun last bar rise hlast hbar hrise => ?_⟩
  obtain ⟨hgained, hlost⟩ := moves_risen hlast hbar hrise
  rw [rsi_eq, hgained, hlost, valueAt_zipWith (by simp [length_wilderAverage, hlengths])
    (by simp [length_wilderAverage, hlengths]), hgains, hlosses]
  simp only [zero_div, add_zero, Option.map_id']

/-- The gain that outweighs a loss so far that the strength is at least a limit. -/
theorem outweighs {gain loss : Decimal} (hgain : 0 ≤ gain) (hlimit : limit < 100) :
    loss * limit ≤ (gain + (1 + loss * limit / (100 - limit))) * (100 - limit) := by
  have hroom : (0 : Decimal) < 100 - limit := sub_pos.mpr hlimit
  have hshare : loss * limit / (100 - limit) * (100 - limit) = loss * limit := div_mul_cancel₀ _ hroom.ne'
  have hrest : 0 ≤ (gain + 1) * (100 - limit) := mul_nonneg (by linarith) hroom.le
  linarith

/-- Whatever the bars before it, there is a close of the last bar that brings the RSI up to a limit. -/
theorem exists_overbought (hperiod : 1 ≤ period) (candles : List Candle) (hpos : 0 ≤ limit) (hlimit : limit < 100) :
    ∃ q : Decimal, 0 ≤ q ∧ ∀ bar : Candle, bar.close = q →
      ∀ value ∈ valueAt (rsi (candles ++ [bar]) period) candles.length, limit ≤ value := by
  have hcast : (0 : Decimal) < period := by exact_mod_cast hperiod
  obtain ⟨gain, loss, hgain, hloss, hrsi⟩ := rsi_risen hperiod candles
  cases hlast : candles.getLast? with
  | none =>
      obtain rfl := List.getLast?_eq_none_iff.mp hlast
      refine ⟨0, le_refl 0, fun bar _ value hvalue => ?_⟩
      have hstart := startsAt_rsi [bar] period 0 (Option.isSome_of_mem hvalue)
      omega
  | some last =>
      have hclose : 0 ≤ last.close := last.low_nonneg.trans last.low_le_close
      -- the close rises by so much that its share of the average outweighs the losses there were
      have hshare : 0 ≤ (loss.getD 0) * limit / (100 - limit) := by
        refine div_nonneg (mul_nonneg ?_ hpos) (sub_pos.mpr hlimit).le
        cases loss with
        | none => exact le_refl 0
        | some loss => exact hloss loss rfl
      have hrise : 0 < (period : Decimal) * (1 + (loss.getD 0) * limit / (100 - limit)) := mul_pos hcast (by linarith)
      refine ⟨last.close + period * (1 + (loss.getD 0) * limit / (100 - limit)), by linarith, fun bar hbar value hvalue => ?_⟩
      rw [hrsi last bar _ hlast (by rw [hbar, add_sub_cancel_left]) hrise, mul_div_cancel_left₀ _ hcast.ne'] at hvalue
      cases gain with
      | none => cases hvalue
      | some gain =>
          cases loss with
          | none => cases hvalue
          | some loss =>
              have hgain := hgain gain rfl
              rw [Option.getD_some] at hshare hvalue
              exact relativeStrength_ge (by linarith) (hloss loss rfl) hlimit (outweighs hgain hlimit) value hvalue

end Overbought

end Aetheris.Indicators
