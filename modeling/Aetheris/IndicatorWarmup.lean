import Aetheris.IndicatorCausality

namespace Aetheris.Indicators

open Lib Money

section Definedness

/-- No value stands before an index. -/
def StartsAt (k : Nat) (series : Series) : Prop := ∀ i, (valueAt series i).isSome → k ≤ i

variable {i k period start : Nat} {values : Series}

theorem valueAt_of_some {v : Decimal} (h : values[i]? = some (some v)) : (valueAt values i).isSome := by
  rw [valueAt, h]
  rfl

theorem valueAt_undefined (n : Nat) : valueAt (List.replicate n none) i = none := by
  rw [valueAt, List.getElem?_replicate]
  split <;> rfl

theorem valueAt_seeded {value : Decimal} {rest : Series}
    (hi : (valueAt (List.replicate k none ++ some value :: rest) i).isSome) :
    i = k ∨ ∃ j, i = k + 1 + j ∧ (valueAt rest j).isSome := by
  by_cases hbefore : i < k
  · have hpart : valueAt (List.replicate k none ++ some value :: rest) i = valueAt (List.replicate k none) i := by
      rw [valueAt, List.getElem?_append_left (by simpa using hbefore)]
      rfl
    rw [hpart, valueAt_undefined] at hi
    cases hi
  · obtain ⟨j, rfl⟩ := Nat.exists_eq_add_of_le (Nat.le_of_not_lt hbefore)
    cases j with
    | zero => exact Or.inl rfl
    | succ j =>
        refine Or.inr ⟨j, by omega, ?_⟩
        rw [valueAt, List.getElem?_append_right (by simp), List.length_replicate, Nat.add_sub_cancel_left] at hi
        exact hi

/-- A recursion that a gap breaks has a value only where its input does. -/
theorem valueAt_resume {f : Decimal → Decimal → Decimal} {previous : Decimal}
    (hi : (valueAt (resume (fun previous value => value.map (f previous)) previous values) i).isSome) :
    (valueAt values i).isSome := by
  induction values generalizing previous i with
  | nil => exact hi
  | cons value values ih =>
      rw [resume] at hi
      cases value with
      | none =>
          have hgap : valueAt (none :: values.map fun _ => none) i = none := by
            rw [List.map_const', ← List.replicate_succ, valueAt_undefined]
          rw [Option.map_none] at hi
          dsimp only at hi
          rw [hgap] at hi
          cases hi
      | some value =>
          cases i with
          | zero => rfl
          | succ i => exact ih hi

theorem exists_of_zipWith {β γ : Type} {h : β → γ → Option Decimal} {xs : List β} {ys : List γ}
    (hi : (valueAt (List.zipWith h xs ys) i).isSome) :
    ∃ x y, xs[i]? = some x ∧ ys[i]? = some y ∧ (h x y).isSome := by
  rw [valueAt, List.getElem?_zipWith] at hi
  split at hi
  · rename_i x y hx hy
    exact ⟨x, y, hx, hy, hi⟩
  · cases hi

theorem defined_of_total {window : Series} {sum : Decimal} (h : total window = some sum) :
    ∀ value ∈ window, value.isSome := by
  rw [total] at h
  obtain ⟨found, hfound, -⟩ := Option.map_eq_some_iff.mp h
  clear h
  induction window generalizing found with
  | nil => exact fun value hv => absurd hv List.not_mem_nil
  | cons first window ih =>
      rw [List.mapM_cons] at hfound
      obtain ⟨value, hvalue, hrest⟩ := Option.bind_eq_some_iff.mp hfound
      obtain ⟨others, hothers, -⟩ := Option.bind_eq_some_iff.mp hrest
      intro other hother
      rcases List.mem_cons.mp hother with rfl | hother
      · exact Option.isSome_of_mem hvalue
      · exact ih others hothers other hother

end Definedness

section Averages

variable {i m period start index run : Nat} {values : Series}

/-- A run ends no earlier than it takes to count up to it. -/
theorem seedEnd_ge : ∀ k ∈ seedEnd period index run values, index + period ≤ k + 1 + run := by
  induction values generalizing index run with
  | nil => exact fun k hk => absurd hk (Option.not_mem_none _)
  | cons value values ih =>
      intro k hk
      rw [seedEnd] at hk
      have hnext : (if value.isSome then run + 1 else 0) ≤ run + 1 := by split <;> omega
      generalize (if value.isSome then run + 1 else 0) = next at hk hnext
      split at hk
      · obtain rfl := Option.some.inj hk
        omega
      · have hlater := ih k hk
        omega

theorem seedEnd_ge_of_startsAt (hperiod : 1 ≤ period) (h : StartsAt m values) :
    ∀ k ∈ seedEnd period index 0 values, index + m + period ≤ k + 1 := by
  induction values generalizing index m with
  | nil => exact fun k hk => absurd hk (Option.not_mem_none _)
  | cons value values ih =>
      intro k hk
      cases m with
      | zero => exact seedEnd_ge k hk
      | succ m =>
          have hvalue : value = none := by
            cases value with
            | none => rfl
            | some value => exact absurd (h 0 rfl) (Nat.not_succ_le_zero m)
          have hrest : StartsAt m values := fun i hi => Nat.le_of_succ_le_succ (h (i + 1) hi)
          subst hvalue
          rw [seedEnd] at hk
          have hopen : ¬ (0 : Nat) = period := by omega
          have hlater := ih hrest k (by simpa [hopen] using hk)
          omega

/-- An average over a series that starts at an index starts a period later. -/
theorem startsAt_ema (hperiod : 1 ≤ period) (h : StartsAt m values) :
    StartsAt (m + period - 1) (ema values period) := by
  intro i hi
  rw [ema] at hi
  dsimp only at hi
  split at hi
  · rw [undefinedSeries, valueAt_undefined] at hi
    cases hi
  · rename_i k hk
    have hseed := seedEnd_ge_of_startsAt hperiod h k hk
    rcases valueAt_seeded hi with rfl | ⟨j, rfl, -⟩ <;> omega

theorem startsAt_wilderAverage (values : Series) (period start : Nat) :
    StartsAt (start + period - 1) (wilderAverage values period start) := by
  intro i hi
  rw [wilderAverage_eq] at hi
  split at hi
  · rw [valueAt_undefined] at hi
    cases hi
  · rename_i k hk
    have hseed := (wilderSeed_mem k hk).1
    rcases valueAt_seeded hi with rfl | ⟨j, rfl, -⟩ <;> omega

/-- Wilder's average has a value only where the series that it is taken of has one. -/
theorem defined_of_wilderAverage (hperiod : 1 ≤ period)
    (hi : (valueAt (wilderAverage values period start) i).isSome) : (valueAt values i).isSome := by
  rw [wilderAverage_eq] at hi
  split at hi
  · rw [valueAt_undefined] at hi
    cases hi
  · rename_i k hk
    obtain ⟨hend, hlt⟩ := wilderSeed_mem k hk
    rcases valueAt_seeded hi with rfl | ⟨j, rfl, hj⟩
    · rw [wilderSeed] at hk
      split at hk
      · cases hk
      · obtain ⟨sum, hsum, -⟩ := Option.mem_map.mp hk
        have hmem : values[i] ∈ slice values start (start + period - 1 + 1) := by
          rw [slice, List.mem_drop_iff_getElem]
          refine ⟨i - start, by rw [List.length_take]; omega, ?_⟩
          have hindex : start + (i - start) = i := by omega
          simp [hindex]
        have hdefined := defined_of_total hsum _ hmem
        rwa [valueAt, List.getElem?_eq_getElem hlt]
    · have hrest := valueAt_resume (f := fun previous value => (previous * ((period : Decimal) - 1) + value) / period) hj
      rwa [valueAt, List.getElem?_drop] at hrest

end Averages

section Library

variable {candles : List Candle} {i period : Nat}

theorem startsAt_zero (series : Series) : StartsAt 0 series := fun _ _ => Nat.zero_le _

theorem startsAt_emaOfCloses (hperiod : 1 ≤ period) (candles : List Candle) :
    StartsAt (period - 1) (ema ((closes candles).map some) period) := by
  simpa using startsAt_ema hperiod (startsAt_zero ((closes candles).map some))

theorem startsAt_rsi (candles : List Candle) (period : Nat) : StartsAt period (rsi candles period) := by
  intro i hi
  obtain ⟨gain, loss, hgain, -, hvalue⟩ := exists_of_zipWith hi
  cases gain with
  | none => cases hvalue
  | some gain => simpa using startsAt_wilderAverage _ period 1 i (valueAt_of_some hgain)

theorem defined_of_difference {x y : Option Decimal} (h : (difference x y).isSome) : x.isSome ∧ y.isSome := by
  cases x with
  | none => cases h
  | some x =>
      cases y with
      | none => cases h
      | some y => exact ⟨rfl, rfl⟩

theorem defined_of_differences {xs ys : Series} (hi : (valueAt (List.zipWith difference xs ys) i).isSome) :
    (valueAt xs i).isSome ∧ (valueAt ys i).isSome := by
  obtain ⟨x, y, hx, hy, h⟩ := exists_of_zipWith hi
  rw [valueAt, valueAt, hx, hy]
  exact defined_of_difference h

/-- The histogram has a value only where both of the lines that it is the difference of have one. -/
theorem defined_of_histogram {fast slow signal : Nat}
    (hi : (valueAt (macd candles fast slow signal).histogram i).isSome) :
    (valueAt (macd candles fast slow signal).macd i).isSome ∧
      (valueAt (macd candles fast slow signal).signal i).isSome :=
  defined_of_differences hi

theorem startsAt_macdLine {fast slow : Nat} (hslow : 1 ≤ slow) (candles : List Candle) (signal : Nat) :
    StartsAt (slow - 1) (macd candles fast slow signal).macd :=
  fun i hi => startsAt_emaOfCloses hslow candles i (defined_of_differences hi).2

theorem startsAt_histogram {fast slow signal : Nat} (hslow : 1 ≤ slow) (hsignal : 1 ≤ signal)
    (candles : List Candle) :
    StartsAt (slow + signal - 2) (macd candles fast slow signal).histogram := by
  intro i hi
  have hstart := startsAt_ema hsignal (startsAt_macdLine hslow candles signal) i (defined_of_histogram hi).2
  omega

theorem defined_of_dx (hi : (valueAt (dx candles period) i).isSome) :
    (valueAt (adx candles period).plusDi i).isSome ∧ (valueAt (adx candles period).minusDi i).isSome := by
  obtain ⟨positive, negative, hpositive, hnegative, h⟩ := exists_of_zipWith hi
  rw [valueAt, valueAt, hpositive, hnegative]
  cases positive with
  | none => cases h
  | some positive =>
      cases negative with
      | none => cases h
      | some negative => exact ⟨rfl, rfl⟩

theorem startsAt_dx (candles : List Candle) (period : Nat) : StartsAt period (dx candles period) := by
  intro i hi
  obtain ⟨range, moves, hrange, -, h⟩ := exists_of_zipWith (defined_of_dx hi).1
  cases range with
  | none => cases h
  | some range => simpa using startsAt_wilderAverage _ period 1 i (valueAt_of_some hrange)

/-- The average of the directional index has a value only where both directional indicators have one. -/
theorem defined_of_adx (hperiod : 1 ≤ period) (hi : (valueAt (adx candles period).adx i).isSome) :
    (valueAt (adx candles period).plusDi i).isSome ∧ (valueAt (adx candles period).minusDi i).isSome := by
  rw [adx_eq] at hi
  split at hi
  · exact defined_of_dx (defined_of_wilderAverage hperiod hi)
  · rw [undefinedSeries, valueAt_undefined] at hi
    cases hi

theorem startsAt_adx (candles : List Candle) (period : Nat) : StartsAt (2 * period - 1) (adx candles period).adx := by
  intro i hi
  rw [adx_eq] at hi
  split at hi
  · rename_i first hfirst
    have hend := startsAt_wilderAverage _ period first i hi
    obtain ⟨hlt, hdefined, -⟩ := List.findIdx?_eq_some_iff_getElem.mp hfirst
    have hstart := startsAt_dx candles period first (by rw [valueAt, List.getElem?_eq_getElem hlt]; exact hdefined)
    omega
  · rw [undefinedSeries, valueAt_undefined] at hi
    cases hi

end Library

end Aetheris.Indicators
