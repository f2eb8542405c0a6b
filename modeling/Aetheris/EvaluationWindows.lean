import Aetheris.Lib.Tiling
import Aetheris.Lib.WhileLoop
import Aetheris.MarketModels
import Aetheris.OutOfSample

namespace Aetheris.Optimize

open Lib Money MarketModels

/-! ### The validators -/

/-- What the fields that count something are refused for, where they count below zero. -/
def countErrors (named : List (String × Int)) : List (String × Violation) :=
  named.filterMap fun field => countError field.1 (some field.2)

theorem countErrors_eq_nil {named : List (String × Int)} :
    countErrors named = [] ↔ ∀ field ∈ named, 0 ≤ field.2 := by
  rw [countErrors, List.filterMap_eq_nil_iff]
  refine forall₂_congr fun field _ => ?_
  by_cases hfield : 0 ≤ field.2 <;> simp [countError, hfield]

/-- What a split is made of, before it is checked. -/
structure SplitFields where
  trainStart : Int
  trainEnd : Int
  validationStart : Int
  validationEnd : Int
  testStart : Int
  testEnd : Int
  totalBars : Int
  deriving DecidableEq

def SplitFields.named (given : SplitFields) : List (String × Int) :=
  [("train_start", given.trainStart), ("train_end", given.trainEnd),
    ("validation_start", given.validationStart), ("validation_end", given.validationEnd),
    ("test_start", given.testStart), ("test_end", given.testEnd), ("total_bars", given.totalBars)]

def SplitFields.bounds (given : SplitFields) : List Int :=
  [given.trainStart, given.trainEnd, given.validationStart, given.validationEnd, given.testStart,
    given.testEnd]

/-- A list is its own sorting where it is in order. -/
theorem eq_sorted_iff {bounds : List Int} :
    bounds = bounds.insertionSort (· ≤ ·) ↔ bounds.IsChain (· ≤ ·) := by
  rw [List.isChain_iff_pairwise]
  constructor
  · intro h
    rw [h]
    exact List.pairwise_insertionSort _ _
  · intro h
    exact h.insertionSort_eq.symm

theorem SplitFields.bounds_chain {given : SplitFields} : given.bounds.IsChain (· ≤ ·) ↔
    given.trainStart ≤ given.trainEnd ∧ given.trainEnd ≤ given.validationStart ∧
      given.validationStart ≤ given.validationEnd ∧ given.validationEnd ≤ given.testStart ∧
      given.testStart ≤ given.testEnd := by
  simp [bounds]

/-- The fields first, each by itself; then the windows as a whole. -/
def DataSplit.validate (given : SplitFields) : Except ValidationError DataSplit :=
  if countErrors given.named ≠ [] then .error ⟨"DataSplit", countErrors given.named⟩
  else if hsorted : given.bounds ≠ given.bounds.insertionSort (· ≤ ·) then
    .error ⟨"DataSplit", [("", .valueError "split windows must be chronological and non-overlapping")]⟩
  else if hwithin : given.totalBars < given.testEnd then
    .error ⟨"DataSplit", [("", .valueError "the test window runs past the end of the series")]⟩
  else
    have hchain := SplitFields.bounds_chain.mp (eq_sorted_iff.mp (not_not.mp hsorted))
    .ok
      { trainStart := given.trainStart.toNat
        trainEnd := given.trainEnd.toNat
        validationStart := given.validationStart.toNat
        validationEnd := given.validationEnd.toNat
        testStart := given.testStart.toNat
        testEnd := given.testEnd.toNat
        totalBars := given.totalBars.toNat
        train_ordered := Int.toNat_le_toNat hchain.1
        train_before_validation := Int.toNat_le_toNat hchain.2.1
        validation_ordered := Int.toNat_le_toNat hchain.2.2.1
        validation_before_test := Int.toNat_le_toNat hchain.2.2.2.1
        test_ordered := Int.toNat_le_toNat hchain.2.2.2.2
        test_within := Int.toNat_le_toNat (not_lt.mp hwithin) }

def DataSplit.fields (split : DataSplit) : SplitFields where
  trainStart := split.trainStart
  trainEnd := split.trainEnd
  validationStart := split.validationStart
  validationEnd := split.validationEnd
  testStart := split.testStart
  testEnd := split.testEnd
  totalBars := split.totalBars

theorem DataSplit.fields_of_validate {given : SplitFields} {split : DataSplit}
    (h : DataSplit.validate given = .ok split) : split.fields = given := by
  rw [validate] at h
  split at h
  · cases h
  · rename_i hnamed
    rw [not_not, countErrors_eq_nil] at hnamed
    simp only [SplitFields.named, List.forall_mem_cons] at hnamed
    obtain ⟨h₁, h₂, h₃, h₄, h₅, h₆, h₇, -⟩ := hnamed
    split at h
    · cases h
    · split at h
      · cases h
      · injection h with h
        rw [← h]
        simp only [fields, Int.toNat_of_nonneg, h₁, h₂, h₃, h₄, h₅, h₆, h₇]

theorem DataSplit.validate_fields (split : DataSplit) : DataSplit.validate split.fields = .ok split := by
  have hnamed : countErrors split.fields.named = [] :=
    countErrors_eq_nil.mpr (by simp [SplitFields.named, fields])
  have hchain : split.fields.bounds.IsChain (· ≤ ·) := by
    rw [SplitFields.bounds_chain]
    simp [fields, split.train_ordered, split.train_before_validation, split.validation_ordered,
      split.validation_before_test, split.test_ordered]
  have hwithin : ¬ split.fields.totalBars < split.fields.testEnd := by simpa [fields] using split.test_within
  rw [validate, if_neg (not_not.mpr hnamed), dif_neg (not_not.mpr (eq_sorted_iff.mpr hchain)),
    dif_neg hwithin]
  rfl

/-- Just what makes a split is accepted, and it makes that split. -/
theorem DataSplit.validate_ok_iff {given : SplitFields} {split : DataSplit} :
    DataSplit.validate given = .ok split ↔ split.fields = given := by
  constructor
  · exact fields_of_validate
  · rintro rfl
    exact split.validate_fields

/-- What a pair of windows is made of, before it is checked. -/
structure WindowFields where
  index : Int
  trainStart : Int
  trainEnd : Int
  validationStart : Int
  validationEnd : Int
  deriving DecidableEq

def WindowFields.named (given : WindowFields) : List (String × Int) :=
  [("index", given.index), ("train_start", given.trainStart), ("train_end", given.trainEnd),
    ("validation_start", given.validationStart), ("validation_end", given.validationEnd)]

theorem toNat_lt {m n : Int} (hn : 0 ≤ m) (h : m < n) : m.toNat < n.toNat :=
  (Int.toNat_lt_toNat (hn.trans_lt h)).mpr h

theorem WindowFields.starts_nonneg {given : WindowFields} (h : ¬ countErrors given.named ≠ []) :
    0 ≤ given.trainStart ∧ 0 ≤ given.validationStart := by
  rw [not_not, countErrors_eq_nil] at h
  exact ⟨h ("train_start", _) (by simp [named]), h ("validation_start", _) (by simp [named])⟩

def WalkForwardWindow.validate (given : WindowFields) : Except ValidationError WalkForwardWindow :=
  if hnamed : countErrors given.named ≠ [] then .error ⟨"WalkForwardWindow", countErrors given.named⟩
  else if hfollows : given.validationStart < given.trainEnd then
    .error ⟨"WalkForwardWindow",
      [("", .valueError "a validation window may not start before its training window ends")]⟩
  else if hempty : given.trainEnd ≤ given.trainStart ∨ given.validationEnd ≤ given.validationStart then
    .error ⟨"WalkForwardWindow", [("", .valueError "both windows must be non-empty")]⟩
  else
    have hstarts := given.starts_nonneg hnamed
    have hnonempty := not_or.mp hempty
    .ok
      { index := given.index.toNat
        trainStart := given.trainStart.toNat
        trainEnd := given.trainEnd.toNat
        validationStart := given.validationStart.toNat
        validationEnd := given.validationEnd.toNat
        train_before_validation := Int.toNat_le_toNat (not_lt.mp hfollows)
        train_nonempty := toNat_lt hstarts.1 (not_le.mp hnonempty.1)
        validation_nonempty := toNat_lt hstarts.2 (not_le.mp hnonempty.2) }

def WalkForwardWindow.fields (window : WalkForwardWindow) : WindowFields where
  index := window.index
  trainStart := window.trainStart
  trainEnd := window.trainEnd
  validationStart := window.validationStart
  validationEnd := window.validationEnd

theorem WalkForwardWindow.fields_of_validate {given : WindowFields} {window : WalkForwardWindow}
    (h : WalkForwardWindow.validate given = .ok window) : window.fields = given := by
  rw [validate] at h
  split at h
  · cases h
  · rename_i hnamed
    rw [not_not, countErrors_eq_nil] at hnamed
    simp only [WindowFields.named, List.forall_mem_cons] at hnamed
    obtain ⟨h₁, h₂, h₃, h₄, h₅, -⟩ := hnamed
    split at h
    · cases h
    · split at h
      · cases h
      · injection h with h
        rw [← h]
        simp only [fields, Int.toNat_of_nonneg, h₁, h₂, h₃, h₄, h₅]

theorem WalkForwardWindow.validate_fields (window : WalkForwardWindow) :
    WalkForwardWindow.validate window.fields = .ok window := by
  have hnamed : countErrors window.fields.named = [] :=
    countErrors_eq_nil.mpr (by simp [WindowFields.named, fields])
  have hfollows : ¬ window.fields.validationStart < window.fields.trainEnd := by
    simpa [fields] using window.train_before_validation
  have hnonempty : ¬ (window.fields.trainEnd ≤ window.fields.trainStart ∨
      window.fields.validationEnd ≤ window.fields.validationStart) := by
    simp [fields, window.train_nonempty, window.validation_nonempty]
  rw [validate, dif_neg (not_not.mpr hnamed), dif_neg hfollows, dif_neg hnonempty]
  rfl

/-- Just what makes a pair of windows is accepted, and it makes that pair. -/
theorem WalkForwardWindow.validate_ok_iff {given : WindowFields} {window : WalkForwardWindow} :
    WalkForwardWindow.validate given = .ok window ↔ window.fields = given := by
  constructor
  · exact fields_of_validate
  · rintro rfl
    exact window.validate_fields

/-! ### The functions, with all that can fail in them -/

namespace Validated

open WhileLoop Tiling

/-- Why no windows come back: for what was asked for, for what the decimal arithmetic signals, or because a
model refuses what it is made of. -/
inductive Failure
  | valueError (message : String)
  | signal (name : String)
  | validationError (error : ValidationError)
  deriving DecidableEq

/-- What the decimal arithmetic makes of an exact result: it rounds it, or it signals. -/
abbrev Context := Decimal → Except String Decimal

def Context.exact : Context := .ok

def int (value : Decimal) : Int := if 0 ≤ value then ⌊value⌋ else ⌈value⌉

def splitChronological (context : Context) (totalBars : Int) (trainFraction validationFraction : Decimal) :
    Except Failure DataSplit :=
  if totalBars ≤ 0 then .error (.valueError "cannot split an empty series")
  else if trainFraction ≤ 0 ∨ validationFraction ≤ 0 then
    .error (.valueError "train and validation fractions must be positive")
  else do
    let sum ← (context (trainFraction + validationFraction)).mapError .signal
    if 1 ≤ sum then .error (.valueError "fractions must leave a non-empty test window")
    else do
      let trainEnd := int (← (context (totalBars * trainFraction)).mapError .signal)
      let validationEnd := trainEnd + int (← (context (totalBars * validationFraction)).mapError .signal)
      if trainEnd ≤ 0 ∨ validationEnd ≤ trainEnd ∨ totalBars ≤ validationEnd then
        .error (.valueError
          s!"{totalBars} bars cannot be split into three non-empty windows at these fractions")
      else
        (DataSplit.validate
          { trainStart := 0
            trainEnd := trainEnd
            validationStart := trainEnd
            validationEnd := validationEnd
            testStart := validationEnd
            testEnd := totalBars
            totalBars := totalBars }).mapError .validationError

/-- What the loop over the windows keeps from one turn to the next. -/
structure Rolling where
  windows : List WalkForwardWindow
  start : Int
  index : Int

def fits (totalBars trainBars validationBars : Int) (rolling : Rolling) : Bool :=
  rolling.start + trainBars + validationBars ≤ totalBars

def turn (trainBars validationBars step : Int) (rolling : Rolling) : Except Failure Rolling := do
  let trainEnd := rolling.start + trainBars
  let window ← (WalkForwardWindow.validate
    { index := rolling.index
      trainStart := rolling.start
      trainEnd := trainEnd
      validationStart := trainEnd
      validationEnd := trainEnd + validationBars }).mapError .validationError
  return { windows := rolling.windows ++ [window], start := rolling.start + step, index := rolling.index + 1 }

def walkForwardWindows (totalBars trainBars validationBars : Int) (stepBars : Option Int) (fuel : Nat) :
    Option (Except Failure (List WalkForwardWindow)) :=
  if trainBars ≤ 0 ∨ validationBars ≤ 0 then some (.error (.valueError "both window sizes must be positive"))
  else
    let step := stepBars.getD validationBars
    if step ≤ 0 then some (.error (.valueError "step_bars must be positive"))
    else
      (run (fits totalBars trainBars validationBars) (turn trainBars validationBars step) fuel ⟨[], 0, 0⟩).map
        fun ended => ended.map Rolling.windows

section Split

variable {context : Context} {totalBars : Int}

/-- The windows of a split, from the oldest bars to the most recent. -/
def windows (split : DataSplit) : List (Int × Int) :=
  [(split.trainStart, split.trainEnd), (split.validationStart, split.validationEnd),
    (split.testStart, split.testEnd)]

/-- An answer that tiles the series, or a failure that no model is the reason of. -/
def Tiled (totalBars : Int) : Except Failure DataSplit → Prop
  | .error failure => ∀ refused, failure ≠ .validationError refused
  | .ok split => DataSplit.validate split.fields = .ok split ∧ split.totalBars = totalBars ∧
      Tiles 0 (windows split) totalBars

theorem tiled_valueError (message : String) : Tiled totalBars (.error (.valueError message)) := by
  intro refused h
  cases h

theorem tiled_round {value : Decimal} {k : Decimal → Except Failure DataSplit}
    (hk : ∀ rounded, Tiled totalBars (k rounded)) :
    Tiled totalBars ((context value).mapError .signal >>= k) := by
  cases context value with
  | error name =>
      intro refused h
      cases h
  | ok rounded => exact hk rounded

/-- Two cuts inside a series make a split of it. -/
theorem tiled_cut {trainEnd validationEnd : Int} (htrain : 0 < trainEnd)
    (hvalidation : trainEnd < validationEnd) (htest : validationEnd < totalBars) :
    Tiled totalBars ((DataSplit.validate
      ⟨0, trainEnd, trainEnd, validationEnd, validationEnd, totalBars, totalBars⟩).mapError .validationError) := by
  lift trainEnd to Nat using htrain.le
  lift validationEnd to Nat using (htrain.trans hvalidation).le
  lift totalBars to Nat using (htrain.trans (hvalidation.trans htest)).le
  let split : DataSplit :=
    { trainStart := 0
      trainEnd := trainEnd
      validationStart := trainEnd
      validationEnd := validationEnd
      testStart := validationEnd
      testEnd := totalBars
      totalBars := totalBars
      train_ordered := Nat.zero_le _
      train_before_validation := le_refl _
      validation_ordered := Int.ofNat_le.mp hvalidation.le
      validation_before_test := le_refl _
      test_ordered := Int.ofNat_le.mp htest.le
      test_within := le_refl _ }
  have hsplit : DataSplit.validate
      ⟨0, trainEnd, trainEnd, validationEnd, validationEnd, totalBars, totalBars⟩ = .ok split :=
    DataSplit.validate_ok_iff.mpr rfl
  rw [hsplit]
  exact ⟨split.validate_fields, rfl, .cons htrain (.cons hvalidation (.single htest))⟩

/-- Whatever the arithmetic rounds to, a series is split in windows that tile it, or not at all. -/
theorem splitChronological_tiled (context : Context) (totalBars : Int)
    (trainFraction validationFraction : Decimal) :
    Tiled totalBars (splitChronological context totalBars trainFraction validationFraction) := by
  rw [splitChronological]
  split
  · exact tiled_valueError _
  · split
    · exact tiled_valueError _
    · refine tiled_round fun sum => ?_
      split
      · exact tiled_valueError _
      · refine tiled_round fun trainShare => tiled_round fun validationShare => ?_
        dsimp only
        split
        · exact tiled_valueError _
        · rename_i hcuts
          rw [not_or, not_or, not_le, not_le, not_le] at hcuts
          exact tiled_cut hcuts.1 hcuts.2.1 hcuts.2.2

end Split

section Roll

variable {totalBars : Int} {trainBars validationBars step folds k : Nat}

/-- The pair of windows of one turn of the loop. -/
def foldAt (trainBars validationBars step : Int) (k : Nat) : WindowFields where
  index := k
  trainStart := k * step
  trainEnd := k * step + trainBars
  validationStart := k * step + trainBars
  validationEnd := k * step + trainBars + validationBars

/-- The turns for which the series has bars enough. -/
def foldCount (totalBars trainBars validationBars step : Int) : Nat :=
  ((totalBars - trainBars - validationBars) / step + 1).toNat

theorem lt_foldCount_iff {totalBars trainBars validationBars step : Int} (hstep : 0 < step) (k : Nat) :
    k < foldCount totalBars trainBars validationBars step ↔
      k * step + trainBars + validationBars ≤ totalBars := by
  have hturns : (k : Int) ≤ (totalBars - trainBars - validationBars) / step ↔
      k * step ≤ totalBars - trainBars - validationBars := Int.le_ediv_iff_mul_le hstep
  rw [foldCount, Int.lt_toNat, Int.lt_add_one_iff, hturns]
  constructor
  · intro h
    linarith
  · intro h
    linarith

theorem foldCount_le {totalBars : Nat} (htrain : 0 < trainBars) (hstep : 0 < step) :
    foldCount totalBars trainBars validationBars step ≤ totalBars := by
  by_contra hmore
  have hfits := (lt_foldCount_iff (Int.natCast_pos.mpr hstep) totalBars).mp (not_le.mp hmore)
  have hsteps := Nat.le_mul_of_pos_right totalBars hstep
  norm_cast at hfits
  omega

variable (htrain : 0 < trainBars) (hvalidation : 0 < validationBars)

/-- The windows of the turns before one. -/
def rolled (step k : Nat) : List WalkForwardWindow :=
  (List.range k).map fun turn => window htrain hvalidation (turn * step) turn

theorem fields_window (step k : Nat) :
    (window htrain hvalidation (k * step) k).fields = foldAt trainBars validationBars step k := by
  simp [window, WalkForwardWindow.fields, foldAt]

/-- A turn of the loop never fails, and adds its windows to those of the turns before. -/
theorem turn_rolled (step k : Nat) :
    turn trainBars validationBars step ⟨rolled htrain hvalidation step k, k * step, k⟩ =
      .ok ⟨rolled htrain hvalidation step (k + 1), (k + 1 : Nat) * step, (k + 1 : Nat)⟩ := by
  have hwindow : WalkForwardWindow.validate (foldAt trainBars validationBars step k) =
      .ok (window htrain hvalidation (k * step) k) :=
    WalkForwardWindow.validate_ok_iff.mpr (fields_window htrain hvalidation step k)
  have hturns : rolled htrain hvalidation step (k + 1) =
      rolled htrain hvalidation step k ++ [window htrain hvalidation (k * step) k] := by
    rw [rolled, rolled, List.range_succ, List.map_append]
    rfl
  have hstart : ((k + 1 : Nat) : Int) * step = k * step + step := by
    push_cast
    ring
  rw [hturns, hstart]
  simp only [turn]
  rw [foldAt] at hwindow
  rw [hwindow]
  rfl

theorem run_rolled
    (hfolds : ∀ k : Nat, k < folds ↔ (k * step + trainBars + validationBars : Int) ≤ totalBars) :
    run (fits totalBars trainBars validationBars) (turn trainBars validationBars step) (folds + 1)
      ⟨[], 0, 0⟩ = some (.ok ⟨rolled htrain hvalidation step folds, folds * step, folds⟩) := by
  have hzero : (⟨[], 0, 0⟩ : Rolling) =
      ⟨rolled htrain hvalidation step 0, (0 : Nat) * step, (0 : Nat)⟩ := by simp [rolled]
  rw [hzero]
  apply run_along (fun k : Nat => (⟨rolled htrain hvalidation step k, k * step, k⟩ : Rolling))
  · intro k hk
    exact ⟨decide_eq_true ((hfolds k).mp hk), turn_rolled htrain hvalidation step k⟩
  · exact decide_eq_false (mt (hfolds folds).mpr (lt_irrefl folds))

def validationWindow (window : WalkForwardWindow) : Nat × Nat :=
  (window.validationStart, window.validationEnd)

theorem map_validationWindow (step folds : Nat) :
    (rolled htrain hvalidation step folds).map validationWindow =
      stepped trainBars step validationBars folds := by
  rw [rolled, stepped, List.map_map]
  apply List.map_congr_left
  intro k _
  simp [validationWindow, window, Nat.add_comm]

theorem map_fields (step folds : Nat) : (rolled htrain hvalidation step folds).map WalkForwardWindow.fields =
    (List.range folds).map (foldAt trainBars validationBars step) := by
  rw [rolled, List.map_map]
  exact List.map_congr_left fun k _ => fields_window htrain hvalidation step k

/-- Steps no shorter than a validation window keep these windows apart. -/
theorem rolled_disjoint (hstep : validationBars ≤ step) (folds : Nat) :
    (rolled htrain hvalidation step folds).Pairwise fun v w =>
      Disjoint (Set.Ico v.validationStart v.validationEnd) (Set.Ico w.validationStart w.validationEnd) := by
  have hordered : (stepped trainBars step validationBars folds).Pairwise fun v w => v.2 ≤ w.1 :=
    stepped_ordered (Nat.zero_le step) hstep folds
  have hapart := disjoint_of_ordered hordered
  rw [← map_validationWindow htrain hvalidation, List.pairwise_map] at hapart
  exact hapart

end Roll

section Walk

variable {totalBars : Int} {stepBars : Option Int} {trainBars validationBars step fuel : Nat}

/-- The loop ends, with the windows of all the turns for which the series has bars enough. -/
theorem walkForwardWindows_rolled (htrain : 0 < trainBars) (hvalidation : 0 < validationBars)
    (hstep : 0 < step) (hstepBars : stepBars.getD validationBars = step)
    (hfuel : foldCount totalBars trainBars validationBars step < fuel) :
    walkForwardWindows totalBars trainBars validationBars stepBars fuel =
      some (.ok (rolled htrain hvalidation step (foldCount totalBars trainBars validationBars step))) := by
  have hrun := run_of_le
    (run_rolled htrain hvalidation fun k => lt_foldCount_iff (Int.natCast_pos.mpr hstep) k) hfuel
  rw [walkForwardWindows, if_neg (by omega), hstepBars, if_neg (by omega), hrun]
  rfl

/-- Without a step of its own, a rolling evaluation validates on windows that tile a stretch of the
series: every bar of it is validated on once. -/
theorem validation_windows_tile (htrain : 0 < trainBars) (hvalidation : 0 < validationBars)
    (hfuel : foldCount totalBars trainBars validationBars validationBars < fuel) :
    ∃ windows, walkForwardWindows totalBars trainBars validationBars none fuel = some (.ok windows) ∧
      Tiles trainBars (windows.map validationWindow)
        (trainBars + foldCount totalBars trainBars validationBars validationBars * validationBars) := by
  refine ⟨_, walkForwardWindows_rolled htrain hvalidation hvalidation rfl hfuel, ?_⟩
  rw [map_validationWindow]
  exact stepped_tiles hvalidation _

end Walk

/-- The windows of a split tile the series. Those of a rolling evaluation are the ones that start a
whole number of steps in and for which the series has bars enough. -/
theorem evaluation_windows_tile (totalBars : Int) :
    (∀ (context : Context) (trainFraction validationFraction : Decimal),
      (∃ failure, splitChronological context totalBars trainFraction validationFraction = .error failure ∧
        ∀ refused, failure ≠ .validationError refused) ∨
      ∃ split, splitChronological context totalBars trainFraction validationFraction = .ok split ∧
        DataSplit.validate split.fields = .ok split ∧ Tiles 0 (windows split) totalBars ∧
        ∀ bar, 0 ≤ bar → bar < totalBars → ∃! w, w ∈ windows split ∧ w.1 ≤ bar ∧ bar < w.2) ∧
    ∀ (trainBars validationBars : Int) (stepBars : Option Int), 0 < trainBars → 0 < validationBars →
      0 < stepBars.getD validationBars →
      ∃ (enough folds : Nat) (windows : List WalkForwardWindow),
        (∀ fuel, enough ≤ fuel →
          walkForwardWindows totalBars trainBars validationBars stepBars fuel = some (.ok windows)) ∧
        (∀ k : Nat, k < folds ↔ k * stepBars.getD validationBars + trainBars + validationBars ≤ totalBars) ∧
        windows.map WalkForwardWindow.fields =
          (List.range folds).map (foldAt trainBars validationBars (stepBars.getD validationBars)) ∧
        (∀ w ∈ windows, WalkForwardWindow.validate w.fields = .ok w ∧ w.validationStart = w.trainEnd) ∧
        (validationBars ≤ stepBars.getD validationBars → windows.Pairwise fun v w =>
          Disjoint (Set.Ico v.validationStart v.validationEnd) (Set.Ico w.validationStart w.validationEnd)) := by
  constructor
  · intro context trainFraction validationFraction
    have htiled := splitChronological_tiled context totalBars trainFraction validationFraction
    cases hsplit : splitChronological context totalBars trainFraction validationFraction with
    | error failure =>
        rw [hsplit] at htiled
        exact .inl ⟨failure, rfl, htiled⟩
    | ok split =>
        rw [hsplit] at htiled
        obtain ⟨hvalid, -, htiles⟩ := htiled
        exact .inr ⟨split, rfl, hvalid, htiles, fun bar hlo hhi => htiles.existsUnique hlo hhi⟩
  · intro trainBars validationBars stepBars htrain hvalidation hstep
    obtain ⟨step, hstepBars⟩ := Int.eq_ofNat_of_zero_le hstep.le
    lift trainBars to Nat using htrain.le
    lift validationBars to Nat using hvalidation.le
    rw [hstepBars] at hstep ⊢
    rw [Int.natCast_pos] at htrain hvalidation hstep
    refine ⟨foldCount totalBars trainBars validationBars step + 1,
      foldCount totalBars trainBars validationBars step,
      rolled htrain hvalidation step (foldCount totalBars trainBars validationBars step), ?_, ?_, ?_, ?_, ?_⟩
    · intro fuel hfuel
      exact walkForwardWindows_rolled htrain hvalidation hstep hstepBars hfuel
    · exact lt_foldCount_iff (Int.natCast_pos.mpr hstep)
    · exact map_fields htrain hvalidation step _
    · intro w hw
      obtain ⟨k, -, rfl⟩ := List.mem_map.mp hw
      exact ⟨WalkForwardWindow.validate_fields _, rfl⟩
    · intro hwide
      exact rolled_disjoint htrain hvalidation (Int.ofNat_le.mp hwide) _

theorem evaluation_windows_tile_hundred :
    (∃ split, splitChronological .exact 100 (6 / 10) (2 / 10) = .ok split ∧ Tiles 0 (windows split) 100) ∧
      ∃ (enough : Nat) (windows : List WalkForwardWindow),
        (∀ fuel, enough ≤ fuel → walkForwardWindows 100 40 20 none fuel = some (.ok windows)) ∧
        windows.map WalkForwardWindow.fields =
          [⟨0, 0, 40, 40, 60⟩, ⟨1, 20, 60, 60, 80⟩, ⟨2, 40, 80, 80, 100⟩] ∧
        windows.Pairwise fun v w =>
          Disjoint (Set.Ico v.validationStart v.validationEnd) (Set.Ico w.validationStart w.validationEnd) := by
  obtain ⟨hsplit, hrolling⟩ := evaluation_windows_tile 100
  constructor
  · rcases hsplit .exact (6 / 10) (2 / 10) with ⟨failure, hfailure, -⟩ | ⟨split, hsplit, -, htiles, -⟩
    · have hanswers : (splitChronological .exact 100 (6 / 10) (2 / 10)).isOk = true := by decide +kernel
      rw [hfailure] at hanswers
      cases hanswers
    · exact ⟨split, hsplit, htiles⟩
  · obtain ⟨enough, folds, windows, hruns, hfolds, hfields, -, hdisjoint⟩ :=
      hrolling 40 20 none (by decide) (by decide) (by decide)
    have hthree : folds = 3 := by
      have htwo := (hfolds 2).mpr (by decide)
      have hmore := mt (hfolds 3).mp (by decide)
      omega
    rw [hthree] at hfields
    exact ⟨enough, windows, hruns, hfields, hdisjoint (by decide)⟩

/-! ### The functions without what cannot fail in them -/

section Exact

variable {totalBars : Nat} {trainFraction validationFraction : Decimal}

theorem int_floor {value : Decimal} (h : 0 ≤ value) : int value = (⌊value⌋₊ : Int) := by
  rw [int, if_pos h, Int.natCast_floor_eq_floor h]

theorem share_nonneg (totalBars : Nat) {fraction : Decimal} (h : 0 < fraction) : 0 ≤ (totalBars : Decimal) * fraction :=
  mul_nonneg (Nat.cast_nonneg totalBars) h.le

theorem bind_exact (value : Decimal) (k : Decimal → Except Failure DataSplit) :
    ((Context.exact value).mapError .signal >>= k) = k value := rfl

/-- In exact arithmetic a series is split as where the windows are known to be in order. -/
theorem splitChronological_exact (totalBars : Nat) (trainFraction validationFraction : Decimal) :
    splitChronological .exact totalBars trainFraction validationFraction =
      (Optimize.splitChronological totalBars trainFraction validationFraction).mapError .valueError := by
  rw [splitChronological, Optimize.splitChronological]
  by_cases hempty : totalBars = 0
  · rw [if_pos (by omega), if_pos hempty]
    rfl
  rw [if_neg (by omega), if_neg hempty]
  by_cases hfractions : trainFraction ≤ 0 ∨ validationFraction ≤ 0
  · rw [if_pos hfractions, if_pos hfractions]
    rfl
  rw [if_neg hfractions, if_neg hfractions, bind_exact]
  rw [not_or, not_le, not_le] at hfractions
  by_cases hsum : 1 ≤ trainFraction + validationFraction
  · rw [if_pos hsum, if_pos hsum]
    rfl
  rw [if_neg hsum, if_neg hsum, bind_exact, bind_exact, Int.cast_natCast,
    int_floor (share_nonneg totalBars hfractions.1), int_floor (share_nonneg totalBars hfractions.2)]
  dsimp only
  by_cases hcuts : ⌊(totalBars : Decimal) * trainFraction⌋₊ = 0 ∨
      ⌊(totalBars : Decimal) * trainFraction⌋₊ + ⌊(totalBars : Decimal) * validationFraction⌋₊ ≤
        ⌊(totalBars : Decimal) * trainFraction⌋₊ ∨
      totalBars ≤ ⌊(totalBars : Decimal) * trainFraction⌋₊ + ⌊(totalBars : Decimal) * validationFraction⌋₊
  · rw [if_pos (by omega), dif_pos hcuts]
    rfl
  · rw [if_neg (by omega), dif_neg hcuts]
    refine congrArg (Except.mapError Failure.validationError) (DataSplit.validate_ok_iff.mpr ?_)
    simp [DataSplit.fields]

/-- What the two shares come to leaves a bar for the test window. -/
theorem shares_lt (htotal : 0 < totalBars) (htrain : 0 < trainFraction) (hvalidation : 0 < validationFraction)
    (hsum : trainFraction + validationFraction < 1) :
    ⌊(totalBars : Decimal) * trainFraction⌋₊ + ⌊(totalBars : Decimal) * validationFraction⌋₊ < totalBars := by
  have hbars : (0 : Decimal) < totalBars := Nat.cast_pos.mpr htotal
  have htrainEnd := Nat.floor_le (share_nonneg totalBars htrain)
  have hvalidationEnd := Nat.floor_le (share_nonneg totalBars hvalidation)
  have hshares : (totalBars : Decimal) * (trainFraction + validationFraction) < totalBars * 1 :=
    mul_lt_mul_of_pos_left hsum hbars
  rw [← Nat.cast_lt (α := Decimal)]
  push_cast
  linarith

/-- A series is split just where the training and the validation share come to a bar each. -/
theorem splitChronological_ok_iff :
    (∃ split, Optimize.splitChronological totalBars trainFraction validationFraction = .ok split) ↔
      0 < trainFraction ∧ 0 < validationFraction ∧ trainFraction + validationFraction < 1 ∧
        1 ≤ totalBars * trainFraction ∧ 1 ≤ totalBars * validationFraction := by
  constructor
  · rintro ⟨split, h⟩
    rw [Optimize.splitChronological] at h
    split at h
    · cases h
    split at h
    · cases h
    rename_i hfractions
    rw [not_or, not_le, not_le] at hfractions
    split at h
    · cases h
    rename_i hsum
    dsimp only at h
    split at h
    · cases h
    rename_i hcuts
    refine ⟨hfractions.1, hfractions.2, not_le.mp hsum, ?_, ?_⟩
    · exact Nat.floor_pos.mp (by omega)
    · exact Nat.floor_pos.mp (by omega)
  · rintro ⟨htrain, hvalidation, hsum, htrainBar, hvalidationBar⟩
    have hempty : totalBars ≠ 0 := by
      rintro rfl
      rw [Nat.cast_zero, zero_mul] at htrainBar
      linarith
    have htrainEnd := Nat.floor_pos.mpr htrainBar
    have hvalidationEnd := Nat.floor_pos.mpr hvalidationBar
    have htest := shares_lt (Nat.pos_of_ne_zero hempty) htrain hvalidation hsum
    rw [Optimize.splitChronological, if_neg hempty, if_neg (not_or.mpr ⟨htrain.not_ge, hvalidation.not_ge⟩),
      if_neg hsum.not_ge]
    dsimp only
    rw [dif_neg (by omega)]
    exact ⟨_, rfl⟩

end Exact

section Rolled

variable {trainBars validationBars step folds start index fuel totalBars : Nat} (htrain : 0 < trainBars)
  (hvalidation : 0 < validationBars)

/-- The loop over natural numbers comes to the same windows. -/
theorem roll_eq (hfolds : ∀ k, k < folds ↔ start + k * step + trainBars + validationBars ≤ totalBars)
    (hfuel : folds < fuel) : roll htrain hvalidation totalBars step fuel start index =
      (List.range folds).map fun k => window htrain hvalidation (start + k * step) (index + k) := by
  induction folds generalizing start index fuel with
  | zero =>
      have hpast : ¬ start + trainBars + validationBars ≤ totalBars := by
        simpa using (hfolds 0).not.mp (lt_irrefl 0)
      obtain ⟨fuel, rfl⟩ := Nat.exists_eq_succ_of_ne_zero hfuel.ne'
      rw [roll, if_neg hpast]
      rfl
  | succ folds ih =>
      have hfirst : start + trainBars + validationBars ≤ totalBars := by
        simpa using (hfolds 0).mp (Nat.succ_pos folds)
      have hrest : ∀ k, k < folds ↔ start + step + k * step + trainBars + validationBars ≤ totalBars := by
        intro k
        rw [← Nat.succ_lt_succ_iff, hfolds (k + 1), Nat.succ_mul]
        omega
      obtain ⟨fuel, rfl⟩ := Nat.exists_eq_succ_of_ne_zero (Nat.ne_zero_of_lt hfuel)
      rw [roll, if_pos hfirst, ih hrest (Nat.succ_lt_succ_iff.mp hfuel), List.range_succ_eq_map,
        List.map_cons, List.map_map]
      refine congrArg₂ List.cons (by simp) (List.map_congr_left fun k _ => ?_)
      simp only [Function.comp_apply, Nat.succ_mul, Nat.add_assoc, Nat.add_comm, Nat.add_left_comm,
        Nat.succ_eq_add_one]

theorem rolled_eq_roll (hstep : 0 < step) :
    rolled htrain hvalidation step (foldCount totalBars trainBars validationBars step) =
      roll htrain hvalidation totalBars step (totalBars + 1) 0 0 := by
  have hfolds : ∀ k, k < foldCount totalBars trainBars validationBars step ↔
      0 + k * step + trainBars + validationBars ≤ totalBars := by
    intro k
    rw [lt_foldCount_iff (Int.natCast_pos.mpr hstep), Nat.zero_add]
    norm_cast
  rw [roll_eq htrain hvalidation hfolds (Nat.lt_succ_of_le (foldCount_le htrain hstep)), rolled]
  refine List.map_congr_left fun k _ => ?_
  rw [Nat.zero_add, Nat.zero_add]

/-- A series is rolled over as where the windows are known to be in order, and the loop needs no more
turns than the series has bars. -/
theorem walkForwardWindows_exact (totalBars : Nat) (trainBars validationBars : Int) (stepBars : Option Int)
    (hfuel : totalBars < fuel) : walkForwardWindows totalBars trainBars validationBars stepBars fuel =
      some ((Optimize.walkForwardWindows totalBars trainBars validationBars stepBars).mapError
        .valueError) := by
  by_cases hsizes : trainBars ≤ 0 ∨ validationBars ≤ 0
  · rw [walkForwardWindows, Optimize.walkForwardWindows, if_pos hsizes, dif_pos hsizes]
    rfl
  by_cases hstep : stepBars.getD validationBars ≤ 0
  · rw [walkForwardWindows, Optimize.walkForwardWindows, if_neg hsizes, dif_neg hsizes]
    dsimp only
    rw [if_pos hstep, if_pos hstep]
    rfl
  rw [not_or, not_le, not_le] at hsizes
  rw [not_le] at hstep
  obtain ⟨step, hstepBars⟩ := Int.eq_ofNat_of_zero_le hstep.le
  lift trainBars to Nat using hsizes.1.le
  lift validationBars to Nat using hsizes.2.le
  rw [hstepBars, Int.natCast_pos] at hstep
  rw [Int.natCast_pos, Int.natCast_pos] at hsizes
  have hturns : foldCount totalBars trainBars validationBars step < fuel :=
    (foldCount_le hsizes.1 hstep).trans_lt hfuel
  rw [walkForwardWindows_rolled hsizes.1 hsizes.2 hstep hstepBars hturns,
    rolled_eq_roll hsizes.1 hsizes.2 hstep, Optimize.walkForwardWindows, dif_neg (by omega)]
  dsimp only
  rw [if_neg (by omega)]
  simp only [hstepBars, Int.toNat_natCast]
  rfl

end Rolled

end Validated

end Aetheris.Optimize
