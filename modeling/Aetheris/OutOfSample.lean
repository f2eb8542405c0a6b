import Aetheris.BacktestCausality
import Aetheris.Lib.Raising
import Aetheris.Optimize

namespace Aetheris.Optimize

open Lib Money PaperRecords Indicators TrendMomentum Backtest

section Windows

/-- Two series have the same bars in a window. -/
def AgreeOn (start stop : Nat) (candles other : List Candle) : Prop :=
  ∀ i, start ≤ i → i < stop → candles[i]? = other[i]?

variable {candles other : List Candle} {start stop : Nat}

theorem slice_eq_of_agreeOn (h : AgreeOn start stop candles other) : slice candles start stop = slice other start stop := by
  apply List.ext_getElem?
  intro i
  rw [slice, slice, List.getElem?_drop, List.getElem?_drop, List.getElem?_take, List.getElem?_take]
  split
  · exact h (start + i) (Nat.le_add_right _ _) ‹_›
  · rfl

theorem agreeOn_append (h : stop ≤ candles.length) (more : List Candle) : AgreeOn start stop candles (candles ++ more) :=
  fun _ _ hi => (List.getElem?_append_left (hi.trans_le h)).symm

end Windows

section Loops

variable {step maximum current : Decimal} {fuel : Nat}

/-- The loop over the values of a grid has ended once its steps reach past the maximum. -/
theorem ladder_done (h : maximum < current + fuel * step) (n : Nat) :
    ladder step maximum (fuel + n) current = ladder step maximum fuel current := by
  induction fuel generalizing current with
  | zero =>
      have hpast : ¬ current ≤ maximum := by simpa using h
      cases n with
      | zero => rfl
      | succ n => simp [ladder, hpast]
  | succ fuel ih =>
      have hrest : maximum < current + step + fuel * step := by
        push_cast at h
        linarith
      rw [Nat.add_right_comm, ladder, ladder, ih hrest]

/-- The grid has all the values that the loop over them comes to. -/
theorem values_done (spec : ParameterSpec) (n : Nat) :
    ladder spec.step spec.maximum (⌊(spec.maximum - spec.minimum) / spec.step⌋₊ + 1 + n) spec.minimum =
      ladder spec.step spec.maximum (⌊(spec.maximum - spec.minimum) / spec.step⌋₊ + 1) spec.minimum := by
  refine ladder_done ?_ n
  have hsteps := Nat.lt_floor_add_one ((spec.maximum - spec.minimum) / spec.step)
  have hreach := (div_lt_iff₀ spec.step_pos).mp hsteps
  push_cast
  linarith

variable {trainBars validationBars : Nat} {htrain : 0 < trainBars} {hvalidation : 0 < validationBars}
  {totalBars totalBars' step start index k fuel fuel' : Nat}

/-- The loop over the windows has ended once its starts reach past the series. -/
theorem roll_done (h : totalBars < start + fuel * step) (n : Nat) :
    roll htrain hvalidation totalBars step (fuel + n) start index =
      roll htrain hvalidation totalBars step fuel start index := by
  induction fuel generalizing start index with
  | zero =>
      have hpast : ¬ start + trainBars + validationBars ≤ totalBars := by omega
      cases n with
      | zero => rfl
      | succ n => simp [roll, hpast]
  | succ fuel ih =>
      have hrest : totalBars < start + step + fuel * step := by
        rw [Nat.succ_mul] at h
        omega
      rw [Nat.add_right_comm, roll, roll, ih hrest]

theorem roll_getElem? {w : WalkForwardWindow} (h : (roll htrain hvalidation totalBars step fuel start index)[k]? = some w) :
    w = window htrain hvalidation (start + k * step) (index + k) ∧ w.validationEnd ≤ totalBars := by
  induction fuel generalizing start index k with
  | zero => cases h
  | succ fuel ih =>
      rw [roll] at h
      split at h
      · cases k with
        | zero =>
            obtain rfl := Option.some.inj h
            exact ⟨by simp, ‹_›⟩
        | succ k =>
            obtain ⟨hw, hend⟩ := ih h
            refine ⟨?_, hend⟩
            rw [hw, Nat.succ_mul, Nat.add_assoc start, Nat.add_comm step, Nat.add_right_comm index, Nat.add_assoc index]
      · cases h

/-- A longer series is rolled over in the same windows, and perhaps in more. -/
theorem roll_prefix (hfuel : fuel ≤ fuel') (htotal : totalBars ≤ totalBars') :
    roll htrain hvalidation totalBars step fuel start index <+:
      roll htrain hvalidation totalBars' step fuel' start index := by
  induction fuel generalizing fuel' start index with
  | zero => exact List.nil_prefix
  | succ fuel ih =>
      obtain ⟨rest, rfl⟩ := Nat.exists_eq_add_of_le hfuel
      rw [Nat.add_right_comm, roll, roll]
      split
      · rw [if_pos (by omega)]
        exact List.prefix_cons_inj _ |>.mpr (ih (Nat.le_add_right _ _))
      · exact List.nil_prefix

end Loops

section Rolling

variable {totalBars totalBars' k : Nat} {trainBars validationBars : Int} {stepBars : Option Int}
  {windows windows' : List WalkForwardWindow} {w w' : WalkForwardWindow}

theorem windows_eq (h : walkForwardWindows totalBars trainBars validationBars stepBars = .ok windows) :
    ∃ (htrain : 0 < trainBars.toNat) (hvalidation : 0 < validationBars.toNat),
      windows = roll htrain hvalidation totalBars (stepBars.getD validationBars).toNat (totalBars + 1) 0 0 ∧
        0 < (stepBars.getD validationBars).toNat := by
  rw [walkForwardWindows] at h
  split at h
  · cases h
  · dsimp only at h
    split at h
    · cases h
    · injection h with h
      exact ⟨by omega, by omega, h.symm, by omega⟩

/-- No window is left out: the loop has ended when the series does. -/
theorem windows_complete (h : walkForwardWindows totalBars trainBars validationBars stepBars = .ok windows) (n : Nat) :
    ∃ (htrain : 0 < trainBars.toNat) (hvalidation : 0 < validationBars.toNat),
      windows = roll htrain hvalidation totalBars (stepBars.getD validationBars).toNat (totalBars + 1 + n) 0 0 := by
  obtain ⟨htrain, hvalidation, rfl, hstep⟩ := windows_eq h
  refine ⟨htrain, hvalidation, (roll_done ?_ n).symm⟩
  have hreach := Nat.mul_le_mul_left (totalBars + 1) hstep
  omega

theorem windows_within (h : walkForwardWindows totalBars trainBars validationBars stepBars = .ok windows) :
    ∀ w ∈ windows, w.validationEnd ≤ totalBars := by
  obtain ⟨htrain, hvalidation, rfl, -⟩ := windows_eq h
  intro w hw
  obtain ⟨k, hk⟩ := List.mem_iff_getElem?.mp hw
  exact (roll_getElem? hk).2

/-- Where a window lies does not depend on the series. -/
theorem windows_same (h : walkForwardWindows totalBars trainBars validationBars stepBars = .ok windows)
    (h' : walkForwardWindows totalBars' trainBars validationBars stepBars = .ok windows') (hk : windows[k]? = some w)
    (hk' : windows'[k]? = some w') : w = w' := by
  obtain ⟨htrain, hvalidation, rfl, -⟩ := windows_eq h
  obtain ⟨_, _, rfl, -⟩ := windows_eq h'
  rw [(roll_getElem? hk).1, (roll_getElem? hk').1]

theorem windows_prefix (h : walkForwardWindows totalBars trainBars validationBars stepBars = .ok windows)
    (h' : walkForwardWindows totalBars' trainBars validationBars stepBars = .ok windows') (hle : totalBars ≤ totalBars') :
    windows <+: windows' := by
  obtain ⟨htrain, hvalidation, rfl, -⟩ := windows_eq h
  obtain ⟨_, _, rfl, -⟩ := windows_eq h'
  exact roll_prefix (Nat.succ_le_succ hle) hle

end Rolling

section Choices

variable {timeframe : Timeframe} {settings : BacktestConfig} {candles other : List Candle} {ordered : List ParameterSpec}
  {window : WalkForwardWindow} {fold fold' : WalkForwardFold}

/-- The fold of a window, with what is chosen on its training bars. -/
def foldWith (timeframe : Timeframe) (settings : BacktestConfig) (candles : List Candle) (window : WalkForwardWindow)
    (selection : Selection) (params : TrendMomentumParams) : WalkForwardFold :=
  let metrics := evaluate timeframe settings (slice candles window.validationStart window.validationEnd) params
  { window := window
    selected := selection.values
    trainScore := selection.score
    validationScore := scoreObjective metrics
    validationMetrics := metrics
    candidatesEvaluated := selection.evaluated }

theorem better_cases (best : Option (Values × TrialScore)) (candidate : Values × TrialScore) :
    better best candidate = some candidate ∨ ∃ found, best = some found ∧ better best candidate = some found := by
  cases best with
  | none => exact .inl rfl
  | some found =>
      rw [better]
      split
      · exact .inl rfl
      · exact .inr ⟨found, rfl, rfl⟩

/-- What is found in the end is one of the candidates, or was found before them. -/
theorem foldl_better (best : Option (Values × TrialScore)) (scored : List (Values × TrialScore)) :
    scored.foldl better best = best ∨ ∃ c ∈ scored, scored.foldl better best = some c := by
  induction scored generalizing best with
  | nil => exact .inl rfl
  | cons first rest ih =>
      rw [List.foldl_cons]
      rcases ih (better best first) with hrest | ⟨c, hc, hrest⟩
      · rcases better_cases best first with hfirst | ⟨found, rfl, hfirst⟩
        · exact .inr ⟨first, List.mem_cons_self, hrest.trans hfirst⟩
        · exact .inl (hrest.trans hfirst)
      · exact .inr ⟨c, List.mem_cons_of_mem _ hc, hrest⟩

theorem highest_mem {scored : List (Values × TrialScore)} (h : scored ≠ []) : ∃ c ∈ scored, highest scored = some c := by
  cases scored with
  | nil => exact absurd rfl h
  | cons first rest =>
      rcases foldl_better (some first) rest with hrest | ⟨c, hc, hrest⟩
      · exact ⟨first, List.mem_cons_self, hrest⟩
      · exact ⟨c, List.mem_cons_of_mem _ hc, hrest⟩

theorem buildParams_candidate : ∀ c ∈ candidates ordered, buildParams c.1 = some c.2 := by
  intro c hc
  obtain ⟨combination, -, hvalue⟩ := List.mem_filterMap.mp hc
  obtain ⟨params, hparams, rfl⟩ := Option.map_eq_some_iff.mp hvalue
  exact hparams

/-- What is chosen is one of the candidates, and there is a choice where there is a candidate. -/
theorem selectOn_cases (timeframe : Timeframe) (settings : BacktestConfig) (candles : List Candle)
    (ordered : List ParameterSpec) :
    (candidates ordered = [] ∧ selectOn timeframe settings candles ordered = none) ∨
      (candidates ordered ≠ [] ∧ ∃ selection params, selectOn timeframe settings candles ordered = some selection ∧
        buildParams selection.values = some params) := by
  by_cases hnone : candidates ordered = []
  · refine .inl ⟨hnone, ?_⟩
    rw [selectOn, hnone]
    rfl
  · refine .inr ⟨hnone, ?_⟩
    obtain ⟨c, hmem, hc⟩ := highest_mem (mt List.map_eq_nil_iff.mp hnone :
      (candidates ordered).map (fun candidate =>
        (candidate.1, scoreObjective (evaluate timeframe settings candles candidate.2))) ≠ [])
    obtain ⟨candidate, hcandidate, rfl⟩ := List.mem_map.mp hmem
    have hselection : selectOn timeframe settings candles ordered = some
        { values := candidate.1
          score := scoreObjective (evaluate timeframe settings candles candidate.2)
          evaluated := (candidates ordered).length } := by
      rw [selectOn, hc]
      rfl
    exact ⟨_, candidate.2, hselection, buildParams_candidate candidate hcandidate⟩

/-- Every window has a fold, or none has one. -/
theorem foldOf_cases (timeframe : Timeframe) (settings : BacktestConfig) (candles : List Candle)
    (ordered : List ParameterSpec) (window : WalkForwardWindow) :
    (candidates ordered = [] ∧ foldOf timeframe settings candles ordered window = none) ∨
      (candidates ordered ≠ [] ∧ ∃ fold, foldOf timeframe settings candles ordered window = some fold) := by
  rcases selectOn_cases timeframe settings (slice candles window.trainStart window.trainEnd) ordered with
    ⟨hnone, hselection⟩ | ⟨hsome, selection, params, hselection, hparams⟩
  · refine .inl ⟨hnone, ?_⟩
    rw [foldOf, hselection]
    rfl
  · refine .inr ⟨hsome, ?_⟩
    rw [foldOf, hselection, Option.bind_eq_bind, Option.bind_some, hparams]
    exact ⟨_, rfl⟩

theorem foldOf_eq (h : foldOf timeframe settings candles ordered window = some fold) :
    ∃ selection params,
      selectOn timeframe settings (slice candles window.trainStart window.trainEnd) ordered = some selection ∧
        buildParams selection.values = some params ∧
          fold = foldWith timeframe settings candles window selection params := by
  obtain ⟨selection, hselection, hrest⟩ := Option.bind_eq_some_iff.mp h
  obtain ⟨params, hparams, hfold⟩ := Option.bind_eq_some_iff.mp hrest
  exact ⟨selection, params, hselection, hparams, (Option.some.inj hfold).symm⟩

end Choices

section Runs

variable {timeframe : Timeframe} {settings : BacktestConfig} {candles other : List Candle}
  {space : Option (List ParameterSpec)} {split : Option DataSplit} {maxCombinations maxFolds k : Nat}
  {trainBars validationBars : Int} {stepBars : Option Int}

/-- What a search that does not raise reports of its windows. -/
structure Searched (timeframe : Timeframe) (settings : BacktestConfig) (candles : List Candle)
    (space : Option (List ParameterSpec)) (split : Option DataSplit) (report : OptimizationReport) : Prop where
  split : partitionOf split candles.length = .ok report.split
  trials : report.trials = (candidates (orderedBy (space.getD defaultParameterSpace))).map
    (trialOf timeframe settings (slice candles report.split.trainStart report.split.trainEnd)
      (slice candles report.split.validationStart report.split.validationEnd))
  best : report.best = bestOf report.trials
  testMetrics : report.testMetrics = (report.best.bind fun best => buildParams best.parameters).bind
    (evaluate timeframe settings (slice candles report.split.testStart report.split.testEnd))
  testScore : report.testScore = (report.best.bind fun best => buildParams best.parameters).map fun params =>
    scoreObjective (evaluate timeframe settings (slice candles report.split.testStart report.split.testEnd) params)

theorem searched {report : OptimizationReport}
    (h : optimize timeframe settings candles space split maxCombinations = .ok report) :
    Searched timeframe settings candles space split report := by
  rw [optimize] at h
  dsimp only at h
  split at h
  · cases h
  · split at h
    · cases h
    · cases hsplit : partitionOf split candles.length with
      | error e =>
          rw [hsplit] at h
          cases h
      | ok partition =>
          rw [hsplit] at h
          change (if _ then _ else _) = _ at h
          split at h
          · cases h
          · obtain rfl := Except.ok.inj h
            exact ⟨hsplit, rfl, rfl, rfl, rfl⟩

/-- Whether a search raises is a matter of the number of bars. -/
theorem optimize_answers {report : OptimizationReport} (hlength : candles.length = other.length)
    (h : optimize timeframe settings candles space split maxCombinations = .ok report) :
    ∃ report', optimize timeframe settings other space split maxCombinations = .ok report' := by
  rw [optimize] at h ⊢
  dsimp only at h ⊢
  rw [hlength] at h
  split at h
  · cases h
  · rw [if_neg ‹_›]
    split at h
    · cases h
    · rw [if_neg ‹_›]
      cases hsplit : partitionOf split other.length with
      | error e =>
          rw [hsplit] at h
          cases h
      | ok partition =>
          rw [hsplit] at h
          change (if _ then _ else _) = _ at h
          split at h
          · cases h
          · rename_i hbars
            exact ⟨_, if_neg hbars⟩

theorem walked {report : WalkForwardReport}
    (h : walkForward timeframe settings candles trainBars validationBars stepBars space maxCombinations maxFolds =
      .ok report) :
    ∃ windows, walkForwardWindows candles.length trainBars validationBars stepBars = .ok windows ∧
      report.folds =
        windows.filterMap (foldOf timeframe settings candles (orderedBy (space.getD defaultParameterSpace))) := by
  rw [walkForward] at h
  dsimp only at h
  split at h
  · cases h
  · split at h
    · cases h
    · cases hwindows : walkForwardWindows candles.length trainBars validationBars stepBars with
      | error e =>
          rw [hwindows] at h
          cases h
      | ok windows =>
          rw [hwindows] at h
          change (if _ then _ else _) = _ at h
          split at h
          · cases h
          · obtain rfl := Except.ok.inj h
            exact ⟨windows, rfl, rfl⟩

theorem getElem?_filterMap {α β : Type} {f : α → Option β} {c : Prop}
    (h : ∀ x, (c ∧ f x = none) ∨ (¬ c ∧ ∃ y, f x = some y)) (xs : List α) (k : Nat) :
    (xs.filterMap f)[k]? = xs[k]?.bind f := by
  by_cases hc : c
  · have hnone (x : α) : f x = none := (h x).elim And.right fun h => absurd hc h.1
    have hempty : xs.filterMap f = [] := List.filterMap_eq_nil_iff.mpr fun x _ => hnone x
    rw [hempty]
    cases xs[k]? with
    | none => rfl
    | some x => exact (hnone x).symm
  · induction xs generalizing k with
    | nil => rfl
    | cons x xs ih =>
        obtain ⟨y, hy⟩ := (h x).elim (fun h => absurd h.1 hc) And.right
        rw [List.filterMap_cons_some hy]
        cases k with
        | zero => exact hy.symm
        | succ k => exact ih k

/-- A fold of a report is the fold of the window at its place. -/
theorem fold_at {report : WalkForwardReport} {fold : WalkForwardFold}
    (h : walkForward timeframe settings candles trainBars validationBars stepBars space maxCombinations maxFolds =
      .ok report) (hk : report.folds[k]? = some fold) :
    ∃ windows window, walkForwardWindows candles.length trainBars validationBars stepBars = .ok windows ∧
      windows[k]? = some window ∧
        foldOf timeframe settings candles (orderedBy (space.getD defaultParameterSpace)) window = some fold := by
  obtain ⟨windows, hwindows, hfolds⟩ := walked h
  rw [hfolds, getElem?_filterMap (foldOf_cases timeframe settings candles _)] at hk
  obtain ⟨window, hwindow, hfold⟩ := Option.bind_eq_some_iff.mp hk
  exact ⟨windows, window, hwindows, hwindow, hfold⟩

/-- A fold depends on the bars of its window only. -/
theorem foldOf_congr {ordered : List ParameterSpec} {window : WalkForwardWindow}
    (htrain : AgreeOn window.trainStart window.trainEnd candles other)
    (hvalidation : AgreeOn window.validationStart window.validationEnd candles other) :
    foldOf timeframe settings candles ordered window = foldOf timeframe settings other ordered window := by
  rw [foldOf, foldOf, slice_eq_of_agreeOn htrain, slice_eq_of_agreeOn hvalidation]

/-- What is chosen in a fold is chosen on the bars of its training window, and is scored on the bars after it. -/
theorem fold_unseen {ordered : List ParameterSpec} {window : WalkForwardWindow} {fold fold' : WalkForwardFold}
    (h : foldOf timeframe settings candles ordered window = some fold)
    (h' : foldOf timeframe settings other ordered window = some fold') :
    fold.window = fold'.window ∧
      (AgreeOn fold.window.trainStart fold.window.trainEnd candles other →
        fold.selected = fold'.selected ∧ fold.trainScore = fold'.trainScore ∧
          fold.candidatesEvaluated = fold'.candidatesEvaluated) ∧
      (AgreeOn fold.window.validationStart fold.window.validationEnd candles other → fold.selected = fold'.selected →
        fold.validationScore = fold'.validationScore ∧ fold.validationMetrics = fold'.validationMetrics) := by
  obtain ⟨selection, params, hselection, hparams, rfl⟩ := foldOf_eq h
  obtain ⟨selection', params', hselection', hparams', rfl⟩ := foldOf_eq h'
  refine ⟨rfl, fun htrain => ?_, fun hvalidation hselected => ?_⟩
  · have hbars : slice candles window.trainStart window.trainEnd = slice other window.trainStart window.trainEnd :=
      slice_eq_of_agreeOn htrain
    rw [hbars] at hselection
    obtain rfl := Option.some.inj (hselection.symm.trans hselection')
    exact ⟨rfl, rfl, rfl⟩
  · change selection.values = selection'.values at hselected
    rw [hselected] at hparams
    obtain rfl := Option.some.inj (hparams.symm.trans hparams')
    have hbars : slice candles window.validationStart window.validationEnd =
        slice other window.validationStart window.validationEnd := slice_eq_of_agreeOn hvalidation
    exact ⟨by rw [foldWith, foldWith, hbars], by rw [foldWith, foldWith, hbars]⟩

theorem Searched.split_eq {report report' : OptimizationReport} (hlength : candles.length = other.length)
    (h : Searched timeframe settings candles space split report)
    (h' : Searched timeframe settings other space split report') : report.split = report'.split := by
  have hsame := h.split
  rw [hlength, h'.split] at hsame
  exact (Except.ok.inj hsame).symm

/-- The choice is made on the training and the validation window alone. -/
theorem Searched.choice_unseen {report report' : OptimizationReport} (hsplit : report.split = report'.split)
    (h : Searched timeframe settings candles space split report)
    (h' : Searched timeframe settings other space split report')
    (htrain : AgreeOn report.split.trainStart report.split.trainEnd candles other)
    (hvalidation : AgreeOn report.split.validationStart report.split.validationEnd candles other) :
    report.trials = report'.trials ∧ report.best = report'.best := by
  have htrials : report.trials = report'.trials := by
    rw [h.trials, slice_eq_of_agreeOn htrain, slice_eq_of_agreeOn hvalidation, hsplit, ← h'.trials]
  exact ⟨htrials, by rw [h.best, htrials, ← h'.best]⟩

/-- The test window sees the choice and itself. -/
theorem Searched.test_unseen {report report' : OptimizationReport} (hsplit : report.split = report'.split)
    (h : Searched timeframe settings candles space split report)
    (h' : Searched timeframe settings other space split report')
    (htest : AgreeOn report.split.testStart report.split.testEnd candles other)
    (hbest : report.best.map OptimizationTrial.parameters = report'.best.map OptimizationTrial.parameters) :
    report.testMetrics = report'.testMetrics ∧ report.testScore = report'.testScore := by
  have hwinner : (report.best.bind fun best => buildParams best.parameters) =
      report'.best.bind fun best => buildParams best.parameters := by
    have hchosen := congrArg (fun values => Option.bind values buildParams) hbest
    rwa [Option.bind_map, Option.bind_map] at hchosen
  constructor
  · rw [h.testMetrics, slice_eq_of_agreeOn htest, hsplit, hwinner, ← h'.testMetrics]
  · rw [h.testScore, slice_eq_of_agreeOn htest, hsplit, hwinner, ← h'.testScore]

/-- The folds of a series are the first folds of every longer one. -/
theorem walkForward_prefix {report report' : WalkForwardReport} {more : List Candle}
    (h : walkForward timeframe settings candles trainBars validationBars stepBars space maxCombinations maxFolds =
      .ok report)
    (h' : walkForward timeframe settings (candles ++ more) trainBars validationBars stepBars space maxCombinations
      maxFolds = .ok report') : report.folds <+: report'.folds := by
  obtain ⟨windows, hwindows, hfolds⟩ := walked h
  obtain ⟨windows', hwindows', hfolds'⟩ := walked h'
  have hle : candles.length ≤ (candles ++ more).length := by
    rw [List.length_append]
    exact Nat.le_add_right _ _
  obtain ⟨later, rfl⟩ := windows_prefix hwindows hwindows' hle
  have hearlier : windows.filterMap (foldOf timeframe settings candles (orderedBy (space.getD defaultParameterSpace))) =
      windows.filterMap (foldOf timeframe settings (candles ++ more) (orderedBy (space.getD defaultParameterSpace))) := by
    refine List.filterMap_congr fun window hwindow => ?_
    have hend := windows_within hwindows window hwindow
    have htrain := window.train_before_validation
    have hvalidation := window.validation_nonempty
    exact foldOf_congr (agreeOn_append (by omega) more) (agreeOn_append hend more)
  rw [hfolds, hfolds', List.filterMap_append, hearlier]
  exact List.prefix_append _ _

end Runs

section Unseen

/-- Nothing that a search reports of its candidates, nor its choice, sees the test window, and the test window sees
nothing of the series but the choice. In a rolling evaluation no choice sees more than its own training window, no
score more than the choice and its own validation window, and no fold what comes after it. -/
theorem out_of_sample_unseen (timeframe : Timeframe) (settings : BacktestConfig) (space : Option (List ParameterSpec))
    (maxCombinations : Nat) :
    (∀ (candles other : List Candle) (split : Option DataSplit) (report : OptimizationReport),
      candles.length = other.length →
      optimize timeframe settings candles space split maxCombinations = .ok report →
      ∃ report', optimize timeframe settings other space split maxCombinations = .ok report' ∧
        report.split = report'.split ∧
        (AgreeOn report.split.trainStart report.split.trainEnd candles other →
          AgreeOn report.split.validationStart report.split.validationEnd candles other →
            report.trials = report'.trials ∧ report.best = report'.best) ∧
        (AgreeOn report.split.testStart report.split.testEnd candles other →
          report.best.map OptimizationTrial.parameters = report'.best.map OptimizationTrial.parameters →
            report.testMetrics = report'.testMetrics ∧ report.testScore = report'.testScore)) ∧
    ∀ (trainBars validationBars : Int) (stepBars : Option Int) (maxFolds : Nat) (candles other : List Candle)
      (report report' : WalkForwardReport),
      walkForward timeframe settings candles trainBars validationBars stepBars space maxCombinations maxFolds =
        .ok report →
      walkForward timeframe settings other trainBars validationBars stepBars space maxCombinations maxFolds =
        .ok report' →
        (∀ (k : Nat) (fold fold' : WalkForwardFold), report.folds[k]? = some fold → report'.folds[k]? = some fold' →
          fold.window = fold'.window ∧
          (AgreeOn fold.window.trainStart fold.window.trainEnd candles other →
            fold.selected = fold'.selected ∧ fold.trainScore = fold'.trainScore ∧
              fold.candidatesEvaluated = fold'.candidatesEvaluated) ∧
          (AgreeOn fold.window.validationStart fold.window.validationEnd candles other →
            fold.selected = fold'.selected →
              fold.validationScore = fold'.validationScore ∧ fold.validationMetrics = fold'.validationMetrics)) ∧
        ∀ more, other = candles ++ more → report.folds <+: report'.folds := by
  constructor
  · intro candles other split report hlength h
    obtain ⟨report', h'⟩ := optimize_answers hlength h
    have hsplit := (searched h).split_eq hlength (searched h')
    exact ⟨report', h', hsplit, (searched h).choice_unseen hsplit (searched h'), (searched h).test_unseen hsplit (searched h')⟩
  · intro trainBars validationBars stepBars maxFolds candles other report report' h h'
    constructor
    · intro k fold fold' hk hk'
      obtain ⟨windows, window, hwindows, hwindow, hfold⟩ := fold_at h hk
      obtain ⟨windows', window', hwindows', hwindow', hfold'⟩ := fold_at h' hk'
      obtain rfl := windows_same hwindows hwindows' hwindow hwindow'
      exact fold_unseen hfold hfold'
    · rintro more rfl
      exact walkForward_prefix h h'

/-- The rise with another last bar, which is the test window of the default split. -/
def exampleTurn : List Candle := exampleRise.take 4 ++ [exampleCandle 4 110 90]

theorem agreeOn_turn {start stop : Nat} (h : stop ≤ 4) : AgreeOn start stop exampleRise exampleTurn := by
  have hrise : exampleRise = exampleRise.take 4 ++ [exampleCandle 4 110 112] := rfl
  intro i _ hi
  have hlength : i < (exampleRise.take 4).length := hi.trans_le h
  rw [hrise, exampleTurn, List.getElem?_append_left hlength, List.getElem?_append_left hlength]

theorem out_of_sample_unseen_example :
    (∃ report report', optimize .m1 exampleConfig exampleRise none none 512 = .ok report ∧
      optimize .m1 exampleConfig exampleTurn none none 512 = .ok report' ∧
        report.trials = report'.trials ∧ report.best = report'.best) ∧
      ∃ report report', walkForward .m1 exampleConfig exampleRise 3 1 none none 512 24 = .ok report ∧
        walkForward .m1 exampleConfig (exampleRise ++ [exampleCandle 5 112 90]) 3 1 none none 512 24 = .ok report' ∧
          report.folds <+: report'.folds := by
  constructor
  · have hrise : ((optimize .m1 exampleConfig exampleRise none none 512).toOption.any fun report =>
        report.split.trainEnd ≤ 4 ∧ report.split.validationEnd ≤ 4) = true := by decide +kernel
    obtain ⟨report, h, hends⟩ := Raising.exists_ok hrise
    obtain ⟨htrain, hvalidation⟩ := of_decide_eq_true hends
    obtain ⟨report', h', -, hseen, -⟩ :=
      (out_of_sample_unseen .m1 exampleConfig none 512).1 exampleRise exampleTurn none report rfl h
    exact ⟨report, report', h, h', hseen (agreeOn_turn htrain) (agreeOn_turn hvalidation)⟩
  · have hrise : ((walkForward .m1 exampleConfig exampleRise 3 1 none none 512 24).toOption.any fun report =>
        report.validationBars = 1) = true := by decide +kernel
    have hlonger : ((walkForward .m1 exampleConfig (exampleRise ++ [exampleCandle 5 112 90]) 3 1 none none 512
        24).toOption.any fun report => report.validationBars = 1) = true := by decide +kernel
    obtain ⟨report, h, -⟩ := Raising.exists_ok hrise
    obtain ⟨report', h', -⟩ := Raising.exists_ok hlonger
    exact ⟨report, report', h, h',
      ((out_of_sample_unseen .m1 exampleConfig none 512).2 3 1 none 24 _ _ report report' h h').2 _ rfl⟩

end Unseen

end Aetheris.Optimize
