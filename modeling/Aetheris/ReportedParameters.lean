import Aetheris.Lib.Dict
import Aetheris.OutOfSample
import Mathlib.Data.List.Chain

namespace Aetheris.Optimize

open Lib Money PaperRecords Indicators TrendMomentum Backtest

section Steps

variable {step maximum current : Decimal} {fuel : Nat}

/-- Each value lies above the one before it, by the step at most. -/
def Climbs (step : Decimal) (values : List Decimal) : Prop := values.IsChain fun x y => x < y ∧ y ≤ x + step

theorem ladder_head {x : Decimal} (h : x ∈ (ladder step maximum fuel current).head?) : x = current := by
  cases fuel with
  | zero => cases h
  | succ fuel =>
      rw [ladder] at h
      split at h
      · exact (Option.some.inj h).symm
      · cases h

theorem ladder_climbs (hstep : 0 < step) : Climbs step (ladder step maximum fuel current) := by
  induction fuel generalizing current with
  | zero => exact .nil
  | succ fuel ih =>
      rw [ladder]
      split
      · refine List.isChain_cons.mpr ⟨fun y hy => ?_, ih⟩
        rw [ladder_head hy]
        exact ⟨lt_add_of_pos_right current hstep, le_refl _⟩
      · exact .nil

theorem ladder_le {x : Decimal} (h : x ∈ ladder step maximum fuel current) : x ≤ maximum := by
  induction fuel generalizing current with
  | zero => cases h
  | succ fuel ih =>
      rw [ladder] at h
      split at h
      · rcases List.mem_cons.mp h with rfl | hrest
        · assumption
        · exact ih hrest
      · cases h

/-- Where the loop ends, the next step lies past the maximum. -/
theorem ladder_last (h : maximum < current + fuel * step) {x : Decimal}
    (hx : x ∈ (ladder step maximum fuel current).getLast?) : maximum < x + step := by
  induction fuel generalizing current with
  | zero => cases hx
  | succ fuel ih =>
      have hrest : maximum < current + step + fuel * step := by
        push_cast at h
        linarith
      rw [ladder] at hx
      split at hx
      · cases hladder : ladder step maximum fuel (current + step) with
        | nil =>
            rw [hladder] at hx
            obtain rfl := Option.some.inj hx
            cases fuel with
            | zero => simpa using hrest
            | succ fuel =>
                rw [ladder] at hladder
                split at hladder
                · cases hladder
                · exact lt_of_not_ge ‹_›
        | cons y rest =>
            rw [hladder, List.getLast?_cons_cons, ← hladder] at hx
            exact ih hrest hx
      · cases hx

/-- How often the loop over the values of a grid runs at most. -/
def rungs (spec : ParameterSpec) : Nat := ⌊(spec.maximum - spec.minimum) / spec.step⌋₊ + 1

theorem past_rungs (spec : ParameterSpec) : spec.maximum < spec.minimum + rungs spec * spec.step := by
  have hsteps := Nat.lt_floor_add_one ((spec.maximum - spec.minimum) / spec.step)
  have hreach := (div_lt_iff₀ spec.step_pos).mp hsteps
  rw [rungs]
  push_cast
  linarith

/-- The values of a grid climb from the one end to the other, in a loop that comes to its end. -/
structure Graded (spec : ParameterSpec) : Prop where
  increasing : spec.values.Pairwise (· < ·)
  minimum : spec.minimum ∈ spec.values
  maximum : spec.maximum ∈ spec.values
  gaps : spec.values.IsChain fun x y => y - x ≤ spec.step
  ends : ∀ n, ladder spec.step spec.maximum (rungs spec + n) spec.minimum =
    ladder spec.step spec.maximum (rungs spec) spec.minimum

/-- The values are those of the loop, with the maximum after them where the loop does not come to it. -/
theorem values_cases (spec : ParameterSpec) :
    (spec.values = ladder spec.step spec.maximum (rungs spec) spec.minimum ∧ spec.maximum ∈ spec.values) ∨
      ∃ last, last ∈ (ladder spec.step spec.maximum (rungs spec) spec.minimum).getLast? ∧ last ≠ spec.maximum ∧
        spec.values = ladder spec.step spec.maximum (rungs spec) spec.minimum ++ [spec.maximum] := by
  have hfirst : ladder spec.step spec.maximum (rungs spec) spec.minimum = spec.minimum :: _ :=
    if_pos spec.minimum_le_maximum
  cases hlast : (ladder spec.step spec.maximum (rungs spec) spec.minimum).getLast? with
  | none =>
      rw [List.getLast?_eq_none_iff.mp hlast] at hfirst
      cases hfirst
  | some last =>
      have hvalues : spec.values =
          if last ≠ spec.maximum then
            ladder spec.step spec.maximum (rungs spec) spec.minimum ++ [spec.maximum]
          else ladder spec.step spec.maximum (rungs spec) spec.minimum := by
        rw [rungs] at hlast ⊢
        rw [ParameterSpec.values]
        rw [hlast]
      have hmem := List.mem_of_getLast? hlast
      by_cases hmaximum : last = spec.maximum
      · rw [if_neg (not_not_intro hmaximum)] at hvalues
        rw [hmaximum, ← hvalues] at hmem
        exact .inl ⟨hvalues, hmem⟩
      · exact .inr ⟨last, rfl, hmaximum, hvalues.trans (if_pos hmaximum)⟩

theorem values_climb (spec : ParameterSpec) : Climbs spec.step spec.values := by
  have hloop : Climbs spec.step (ladder spec.step spec.maximum (rungs spec) spec.minimum) := ladder_climbs spec.step_pos
  rcases values_cases spec with ⟨hvalues, -⟩ | ⟨last, hlast, hshort, hvalues⟩
  · rwa [hvalues]
  · rw [hvalues]
    refine List.isChain_append.mpr ⟨hloop, .singleton _, fun x hx y hy => ?_⟩
    obtain rfl : x = last := Option.some.inj (hx.symm.trans hlast)
    obtain rfl : spec.maximum = y := Option.some.inj hy
    have hbelow := ladder_le (List.mem_of_getLast? hlast)
    exact ⟨lt_of_le_of_ne hbelow hshort, (ladder_last (past_rungs spec) hlast).le⟩

theorem graded (spec : ParameterSpec) : Graded spec where
  increasing := List.isChain_iff_pairwise.mp ((values_climb spec).imp fun _ _ h => h.1)
  minimum := by
    have hfirst : spec.minimum ∈ ladder spec.step spec.maximum (rungs spec) spec.minimum := by
      have hcons : ladder spec.step spec.maximum (rungs spec) spec.minimum = spec.minimum :: _ :=
        if_pos spec.minimum_le_maximum
      rw [hcons]
      exact List.mem_cons_self
    rcases values_cases spec with ⟨hvalues, -⟩ | ⟨_, -, -, hvalues⟩
    · rwa [hvalues]
    · rw [hvalues]
      exact List.mem_append_left _ hfirst
  maximum := by
    rcases values_cases spec with ⟨-, hmaximum⟩ | ⟨_, -, -, hvalues⟩
    · exact hmaximum
    · rw [hvalues]
      exact List.mem_append_right _ (List.mem_singleton_self _)
  gaps := (values_climb spec).imp fun _ _ h => sub_le_iff_le_add'.mpr h.2
  ends := values_done spec

end Steps

section Construction

variable {values : Values} {params : TrendMomentumParams} {name : String}

/-- The value that is given for a name. -/
def given (values : Values) (name : String) : Option Decimal := (values.find? fun value => value.1 = name).map Prod.snd

/-- The fields of the strategy's parameters, each with its default. -/
def fields : Values :=
  [("ema_fast", 21), ("ema_slow", 55), ("rsi_period", 14), ("rsi_overbought", 70), ("rsi_oversold", 30),
    ("adx_period", 14), ("adx_minimum", 20), ("macd_fast", 12), ("macd_slow", 26), ("macd_signal", 9)]

def asDecimals (params : TrendMomentumParams) : Values :=
  [("ema_fast", params.emaFast), ("ema_slow", params.emaSlow), ("rsi_period", params.rsiPeriod),
    ("rsi_overbought", params.rsiOverbought), ("rsi_oversold", params.rsiOversold), ("adx_period", params.adxPeriod),
    ("adx_minimum", params.adxMinimum), ("macd_fast", params.macdFast), ("macd_slow", params.macdSlow),
    ("macd_signal", params.macdSignal)]

/-- The names whose values are cut to an integer. -/
def converted : List String := ["ema_fast", "ema_slow", "rsi_period", "adx_period"]

/-- The arguments that the parameters of a point of the grid are built with. -/
def kwargs (values : Values) : Values :=
  values.map fun (name, value) => (name, if name ∈ converted then (truncDiv value 1 : Decimal) else value)

/-- A period has to be an integer. -/
def integral (kwargs : Values) (name : String) (default : Nat) : Option Nat :=
  match given kwargs name with
  | none => some default
  | some value => if value.den = 1 then some value.num.toNat else none

/-- The strategy's own check of its arguments. Names that are no field are left out. -/
def trendMomentumParams (kwargs : Values) : Option TrendMomentumParams := do
  let emaFast ← integral kwargs "ema_fast" 21
  let emaSlow ← integral kwargs "ema_slow" 55
  let rsiPeriod ← integral kwargs "rsi_period" 14
  let adxPeriod ← integral kwargs "adx_period" 14
  let macdFast ← integral kwargs "macd_fast" 12
  let macdSlow ← integral kwargs "macd_slow" 26
  let macdSignal ← integral kwargs "macd_signal" 9
  validated emaFast emaSlow rsiPeriod ((given kwargs "rsi_overbought").getD 70) ((given kwargs "rsi_oversold").getD 30)
    adxPeriod ((given kwargs "adx_minimum").getD 20) macdFast macdSlow macdSignal

theorem given_map (f : String → Decimal → Decimal) (values : Values) (name : String) :
    given (values.map fun value => (value.1, f value.1 value.2)) name = (given values name).map (f name) := by
  induction values with
  | nil => rfl
  | cons first rest ih =>
      rw [given, given, List.map_cons, List.find?_cons, List.find?_cons]
      by_cases h : first.1 = name
      · simp [h]
      · simpa [h, given] using ih

theorem given_kwargs_of_mem (h : name ∈ converted) :
    given (kwargs values) name = (given values name).map fun value => (truncDiv value 1 : Decimal) := by
  refine (given_map (fun name value => if name ∈ converted then (truncDiv value 1 : Decimal) else value) values name).trans ?_
  rw [funext fun value => if_pos h]

theorem given_kwargs_of_not_mem (h : name ∉ converted) : given (kwargs values) name = given values name := by
  refine (given_map (fun name value => if name ∈ converted then (truncDiv value 1 : Decimal) else value) values name).trans ?_
  rw [funext fun value => if_neg h, Option.map_id']

theorem integral_kwargs_of_mem (h : name ∈ converted) (default : Nat) :
    integral (kwargs values) name default =
      some (((given values name).map fun value => (truncDiv value 1).toNat).getD default) := by
  rw [integral, given_kwargs_of_mem h]
  cases given values name with
  | none => rfl
  | some value => exact if_pos (Rat.den_intCast _)

theorem integral_kwargs_of_not_mem (h : name ∉ converted) (default : Nat) :
    integral (kwargs values) name default = integral values name default := by
  rw [integral, integral, given_kwargs_of_not_mem h]

/-- A point of the grid is handed on with its periods cut to integers. -/
theorem buildParams_eq (values : Values) : buildParams values = trendMomentumParams (kwargs values) := by
  rw [trendMomentumParams, integral_kwargs_of_mem (by decide), integral_kwargs_of_mem (by decide),
    integral_kwargs_of_mem (by decide), integral_kwargs_of_mem (by decide), integral_kwargs_of_not_mem (by decide),
    integral_kwargs_of_not_mem (by decide), integral_kwargs_of_not_mem (by decide), given_kwargs_of_not_mem (by decide),
    given_kwargs_of_not_mem (by decide), given_kwargs_of_not_mem (by decide)]
  rfl

/-- What is checked is taken as it is, and every period is positive. -/
theorem validated_eq {emaFast emaSlow rsiPeriod adxPeriod macdFast macdSlow macdSignal : Nat}
    {rsiOverbought rsiOversold adxMinimum : Decimal}
    (h : validated emaFast emaSlow rsiPeriod rsiOverbought rsiOversold adxPeriod adxMinimum macdFast macdSlow macdSignal =
      some params) :
    (∀ n ∈ [emaFast, emaSlow, rsiPeriod, adxPeriod, macdFast, macdSlow, macdSignal], 0 < n) ∧
      asDecimals params =
        ([("ema_fast", emaFast), ("ema_slow", emaSlow), ("rsi_period", rsiPeriod), ("rsi_overbought", rsiOverbought),
          ("rsi_oversold", rsiOversold), ("adx_period", adxPeriod), ("adx_minimum", adxMinimum), ("macd_fast", macdFast),
          ("macd_slow", macdSlow), ("macd_signal", macdSignal)] : Values) := by
  rw [validated] at h
  split at h
  next hbounds =>
    obtain rfl := Option.some.inj h
    refine ⟨?_, rfl⟩
    simp only [List.forall_mem_cons]
    refine ⟨?_, ?_, ?_, ?_, ?_, ?_, ?_, fun _ h => absurd h List.not_mem_nil⟩ <;> omega
  next => cases h

theorem integral_eq {default n : Nat} (h : integral values name default = some n) (hn : 0 < n) :
    (given values name).getD default = n := by
  rw [integral] at h
  cases hgiven : given values name with
  | none =>
      rw [hgiven] at h
      obtain rfl := Option.some.inj h
      rfl
  | some value =>
      rw [hgiven] at h
      dsimp only at h
      split at h
      · obtain rfl := Option.some.inj h
        have hwhole : ((value.num.toNat : Int) : Decimal) = value.num := by
          rw [Int.toNat_of_nonneg (by omega)]
        rw [Option.getD_some, ← Int.cast_natCast, hwhole]
        exact (Rat.den_eq_one_iff value).mp ‹_› |>.symm
      · cases h

/-- Every field has the value that is given for it, or else its default. -/
theorem asDecimals_eq (h : trendMomentumParams values = some params) :
    asDecimals params = fields.map fun field => (field.1, (given values field.1).getD field.2) := by
  simp only [trendMomentumParams, Option.bind_eq_bind, Option.bind_eq_some_iff] at h
  obtain ⟨emaFast, hemaFast, emaSlow, hemaSlow, rsiPeriod, hrsiPeriod, adxPeriod, hadxPeriod, macdFast, hmacdFast,
    macdSlow, hmacdSlow, macdSignal, hmacdSignal, h⟩ := h
  obtain ⟨hpos, hdecimals⟩ := validated_eq h
  simp only [List.forall_mem_cons] at hpos
  obtain ⟨h1, h2, h3, h4, h5, h6, h7, -⟩ := hpos
  rw [hdecimals, ← integral_eq hemaFast h1, ← integral_eq hemaSlow h2, ← integral_eq hrsiPeriod h3,
    ← integral_eq hadxPeriod h4, ← integral_eq hmacdFast h5, ← integral_eq hmacdSlow h6, ← integral_eq hmacdSignal h7]
  rfl

/-- The field of a name is what is given for the name, where the name is that of a field. -/
theorem given_asDecimals (h : trendMomentumParams values = some params) (name : String) :
    given (asDecimals params) name = (given fields name).map fun default => (given values name).getD default := by
  rw [asDecimals_eq h]
  exact given_map (fun name default => (given values name).getD default) fields name

end Construction

section Listing

variable {values values' : Values} {params : TrendMomentumParams}

/-- No name comes with two values. -/
def Single (values : Values) : Prop := ∀ entry ∈ values, ∀ entry' ∈ values, entry.1 = entry'.1 → entry = entry'

/-- The values of the names that are cut are integers as they are. -/
def Whole (values : Values) : Prop := ∀ entry ∈ values, entry.1 ∈ converted → entry.2.den = 1

/-- Each value that is listed is the value of the field of its name. -/
def Lists (values : Values) (params : TrendMomentumParams) : Prop :=
  ∀ entry ∈ values, given (asDecimals params) entry.1 = some entry.2

/-- An item takes the place of the one of its name, or else comes last. -/
def put (entries : Values) (item : String × Decimal) : Values :=
  if entries.any fun entry => entry.1 = item.1 then
    entries.map fun entry => if entry.1 = item.1 then item else entry
  else entries ++ [item]

theorem put_eq (d : Dict String Decimal) (item : String × Decimal) :
    put d.entries item = (d.set item.1 item.2).entries := by
  have hkeys : (d.entries.any fun entry => entry.1 = item.1) = true ↔ item.1 ∈ d.keys := by
    simp [Dict.keys]
  rw [put, if_congr hkeys rfl rfl, Dict.set]
  split
  · refine List.map_congr_left fun entry _ => ?_
    rw [Dict.revise]
    split
    next hname => rw [hname]
    next => rfl
  · rfl

theorem dict_eq (items : Values) : dict items = (Dict.ofList items).entries := by
  have hfold : items.foldl put (Dict.empty : Dict String Decimal).entries = (Dict.ofList items).entries :=
    List.foldl_hom Dict.entries put_eq
  exact hfold

theorem dict_single (items : Values) : Single (dict items) := by
  rw [dict_eq]
  intro entry hentry entry' hentry' hname
  exact List.inj_on_of_nodup_map (Dict.ofList items).nodup hentry hentry' hname

theorem given_of_mem (h : Single values) {entry : String × Decimal} (hentry : entry ∈ values) :
    given values entry.1 = some entry.2 := by
  cases hfind : values.find? fun value => value.1 = entry.1 with
  | none => simpa using List.find?_eq_none.mp hfind entry hentry
  | some found =>
      have hname : found.1 = entry.1 := by simpa using List.find?_some hfind
      rw [given, hfind, h found (List.mem_of_find?_eq_some hfind) entry hentry hname]
      rfl

theorem given_eq_none {name : String} : given values name = none ↔ name ∉ values.map Prod.fst := by
  rw [given, Option.map_eq_none_iff, List.find?_eq_none, List.mem_map]
  simp only [decide_eq_true_eq, not_exists, not_and]

theorem truncDiv_one_eq_iff {value : Decimal} : (truncDiv value 1 : Decimal) = value ↔ value.den = 1 := by
  constructor
  · intro h
    rw [← h]
    exact Rat.den_intCast _
  · intro h
    have hwhole := (Rat.den_eq_one_iff value).mp h
    rw [← hwhole, truncDiv, div_one, Int.floor_intCast, Int.ceil_intCast, ite_self]

theorem kwargs_eq_self (h : Whole values) : kwargs values = values := by
  refine (List.map_congr_left fun entry hentry => ?_).trans (List.map_id values)
  by_cases hname : entry.1 ∈ converted
  · exact Prod.ext rfl ((if_pos hname).trans (truncDiv_one_eq_iff.mpr (h entry hentry hname)))
  · exact Prod.ext rfl (if_neg hname)

theorem integral_of_params (h : trendMomentumParams values = some params) {name : String} (hname : name ∈ converted) :
    ∃ default n, integral values name default = some n := by
  simp only [trendMomentumParams, Option.bind_eq_bind, Option.bind_eq_some_iff] at h
  obtain ⟨emaFast, hemaFast, emaSlow, hemaSlow, rsiPeriod, hrsiPeriod, adxPeriod, hadxPeriod, -⟩ := h
  simp only [converted, List.mem_cons, List.not_mem_nil, or_false] at hname
  rcases hname with rfl | rfl | rfl | rfl
  · exact ⟨_, _, hemaFast⟩
  · exact ⟨_, _, hemaSlow⟩
  · exact ⟨_, _, hrsiPeriod⟩
  · exact ⟨_, _, hadxPeriod⟩

/-- The strategy accepts values as they are exactly where it accepts them cut and nothing is cut off. -/
theorem accepted_iff (hsingle : Single values) :
    (trendMomentumParams values).isSome ↔ (trendMomentumParams (kwargs values)).isSome ∧ Whole values := by
  constructor
  · intro h
    obtain ⟨params, hparams⟩ := Option.isSome_iff_exists.mp h
    have hwhole : Whole values := by
      intro entry hentry hname
      obtain ⟨default, n, hn⟩ := integral_of_params hparams hname
      rw [integral, given_of_mem hsingle hentry] at hn
      dsimp only at hn
      split at hn
      · assumption
      · cases hn
    exact ⟨(kwargs_eq_self hwhole).symm ▸ h, hwhole⟩
  · rintro ⟨h, hwhole⟩
    rwa [kwargs_eq_self hwhole] at h

/-- What is run has the listed values exactly where all names are fields and nothing is cut off. -/
theorem lists_iff (hsingle : Single values) (h : buildParams values = some params) :
    Lists values params ↔ (∀ entry ∈ values, entry.1 ∈ fields.map Prod.fst) ∧ Whole values := by
  rw [buildParams_eq] at h
  have hfield : ∀ entry ∈ values, given (asDecimals params) entry.1 = some entry.2 ↔
      entry.1 ∈ fields.map Prod.fst ∧ (entry.1 ∈ converted → entry.2.den = 1) := by
    intro entry hentry
    rw [given_asDecimals h]
    cases hname : given fields entry.1 with
    | none => simp [given_eq_none.mp hname]
    | some default =>
        have hmem : entry.1 ∈ fields.map Prod.fst := by
          by_contra hnone
          rw [given_eq_none.mpr hnone] at hname
          cases hname
        rw [Option.map_some, Option.some.injEq, and_iff_right hmem]
        by_cases hconverted : entry.1 ∈ converted
        · rw [given_kwargs_of_mem hconverted, given_of_mem hsingle hentry, Option.map_some, Option.getD_some,
            truncDiv_one_eq_iff]
          exact ⟨fun h _ => h, fun h => h hconverted⟩
        · rw [given_kwargs_of_not_mem hconverted, given_of_mem hsingle hentry, Option.getD_some]
          exact ⟨fun _ h => absurd h hconverted, fun _ => rfl⟩
  constructor
  · intro hlists
    exact ⟨fun entry hentry => ((hfield entry hentry).mp (hlists entry hentry)).1,
      fun entry hentry => ((hfield entry hentry).mp (hlists entry hentry)).2⟩
  · intro hsame entry hentry
    exact (hfield entry hentry).mpr ⟨hsame.1 entry hentry, hsame.2 entry hentry⟩

/-- Values that list the same fields of the same parameters are the same. -/
theorem Lists.unique (h : Lists values params) (h' : Lists values' params)
    (hnames : values.map Prod.fst = values'.map Prod.fst) : values = values' := by
  have hread {listed : Values} (hlists : Lists listed params) :
      (listed.map Prod.fst).map (fun name => (name, (given (asDecimals params) name).getD 0)) = listed := by
    rw [List.map_map]
    refine (List.map_congr_left fun entry hentry => ?_).trans (List.map_id listed)
    exact Prod.ext rfl (congrArg (Option.getD · 0) (hlists entry hentry))
  rw [← hread h, ← hread h', hnames]

end Listing

section Members

variable {ordered : List ParameterSpec} {member : Values}

/-- The members of the full product: of each specification, its name with one of its values. -/
def members (ordered : List ParameterSpec) : List Values :=
  (product (ordered.map ParameterSpec.values)).map ((ordered.map ParameterSpec.name).zip ·)

theorem length_product {grids : List (List Decimal)} {combination : List Decimal} (h : combination ∈ product grids) :
    combination.length = grids.length := by
  induction grids generalizing combination with
  | nil =>
      obtain rfl := List.mem_singleton.mp h
      rfl
  | cons grid grids ih =>
      obtain ⟨value, -, hrest⟩ := List.mem_flatMap.mp h
      obtain ⟨rest, hmem, rfl⟩ := List.mem_map.mp hrest
      exact congrArg (· + 1) (ih hmem)

theorem names_member (h : member ∈ members ordered) : member.map Prod.fst = ordered.map ParameterSpec.name := by
  obtain ⟨combination, hcombination, rfl⟩ := List.mem_map.mp h
  have hlength := length_product hcombination
  rw [List.length_map] at hlength
  exact List.map_fst_zip (by rw [List.length_map, hlength])

theorem names_dict {member' : Values} (h : member ∈ members ordered) (h' : member' ∈ members ordered) :
    (dict member).map Prod.fst = (dict member').map Prod.fst := by
  rw [dict_eq, dict_eq]
  exact Dict.keys_foldl_set ((names_member h).trans (names_member h').symm) rfl

def SameEntries (values member : Values) : Prop := ∀ entry, entry ∈ values ↔ entry ∈ member

/-- A member keeps all its entries as a dictionary exactly where it gives no name two values. -/
theorem mem_dict_iff : SameEntries (dict member) member ↔ Single member := by
  rw [SameEntries, dict_eq]
  constructor
  · intro h
    exact Dict.subset_ofList_iff.mp fun entry hentry => (h entry).mpr hentry
  · intro h entry
    exact ⟨Dict.mem_of_mem_ofList, fun hentry => Dict.subset_ofList_iff.mpr h hentry⟩

/-- The candidates are the members that the strategy accepts when their periods are cut. -/
theorem candidates_eq (ordered : List ParameterSpec) :
    candidates ordered = (members ordered).filterMap fun member =>
      (buildParams (dict member)).map fun params => (dict member, params) := by
  rw [candidates, members, List.filterMap_map]
  rfl

theorem mem_candidates {values : Values} {params : TrendMomentumParams} : (values, params) ∈ candidates ordered ↔
    ∃ member ∈ members ordered, values = dict member ∧ buildParams (dict member) = some params := by
  simp only [candidates_eq, List.mem_filterMap, Option.map_eq_some_iff, Prod.mk.injEq]
  constructor
  · rintro ⟨member, hmember, _, hparams, rfl, rfl⟩
    exact ⟨member, hmember, rfl, hparams⟩
  · rintro ⟨member, hmember, rfl, hparams⟩
    exact ⟨member, hmember, _, hparams, rfl, rfl⟩

theorem listed_eq (ordered : List ParameterSpec) : (candidates ordered).map Prod.fst =
    ((members ordered).filter fun member => (buildParams (dict member)).isSome).map dict := by
  rw [candidates_eq]
  induction members ordered with
  | nil => rfl
  | cons first rest ih =>
      cases hparams : buildParams (dict first) with
      | none => simpa [hparams] using ih
      | some params => simpa [hparams] using ih

/-- A member that is run as it is: its names are fields, its periods are integers, and no name comes with two values. -/
structure Faithful (member : Values) : Prop where
  named : ∀ entry ∈ member, entry.1 ∈ fields.map Prod.fst
  whole : Whole member
  single : Single member

instance : Decidable (Faithful member) :=
  decidable_of_iff ((∀ entry ∈ member, entry.1 ∈ fields.map Prod.fst) ∧
      (∀ entry ∈ member, entry.1 ∈ converted → entry.2.den = 1) ∧
      ∀ entry ∈ member, ∀ entry' ∈ member, entry.1 = entry'.1 → entry = entry')
    ⟨fun h => ⟨h.1, h.2.1, h.2.2⟩, fun h => ⟨h.named, h.whole, h.single⟩⟩

/-- Every member that the strategy accepts when its periods are cut to integers is run as it is. -/
def RunAsGiven (ordered : List ParameterSpec) : Prop :=
  ∀ member ∈ members ordered, (trendMomentumParams (kwargs (dict member))).isSome → Faithful member

instance : Decidable (RunAsGiven ordered) := inferInstanceAs (Decidable (∀ _ ∈ _, _ → _))

theorem lists_dict (h : Faithful member) {params : TrendMomentumParams} (hparams : buildParams (dict member) = some params) :
    Lists (dict member) params := by
  have hsame := mem_dict_iff.mpr h.single
  exact (lists_iff (dict_single member) hparams).mpr
    ⟨fun entry hentry => h.named entry ((hsame entry).mp hentry),
      fun entry hentry => h.whole entry ((hsame entry).mp hentry)⟩

end Members

section Reports

variable {timeframe : Timeframe} {settings : BacktestConfig} {candles : List Candle} {ordered : List ParameterSpec}
  {space : Option (List ParameterSpec)} {split : Option DataSplit} {maxCombinations maxFolds : Nat}
  {trainBars validationBars : Int} {stepBars : Option Int}

/-- The trials of a report list what was run: each its own parameters, one for each member that the strategy accepts. -/
structure TrialsAsRun (timeframe : Timeframe) (settings : BacktestConfig) (candles : List Candle)
    (ordered : List ParameterSpec) (report : OptimizationReport) : Prop where
  listed : ∀ trial, trial ∈ report.trials ∨ report.best = some trial →
    ∃ params, buildParams trial.parameters = some params ∧ Lists trial.parameters params ∧
      trial.trainMetrics =
        evaluate timeframe settings (slice candles report.split.trainStart report.split.trainEnd) params ∧
      trial.validationMetrics =
        evaluate timeframe settings (slice candles report.split.validationStart report.split.validationEnd) params
  apart : ∀ trial ∈ report.trials, ∀ other ∈ report.trials, trial.parameters ≠ other.parameters →
    buildParams trial.parameters ≠ buildParams other.parameters
  accepted : List.Forall₂ (fun trial member => SameEntries trial.parameters member) report.trials
    ((members ordered).filter fun member => (trendMomentumParams (dict member)).isSome)

/-- The folds of a report list what was run. -/
def FoldsAsRun (timeframe : Timeframe) (settings : BacktestConfig) (candles : List Candle) (report : WalkForwardReport) :
    Prop :=
  ∀ fold ∈ report.folds, ∃ params, buildParams fold.selected = some params ∧ Lists fold.selected params ∧
    fold.trainScore =
      scoreObjective (evaluate timeframe settings (slice candles fold.window.trainStart fold.window.trainEnd) params) ∧
    fold.validationMetrics =
      evaluate timeframe settings (slice candles fold.window.validationStart fold.window.validationEnd) params

/-- Whatever is searched for in a space over some candles, the reports list what was run. -/
structure SearchAsRun (timeframe : Timeframe) (settings : BacktestConfig) (candles : List Candle)
    (space : Option (List ParameterSpec)) : Prop where
  graded : ∀ spec ∈ space.getD defaultParameterSpace, Graded spec
  trials : ∀ split maxCombinations report,
    optimize timeframe settings candles space split maxCombinations = .ok report →
      TrialsAsRun timeframe settings candles (orderedBy (space.getD defaultParameterSpace)) report
  folds : ∀ trainBars validationBars stepBars maxCombinations maxFolds report,
    walkForward timeframe settings candles trainBars validationBars stepBars space maxCombinations maxFolds = .ok report →
      FoldsAsRun timeframe settings candles report

theorem bestOf_mem {trials : List OptimizationTrial} {trial : OptimizationTrial} (h : bestOf trials = some trial) :
    trial ∈ trials := by
  obtain ⟨⟨best, score⟩, hbest, rfl⟩ := Option.map_eq_some_iff.mp h
  refine List.foldlRecOn (motive := fun found => ∀ best, found = some best → best.1 ∈ trials) trials _ ?_ ?_ _ hbest
  · intro best hnone
    cases hnone
  · intro found hfound trial htrial best hstep
    split at hstep
    · exact hfound best hstep
    · split at hstep
      · cases hstep
        exact htrial
      · split at hstep
        · cases hstep
          exact htrial
        · exact hfound best hstep

theorem mem_trials {train validation : List Candle} {trial : OptimizationTrial}
    (h : trial ∈ (candidates ordered).map (trialOf timeframe settings train validation)) :
    ∃ member ∈ members ordered, ∃ params, buildParams (dict member) = some params ∧
      trial = trialOf timeframe settings train validation (dict member, params) := by
  obtain ⟨⟨values, params⟩, hcandidate, rfl⟩ := List.mem_map.mp h
  obtain ⟨member, hmember, rfl, hparams⟩ := mem_candidates.mp hcandidate
  exact ⟨member, hmember, params, hparams, rfl⟩

/-- The members that the strategy accepts are those that it accepts cut, where it accepts no others cut. -/
theorem filter_accepted (h : ∀ member ∈ members ordered, (buildParams (dict member)).isSome → Whole (dict member)) :
    (members ordered).filter (fun member => (trendMomentumParams (dict member)).isSome) =
      (members ordered).filter fun member => (buildParams (dict member)).isSome := by
  refine List.filter_congr fun member hmember => Bool.eq_iff_iff.mpr ?_
  rw [accepted_iff (dict_single member), ← buildParams_eq]
  exact and_iff_left_of_imp (h member hmember)

theorem accepted_trials_iff {train validation : List Candle}
    (h : ∀ member ∈ members ordered, (buildParams (dict member)).isSome → Whole (dict member)) :
    List.Forall₂ (fun trial member => SameEntries (OptimizationTrial.parameters trial) member)
        ((candidates ordered).map (trialOf timeframe settings train validation))
        ((members ordered).filter fun member => (trendMomentumParams (dict member)).isSome) ↔
      ∀ member ∈ members ordered, (buildParams (dict member)).isSome → Single member := by
  have hparameters : ((candidates ordered).map (trialOf timeframe settings train validation)).map
      OptimizationTrial.parameters = (candidates ordered).map Prod.fst := by
    rw [List.map_map]
    rfl
  rw [filter_accepted h, ← List.forall₂_map_left_iff (R := SameEntries) (f := OptimizationTrial.parameters), hparameters,
    listed_eq, List.forall₂_map_left_iff, List.forall₂_same]
  simp only [List.mem_filter, mem_dict_iff, and_imp]

/-- The trials of a report list what was run exactly where every member that is run is run as it is. -/
theorem trialsAsRun_iff {report : OptimizationReport}
    (h : optimize timeframe settings candles space split maxCombinations = .ok report) :
    TrialsAsRun timeframe settings candles (orderedBy (space.getD defaultParameterSpace)) report ↔
      RunAsGiven (orderedBy (space.getD defaultParameterSpace)) := by
  have hsearched := searched h
  have htrials := hsearched.trials
  generalize orderedBy (space.getD defaultParameterSpace) = ordered at htrials ⊢
  constructor
  · intro hasRun
    have hlisted : ∀ member ∈ members ordered, (buildParams (dict member)).isSome →
        (∀ entry ∈ dict member, entry.1 ∈ fields.map Prod.fst) ∧ Whole (dict member) := by
      intro member hmember hsome
      obtain ⟨params, hparams⟩ := Option.isSome_iff_exists.mp hsome
      have htrial : trialOf timeframe settings (slice candles report.split.trainStart report.split.trainEnd)
          (slice candles report.split.validationStart report.split.validationEnd) (dict member, params) ∈
            report.trials := by
        rw [htrials]
        exact List.mem_map_of_mem (mem_candidates.mpr ⟨member, hmember, rfl, hparams⟩)
      obtain ⟨params', hparams', hlists, -⟩ := hasRun.listed _ (.inl htrial)
      exact (lists_iff (dict_single member) hparams').mp hlists
    have hsingle := hasRun.accepted
    rw [htrials, accepted_trials_iff fun member hmember hsome => (hlisted member hmember hsome).2] at hsingle
    intro member hmember haccepted
    rw [← buildParams_eq] at haccepted
    have hsame := mem_dict_iff.mpr (hsingle member hmember haccepted)
    obtain ⟨hnamed, hwhole⟩ := hlisted member hmember haccepted
    exact
      { named := fun entry hentry => hnamed entry ((hsame entry).mpr hentry)
        whole := fun entry hentry => hwhole entry ((hsame entry).mpr hentry)
        single := hsingle member hmember haccepted }
  · intro hgiven
    have hfaithful {member : Values} (hmember : member ∈ members ordered)
        (hsome : (buildParams (dict member)).isSome) : Faithful member :=
      hgiven member hmember (buildParams_eq (dict member) ▸ hsome)
    have hlists {member : Values} {params : TrendMomentumParams} (hmember : member ∈ members ordered)
        (hparams : buildParams (dict member) = some params) : Lists (dict member) params :=
      lists_dict (hfaithful hmember (hparams ▸ rfl)) hparams
    have hmem : ∀ trial, trial ∈ report.trials ∨ report.best = some trial → trial ∈ report.trials := by
      rintro trial (htrial | hbest)
      · exact htrial
      · exact bestOf_mem (hsearched.best ▸ hbest)
    refine ⟨fun trial htrial => ?_, fun trial htrial other hother hdiffer hsame => ?_, ?_⟩
    · obtain ⟨member, hmember, params, hparams, rfl⟩ := mem_trials (htrials ▸ hmem trial htrial)
      exact ⟨params, hparams, hlists hmember hparams, rfl, rfl⟩
    · obtain ⟨member, hmember, params, hparams, rfl⟩ := mem_trials (htrials ▸ htrial)
      obtain ⟨member', hmember', params', hparams', rfl⟩ := mem_trials (htrials ▸ hother)
      obtain rfl : params = params' := Option.some.inj (hparams.symm.trans (hsame.trans hparams'))
      exact hdiffer ((hlists hmember hparams).unique (hlists hmember' hparams') (names_dict hmember hmember'))
    · rw [htrials, accepted_trials_iff fun member hmember hsome entry hentry =>
        (hfaithful hmember hsome).whole entry ((mem_dict_iff.mpr (hfaithful hmember hsome).single entry).mp hentry)]
      exact fun member hmember hsome => (hfaithful hmember hsome).single

/-- What is chosen is a candidate, with the score of its own parameters. -/
theorem selectOn_eq {selection : Selection} (h : selectOn timeframe settings candles ordered = some selection) :
    ∃ params, (selection.values, params) ∈ candidates ordered ∧
      selection.score = scoreObjective (evaluate timeframe settings candles params) := by
  obtain ⟨chosen, hchosen, rfl⟩ := Option.map_eq_some_iff.mp h
  rcases foldl_better none _ with hnone | ⟨c, hc, hbest⟩
  · rw [highest, hnone] at hchosen
    cases hchosen
  · obtain rfl : c = chosen := Option.some.inj (hbest.symm.trans hchosen)
    obtain ⟨⟨values, params⟩, hcandidate, rfl⟩ := List.mem_map.mp hc
    exact ⟨params, hcandidate, rfl⟩

theorem foldsAsRun {report : WalkForwardReport} (hgiven : RunAsGiven (orderedBy (space.getD defaultParameterSpace)))
    (h : walkForward timeframe settings candles trainBars validationBars stepBars space maxCombinations maxFolds =
      .ok report) : FoldsAsRun timeframe settings candles report := by
  intro fold hfold
  obtain ⟨windows, -, hfolds⟩ := walked h
  rw [hfolds] at hfold
  obtain ⟨window, -, hwindow⟩ := List.mem_filterMap.mp hfold
  obtain ⟨selection, params, hselection, hparams, rfl⟩ := foldOf_eq hwindow
  obtain ⟨params', hcandidate, hscore⟩ := selectOn_eq hselection
  obtain ⟨member, hmember, hvalues, hparams'⟩ := mem_candidates.mp hcandidate
  have hsame : params = params' := by
    rw [hvalues] at hparams
    exact Option.some.inj (hparams.symm.trans hparams')
  have haccepted : (trendMomentumParams (kwargs (dict member))).isSome := by
    rw [← buildParams_eq, hparams']
    rfl
  refine ⟨params, hparams, ?_, hsame ▸ hscore, rfl⟩
  change Lists selection.values params
  rw [hvalues, hsame]
  exact lists_dict (hgiven member hmember haccepted) hparams'

/-- The whole of a series in windows that are empty. -/
def emptySplit (totalBars : Nat) : DataSplit where
  trainStart := 0
  trainEnd := 0
  validationStart := 0
  validationEnd := 0
  testStart := 0
  testEnd := 0
  totalBars := totalBars
  train_ordered := Nat.le_refl 0
  train_before_validation := Nat.le_refl 0
  validation_ordered := Nat.le_refl 0
  validation_before_test := Nat.le_refl 0
  test_ordered := Nat.le_refl 0
  test_within := Nat.zero_le _

/-- A space with a parameter can be searched over any candles. -/
theorem optimize_accepts (timeframe : Timeframe) (settings : BacktestConfig) (candles : List Candle)
    (h : space.getD defaultParameterSpace ≠ []) :
    ∃ split maxCombinations report, optimize timeframe settings candles space split maxCombinations = .ok report := by
  refine ⟨some (emptySplit candles.length), combinationsPossible (orderedBy (space.getD defaultParameterSpace)), ?_⟩
  rw [optimize]
  dsimp only
  rw [if_neg h, if_neg (lt_irrefl _)]
  exact ⟨_, if_neg (not_not_intro rfl)⟩

theorem runAsGiven_of_search (h : SearchAsRun timeframe settings candles space) :
    RunAsGiven (orderedBy (space.getD defaultParameterSpace)) := by
  by_cases hempty : space.getD defaultParameterSpace = []
  · intro member hmember _
    rw [hempty] at hmember
    obtain rfl : member = [] := List.mem_singleton.mp hmember
    exact ⟨fun _ hnone => absurd hnone List.not_mem_nil, fun _ hnone => absurd hnone List.not_mem_nil,
      fun _ hnone => absurd hnone List.not_mem_nil⟩
  · obtain ⟨split, maxCombinations, report, hreport⟩ := optimize_accepts timeframe settings candles hempty
    exact (trialsAsRun_iff hreport).mp (h.trials split maxCombinations report hreport)

/-- The default space is reported as it is run. -/
example : RunAsGiven (orderedBy defaultParameterSpace) := by decide +kernel

/-- A period that is searched for in steps of a half. -/
def halfSteps : ParameterSpec where
  name := "ema_fast"
  type := .integer
  minimum := 9
  maximum := 10
  step := 1 / 2
  default := 9
  step_pos := by norm_num
  minimum_le_maximum := by norm_num
  default_bounds := by norm_num
  step_le_range := by norm_num

end Reports

end Aetheris.Optimize
