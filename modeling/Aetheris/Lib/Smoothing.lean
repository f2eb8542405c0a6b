import Aetheris.Lib.Causal
import Mathlib.Analysis.Convex.Combination

namespace Aetheris.Lib.Smoothing

section Windows

variable {V W : Type}

theorem eq_map_some {window : List (Option V)} {values : List V} (h : window.mapM id = some values) :
    window = values.map some := by
  induction window generalizing values with
  | nil =>
      obtain rfl := Option.some.inj h
      rfl
  | cons x window ih =>
      rw [List.mapM_cons] at h
      obtain ⟨value, rfl, hrest⟩ := Option.bind_eq_some_iff.mp h
      obtain ⟨rest, hwindow, hvalues⟩ := Option.bind_eq_some_iff.mp hrest
      obtain rfl := Option.some.inj hvalues
      rw [ih hwindow, List.map_cons]

theorem mapM_map (f : V → W) (window : List (Option V)) :
    (window.map (Option.map f)).mapM id = (window.mapM id).map (List.map f) := by
  induction window with
  | nil => rfl
  | cons x window ih =>
      rw [List.map_cons, List.mapM_cons, List.mapM_cons, ih]
      cases x with
      | none => rfl
      | some value => cases window.mapM id <;> rfl

end Windows

section Smoothers

variable {V W : Type} (K : Type) [Field K] [AddCommGroup V] [Module K V] [AddCommGroup W] [Module K W]

/-- The mean of a window of that many values with no gap in it. -/
def mean (period : Nat) (window : List (Option V)) : Option V :=
  (window.mapM id).map fun values => (period : K)⁻¹ • values.sum

/-- The next value, with the weight of one in so many. -/
def next (period : Nat) (previous : V) (value : Option V) : Option V :=
  value.map fun value => (period : K)⁻¹ • (((period : K) - 1) • previous + value)

/-- Wilder's smoothing: from the mean of the first values on, each value goes in with the weight of one in so many. -/
def wilder (period start : Nat) (values : List (Option V)) : List (Option V) :=
  let last := start + period - 1
  if values.length ≤ last then List.replicate values.length none
  else
    match mean K period ((values.take (last + 1)).drop start) with
    | none => List.replicate values.length none
    | some first => List.replicate last none ++ some first :: resume (next K period) first (values.drop (last + 1))

variable {K}

theorem mean_map (f : V →ₗ[K] W) (period : Nat) (window : List (Option V)) :
    mean K period (window.map (Option.map f)) = (mean K period window).map f := by
  rw [mean, mean, mapM_map]
  cases window.mapM id with
  | none => rfl
  | some values => exact congrArg some (by rw [map_smul, map_list_sum])

/-- A linear image is smoothed as the values are. -/
theorem wilder_map (f : V →ₗ[K] W) (period start : Nat) (values : List (Option V)) :
    wilder K period start (values.map (Option.map f)) = (wilder K period start values).map (Option.map f) := by
  rw [wilder, wilder, List.length_map, ← List.map_take, ← List.map_drop, mean_map]
  split
  · rw [List.map_replicate, Option.map_none]
  · cases mean K period ((values.take (start + period - 1 + 1)).drop start) with
    | none =>
        dsimp only [Option.map_none]
        rw [List.map_replicate, Option.map_none]
    | some first =>
        rw [Option.map_some, ← List.map_drop]
        refine seeded_map f (Option.map f) (fun previous x => ?_) _ first _
        cases x with
        | none => rfl
        | some value => exact congrArg some (by rw [map_smul, map_add, map_smul])

end Smoothers

section Convexity

variable {K V : Type} [Field K] [LinearOrder K] [IsStrictOrderedRing K] [AddCommGroup V] [Module K V] {s : Set V}
  {period start : Nat} {values : List (Option V)}

/-- A weighted mean of points of a convex set is in the set. -/
theorem weighted_mem (hs : Convex K s) (points : List (K × V)) (hweight : ∀ p ∈ points, 0 ≤ p.1)
    (hpoint : ∀ p ∈ points, p.2 ∈ s) (hpos : 0 < (points.map Prod.fst).sum) :
    (points.map Prod.fst).sum⁻¹ • (points.map fun p => p.1 • p.2).sum ∈ s := by
  rw [← Fin.sum_univ_fun_getElem points Prod.fst] at hpos ⊢
  rw [← Fin.sum_univ_fun_getElem points fun p => p.1 • p.2]
  exact hs.centerMass_mem (fun i _ => hweight _ (List.getElem_mem _)) hpos fun i _ => hpoint _ (List.getElem_mem _)

/-- A mean of points of a convex set is in the set. -/
theorem mean_mem (hs : Convex K s) (hperiod : 1 ≤ period) {window : List (Option V)}
    (hlength : window.length = period) (h : Every (· ∈ s) window) : ∀ m ∈ mean K period window, m ∈ s := by
  intro m hm
  obtain ⟨values, hvalues, rfl⟩ := Option.map_eq_some_iff.mp hm
  obtain rfl := eq_map_some hvalues
  have hfirst : (values.map fun value => ((1 : K), value)).map Prod.fst = List.replicate values.length 1 := by
    rw [List.map_map]
    exact List.map_const' ..
  have hsum : ((values.map fun value => ((1 : K), value)).map Prod.fst).sum = period := by
    rw [hfirst, List.sum_replicate, nsmul_one, ← hlength, List.length_map]
  have hpoints : (values.map fun value => ((1 : K), value)).map (fun p => p.1 • p.2) = values := by
    rw [List.map_map]
    exact (List.map_congr_left fun value _ => one_smul K value).trans (List.map_id values)
  have hmem := weighted_mem hs (values.map fun value => ((1 : K), value)) ?_ ?_ ?_
  · rwa [hsum, hpoints] at hmem
  · intro p hp
    obtain ⟨value, -, rfl⟩ := List.mem_map.mp hp
    exact zero_le_one
  · intro p hp
    obtain ⟨value, hvalue, rfl⟩ := List.mem_map.mp hp
    exact h _ (List.mem_map_of_mem hvalue) value rfl
  · rw [hsum]
    exact_mod_cast hperiod

theorem next_mem (hs : Convex K s) (hperiod : 1 ≤ period) {previous : V} (hprevious : previous ∈ s) {value : Option V}
    (hvalue : ∀ v ∈ value, v ∈ s) : ∀ v ∈ next K period previous value, v ∈ s := by
  intro v hv
  obtain ⟨current, hcurrent, rfl⟩ := Option.map_eq_some_iff.mp hv
  have hcast : (1 : K) ≤ period := by exact_mod_cast hperiod
  have hpos : (0 : K) < period := zero_lt_one.trans_le hcast
  rw [smul_add, smul_smul]
  refine hs hprevious (hvalue current hcurrent) (mul_nonneg (inv_nonneg.mpr hpos.le) (sub_nonneg.mpr hcast))
    (inv_nonneg.mpr hpos.le) ?_
  rw [mul_sub, mul_one, inv_mul_cancel₀ hpos.ne', sub_add_cancel]

/-- What is smoothed stays in every convex set that the values are in. -/
theorem wilder_mem (hs : Convex K s) (hperiod : 1 ≤ period) (h : Every (· ∈ s) values) :
    Every (· ∈ s) (wilder K period start values) := by
  rw [wilder]
  split
  · exact every_undefined _
  · split
    · exact every_undefined _
    · rename_i first hfirst
      have hmean : first ∈ s := by
        refine mean_mem hs hperiod ?_ ?_ first hfirst
        · rw [List.length_drop, List.length_take]
          omega
        · exact fun entry hentry => h entry (List.mem_of_mem_take (List.mem_of_mem_drop hentry))
      refine every_append (every_undefined _) (every_cons hmean ?_)
      exact every_resume (fun previous hprevious x hx => next_mem hs hperiod hprevious (h x (List.mem_of_mem_drop hx))) hmean

end Convexity

end Aetheris.Lib.Smoothing
