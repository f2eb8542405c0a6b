import Mathlib.Data.List.Infix
import Mathlib.Data.List.MinMax
import Mathlib.Order.Bounds.Basic
import Mathlib.Order.MinMax

namespace Aetheris.Lib.OnePass

/-! ### The greatest fall -/

section Falls

variable {α β : Type} [LinearOrder α]

/-- Each value against the highest so far. -/
def falls (fall : α → α → β) : α → List α → List β
  | _, [] => []
  | peak, value :: rest => fall (max peak value) value :: falls fall (max peak value) rest

theorem falls_append (fall : α → α → β) (peak value : α) (values : List α) :
    falls fall peak (values ++ [value]) =
      falls fall peak values ++ [fall (max (values.foldl max peak) value) value] := by
  induction values generalizing peak with
  | nil => rfl
  | cons first rest ih => rw [List.cons_append, falls, ih, falls, List.foldl_cons, List.cons_append]

theorem sublist_max (peak value : α) (rest : List α) : (max peak value :: rest).Sublist (peak :: value :: rest) := by
  rcases max_choice peak value with h | h
  · rw [h]
    exact (List.sublist_cons_self value rest).cons_cons peak
  · rw [h]
    exact List.sublist_cons_self peak (value :: rest)

variable {fall : α → α → β} {peak : α} {values : List α}

/-- The higher the value that it is a fall from, the greater, down to any value below both. -/
def Rises [LE β] (fall : α → α → β) (values : List α) : Prop :=
  ∀ x y, ∀ z ∈ values, x ≤ y → z ≤ y → fall x z ≤ fall y z

theorem Rises.tail [LE β] {value : α} {rest : List α} (h : Rises fall (value :: rest)) : Rises fall rest :=
  fun x y z hz => h x y z (List.mem_cons_of_mem _ hz)

theorem exists_fall_of_mem [LE β] (hrises : Rises fall values) {high low : α} (hlow : low ∈ values) (hhigh : high ≤ peak) :
    ∃ d ∈ falls fall peak values, fall high low ≤ d := by
  induction values generalizing peak with
  | nil => exact absurd hlow List.not_mem_nil
  | cons value rest ih =>
      rcases List.mem_cons.mp hlow with rfl | hlow
      · exact ⟨_, List.mem_cons_self,
          hrises _ _ _ List.mem_cons_self (hhigh.trans (le_max_left _ _)) (le_max_right _ _)⟩
      · obtain ⟨d, hd, hle⟩ := ih hrises.tail hlow (hhigh.trans (le_max_left peak value))
        exact ⟨d, List.mem_cons_of_mem _ hd, hle⟩

theorem exists_fall [LE β] (hrises : Rises fall values) {high low : α} (hpair : [high, low].Sublist (peak :: values)) :
    ∃ d ∈ falls fall peak values, fall high low ≤ d := by
  induction values generalizing peak with
  | nil => exact absurd hpair.length_le (by simp)
  | cons value rest ih =>
      rcases List.sublist_cons_iff.mp hpair with hlater | ⟨_, hcons, hlow⟩
      · have hpassed : ∃ d ∈ falls fall (max peak value) rest, fall high low ≤ d := by
          rcases List.sublist_cons_iff.mp hlater with hrest | ⟨_, hcons, hlow⟩
          · exact ih hrises.tail (hrest.trans (List.sublist_cons_self _ _))
          · obtain ⟨rfl, rfl⟩ := List.cons.inj hcons
            exact exists_fall_of_mem hrises.tail (List.singleton_sublist.mp hlow) (le_max_right peak high)
        obtain ⟨d, hd, hle⟩ := hpassed
        exact ⟨d, List.mem_cons_of_mem _ hd, hle⟩
      · obtain ⟨rfl, rfl⟩ := List.cons.inj hcons
        exact exists_fall_of_mem hrises (List.singleton_sublist.mp hlow) le_rfl

theorem foldl_falls [Max β] (fall : α → α → β) (peak : α) (most : β) (values : List α) :
    (values.foldl (fun (peak, most) value => (max peak value, max most (fall (max peak value) value)))
      (peak, most)).2 = (falls fall peak values).foldl max most := by
  induction values generalizing peak most with
  | nil => rfl
  | cons value rest ih => exact ih (max peak value) (max most (fall (max peak value) value))

end Falls

section Greatest

variable {α β : Type} [Zero β] {fall : α → α → β} {peak : α} {values : List α}

/-- None, or that of a value to a later one. -/
def Falls (fall : α → α → β) (values : List α) (d : β) : Prop :=
  d = 0 ∨ ∃ high low, [high, low].Sublist values ∧ d = fall high low

theorem Falls.mono {other : List α} {d : β} (h : Falls fall values d) (hsub : values.Sublist other) :
    Falls fall other d := by
  rcases h with rfl | ⟨high, low, hpair, rfl⟩
  · exact .inl rfl
  · exact .inr ⟨high, low, hpair.trans hsub, rfl⟩

variable [LinearOrder α]

theorem falls_of_mem (hself : ∀ x, fall x x = 0) {d : β} (h : d ∈ falls fall peak values) :
    Falls fall (peak :: values) d := by
  induction values generalizing peak with
  | nil => exact absurd h List.not_mem_nil
  | cons value rest ih =>
      rcases List.mem_cons.mp h with rfl | h
      · rcases max_choice peak value with hmax | hmax
        · rw [hmax]
          exact .inr ⟨peak, value, ((List.nil_sublist rest).cons_cons value).cons_cons peak, rfl⟩
        · rw [hmax, hself]
          exact .inl rfl
      · exact (ih h).mono (sublist_max peak value rest)

variable [LinearOrder β]

/-- Only the highest so far has to be kept to know the greatest fall of any value to any later one. -/
theorem isGreatest_falls (hself : ∀ x, fall x x = 0) (hrises : Rises fall values) :
    IsGreatest {d | Falls fall (peak :: values) d} ((falls fall peak values).foldl max 0) := by
  have hmost : (0 :: falls fall peak values).max? = some ((falls fall peak values).foldl max 0) := rfl
  obtain ⟨hmem, hle⟩ := List.max?_eq_some_iff.mp hmost
  constructor
  · rcases List.mem_cons.mp hmem with hzero | hmem
    · exact .inl hzero
    · exact falls_of_mem hself hmem
  · rintro d (rfl | ⟨high, low, hpair, rfl⟩)
    · exact hle 0 List.mem_cons_self
    · obtain ⟨d, hd, hfall⟩ := exists_fall hrises hpair
      exact hfall.trans (hle d (List.mem_cons_of_mem _ hd))

end Greatest

/-! ### The longest streak -/

section Streaks

variable {α : Type} (hit : α → Bool)

/-- The longest streak so far, and how long the one that is still unbroken is. -/
def streaks (values : List α) : Nat × Nat :=
  values.foldl (fun (longest, current) value =>
    let current := if hit value then current + 1 else 0
    (max longest current, current)) (0, 0)

def Unbroken (run : List α) (n : Nat) : Prop := (∀ value ∈ run, hit value = true) ∧ run.length = n

theorem streaks_append (values : List α) (value : α) :
    streaks hit (values ++ [value]) =
      (max (streaks hit values).1 (if hit value then (streaks hit values).2 + 1 else 0),
        if hit value then (streaks hit values).2 + 1 else 0) := by
  rw [streaks, List.foldl_append]
  rfl

/-- The streak that a further value leaves unbroken. -/
theorem isGreatest_current (values : List α) :
    IsGreatest {n | ∃ run, run <:+ values ∧ Unbroken hit run n} (streaks hit values).2 := by
  induction values using List.reverseRecOn with
  | nil =>
      refine ⟨⟨[], List.suffix_rfl, List.forall_mem_nil _, rfl⟩, ?_⟩
      rintro n ⟨run, hrun, _, rfl⟩
      rw [List.suffix_nil.mp hrun]
      exact le_rfl
  | append_singleton values value ih =>
      rw [streaks_append]
      obtain ⟨⟨run, hrun, hhits, hlength⟩, hle⟩ := ih
      constructor
      · cases hvalue : hit value with
        | false => exact ⟨[], List.nil_suffix, List.forall_mem_nil _, rfl⟩
        | true =>
            refine ⟨run ++ [value], List.suffix_concat_iff.mpr (.inr ⟨run, rfl, hrun⟩), fun x hx => ?_, ?_⟩
            · rcases List.mem_append.mp hx with hx | hx
              · exact hhits x hx
              · rwa [List.mem_singleton.mp hx]
            · rw [List.length_append, hlength]
              rfl
      · rintro n ⟨run, hrun, hhits, rfl⟩
        rcases List.suffix_concat_iff.mp hrun with rfl | ⟨front, rfl, hfront⟩
        · exact Nat.zero_le _
        · have hvalue : hit value = true := hhits value (List.mem_append_right _ List.mem_cons_self)
          have hcurrent := hle ⟨front, hfront, fun x hx => hhits x (List.mem_append_left _ hx), rfl⟩
          rw [List.length_append, hvalue]
          exact Nat.succ_le_succ hcurrent

theorem isGreatest_longest (values : List α) :
    IsGreatest {n | ∃ run, run <:+: values ∧ Unbroken hit run n} (streaks hit values).1 := by
  induction values using List.reverseRecOn with
  | nil =>
      refine ⟨⟨[], List.infix_rfl, List.forall_mem_nil _, rfl⟩, ?_⟩
      rintro n ⟨run, hrun, _, rfl⟩
      rw [List.infix_nil.mp hrun]
      exact le_rfl
  | append_singleton values value ih =>
      obtain ⟨⟨run, hrun, hunbroken⟩, hle⟩ := ih
      obtain ⟨⟨last, hlast, hlastUnbroken⟩, hlastLe⟩ := isGreatest_current hit (values ++ [value])
      have hlongest : (streaks hit (values ++ [value])).1 =
          max (streaks hit values).1 (streaks hit (values ++ [value])).2 := by rw [streaks_append]
      rw [hlongest]
      constructor
      · rcases max_choice (streaks hit values).1 (streaks hit (values ++ [value])).2 with hmax | hmax
        · rw [hmax]
          exact ⟨run, hrun.trans (List.prefix_append _ _).isInfix, hunbroken⟩
        · rw [hmax]
          exact ⟨last, hlast.isInfix, hlastUnbroken⟩
      · rintro n ⟨run, hrun, hunbroken⟩
        rcases List.infix_concat_iff.mp hrun with hsuffix | hinfix
        · exact (hlastLe ⟨run, hsuffix, hunbroken⟩).trans (le_max_right _ _)
        · exact (hle ⟨run, hinfix, hunbroken⟩).trans (le_max_left _ _)

end Streaks

end Aetheris.Lib.OnePass
