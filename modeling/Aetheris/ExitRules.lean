import Aetheris.Backtest
import Aetheris.Lib.Extreme
import Aetheris.PaperPricing
import Mathlib.Data.String.Basic

namespace Aetheris.ExitRules

open Lib Extreme Money Clock Enums PaperRecords PaperPricing Backtest

/-- A level and the name of the reason it gives. -/
abbrev Named := Decimal × String

/-! ### The level that fires -/

section Picks

variable {least isLong : Bool} {l l' : List Named} {x y z m m' : Named} {k : Decimal}

/-- Nearer to the entry, which adverse levels lie below for a long. -/
def Closer (isLong : Bool) (a b : Decimal) : Prop := if isLong then b < a else a < b

/-- The order of the names, or its reverse. -/
def Earlier (least : Bool) (a b : String) : Prop := if least then a ≤ b else b ≤ a

theorem Earlier.refl (a : String) : Earlier least a a := by
  cases least with
  | true => exact (le_refl a : a ≤ a)
  | false => exact (le_refl a : a ≤ a)

theorem Earlier.trans {a b c : String} (h : Earlier least a b) (h' : Earlier least b c) : Earlier least a c := by
  cases least with
  | true => exact le_trans h h'
  | false => exact le_trans h' h

theorem Earlier.antisymm {a b : String} (h : Earlier least a b) (h' : Earlier least b a) : a = b := by
  cases least with
  | true => exact le_antisymm h h'
  | false => exact le_antisymm h' h

theorem Closer.trans {a b c : Decimal} (h : Closer isLong a b) (h' : Closer isLong b c) : Closer isLong a c := by
  cases isLong with
  | true => exact lt_trans h' h
  | false => exact lt_trans h h'

theorem Closer.irrefl (a : Decimal) : ¬ Closer isLong a a := by
  cases isLong with
  | true => exact lt_irrefl a
  | false => exact lt_irrefl a

theorem closer_trichotomy (isLong : Bool) (a b : Decimal) : Closer isLong a b ∨ a = b ∨ Closer isLong b a := by
  cases isLong with
  | true =>
      rcases lt_trichotomy b a with h | h | h
      · exact .inl h
      · exact .inr (.inl h.symm)
      · exact .inr (.inr h)
  | false => exact lt_trichotomy a b

theorem closer_mirror (a b k : Decimal) : Closer (!isLong) (k - a) (k - b) ↔ Closer isLong a b := by
  cases isLong with
  | true => exact sub_lt_sub_iff_left k
  | false => exact sub_lt_sub_iff_left k

/-- No further from the entry, and of one level the earlier name. -/
def Beats (least isLong : Bool) (x y : Named) : Prop :=
  Closer isLong x.1 y.1 ∨ x.1 = y.1 ∧ Earlier least x.2 y.2

theorem Beats.refl (x : Named) : Beats least isLong x x := .inr ⟨rfl, .refl x.2⟩

theorem Beats.trans (h : Beats least isLong x y) (h' : Beats least isLong y z) : Beats least isLong x z := by
  rcases h with h | ⟨h, hname⟩
  · rcases h' with h' | ⟨h', -⟩
    · exact .inl (h.trans h')
    · exact .inl (h' ▸ h)
  · rcases h' with h' | ⟨h', hname'⟩
    · exact .inl (h ▸ h')
    · exact .inr ⟨h.trans h', hname.trans hname'⟩

theorem Beats.antisymm (h : Beats least isLong x y) (h' : Beats least isLong y x) : x = y := by
  rcases h with h | ⟨h, hname⟩
  · rcases h' with h' | ⟨h', -⟩
    · exact absurd (h.trans h') (Closer.irrefl _)
    · exact absurd (h' ▸ h) (Closer.irrefl _)
  · rcases h' with h' | ⟨-, hname'⟩
    · exact absurd (h ▸ h') (Closer.irrefl _)
    · exact Prod.ext h (hname.antisymm hname')

/-- The level of a list that fires before the others. -/
def Picks (least isLong : Bool) (l : List Named) (m : Named) : Prop := m ∈ l ∧ ∀ x ∈ l, Beats least isLong m x

theorem Picks.unique (h : Picks least isLong l m) (h' : Picks least isLong l m') : m = m' :=
  (h.2 m' h'.1).antisymm (h'.2 m h.1)

theorem Picks.congr (h : Picks least isLong l m) (hmem : ∀ x, x ∈ l ↔ x ∈ l') : Picks least isLong l' m :=
  ⟨(hmem m).mp h.1, fun x hx => h.2 x ((hmem x).mpr hx)⟩

/-- Two reasons at one level and none that is nearer. -/
def Tied (isLong : Bool) (l : List Named) (level : Decimal) : Prop :=
  (∃ x ∈ l, ∃ y ∈ l, x ≠ y ∧ x.1 = level ∧ y.1 = level) ∧ ∀ x ∈ l, ¬ Closer isLong x.1 level

theorem Beats.not_closer (h : Beats least isLong x y) : ¬ Closer isLong y.1 x.1 := by
  intro hcloser
  rcases h with h | ⟨h, -⟩
  · exact Closer.irrefl _ (h.trans hcloser)
  · exact Closer.irrefl _ (h ▸ hcloser)

theorem Picks.level_eq {least' : Bool} (h : Picks least isLong l m) (h' : Picks least' isLong l m') : m.1 = m'.1 := by
  rcases closer_trichotomy isLong m.1 m'.1 with hcloser | heq | hcloser
  · exact absurd hcloser (h'.2 m h.1).not_closer
  · exact heq
  · exact absurd hcloser (h.2 m' h'.1).not_closer

theorem Beats.earlier (h : Beats least isLong x y) (heq : x.1 = y.1) : Earlier least x.2 y.2 := by
  rcases h with h | ⟨-, h⟩
  · exact absurd (heq ▸ h) (Closer.irrefl _)
  · exact h

/-- The first and the last name that fire are one, but where two are tied. -/
theorem picks_eq_iff (h : Picks true isLong l m) (h' : Picks false isLong l m') : m = m' ↔ ¬ Tied isLong l m.1 := by
  constructor
  · rintro rfl ⟨⟨x, hx, y, hy, hne, hxlevel, hylevel⟩, -⟩
    have hsame (z : Named) (hz : z ∈ l) (hlevel : z.1 = m.1) : z = m := by
      have hfirst : m.2 ≤ z.2 := (h.2 z hz).earlier hlevel.symm
      have hlast : z.2 ≤ m.2 := (h'.2 z hz).earlier hlevel.symm
      exact Prod.ext hlevel (le_antisymm hlast hfirst)
    exact hne ((hsame x hx hxlevel).trans (hsame y hy hylevel).symm)
  · intro hfree
    by_contra hne
    exact hfree ⟨⟨m, h.1, m', h'.1, hne, rfl, (h.level_eq h').symm⟩, fun x hx => (h.2 x hx).not_closer⟩

/-- A reason at the level mirrored in `k`. -/
def mirror (k : Decimal) (x : Named) : Named := (k - x.1, x.2)

theorem beats_mirror (k : Decimal) (x y : Named) :
    Beats least (!isLong) (mirror k x) (mirror k y) ↔ Beats least isLong x y := by
  rw [Beats, Beats, mirror, mirror, closer_mirror, sub_right_inj]

theorem Picks.mirror (h : Picks least isLong l m) (k : Decimal) :
    Picks least (!isLong) (l.map (ExitRules.mirror k)) (ExitRules.mirror k m) := by
  refine ⟨List.mem_map_of_mem h.1, fun x hx => ?_⟩
  obtain ⟨y, hy, rfl⟩ := List.mem_map.mp hx
  exact (beats_mirror k m y).mpr (h.2 y hy)

theorem Beats.total (x y : Named) : Beats least isLong x y ∨ Beats least isLong y x := by
  rcases closer_trichotomy isLong x.1 y.1 with h | h | h
  · exact .inl (.inl h)
  · cases least with
    | true => exact (le_total x.2 y.2).imp (fun hname => .inr ⟨h, hname⟩) fun hname => .inr ⟨h.symm, hname⟩
    | false => exact (le_total y.2 x.2).imp (fun hname => .inr ⟨h, hname⟩) fun hname => .inr ⟨h.symm, hname⟩
  · exact .inr (.inl h)

theorem exists_picks (least isLong : Bool) (hne : l ≠ []) : ∃ m, Picks least isLong l m := by
  induction l with
  | nil => exact absurd rfl hne
  | cons x l ih =>
      by_cases hnil : l = []
      · subst hnil
        refine ⟨x, List.mem_cons_self .., fun y hy => ?_⟩
        rw [List.mem_singleton.mp hy]
        exact .refl x
      · obtain ⟨m, hm, hbest⟩ := ih hnil
        have htotal : Beats least isLong x m ∨ Beats least isLong m x := Beats.total x m
        rcases htotal with h | h
        · refine ⟨x, List.mem_cons_self .., fun y hy => ?_⟩
          rcases List.mem_cons.mp hy with rfl | hy
          · exact .refl y
          · exact h.trans (hbest y hy)
        · refine ⟨m, List.mem_cons_of_mem x hm, fun y hy => ?_⟩
          rcases List.mem_cons.mp hy with rfl | hy
          · exact h
          · exact hbest y hy

/-- Whether a bar of this range passes an adverse level. -/
def barReaches (isLong : Bool) (high low level : Decimal) : Bool :=
  if isLong then decide (low ≤ level) else decide (level ≤ high)

theorem barReaches_of_closer {high low a b : Decimal} (h : Closer isLong a b) (hb : barReaches isLong high low b) :
    barReaches isLong high low a := by
  cases isLong with
  | true =>
      have hb : low ≤ b := of_decide_eq_true hb
      exact decide_eq_true (hb.trans (le_of_lt h))
  | false =>
      have hb : b ≤ high := of_decide_eq_true hb
      exact decide_eq_true ((le_of_lt h).trans hb)

theorem barReaches_mirror (high low level : Decimal) :
    barReaches (!isLong) (k - low) (k - high) (k - level) = barReaches isLong high low level := by
  cases isLong with
  | true => exact decide_eq_decide.mpr (sub_le_sub_iff_left k)
  | false => exact decide_eq_decide.mpr (sub_le_sub_iff_left k)

/-- A level that fires among those reached fires among all. -/
theorem Picks.of_filter {high low : Decimal}
    (h : Picks least isLong (l.filter fun x => barReaches isLong high low x.1) m) : Picks least isLong l m := by
  obtain ⟨hm, hreached⟩ := List.mem_filter.mp h.1
  refine ⟨hm, fun x hx => ?_⟩
  by_cases hx' : barReaches isLong high low x.1 = true
  · exact h.2 x (List.mem_filter.mpr ⟨hx, hx'⟩)
  · rcases closer_trichotomy isLong m.1 x.1 with hcloser | heq | hcloser
    · exact .inl hcloser
    · exact absurd (heq ▸ hreached) hx'
    · exact absurd (barReaches_of_closer hcloser hreached) hx'

/-- The name of the level that fires where the bar reaches it. -/
def outcome (isLong : Bool) (high low : Decimal) (m : Named) (target : Option String) : Option String :=
  if barReaches isLong high low m.1 then some m.2 else target

/-- Two reasons at the nearest level, on a bar that reaches it. -/
def Tie (isLong : Bool) (high low : Decimal) (l : List Named) : Prop :=
  ∃ level, Tied isLong l level ∧ barReaches isLong high low level

theorem Tied.level_eq {level : Decimal} (h : Tied isLong l level) (hm : Picks least isLong l m) : level = m.1 := by
  obtain ⟨⟨x, hx, -, -, -, rfl, -⟩, hnearest⟩ := h
  rcases closer_trichotomy isLong x.1 m.1 with hcloser | heq | hcloser
  · exact absurd hcloser (hm.2 x hx).not_closer
  · exact heq
  · exact absurd hcloser (hnearest m hm.1)

theorem outcome_eq_iff {high low : Decimal} {target : Option String} (h : Picks true isLong l m)
    (h' : Picks false isLong l m') :
    outcome isLong high low m target = outcome isLong high low m' target ↔ ¬ Tie isLong high low l := by
  have hlevel := h.level_eq h'
  rw [outcome, outcome, ← hlevel]
  by_cases hreached : barReaches isLong high low m.1 = true
  · have htie : Tie isLong high low l ↔ Tied isLong l m.1 := by
      constructor
      · rintro ⟨level, htied, -⟩
        exact htied.level_eq h ▸ htied
      · exact fun htied => ⟨m.1, htied, hreached⟩
    rw [if_pos hreached, if_pos hreached, htie, ← picks_eq_iff h h', Option.some.injEq, Prod.ext_iff]
    exact ⟨fun hname => ⟨hlevel, hname⟩, fun heq => heq.2⟩
  · rw [if_neg hreached, if_neg hreached]
    refine ⟨fun _ => ?_, fun _ => rfl⟩
    rintro ⟨level, htied, hbar⟩
    exact hreached (htied.level_eq h ▸ hbar)

end Picks

/-! ### The two resolvers -/

section Ladders

variable {ρ : Type}

/-- The adverse levels that are set, under the names of their reasons. -/
def ladder (liquidationPrice stopPrice trailPrice : Option Decimal) : List Named :=
  [(liquidationPrice, "LIQUIDATION"), (stopPrice, "STOP_LOSS"), (trailPrice, "TRAILING_STOP")].filterMap
    fun level => level.1.map fun price => (price, level.2)

theorem ladder_sorted (liquidationPrice stopPrice trailPrice : Option Decimal) :
    (ladder liquidationPrice stopPrice trailPrice).Pairwise fun x y => x.2 < y.2 := by
  have hnames : [(liquidationPrice, "LIQUIDATION"), (stopPrice, "STOP_LOSS"), (trailPrice, "TRAILING_STOP")].Pairwise
      fun x y => x.2 < y.2 := by
    simp only [List.pairwise_cons, List.mem_cons, List.not_mem_nil, or_false, forall_eq_or_imp, forall_eq]
    exact ⟨⟨by decide, by decide⟩, by decide, fun _ h => False.elim h, .nil⟩
  refine hnames.filterMap _ fun x y hxy a ha b hb => ?_
  obtain ⟨_, -, rfl⟩ := Option.map_eq_some_iff.mp ha
  obtain ⟨_, -, rfl⟩ := Option.map_eq_some_iff.mp hb
  exact hxy

/-- A pair of a level and a reason, under the reason's name. -/
def named (name : ρ → String) (x : Decimal × ρ) : Named := (x.1, name x.2)

/-- A fold over pairs that takes the next one where the one kept does not beat it. -/
theorem foldl_picks {least isLong : Bool} {name : ρ → String} {beaten : Decimal × ρ → Decimal × ρ → Prop}
    [DecidableRel beaten] {first : Decimal × ρ} {rest : List (Decimal × ρ)}
    (h : (first :: rest).Pairwise fun b x => beaten b x ↔ ¬ Beats least isLong (named name b) (named name x)) :
    Picks least isLong ((first :: rest).map (named name))
      (named name (rest.foldl (fun b x => if beaten b x then x else b) first)) := by
  have hkept := @foldl_keep _ (fun b x => Beats least isLong (named name b) (named name x))
    (fun b x => if beaten b x then x else b) (fun a => .refl (named name a)) (fun h h' => h.trans h')
    (fun b x => (ite_eq_or_eq (beaten b x) x b).symm) rest first (h.imp fun {b x} hbeaten => ?_)
  · refine ⟨List.mem_map_of_mem hkept.1, fun x hx => ?_⟩
    obtain ⟨y, hy, rfl⟩ := List.mem_map.mp hx
    exact hkept.2 y hy
  · by_cases hbeats : Beats least isLong (named name b) (named name x)
    · rw [if_neg fun h => hbeaten.mp h hbeats]
      exact ⟨.refl _, hbeats⟩
    · rw [if_pos (hbeaten.mpr hbeats)]
      exact ⟨(Beats.total _ _).resolve_left hbeats, .refl _⟩

end Ladders

section Paper

variable {p q : MutablePosition} {price : Decimal} {m : Named}

def levelsOf (p : MutablePosition) : List Named := ladder p.liquidationPrice p.stopPrice (trailingLevel p)

def paperTarget (p : MutablePosition) (price : Decimal) : Option String :=
  if reached (!p.isLong) price p.targetPrice then some "TAKE_PROFIT" else none

theorem map_reached (isLong : Bool) (price : Decimal) (levels : List (Option Decimal × PaperExitReason)) :
    (levels.filterMap fun c => if reached isLong price c.1 then c.1.map (fun level => (level, c.2)) else none).map
        (named PaperExitReason.value) =
      ((levels.map fun c => (c.1, c.2.value)).filterMap fun c => c.1.map fun level => (level, c.2)).filter
        fun x => barReaches isLong price price x.1 := by
  induction levels with
  | nil => rfl
  | cons c levels ih =>
      obtain ⟨level, reason⟩ := c
      cases level with
      | none => exact ih
      | some level =>
          have hreached : reached isLong price (some level) = barReaches isLong price price level := rfl
          cases h : barReaches isLong price price level with
          | true =>
              simp only [List.filterMap_cons, List.map_cons, hreached, h, if_true, Option.map_some, List.filter_cons, ih]
              rfl
          | false =>
              simp only [List.filterMap_cons, List.map_cons, hreached, h, Bool.false_eq_true, if_false, Option.map_some,
                List.filter_cons, ih]

theorem candidates_named (p : MutablePosition) (price : Decimal) :
    (candidates p price).map (named PaperExitReason.value) =
      (levelsOf p).filter fun x => barReaches p.isLong price price x.1 :=
  map_reached p.isLong price _

/-- Names that come in their order: the first of equals is the one that sorts first. -/
theorem nearer_iff {isLong : Bool} {best item : Decimal × PaperExitReason} (hname : best.2.value < item.2.value) :
    nearer isLong best item = true ↔
      ¬ Beats true isLong (named PaperExitReason.value best) (named PaperExitReason.value item) := by
  have hnearer : nearer isLong best item = true ↔ Closer isLong item.1 best.1 := by
    cases isLong with
    | true => exact decide_eq_true_iff
    | false => exact decide_eq_true_iff
  rw [hnearer]
  constructor
  · exact fun hcloser hbeats => hbeats.not_closer hcloser
  · intro hbeats
    rcases closer_trichotomy isLong item.1 best.1 with hcloser | heq | hcloser
    · exact hcloser
    · exact absurd (.inr ⟨heq.symm, le_of_lt hname⟩) hbeats
    · exact absurd (.inl hcloser) hbeats

theorem nearest_picks {isLong : Bool} {cs : List (Decimal × PaperExitReason)} {c : Decimal × PaperExitReason}
    (hsorted : (cs.map (named PaperExitReason.value)).Pairwise fun x y => x.2 < y.2) (h : nearest isLong cs = some c) :
    Picks true isLong (cs.map (named PaperExitReason.value)) (named PaperExitReason.value c) := by
  cases cs with
  | nil => cases h
  | cons first rest =>
      obtain rfl := Option.some.inj h
      exact foldl_picks ((List.pairwise_map.mp hsorted).imp fun hname => nearer_iff hname)

/-- The engine closes for the first name at the nearest level, where the price has reached it. -/
theorem triggeredExit_of_picks (h : Picks true p.isLong (levelsOf p) m) :
    (triggeredExit p price).map PaperExitReason.value = outcome p.isLong price price m (paperTarget p price) := by
  have hnamed := candidates_named p price
  rw [triggeredExit, outcome]
  cases hnearest : nearest p.isLong (candidates p price) with
  | some c =>
      have hsorted : ((candidates p price).map (named PaperExitReason.value)).Pairwise fun x y => x.2 < y.2 := by
        rw [hnamed]
        exact (ladder_sorted _ _ _).filter _
      have hpicks := nearest_picks hsorted hnearest
      rw [hnamed] at hpicks
      obtain rfl := h.unique hpicks.of_filter
      rw [if_pos (List.mem_filter.mp hpicks.1).2]
      rfl
  | none =>
      have hempty : candidates p price = [] := by
        cases hcandidates : candidates p price with
        | nil => rfl
        | cons c rest =>
            rw [hcandidates] at hnearest
            cases hnearest
      rw [hempty, List.map_nil] at hnamed
      rw [if_neg (List.filter_eq_nil_iff.mp hnamed.symm m h.1), paperTarget]
      dsimp only
      split <;> rfl

theorem triggeredExit_of_empty (h : levelsOf p = []) :
    (triggeredExit p price).map PaperExitReason.value = paperTarget p price := by
  have hnamed := candidates_named p price
  rw [h, List.filter_nil, List.map_eq_nil_iff] at hnamed
  rw [triggeredExit, hnamed, paperTarget]
  dsimp only [nearest]
  split <;> rfl

end Paper

section Bars

variable {side : PositionSide} {high low : Decimal} {stop target liquidation trail : Option Decimal} {m : Named}

def barTarget (isLong : Bool) (high low : Decimal) (target : Option Decimal) : Option String :=
  if target.any (barReaches (!isLong) high low) then some "TAKE_PROFIT" else none

def adverseOf (stop liquidation trail : Option Decimal) : List (Decimal × ExitReason) :=
  (stop.map fun price => (price, ExitReason.stopLoss)).toList ++
    (liquidation.map fun price => (price, ExitReason.liquidation)).toList ++
    (trail.map fun price => (price, ExitReason.trailingStop)).toList

theorem mem_adverseOf (stop liquidation trail : Option Decimal) (x : Named) :
    x ∈ (adverseOf stop liquidation trail).map (named ExitReason.value) ↔ x ∈ ladder liquidation stop trail := by
  cases stop <;> cases liquidation <;> cases trail <;> simp [adverseOf, ladder, named, ExitReason.value] <;> tauto

theorem before_iff_max {level x : Decimal × ExitReason} :
    Before level x ↔ ¬ Beats false true (named ExitReason.value level) (named ExitReason.value x) := by
  constructor
  · rintro (hlevel | ⟨hlevel, hname⟩) hbeats
    · exact hbeats.not_closer hlevel
    · exact not_lt_of_ge (hbeats.earlier hlevel) hname
  · intro hbeats
    rcases lt_trichotomy level.1 x.1 with hlevel | hlevel | hlevel
    · exact .inl hlevel
    · exact .inr ⟨hlevel, not_le.mp fun hname => hbeats (.inr ⟨hlevel, hname⟩)⟩
    · exact absurd (.inl hlevel) hbeats

theorem before_iff_min {level x : Decimal × ExitReason} :
    Before x level ↔ ¬ Beats true false (named ExitReason.value level) (named ExitReason.value x) := by
  constructor
  · rintro (hlevel | ⟨hlevel, hname⟩) hbeats
    · exact hbeats.not_closer hlevel
    · exact not_lt_of_ge (hbeats.earlier hlevel.symm) hname
  · intro hbeats
    rcases lt_trichotomy x.1 level.1 with hlevel | hlevel | hlevel
    · exact .inl hlevel
    · exact .inr ⟨hlevel, not_le.mp fun hname => hbeats (.inr ⟨hlevel.symm, hname⟩)⟩
    · exact absurd (.inl hlevel) hbeats

theorem maxLevel_picks {l : List (Decimal × ExitReason)} {x : Decimal × ExitReason} (h : maxLevel l = some x) :
    Picks false true (l.map (named ExitReason.value)) (named ExitReason.value x) := by
  cases l with
  | nil => cases h
  | cons first rest =>
      obtain rfl := Option.some.inj h
      exact foldl_picks (List.pairwise_of_forall fun _ _ => before_iff_max)

theorem minLevel_picks {l : List (Decimal × ExitReason)} {x : Decimal × ExitReason} (h : minLevel l = some x) :
    Picks true false (l.map (named ExitReason.value)) (named ExitReason.value x) := by
  cases l with
  | nil => cases h
  | cons first rest =>
      obtain rfl := Option.some.inj h
      exact foldl_picks (List.pairwise_of_forall fun _ _ => before_iff_min)

/-- The pair that a bar is compared with. -/
def firstLevel (isLong : Bool) (l : List (Decimal × ExitReason)) : Option (Decimal × ExitReason) :=
  if isLong then maxLevel l else minLevel l

theorem firstLevel_picks {isLong : Bool} {l : List (Decimal × ExitReason)} {x : Decimal × ExitReason}
    (h : firstLevel isLong l = some x) :
    Picks (!isLong) isLong (l.map (named ExitReason.value)) (named ExitReason.value x) := by
  cases isLong with
  | true => exact maxLevel_picks h
  | false => exact minLevel_picks h

theorem firstLevel_eq_none {isLong : Bool} {l : List (Decimal × ExitReason)} : firstLevel isLong l = none ↔ l = [] := by
  cases isLong <;> cases l <;> simp [firstLevel, maxLevel, minLevel]

def reasonOf (exit : Option (Decimal × ExitReason)) : Option String := exit.map fun x => x.2.value

/-- The pair that is compared, where the bar reaches it; else the target. -/
theorem resolveIntrabarExit_eq :
    resolveIntrabarExit side high low stop target liquidation trail =
      ((firstLevel (decide (side = .long)) (adverseOf stop liquidation trail)).filter
          fun x => barReaches (decide (side = .long)) high low x.1).or
        ((target.filter fun price => barReaches (!decide (side = .long)) high low price).map
          fun price => (price, ExitReason.takeProfit)) := by
  have htarget : (fun price => barReaches (!decide (side = .long)) high low price) =
      fun price => if (decide (side = .long)) = true then decide (price ≤ high) else decide (low ≤ price) := by
    funext price
    rw [barReaches]
    cases decide (side = .long) <;> rfl
  have hfirst : (if decide (side = .long) = true then
        maxLevel ((stop.map fun price => (price, ExitReason.stopLoss)).toList ++
          (liquidation.map fun price => (price, ExitReason.liquidation)).toList ++
          (trail.map fun price => (price, ExitReason.trailingStop)).toList)
      else
        minLevel ((stop.map fun price => (price, ExitReason.stopLoss)).toList ++
          (liquidation.map fun price => (price, ExitReason.liquidation)).toList ++
          (trail.map fun price => (price, ExitReason.trailingStop)).toList)) =
      firstLevel (decide (side = .long)) (adverseOf stop liquidation trail) := rfl
  rw [htarget, resolveIntrabarExit, hfirst]
  cases firstLevel (decide (side = .long)) (adverseOf stop liquidation trail) with
  | none => rfl
  | some x =>
      obtain ⟨level, reason⟩ := x
      have hbar : (decide (side = .long) = true ∧ low ≤ level ∨ ¬ decide (side = .long) = true ∧ level ≤ high) ↔
          barReaches (decide (side = .long)) high low level = true := by
        rw [barReaches]
        cases decide (side = .long) <;> simp
      rw [Option.filter_some]
      by_cases hreached : barReaches (decide (side = .long)) high low level = true
      · rw [if_pos hreached, Option.some_or]
        exact if_pos (hbar.mpr hreached)
      · rw [if_neg hreached, Option.none_or]
        exact if_neg fun h => hreached (hbar.mp h)

theorem reasonOf_resolve :
    reasonOf (resolveIntrabarExit side high low stop target liquidation trail) =
      match firstLevel (decide (side = .long)) (adverseOf stop liquidation trail) with
      | some x => outcome (decide (side = .long)) high low (named ExitReason.value x)
          (barTarget (decide (side = .long)) high low target)
      | none => barTarget (decide (side = .long)) high low target := by
  have htarget : reasonOf ((target.filter fun price => barReaches (!decide (side = .long)) high low price).map
      fun price => (price, ExitReason.takeProfit)) = barTarget (decide (side = .long)) high low target := by
    cases target with
    | none => rfl
    | some price =>
        rw [barTarget, Option.any_some, Option.filter_some]
        cases barReaches (!decide (side = .long)) high low price with
        | true => rfl
        | false => rfl
  rw [resolveIntrabarExit_eq, ← htarget]
  cases firstLevel (decide (side = .long)) (adverseOf stop liquidation trail) with
  | none => rfl
  | some x =>
      rw [Option.filter_some]
      dsimp only
      rw [outcome, named]
      cases barReaches (decide (side = .long)) high low x.1 with
      | true => rfl
      | false => rfl

/-- A bar takes the position out for the last name at the nearest level of a
long, and for the first of a short. -/
theorem resolveIntrabarExit_of_picks
    (h : Picks (!decide (side = .long)) (decide (side = .long)) (ladder liquidation stop trail) m) :
    reasonOf (resolveIntrabarExit side high low stop target liquidation trail) =
      outcome (decide (side = .long)) high low m (barTarget (decide (side = .long)) high low target) := by
  rw [reasonOf_resolve]
  cases hfirst : firstLevel (decide (side = .long)) (adverseOf stop liquidation trail) with
  | some x =>
      have hpicks := (firstLevel_picks hfirst).congr (mem_adverseOf stop liquidation trail)
      rw [← hpicks.unique h]
  | none =>
      have hmem := (mem_adverseOf stop liquidation trail m).mpr h.1
      rw [firstLevel_eq_none.mp hfirst] at hmem
      cases hmem

theorem resolveIntrabarExit_of_empty (h : ladder liquidation stop trail = []) :
    reasonOf (resolveIntrabarExit side high low stop target liquidation trail) =
      barTarget (decide (side = .long)) high low target := by
  have hempty : adverseOf stop liquidation trail = [] := by
    refine List.eq_nil_iff_forall_not_mem.mpr fun x hx => ?_
    have hmem := (mem_adverseOf stop liquidation trail _).mp (List.mem_map_of_mem hx)
    rw [h] at hmem
    cases hmem
  rw [reasonOf_resolve, firstLevel_eq_none.mpr hempty]

end Bars

/-! ### The two compared, and mirrored -/

section Mirrors

variable {p q : MutablePosition} {price high low k : Decimal}

/-- The other side, with every level reflected in `k`. -/
structure Mirrored (k : Decimal) (p q : MutablePosition) : Prop where
  side : q.isLong = !p.isLong
  liquidationPrice : q.liquidationPrice = p.liquidationPrice.map (k - ·)
  stopPrice : q.stopPrice = p.stopPrice.map (k - ·)
  targetPrice : q.targetPrice = p.targetPrice.map (k - ·)
  trailingLevel : PaperPricing.trailingLevel q = (PaperPricing.trailingLevel p).map (k - ·)

def opposite (side : PositionSide) : PositionSide := if side = .long then .short else .long

theorem opposite_long (side : PositionSide) : decide (opposite side = .long) = !decide (side = .long) := by
  cases side <;> rfl

theorem ladder_mirror (k : Decimal) (liquidation stop trail : Option Decimal) :
    ladder (liquidation.map (k - ·)) (stop.map (k - ·)) (trail.map (k - ·)) =
      (ladder liquidation stop trail).map (mirror k) := by
  cases liquidation <;> cases stop <;> cases trail <;> rfl

theorem outcome_mirror (isLong : Bool) (high low : Decimal) (m : Named) (target : Option String) :
    outcome (!isLong) (k - low) (k - high) (mirror k m) target = outcome isLong high low m target := by
  rw [outcome, outcome, mirror, barReaches_mirror]

theorem barTarget_mirror (isLong : Bool) (high low : Decimal) (target : Option Decimal) :
    barTarget (!isLong) (k - low) (k - high) (target.map (k - ·)) = barTarget isLong high low target := by
  cases target with
  | none => rfl
  | some price =>
      rw [barTarget, barTarget, Option.map_some, Option.any_some, Option.any_some, barReaches_mirror]

theorem paperTarget_eq (p : MutablePosition) (price : Decimal) :
    paperTarget p price = barTarget p.isLong price price p.targetPrice := by
  rw [paperTarget, barTarget]
  rfl

theorem triggeredExit_mirror (h : Mirrored k p q) (price : Decimal) :
    (triggeredExit q (k - price)).map PaperExitReason.value = (triggeredExit p price).map PaperExitReason.value := by
  have hladder : levelsOf q = (levelsOf p).map (mirror k) := by
    rw [levelsOf, levelsOf, h.liquidationPrice, h.stopPrice, h.trailingLevel, ladder_mirror]
  have htarget : paperTarget q (k - price) = paperTarget p price := by
    rw [paperTarget_eq, paperTarget_eq, h.side, h.targetPrice, barTarget_mirror]
  by_cases hempty : levelsOf p = []
  · rw [triggeredExit_of_empty hempty, triggeredExit_of_empty (hladder.trans (by rw [hempty]; rfl)), htarget]
  · obtain ⟨m, hm⟩ := exists_picks true p.isLong hempty
    have hmirror : Picks true q.isLong (levelsOf q) (mirror k m) := by
      rw [h.side, hladder]
      exact hm.mirror k
    rw [triggeredExit_of_picks hm, triggeredExit_of_picks hmirror, h.side, outcome_mirror, htarget]

/-- The exit of a bar for the levels of a position. -/
def barExit (p : MutablePosition) (high low : Decimal) : Option (Decimal × ExitReason) :=
  resolveIntrabarExit p.side high low p.stopPrice p.targetPrice p.liquidationPrice (trailingLevel p)

/-- The same with the bar, the levels and the side mirrored in `k`. -/
def mirroredExit (k : Decimal) (p : MutablePosition) (high low : Decimal) : Option (Decimal × ExitReason) :=
  resolveIntrabarExit (opposite p.side) (k - low) (k - high) (p.stopPrice.map (k - ·)) (p.targetPrice.map (k - ·))
    (p.liquidationPrice.map (k - ·)) ((trailingLevel p).map (k - ·))

theorem barExit_of_picks {m : Named} (h : Picks (!p.isLong) p.isLong (levelsOf p) m) :
    reasonOf (barExit p high low) = outcome p.isLong high low m (barTarget p.isLong high low p.targetPrice) :=
  resolveIntrabarExit_of_picks h

theorem barExit_of_empty (h : levelsOf p = []) :
    reasonOf (barExit p high low) = barTarget p.isLong high low p.targetPrice :=
  resolveIntrabarExit_of_empty h

theorem mirroredExit_of_picks {m : Named} (h : Picks p.isLong p.isLong (levelsOf p) m) :
    reasonOf (mirroredExit k p high low) = outcome p.isLong high low m (barTarget p.isLong high low p.targetPrice) := by
  have hside : decide (opposite p.side = .long) = !p.isLong := opposite_long p.side
  have hpicks : Picks (!decide (opposite p.side = .long)) (decide (opposite p.side = .long))
      (ladder (p.liquidationPrice.map (k - ·)) (p.stopPrice.map (k - ·)) ((trailingLevel p).map (k - ·))) (mirror k m) := by
    rw [hside, Bool.not_not, ladder_mirror]
    exact h.mirror k
  rw [mirroredExit, resolveIntrabarExit_of_picks hpicks, hside, outcome_mirror, barTarget_mirror]

theorem mirroredExit_of_empty (h : levelsOf p = []) :
    reasonOf (mirroredExit k p high low) = barTarget p.isLong high low p.targetPrice := by
  have hempty : ladder (p.liquidationPrice.map (k - ·)) (p.stopPrice.map (k - ·)) ((trailingLevel p).map (k - ·)) = [] := by
    rw [ladder_mirror]
    exact List.map_eq_nil_iff.mpr h
  have hside : decide (opposite p.side = .long) = !p.isLong := opposite_long p.side
  rw [mirroredExit, resolveIntrabarExit_of_empty hempty, hside, barTarget_mirror]

theorem not_tie_of_empty (h : levelsOf p = []) : ¬ Tie p.isLong high low (levelsOf p) := by
  rintro ⟨level, ⟨⟨x, hx, -⟩, -⟩, -⟩
  rw [h] at hx
  cases hx

theorem triggeredExit_eq_barExit_iff :
    (triggeredExit p price).map PaperExitReason.value = reasonOf (barExit p price price) ↔
      ¬ (p.isLong ∧ Tie p.isLong price price (levelsOf p)) := by
  by_cases hempty : levelsOf p = []
  · rw [triggeredExit_of_empty hempty, barExit_of_empty hempty, paperTarget_eq]
    exact ⟨fun _ htie => not_tie_of_empty hempty htie.2, fun _ => rfl⟩
  · obtain ⟨m, hm⟩ := exists_picks true p.isLong hempty
    obtain ⟨m', hm'⟩ := exists_picks (!p.isLong) p.isLong hempty
    rw [triggeredExit_of_picks hm, barExit_of_picks hm', paperTarget_eq]
    cases hside : p.isLong with
    | true =>
        rw [hside] at hm hm'
        rw [outcome_eq_iff hm hm']
        simp
    | false =>
        -- of a short both take the first name
        rw [hside] at hm hm'
        rw [hm.unique hm']
        simp

theorem mirroredExit_eq_barExit_iff :
    reasonOf (mirroredExit k p high low) = reasonOf (barExit p high low) ↔ ¬ Tie p.isLong high low (levelsOf p) := by
  by_cases hempty : levelsOf p = []
  · rw [mirroredExit_of_empty hempty, barExit_of_empty hempty]
    exact ⟨fun _ => not_tie_of_empty hempty, fun _ => rfl⟩
  · obtain ⟨m, hm⟩ := exists_picks p.isLong p.isLong hempty
    obtain ⟨m', hm'⟩ := exists_picks (!p.isLong) p.isLong hempty
    rw [mirroredExit_of_picks hm, barExit_of_picks hm']
    cases hside : p.isLong with
    | true =>
        rw [hside] at hm hm'
        exact outcome_eq_iff hm hm'
    | false =>
        rw [hside] at hm hm'
        rw [eq_comm]
        exact outcome_eq_iff hm' hm

/-- The two resolvers at a price and on a bar: the engine gives the reason that
the backtest gives where the bar is the price, and each treats the two sides as
mirror images. -/
structure ExitAlike (p : MutablePosition) (price high low k : Decimal) : Prop where
  refines : (triggeredExit p price).map PaperExitReason.value = reasonOf (barExit p price price)
  engine_mirror : ∀ q, Mirrored k p q →
    (triggeredExit q (k - price)).map PaperExitReason.value = (triggeredExit p price).map PaperExitReason.value
  backtest_mirror : reasonOf (mirroredExit k p high low) = reasonOf (barExit p high low)

/-- They are alike but where two reasons are tied at the nearest adverse level
and it is reached. -/
theorem exitAlike_iff (p : MutablePosition) (price high low k : Decimal) :
    ExitAlike p price high low k ↔
      ¬ (p.isLong ∧ Tie p.isLong price price (levelsOf p)) ∧ ¬ Tie p.isLong high low (levelsOf p) := by
  constructor
  · intro h
    exact ⟨triggeredExit_eq_barExit_iff.mp h.refines, mirroredExit_eq_barExit_iff.mp h.backtest_mirror⟩
  · rintro ⟨hprice, hbar⟩
    exact ⟨triggeredExit_eq_barExit_iff.mpr hprice, fun q hq => triggeredExit_mirror hq price,
      mirroredExit_eq_barExit_iff.mpr hbar⟩

end Mirrors

/-- A long at 100 whose stop and trailing stop were both set two percent below. -/
def tiedLong : MutablePosition where
  positionId := "pos-1"
  symbol := "BTCUSDT"
  side := .long
  quantity := 1
  entryPrice := 100
  notional := 100
  margin := 20
  approvedLeverage := 5
  entryFee := 0
  openedAt := 0
  openingOrderId := "ord-1"
  stopPrice := some 98
  trailingStopPercent := some 2
  liquidationPrice := some 80
  updatedAt := 0
  trailExtreme := some 100

/-- The engine reports the stop, the backtest the trailing stop. -/
theorem tiedLong_differs : ¬ ExitAlike tiedLong 97 97 97 0 :=
  fun h => absurd h.refines (by decide +kernel)

end Aetheris.ExitRules
