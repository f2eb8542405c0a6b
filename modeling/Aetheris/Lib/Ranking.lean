import Mathlib.Data.List.Nodup
import Mathlib.Order.Lattice

namespace Aetheris.Lib.Ranking

open List MergeSort.Internal

variable {α κ ν : Type}

section Stability

variable {le : α → α → Bool} {R : α → α → Prop} {l : List α}

/-- One stood before the other, on whichever side of it it is now. -/
def Stood (R : α → α → Prop) (a b : α × Nat) : Prop := a.2 < b.2 ∧ R a.1 b.1 ∨ b.2 < a.2 ∧ R b.1 a.1

theorem stood_symm {a b : α × Nat} (h : Stood R a b) : Stood R b a := Or.symm h

theorem stood_zipIdx (h : l.Pairwise R) : l.zipIdx.Pairwise (Stood R) := by
  rw [pairwise_iff_getElem] at h ⊢
  intro i j hi hj hij
  rw [length_zipIdx] at hi hj
  rw [getElem_zipIdx, getElem_zipIdx]
  exact Or.inl ⟨Nat.add_lt_add_left hij 0, h i j hi hj hij⟩

theorem zipIdxLE_iff {a b : α × Nat} : zipIdxLE le a b ↔ le a.1 b.1 ∧ (le b.1 a.1 → a.2 ≤ b.2) := by
  unfold zipIdxLE
  cases le a.1 b.1 <;> cases le b.1 a.1 <;> simp

/-- A stable sort leaves what it holds for equal in the order it was in. -/
theorem pairwise_mergeSort_stable (trans : ∀ a b c, le a b → le b c → le a c) (total : ∀ a b, le a b || le b a)
    (h : l.Pairwise R) : (l.mergeSort le).Pairwise fun a b => le a b ∧ (le b a → R a b) := by
  have hsorted : (l.zipIdx.mergeSort (zipIdxLE le)).Pairwise fun a b => zipIdxLE le a b :=
    pairwise_mergeSort (zipIdxLE_trans trans) (zipIdxLE_total total) l.zipIdx
  have hstood : (l.zipIdx.mergeSort (zipIdxLE le)).Pairwise (Stood R) :=
    ((mergeSort_perm _ _).pairwise_iff stood_symm).mpr (stood_zipIdx h)
  rw [← mergeSort_zipIdx, pairwise_map]
  refine (hsorted.and hstood).imp ?_
  rintro a b ⟨hle, hbefore⟩
  obtain ⟨hfirst, htie⟩ := zipIdxLE_iff.mp hle
  refine ⟨hfirst, fun hback => ?_⟩
  rcases hbefore with ⟨_, hR⟩ | ⟨hlt, _⟩
  · exact hR
  · exact absurd hlt (Nat.not_lt.mpr (htie hback))

end Stability

section Sorting

variable [LinearOrder κ]

/-- What a sort by a key asks of two neighbours. -/
def inOrder (reverse : Bool) (key : α → κ) (a b : α) : Bool :=
  if reverse then decide (key b ≤ key a) else decide (key a ≤ key b)

/-- `list.sort(key=key, reverse=reverse)`: stable, and no less so in reverse. -/
def sortBy (reverse : Bool) (key : α → κ) (l : List α) : List α := l.mergeSort (inOrder reverse key)

/-- Which of two values comes first. -/
def Leads (reverse : Bool) (x y : κ) : Prop := if reverse then y < x else x < y

variable {reverse : Bool} {key : α → κ} {l : List α} {R : α → α → Prop}

theorem sortBy_perm (reverse : Bool) (key : α → κ) (l : List α) : (sortBy reverse key l).Perm l :=
  mergeSort_perm l _

theorem mem_sortBy {a : α} : a ∈ sortBy reverse key l ↔ a ∈ l := (sortBy_perm reverse key l).mem_iff

theorem Leads.asymm {x y : κ} (h : Leads reverse x y) : ¬Leads reverse y x := by
  unfold Leads at *
  cases reverse
  · exact lt_asymm h
  · exact lt_asymm h

theorem inOrder_iff {a b : α} : inOrder reverse key a b ↔ Leads reverse (key a) (key b) ∨ key a = key b := by
  unfold inOrder Leads
  cases reverse
  · exact decide_eq_true_iff.trans le_iff_lt_or_eq
  · exact decide_eq_true_iff.trans (le_iff_lt_or_eq.trans (or_congr_right eq_comm))

theorem inOrder_trans (a b c : α) : inOrder reverse key a b → inOrder reverse key b c → inOrder reverse key a c := by
  unfold inOrder
  cases reverse
  · simpa using fun hab hbc => le_trans hab hbc
  · simpa using fun hab hbc => le_trans hbc hab

theorem inOrder_total (a b : α) : inOrder reverse key a b || inOrder reverse key b a := by
  unfold inOrder
  cases reverse
  · simpa using le_total (key a) (key b)
  · simpa using le_total (key b) (key a)

theorem Leads.map {μ : Type} [LinearOrder μ] {f : κ → μ} (hf : StrictMono f) {x y : κ} (h : Leads reverse x y) :
    Leads reverse (f x) (f y) := by
  unfold Leads at *
  cases reverse
  · exact hf h
  · exact hf h

/-- Sorted by a key, the rows are in its order, and as they were where it does not tell them apart. -/
theorem sortBy_pairwise (h : l.Pairwise R) :
    (sortBy reverse key l).Pairwise fun a b => Leads reverse (key a) (key b) ∨ key a = key b ∧ R a b := by
  refine (pairwise_mergeSort_stable inOrder_trans inOrder_total h).imp ?_
  rintro a b ⟨hle, htie⟩
  rcases inOrder_iff.mp hle with hleads | heq
  · exact Or.inl hleads
  · exact Or.inr ⟨heq, htie (inOrder_iff.mpr (Or.inr heq.symm))⟩

/-- Where the key tells all rows apart, the order is strict. -/
theorem sortBy_strict (h : (l.map key).Nodup) : (sortBy reverse key l).Pairwise fun a b => Leads reverse (key a) (key b) := by
  have hdistinct : l.Pairwise fun a b => key a ≠ key b := pairwise_map.mp h
  refine (sortBy_pairwise hdistinct).imp ?_
  rintro a b (hleads | ⟨heq, hne⟩)
  · exact hleads
  · exact absurd heq hne

theorem sortBy_ascending (h : (l.map key).Nodup) : (sortBy false key l).Pairwise fun a b => key a < key b := by
  have hstrict : (sortBy false key l).Pairwise fun a b => Leads false (key a) (key b) := sortBy_strict h
  exact hstrict

end Sorting

section Rankings

variable [LinearOrder κ] [LinearOrder ν] {descending : Bool} {key : α → Option κ} {name : α → ν}

/-- Known values lead in the direction asked for, equal ones by name; the unknown follow, by name. -/
def Ahead (descending : Bool) (key : α → Option κ) (name : α → ν) (a b : α) : Prop :=
  match key a, key b with
  | some x, some y => Leads descending x y ∨ x = y ∧ name a < name b
  | some _, none => True
  | none, some _ => False
  | none, none => name a < name b

theorem ahead_known {a b : α} {x y : κ} (hx : key a = some x) (hy : key b = some y)
    (h : Leads descending x y ∨ x = y ∧ name a < name b) : Ahead descending key name a b := by
  rw [Ahead, hx, hy]
  exact h

/-- The rows that were selected, each once, in their order. -/
structure Ranked (descending : Bool) (key : α → Option κ) (name : α → ν) (selected ranking : List α) : Prop where
  perm : ranking.Perm selected
  ordered : ranking.Pairwise (Ahead descending key name)

theorem Ahead.asymm {a b : α} (h : Ahead descending key name a b) : ¬Ahead descending key name b a := by
  unfold Ahead at *
  cases hx : key a with
  | none =>
      cases hy : key b with
      | none =>
          rw [hx, hy] at h
          exact lt_asymm h
      | some y =>
          rw [hx, hy] at h
          exact h.elim
  | some x =>
      cases hy : key b with
      | none => exact id
      | some y =>
          rw [hx, hy] at h
          rintro (hback | ⟨heq, hback⟩)
          · rcases h with h | ⟨h, _⟩
            · exact h.asymm hback
            · rw [h] at hback
              exact hback.asymm hback
          · rcases h with h | ⟨_, h⟩
            · rw [heq] at h
              exact h.asymm h
            · exact lt_asymm h hback

/-- There is one ranking of a selection, whatever order it is listed in. -/
theorem Ranked.unique {selected selected' ranking ranking' : List α}
    (h : Ranked descending key name selected ranking) (h' : Ranked descending key name selected' ranking')
    (hperm : selected.Perm selected') : ranking = ranking' :=
  Perm.eq_of_pairwise (fun _ _ _ _ hab hba => absurd hba hab.asymm) h.ordered h'.ordered
    ((h.perm.trans hperm).trans h'.perm.symm)

/-- Two parts, the known and the unknown, each in its order. -/
theorem ranked_append {rows present absent : List α} (hperm : (present ++ absent).Perm rows)
    (hknown : ∀ r ∈ present, (key r).isSome) (hunknown : ∀ r ∈ absent, key r = none)
    (hpresent : present.Pairwise (Ahead descending key name)) (habsent : absent.Pairwise fun a b => name a < name b) :
    Ranked descending key name rows (present ++ absent) := by
  refine ⟨hperm, pairwise_append.mpr ⟨hpresent, ?_, ?_⟩⟩
  · refine habsent.imp_of_mem fun {a b} ha hb h => ?_
    rw [Ahead, hunknown a ha, hunknown b hb]
    exact h
  · intro a ha b hb
    obtain ⟨x, hx⟩ := Option.isSome_iff_exists.mp (hknown a ha)
    rw [Ahead, hx, hunknown b hb]
    trivial

end Rankings

section Pages

/-- The pages of a size, counted from nothing. -/
def page (rows : List α) (size n : Nat) : List α := (rows.drop (n * size)).take size

/-- The first pages, one after the other, are the first rows. -/
theorem flatMap_page (rows : List α) (size k : Nat) :
    ((range k).flatMap fun n => page rows size n) = rows.take (k * size) := by
  induction k with
  | zero => rw [range_zero, flatMap_nil, Nat.zero_mul, take_zero]
  | succ k ih =>
      rw [range_succ, flatMap_append, ih, flatMap_singleton, Nat.succ_mul, take_add]
      rfl

end Pages

end Aetheris.Lib.Ranking
