import Aetheris.Strategies

namespace Aetheris.Strategies

open Clock Indicators

section Cut

variable {α : Type} {p : α → Bool} {l : List α} {a : α}

theorem mem_rdropWhile_or (ha : a ∈ l) : a ∈ l.rdropWhile p ∨ p a := by
  rw [← List.rdropWhile_append_rtakeWhile (p := p) (l := l), List.mem_append] at ha
  exact ha.imp_right List.mem_rtakeWhile_imp

/-- A cut at the end leaves none behind if and only if there is none before one that stays. -/
theorem rdropWhile_none_iff : (∀ a ∈ l.rdropWhile p, ¬ p a) ↔ l.Pairwise fun a b => p a → p b := by
  constructor
  · intro h
    rw [← List.rdropWhile_append_rtakeWhile (p := p) (l := l), List.pairwise_append]
    refine ⟨?_, ?_, fun a ha b _ hpa => absurd hpa (h a ha)⟩
    · exact (List.pairwise_of_forall_mem_list fun a ha b _ hpa => absurd hpa (h a ha))
    · exact (List.pairwise_of_forall_mem_list fun a _ b hb _ => List.mem_rtakeWhile_imp hb)
  · intro h
    induction l using List.reverseRecOn with
    | nil => exact fun a ha => absurd ha List.not_mem_nil
    | append_singleton l last ih =>
        obtain ⟨hl, -, hlast⟩ := List.pairwise_append.mp h
        by_cases hp : p last
        · rw [List.rdropWhile_concat_pos _ _ _ hp]
          exact ih hl
        · rw [List.rdropWhile_concat_neg _ _ _ hp]
          intro a ha hpa
          rcases List.mem_append.mp ha with ha | ha
          · exact hp (hlast a ha last (List.mem_singleton_self last) hpa)
          · exact hp (List.mem_singleton.mp ha ▸ hpa)

end Cut

section Orders

variable {candles ordered : List Candle} {now : Timestamp}

def PreparedCandles.Ok (prepared : PreparedCandles) : Prop := prepared.problem = .noProblem

theorem ascending_iff : StrictlyAscending candles ↔ candles.Pairwise fun a b => a.openTime < b.openTime := by
  have htrans : IsTrans Candle fun a b => a.openTime < b.openTime := ⟨fun _ _ _ => lt_trans⟩
  exact List.isChain_iff_pairwise

theorem descending_iff : StrictlyDescending candles ↔ StrictlyAscending candles.reverse := by
  have htrans : IsTrans Candle fun a b => b.openTime < a.openTime := ⟨fun _ _ _ h h' => lt_trans h' h⟩
  rw [StrictlyDescending, List.isChain_iff_pairwise, ascending_iff, List.pairwise_reverse]

theorem nodup_of_ascending (h : StrictlyAscending candles) : (candles.map Candle.openTime).Nodup := by
  rw [List.Nodup, List.pairwise_map]
  exact (ascending_iff.mp h).imp ne_of_lt

/-- Candles that ascend in both directions are one at most. -/
theorem reverse_eq_of_ascending (h : StrictlyAscending candles) (hreverse : StrictlyAscending candles.reverse) :
    candles.reverse = candles := by
  have hback := List.pairwise_reverse.mp (ascending_iff.mp hreverse)
  cases candles with
  | nil => rfl
  | cons a rest =>
      cases rest with
      | nil => rfl
      | cons b rest =>
          have hlt := (List.pairwise_cons.mp (ascending_iff.mp h)).1 b List.mem_cons_self
          have hgt := (List.pairwise_cons.mp hback).1 b List.mem_cons_self
          exact absurd hgt (lt_asymm hlt)

theorem dropForming_candles (ordered : List Candle) (reversedOrder : Bool) (now : Timestamp) :
    (dropForming ordered reversedOrder now).candles = closedBars ordered now := by
  rw [dropForming]
  split
  · exact (‹closedBars ordered now = []›).symm
  · rfl

theorem dropForming_ok (ordered : List Candle) (reversedOrder : Bool) (now : Timestamp) :
    (dropForming ordered reversedOrder now).Ok ↔ closedBars ordered now ≠ [] := by
  rw [dropForming]
  split
  · exact iff_of_false PreparationProblem.noConfusion (not_not_intro ‹_›)
  · exact iff_of_true rfl ‹_›

/-- Candles in either order are cut at their newest end. -/
theorem prepareCandles_of_ordered (now : Timestamp) (hne : ordered ≠ []) (hordered : StrictlyAscending ordered)
    (hcandles : candles = ordered ∨ candles = ordered.reverse) :
    ∃ reversedOrder, prepareCandles candles now = dropForming ordered reversedOrder now := by
  have hunique := nodup_of_ascending hordered
  by_cases hascending : StrictlyAscending candles
  · have hsame : candles = ordered := by
      rcases hcandles with rfl | rfl
      · rfl
      · exact reverse_eq_of_ascending hordered hascending
    subst hsame
    refine ⟨false, ?_⟩
    rw [prepareCandles, if_neg hne, if_neg (not_not_intro hunique), if_pos hascending]
  · have hback : candles = ordered.reverse := hcandles.resolve_left fun h => hascending (h ▸ hordered)
    subst hback
    have hdescending : StrictlyDescending ordered.reverse := by
      rw [descending_iff, List.reverse_reverse]
      exact hordered
    refine ⟨true, ?_⟩
    rw [prepareCandles, if_neg (by simpa using hne), if_neg (by simpa [List.map_reverse] using hunique),
      if_neg hascending, if_pos hdescending, List.reverse_reverse]

theorem prepareCandles_of_unordered (now : Timestamp) (hne : candles ≠ []) (hascending : ¬ StrictlyAscending candles)
    (hdescending : ¬ StrictlyDescending candles) :
    ¬ (prepareCandles candles now).Ok ∧ (prepareCandles candles now).candles = [] := by
  rw [prepareCandles, if_neg hne, if_neg hascending, if_neg hdescending]
  split
  · exact ⟨PreparationProblem.noConfusion, rfl⟩
  · exact ⟨PreparationProblem.noConfusion, rfl⟩

/-- An order that can be made out, oldest first. -/
theorem exists_ordered (h : StrictlyAscending candles ∨ StrictlyDescending candles) :
    ∃ ordered, StrictlyAscending ordered ∧ (candles = ordered ∨ candles = ordered.reverse) := by
  rcases h with h | h
  · exact ⟨candles, h, .inl rfl⟩
  · exact ⟨candles.reverse, descending_iff.mp h, .inr (List.reverse_reverse candles).symm⟩

end Orders

section Delivery

variable {candles ordered : List Candle} {now : Timestamp}

/-- What the callers rely on: closed, ascending, unique candles, all that there are, or none. -/
structure Delivers (candles : List Candle) (now : Timestamp) : Prop where
  ascending : (prepareCandles candles now).Ok → StrictlyAscending (prepareCandles candles now).candles
  unique : (prepareCandles candles now).Ok → ((prepareCandles candles now).candles.map Candle.openTime).Nodup
  closed : (prepareCandles candles now).Ok → ∀ bar ∈ (prepareCandles candles now).candles, bar.closeTime ≤ now
  mem_iff : (prepareCandles candles now).Ok →
    ∀ bar, bar ∈ (prepareCandles candles now).candles ↔ bar ∈ candles ∧ bar.closeTime ≤ now
  reversed : (prepareCandles candles now).Ok →
    (prepareCandles candles.reverse now).candles = (prepareCandles candles now).candles
  again : (prepareCandles candles now).Ok →
    (prepareCandles (prepareCandles candles now).candles now).Ok ∧
      (prepareCandles (prepareCandles candles now).candles now).candles = (prepareCandles candles now).candles
  refused : ¬ (prepareCandles candles now).Ok → (prepareCandles candles now).candles = []

theorem Delivers.of_refused (h : ¬ (prepareCandles candles now).Ok) (hnil : (prepareCandles candles now).candles = []) :
    Delivers candles now where
  ascending hok := absurd hok h
  unique hok := absurd hok h
  closed hok := absurd hok h
  mem_iff hok := absurd hok h
  reversed hok := absurd hok h
  again hok := absurd hok h
  refused _ := hnil

theorem Delivers.of_ordered (hne : ordered ≠ []) (hordered : StrictlyAscending ordered)
    (hcandles : candles = ordered ∨ candles = ordered.reverse)
    (hclosed : ∀ bar ∈ closedBars ordered now, bar.closeTime ≤ now) : Delivers candles now := by
  obtain ⟨way, hway⟩ := prepareCandles_of_ordered now hne hordered hcandles
  have hprefix : closedBars ordered now <+: ordered := List.rdropWhile_prefix _ _
  have hascending : StrictlyAscending (closedBars ordered now) :=
    ascending_iff.mpr ((ascending_iff.mp hordered).sublist hprefix.sublist)
  have hmem (bar : Candle) : bar ∈ candles ↔ bar ∈ ordered := by
    rcases hcandles with rfl | rfl
    · rfl
    · exact List.mem_reverse
  have hback : candles.reverse = ordered ∨ candles.reverse = ordered.reverse := by
    rcases hcandles with rfl | rfl
    · exact .inr rfl
    · exact .inl (List.reverse_reverse ordered)
  obtain ⟨back, hback⟩ := prepareCandles_of_ordered now hne hordered hback
  refine ⟨fun hok => ?_, fun hok => ?_, fun hok => ?_, fun hok bar => ?_, fun hok => ?_, fun hok => ?_, fun hok => ?_⟩
  all_goals rw [hway] at hok ⊢
  all_goals rw [dropForming_ok] at hok
  · rw [dropForming_candles]
    exact hascending
  · rw [dropForming_candles]
    exact nodup_of_ascending hascending
  · rw [dropForming_candles]
    exact hclosed
  · rw [dropForming_candles, hmem]
    constructor
    · exact fun hbar => ⟨List.IsPrefix.subset hprefix hbar, hclosed bar hbar⟩
    · rintro ⟨hbar, hbefore⟩
      exact (mem_rdropWhile_or hbar).resolve_right (by simpa using hbefore)
  · rw [hback, dropForming_candles, dropForming_candles]
  · obtain ⟨way', hway'⟩ := prepareCandles_of_ordered now hok hascending (.inl rfl)
    have hagain : closedBars (closedBars ordered now) now = closedBars ordered now := List.rdropWhile_idempotent _ _
    rw [dropForming_candles, hway', dropForming_ok, dropForming_candles, hagain]
    exact ⟨hok, rfl⟩
  · rw [dropForming_candles]
    exact not_not.mp hok

/-- No candle that is still forming opened before one that is closed. -/
theorem closed_iff (hordered : StrictlyAscending ordered) :
    (∀ bar ∈ closedBars ordered now, bar.closeTime ≤ now) ↔
      ∀ a ∈ ordered, ∀ b ∈ ordered, a.openTime < b.openTime → b.closeTime ≤ now → a.closeTime ≤ now := by
  have hcut : (∀ bar ∈ closedBars ordered now, bar.closeTime ≤ now) ↔
      ordered.Pairwise fun a b => b.closeTime ≤ now → a.closeTime ≤ now := by
    have hiff := rdropWhile_none_iff (p := fun bar : Candle => decide (now < bar.closeTime)) (l := ordered)
    simp only [decide_eq_true_eq, not_lt] at hiff
    rw [closedBars, hiff]
    refine ⟨fun h => h.imp fun himp hb => ?_, fun h => h.imp fun himp ha => ?_⟩
    · by_contra ha
      exact absurd (himp (not_le.mp ha)) (not_lt.mpr hb)
    · by_contra hb
      exact absurd (himp (not_lt.mp hb)) (not_le.mpr ha)
  rw [hcut]
  constructor
  · intro hpairs
    refine List.Pairwise.forall_of_forall_of_flip (fun a _ hlt => absurd hlt (lt_irrefl _)) (hpairs.imp fun hab _ hb => hab hb) ?_
    exact (ascending_iff.mp hordered).imp fun hlt hgt => absurd hgt (lt_asymm hlt)
  · exact fun h => (ascending_iff.mp hordered).imp_of_mem fun ha hb hlt => h _ ha _ hb hlt

/-- On candles in one order or the other. -/
theorem delivers_of_ordered (h : StrictlyAscending candles ∨ StrictlyDescending candles) :
    Delivers candles now ↔
      ∀ a ∈ candles, ∀ b ∈ candles, a.openTime < b.openTime → b.closeTime ≤ now → a.closeTime ≤ now := by
  obtain ⟨ordered, hordered, hcandles⟩ := exists_ordered h
  have hmem (bar : Candle) : bar ∈ candles ↔ bar ∈ ordered := by
    rcases hcandles with rfl | rfl
    · rfl
    · exact List.mem_reverse
  simp only [hmem]
  rw [← closed_iff hordered]
  by_cases hnil : ordered = []
  · subst hnil
    obtain rfl : candles = [] := hcandles.elim id id
    exact iff_of_true (.of_refused PreparationProblem.noConfusion rfl) fun bar hbar => absurd hbar List.not_mem_nil
  · refine ⟨fun hdelivers => ?_, .of_ordered hnil hordered hcandles⟩
    obtain ⟨way, hway⟩ := prepareCandles_of_ordered now hnil hordered hcandles
    intro bar hbar
    have hclosed := hdelivers.closed
    rw [hway, dropForming_ok, dropForming_candles] at hclosed
    exact hclosed (List.ne_nil_of_mem hbar) bar hbar

/-- The callers get what they rely on unless an earlier candle is still forming when a later one is closed:
the cut looks at the end of the series only. -/
theorem prepareCandles_delivers_iff (candles : List Candle) (now : Timestamp) :
    Delivers candles now ↔ (StrictlyAscending candles ∨ StrictlyDescending candles →
      ∀ a ∈ candles, ∀ b ∈ candles, a.openTime < b.openTime → b.closeTime ≤ now → a.closeTime ≤ now) := by
  by_cases h : StrictlyAscending candles ∨ StrictlyDescending candles
  · rw [delivers_of_ordered h]
    exact ⟨fun hpairs _ => hpairs, fun hpairs => hpairs h⟩
  · refine iff_of_true ?_ fun hordered => absurd hordered h
    obtain ⟨hascending, hdescending⟩ := not_or.mp h
    have hne : candles ≠ [] := by
      rintro rfl
      exact hascending .nil
    obtain ⟨hok, hnil⟩ := prepareCandles_of_unordered now hne hascending hdescending
    exact .of_refused hok hnil

theorem still_range : (1 : Money.Decimal) ≤ 1 := le_refl 1

theorem still_low : (0 : Money.Decimal) ≤ 1 := zero_le_one

theorem still_volume : (0 : Money.Decimal) ≤ 0 := le_refl 0

/-- A candle that trades at one price from the one time to the other. -/
def still (openTime closeTime : Timestamp) (h : openTime < closeTime) : Candle where
  openTime := openTime
  closeTime := closeTime
  open_ := 1
  high := 1
  low := 1
  close := 1
  volume := 0
  low_nonneg := still_low
  low_le_open := still_range
  open_le_high := still_range
  low_le_close := still_range
  close_le_high := still_range
  volume_nonneg := still_volume
  ordered := h

/-- A candle that closes at 100 is still forming at 50, and is kept because the next one closed at 20. -/
theorem forming_kept : ¬ Delivers [still 0 100 (by decide), still 10 20 (by decide)] 50 := by
  have hascending : StrictlyAscending [still 0 100 (by decide), still 10 20 (by decide)] := by decide
  rw [delivers_of_ordered (.inl hascending)]
  intro h
  exact absurd (h _ List.mem_cons_self _ (List.mem_cons_of_mem _ List.mem_cons_self) (by decide) (by decide)) (by decide)

end Delivery

end Aetheris.Strategies
