import Aetheris.PaperAccounts

namespace Aetheris.PaperEnvelope

open Lib Mutation Money Clock Enums Leverage RiskEngine OrderIdentity PaperRecords PaperGate PaperPricing PaperEngine
  PaperLedger PaperRefinement PaperRuns PaperAccounts

/-- The limits of an account: what its configuration lets it hold. -/
structure Envelope (config : PaperEngineConfig) (s : PaperState) : Prop where
  keyed : ∀ e ∈ s.positions.entries, e.2.symbol = e.1
  one_per_symbol : (s.positions.values.map fun p => p.symbol).Nodup
  notional : ∀ p ∈ s.positions.values, 0 < p.notional ∧ p.notional ≤ config.maxPositionNotional
  slots : (s.positions.size : Int) ≤ max 0 config.maxOpenPositions
  exposure : exposure s ≤ max 0 config.maxPortfolioExposure

def exposed (l : Ledger) : Decimal := l.positions.total EntryTerms.notional

/-- What the gate leaves of an entry. -/
structure Fits (config : PaperEngineConfig) (l : Ledger) (t : EntryTerms) : Prop where
  notional_pos : 0 < t.notional
  notional_le : t.notional ≤ config.maxPositionNotional
  slots : (l.positions.size : Int) < config.maxOpenPositions
  exposure_le : exposed l + t.notional ≤ config.maxPortfolioExposure

structure Within (config : PaperEngineConfig) (l : Ledger) : Prop where
  notional : ∀ t ∈ l.positions.values, 0 < t.notional ∧ t.notional ≤ config.maxPositionNotional
  slots : (l.positions.size : Int) ≤ max 0 config.maxOpenPositions
  exposure : exposed l ≤ max 0 config.maxPortfolioExposure

variable {config : PaperEngineConfig} {today : Int} {l m : Ledger}

theorem within_enter {t : EntryTerms} (h : Within config l) (hfree : t.symbol ∉ l.positions.keys)
    (hfits : Fits config l t) : Within config (enter today t l) := by
  refine ⟨?_, ?_, ?_⟩
  · intro u hu
    rcases Dict.mem_values_set hfree hu with rfl | hu
    · exact ⟨hfits.notional_pos, hfits.notional_le⟩
    · exact h.notional u hu
  · have hsize : (l.positions.set t.symbol t).size = l.positions.size + 1 := by
      rw [Dict.size, Dict.set_of_not_mem hfree, List.length_append]
      rfl
    change ((l.positions.set t.symbol t).size : Int) ≤ _
    have hslots := hfits.slots
    rw [hsize]
    omega
  · have htotal : exposed (enter today t l) = exposed l + t.notional := Dict.total_set EntryTerms.notional hfree
    rw [htotal]
    exact hfits.exposure_le.trans (le_max_right ..)

theorem within_leave {s : SessionLine} {t : EntryTerms} {trade : PaperTrade} {fee : Decimal} (h : Within config l)
    (hheld : l.positions.get? t.symbol = some t) : Within config (leave config today t trade fee s l) := by
  refine ⟨fun u hu => h.notional u (Dict.mem_values_erase hu), ?_, ?_⟩
  · have hsize : (l.positions.erase t.symbol).size ≤ l.positions.size := List.length_filter_le ..
    change ((l.positions.erase t.symbol).size : Int) ≤ _
    have hslots := h.slots
    omega
  · have htotal : exposed (leave config today t trade fee s l) + t.notional = exposed l :=
      Dict.total_erase EntryTerms.notional hheld
    have hpos := (h.notional t (Dict.mem_values.mpr ⟨_, hheld⟩)).1
    exact le_trans (by linarith) h.exposure

theorem within_move (hm : Move config today (Fits config) l m) (h : Within config l) : Within config m := by
  cases hm with
  | start _ => exact ⟨h.notional, h.slots, h.exposure⟩
  | enter _ _ _ hfree _ hfits => exact within_enter h hfree hfits
  | leave _ _ hheld _ _ _ _ => exact within_leave h hheld

def symbolOf : Event → Option String
  | .opened _ t | .closed _ t _ => some t.symbol
  | .started _ _ _ | .locked _ => none

/-- The last that happened to the symbol is that it was opened, on these terms. -/
def HeldSince (journal : List Event) (t : EntryTerms) : Prop :=
  ∃ before date since, journal = before ++ .opened date t :: since ∧ ∀ e ∈ since, symbolOf e ≠ some t.symbol

/-- What is open is open on the terms it was opened on, and so is what is closed. -/
structure Unaltered (l : Ledger) : Prop where
  held : ∀ t ∈ l.positions.values, HeldSince l.journal t
  closed : ∀ before date t trade since, l.journal = before ++ .closed date t trade :: since → HeldSince before t

theorem heldSince_append {journal more : List Event} {t : EntryTerms} (h : HeldSince journal t)
    (hmore : ∀ e ∈ more, symbolOf e ≠ some t.symbol) : HeldSince (journal ++ more) t := by
  obtain ⟨before, date, since, rfl, hsince⟩ := h
  refine ⟨before, date, since ++ more, by simp, fun e he => ?_⟩
  rcases List.mem_append.mp he with he | he
  · exact hsince e he
  · exact hmore e he

theorem symbol_mem_keys {t : EntryTerms} (hkeyed : Keyed l) (ht : t ∈ l.positions.values) :
    t.symbol ∈ l.positions.keys := by
  obtain ⟨e, he, rfl⟩ := List.mem_map.mp ht
  rw [hkeyed e he]
  exact List.mem_map_of_mem he

/-- What is appended about other symbols, or as an opening, changes no earlier closing. -/
theorem closed_append {journal more : List Event}
    (h : ∀ before date t trade since, journal = before ++ .closed date t trade :: since → HeldSince before t)
    (hmore : ∀ before date t trade since, more = before ++ .closed date t trade :: since →
      HeldSince (journal ++ before) t) :
    ∀ before date t trade since, journal ++ more = before ++ .closed date t trade :: since → HeldSince before t := by
  intro before date t trade since heq
  rcases List.append_eq_append_iff.mp heq with ⟨left, rfl, hleft⟩ | ⟨left, hleft, hright⟩
  · exact hmore left date t trade since hleft
  · cases left with
    | nil =>
        rw [List.append_nil] at hleft
        subst hleft
        have hheld := hmore [] date t trade since hright.symm
        rwa [List.append_nil] at hheld
    | cons e left =>
        obtain ⟨rfl, _⟩ := List.cons.inj hright
        exact h before date t trade left hleft

theorem unaltered_start (h : Unaltered l) : Unaltered (start config today l) := by
  refine ⟨fun t ht => heldSince_append (h.held t ht) (by simp [symbolOf]), closed_append h.closed ?_⟩
  intro before date t trade since heq
  rcases List.append_eq_singleton_iff.mp heq.symm with ⟨_, h⟩ | ⟨_, h⟩
  · cases h
  · cases h

theorem unaltered_enter {t : EntryTerms} (hkeyed : Keyed l) (h : Unaltered l) (hfree : t.symbol ∉ l.positions.keys) :
    Unaltered (enter today t l) := by
  refine ⟨?_, closed_append h.closed ?_⟩
  · intro u hu
    rcases Dict.mem_values_set hfree hu with rfl | hu
    · exact ⟨l.journal, today, [], rfl, by simp⟩
    · have hother : t.symbol ≠ u.symbol := fun hsame => hfree (hsame ▸ symbol_mem_keys hkeyed hu)
      exact heldSince_append (h.held u hu) (by simpa [symbolOf] using hother)
  · intro before date u trade since heq
    rcases List.append_eq_singleton_iff.mp heq.symm with ⟨_, h⟩ | ⟨_, h⟩
    · cases h
    · cases h

theorem symbolOf_lockedEvents {s s' : SessionLine} {e : Event} (he : e ∈ lockedEvents s s') : symbolOf e = none := by
  unfold lockedEvents at he
  split at he
  · rw [List.mem_singleton] at he
    rw [he]
    rfl
  · exact nomatch he

theorem unaltered_leave {s : SessionLine} {t : EntryTerms} {trade : PaperTrade} {fee : Decimal} (hkeyed : Keyed l)
    (h : Unaltered l) (hheld : l.positions.get? t.symbol = some t) :
    Unaltered (leave config today t trade fee s l) := by
  refine ⟨?_, closed_append h.closed ?_⟩
  · intro u hu
    obtain ⟨e, he, rfl⟩ := List.mem_map.mp hu
    have hmem : e ∈ l.positions.entries := List.mem_of_mem_filter he
    have hother : t.symbol ≠ e.2.symbol := by
      rw [hkeyed e hmem]
      exact fun hsame => (of_decide_eq_true (List.mem_filter.mp he).2) hsame.symm
    refine heldSince_append (h.held e.2 (List.mem_map_of_mem hmem)) fun event hevent => ?_
    rcases List.mem_cons.mp hevent with rfl | hevent
    · simpa [symbolOf] using hother
    · rw [symbolOf_lockedEvents hevent]
      exact nofun
  · intro before date u trade' since heq
    cases before with
    | nil =>
        cases heq
        rw [List.append_nil]
        exact h.held t (Dict.mem_values.mpr ⟨_, hheld⟩)
    | cons e before =>
        obtain ⟨_, hrest⟩ := List.cons.inj heq
        have hmem : Event.closed date u trade' ∈ lockedEvents s (s.charge (trade.grossPnl - fee) fee).locked := by
          rw [hrest]
          exact List.mem_append_right _ (List.mem_cons_self ..)
        exact nomatch symbolOf_lockedEvents hmem

/-- The one invariant behind the limits and behind what a position keeps. -/
structure Kept (config : PaperEngineConfig) (l : Ledger) : Prop where
  keyed : Keyed l
  within : Within config l
  unaltered : Unaltered l

theorem kept_move (hm : Move config today (Fits config) l m) (h : Kept config l) : Kept config m := by
  refine ⟨keyed_move hm h.keyed, within_move hm h.within, ?_⟩
  cases hm with
  | start _ => exact unaltered_start h.unaltered
  | enter _ _ _ hfree _ _ => exact unaltered_enter h.keyed h.unaltered hfree
  | leave _ _ hheld _ _ _ _ => exact unaltered_leave h.keyed h.unaltered hheld

theorem kept_opening {startingBalance : Decimal} {now : Timestamp} {durability : Durability} :
    Kept config (ledger (opening startingBalance now durability)) where
  keyed := keyed_opening
  within := ⟨fun _ ht => (nomatch ht), le_max_left .., le_max_left ..⟩
  unaltered := ⟨fun _ ht => (nomatch ht), fun _ _ _ _ _ h => nomatch (List.append_eq_nil_iff.mp h.symm).2⟩

theorem envelope_of_kept {r : Repository} (h : Kept config (ledger r)) : Envelope config r.state where
  keyed e he := h.keyed (e.1, e.2.toEntryTerms) (List.mem_map_of_mem (f := fun e => (e.1, e.2.toEntryTerms)) he)
  one_per_symbol := by
    have hkeyed : ∀ e ∈ r.state.positions.entries, e.2.symbol = e.1 := fun e he =>
      h.keyed (e.1, e.2.toEntryTerms) (List.mem_map_of_mem (f := fun e => (e.1, e.2.toEntryTerms)) he)
    have hsymbols : (r.state.positions.values.map fun p => p.symbol) = r.state.positions.entries.map Prod.fst := by
      rw [Dict.values, List.map_map]
      exact List.map_congr_left hkeyed
    rw [hsymbols]
    exact r.state.positions.nodup
  notional p hp := h.within.notional p.toEntryTerms (mem_terms.mpr ⟨p, hp, rfl⟩)
  slots := by
    have hsize : (ledger r).positions.size = r.state.positions.size := List.length_map ..
    rw [← hsize]
    exact h.within.slots
  exposure := by
    have htotal : exposed (ledger r) = exposure r.state :=
      Dict.total_map MutablePosition.toEntryTerms EntryTerms.notional r.state.positions
    rw [← htotal]
    exact h.within.exposure

section Runs

variable [Runtime]

/-- Every entry the gate lets through fits the account it is opened on. -/
theorem fits_admitted {r : Repository} {op : Operation} : op.Admitted (Fits config) config r := by
  cases op with
  | submitOrder request now mark filters leverage paperEnabled marks detail checks riskMax =>
      intro entry hentry orderId positionId
      have hadmitted := (considerOrder_ok (considerOrder_of_entryOf hentry).2).admitted
      refine ⟨hadmitted.notional_pos, hadmitted.notional_le, ?_, ?_⟩
      · have hsize : (ledger (onDay config now r)).positions.size = (onDay config now r).state.positions.size :=
          List.length_map ..
        rw [hsize]
        exact hadmitted.slots
      · have htotal : exposed (ledger (onDay config now r)) = exposure (onDay config now r).state :=
          Dict.total_map MutablePosition.toEntryTerms EntryTerms.notional _
        rw [htotal]
        exact hadmitted.exposure_le
  | _ => trivial

end Runs

end Aetheris.PaperEnvelope
