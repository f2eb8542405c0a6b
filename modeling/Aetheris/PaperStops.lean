import Aetheris.PaperWorld

namespace Aetheris.PaperStops

open Lib Coroutine Mutation Relation Money Clock Enums Leverage RiskEngine RiskEnvelope OrderIdentity PaperRecords
  PaperPricing PaperEngine PaperLedger PaperRefinement PaperRuns PaperAccounts PaperService PaperWorld

/-- The stop lies between the entry and the liquidation level. -/
def Guarded (t : EntryTerms) : Prop :=
  ∀ stop ∈ t.stopPrice, ∀ level ∈ t.liquidationPrice,
    if t.isLong then level < stop ∧ stop < t.entryPrice else t.entryPrice < stop ∧ stop < level

section Exits

variable {p : MutablePosition} {price : Decimal} {isLong : Bool}

theorem stop_reached (hguard : Guarded p.toEntryTerms) (hstop : p.stopPrice.isSome)
    (h : reached p.isLong price p.liquidationPrice = true) : reached p.isLong price p.stopPrice = true := by
  obtain ⟨stop, hstop⟩ := Option.isSome_iff_exists.mp hstop
  cases hlevel : p.liquidationPrice with
  | none =>
      rw [hlevel] at h
      cases h
  | some level =>
      have hbetween := hguard stop hstop level hlevel
      rw [hlevel] at h
      rw [hstop]
      cases hside : p.isLong with
      | true =>
          rw [hside] at h hbetween
          have hprice : price ≤ level := of_decide_eq_true h
          exact decide_eq_true (hprice.trans hbetween.1.le)
      | false =>
          rw [hside] at h hbetween
          have hprice : level ≤ price := of_decide_eq_true h
          exact decide_eq_true (hbetween.2.le.trans hprice)

theorem nearest_mem {c : Decimal × PaperExitReason} {cs : List (Decimal × PaperExitReason)}
    (h : nearest isLong cs = some c) : c ∈ cs := by
  cases cs with
  | nil => cases h
  | cons first rest =>
      obtain rfl := Option.some.inj h
      clear h
      induction rest generalizing first with
      | nil => exact List.mem_cons_self ..
      | cons item rest ih =>
          have hmem := ih (if nearer isLong first item then item else first)
          rw [List.foldl_cons]
          rcases List.mem_cons.mp hmem with heq | hmem
          · rw [heq]
            split <;> simp
          · exact List.mem_cons_of_mem _ (List.mem_cons_of_mem _ hmem)

/-- The levels reached besides the liquidation level. -/
def otherLevels (p : MutablePosition) (price : Decimal) : List (Decimal × PaperExitReason) :=
  [(p.stopPrice, .stopLoss), (trailingLevel p, .trailingStop)].filterMap
    fun c => if reached p.isLong price c.1 then c.1.map (fun level => (level, c.2)) else none

theorem otherLevels_ne {c : Decimal × PaperExitReason} (h : c ∈ otherLevels p price) : c.2 ≠ .liquidation := by
  obtain ⟨level, hlevel, hc⟩ := List.mem_filterMap.mp h
  split at hc
  · obtain ⟨_, _, rfl⟩ := Option.map_eq_some_iff.mp hc
    rcases List.mem_cons.mp hlevel with rfl | hlevel
    · exact PaperExitReason.noConfusion
    · obtain rfl := List.mem_singleton.mp hlevel
      exact PaperExitReason.noConfusion
  · cases hc

/-- Where the liquidation level is reached, the stop is a level that beats it. -/
theorem nearest_candidates (hguard : Guarded p.toEntryTerms) (hstop : p.stopPrice.isSome) :
    nearest p.isLong (candidates p price) = nearest p.isLong (otherLevels p price) := by
  cases hliq : reached p.isLong price p.liquidationPrice with
  | false =>
      have hcandidates : candidates p price = otherLevels p price := by
        simp only [candidates, otherLevels, List.filterMap_cons, hliq, Bool.false_eq_true, if_false]
      rw [hcandidates]
  | true =>
      have hreached := stop_reached hguard hstop hliq
      obtain ⟨stop, hstop⟩ := Option.isSome_iff_exists.mp hstop
      obtain ⟨level, hlevel⟩ : ∃ level, p.liquidationPrice = some level := by
        cases h : p.liquidationPrice with
        | none =>
            rw [h] at hliq
            cases hliq
        | some level => exact ⟨level, rfl⟩
      have hbeats : nearer p.isLong (level, PaperExitReason.liquidation) (stop, .stopLoss) = true := by
        have hbetween := hguard stop hstop level hlevel
        unfold nearer
        cases hside : p.isLong with
        | true =>
            rw [hside] at hbetween
            exact decide_eq_true hbetween.1
        | false =>
            rw [hside] at hbetween
            exact decide_eq_true hbetween.2
      have hstopped : ∃ trailed, otherLevels p price = (stop, .stopLoss) :: trailed ∧
          candidates p price = (level, .liquidation) :: (stop, .stopLoss) :: trailed := by
        rw [hlevel] at hliq
        rw [hstop] at hreached
        simp only [candidates, otherLevels, List.filterMap_cons, hlevel, hstop, hliq, hreached, if_true,
          Option.map_some]
        exact ⟨_, rfl, rfl⟩
      obtain ⟨trailed, hothers, hcandidates⟩ := hstopped
      rw [hothers, hcandidates, nearest, nearest, List.foldl_cons, if_pos hbeats]

theorem triggeredExit_ne_liquidation (hguard : Guarded p.toEntryTerms) (hstop : p.stopPrice.isSome) :
    triggeredExit p price ≠ some .liquidation := by
  unfold triggeredExit
  rw [nearest_candidates hguard hstop]
  cases h : nearest p.isLong (otherLevels p price) with
  | some c => exact fun hc => otherLevels_ne (nearest_mem h) (Option.some.inj hc)
  | none =>
      dsimp only
      split <;> simp

end Exits

section Entries

variable {price percent l : Decimal}

/-- Before the margin is lost the stop is reached. -/
theorem stop_distance_lt (hprice : 0 < price) (hl : 0 < l) (hnear : l * percent < 100) :
    price * percent / 100 < price / l := by
  rw [div_lt_div_iff₀ (by norm_num) hl]
  calc price * percent * l = price * (l * percent) := by ring
    _ < price * 100 := mul_lt_mul_of_pos_left hnear hprice

theorem liquidationPrice_some {isLong : Bool} {level : Decimal} (h : liquidationPrice price l isLong = some level) :
    level = if isLong then price - price / l else price + price / l := by
  unfold liquidationPrice at h
  exact (Option.some.inj (Option.ite_none_right_eq_some.mp h).2).symm

theorem guarded_openedPosition {config : PaperEngineConfig} {request : SubmitOrderRequest} {symbol : String}
    {entry : Entry} {now : Timestamp} {orderId positionId : String} (hprice : 0 < entry.price)
    (hsafe : ∀ percent ∈ request.stopLossPercent,
      0 < percent ∧ 0 < entry.approvedLeverage ∧ entry.approvedLeverage * percent < 100) :
    Guarded (openedPosition config request symbol entry now orderId positionId).toEntryTerms := by
  rintro stop hstop level hlevel
  obtain ⟨percent, hpercent, rfl⟩ := Option.mem_map.mp hstop
  obtain ⟨hpos, hl, hnear⟩ := hsafe percent hpercent
  have hlt := stop_distance_lt hprice hl hnear
  have hmove : 0 < entry.price * percent / 100 := by positivity
  rw [liquidationPrice_some hlevel]
  by_cases hbuy : request.side = .buy
  · simp only [openedPosition, EntryTerms.isLong, levelAt, hbuy, decide_true, if_true, Bool.not_true,
      Bool.false_eq_true, if_false]
    exact ⟨sub_lt_sub_left hlt _, sub_lt_self _ hmove⟩
  · simp only [openedPosition, EntryTerms.isLong, levelAt, hbuy, decide_false, if_true, Bool.not_false,
      Bool.false_eq_true, if_false]
    exact ⟨lt_add_of_pos_right _ hmove, add_lt_add_right hlt _⟩

end Entries

section Verdicts

variable [Runtime] {proposal : RiskProposal} {account : RiskAccountView} {market : RiskMarketView}
  {policy : RiskPolicy} {now : Timestamp} {verdict : RiskVerdict}

/-- An approved leverage leaves the stop before the loss of the margin: it is
one, or within the derived ceiling, which keeps twice that distance. -/
theorem approved_clears_stop (h : evaluate proposal account market policy now = .ok verdict)
    (ha : verdict.approved = true) {stop l : Decimal} (hstop : proposal.stopLossPercent = some stop)
    (hinside : 0 < stop ∧ stop < 100) (hl : verdict.leverage.approvedLeverage = some l) :
    0 < l ∧ l * stop < 100 := by
  obtain ⟨price, l', notional, hcleared⟩ := evaluate_cleared h ha
  obtain rfl : l = l' := Option.some.inj (hl.symm.trans hcleared.approvedLeverage)
  obtain ⟨request, _, hpermitted⟩ := hcleared.leverage
  have hone : 1 ≤ l := hpermitted.min
  have hunit : l = 1 → l * stop < 100 := by
    rintro rfl
    rw [one_mul]
    exact hinside.2
  refine ⟨zero_lt_one.trans_le hone, ?_⟩
  rcases hpermitted.known with hmin | hknown
  · exact hunit hmin
  obtain ⟨c, hc⟩ := Option.isSome_iff_exists.mp hknown
  have hle : l ≤ c := hpermitted.risk c hc
  obtain ⟨stop', hstop', _, _, _, hfloor | ⟨_, _, hliquidation, _, _⟩⟩ := deriveRiskMaxLeverage_some hc
  · exact hunit (le_antisymm (hle.trans hfloor.le) hone)
  · obtain rfl : stop = stop' := Option.some.inj (hstop.symm.trans hstop')
    have hfactor : 0 < stop * liquidationSafetyFactor := mul_pos hinside.1 (by norm_num [liquidationSafetyFactor])
    have hwide := (le_div_iff₀ hfactor).mp (hle.trans hliquidation)
    rw [liquidationSafetyFactor] at hwide
    linarith

end Verdicts

/-- Whatever is open was opened with its stop before its liquidation level. -/
def AllGuarded (l : Ledger) : Prop := Keyed l ∧ ∀ t ∈ l.positions.values, Guarded t

section Moves

variable {config : PaperEngineConfig} {today : Int} {l m : Ledger}

theorem guarded_move (hm : Move config today (fun _ t => Guarded t) l m)
    (h : ∀ t ∈ l.positions.values, Guarded t) : ∀ t ∈ m.positions.values, Guarded t := by
  cases hm with
  | start _ => exact h
  | enter _ _ _ hfree _ hadmits =>
      intro u hu
      rcases Dict.mem_values_set hfree hu with rfl | hu
      · exact hadmits
      · exact h u hu
  | leave _ _ _ _ _ _ _ => exact fun u hu => h u (Dict.mem_values_erase hu)

end Moves

section Effects

variable [Runtime] {config : PaperEngineConfig}

theorem considered_of_entryOf {r : Repository} {request : SubmitOrderRequest} {mark : MarkPrice}
    {filters : Option SymbolFilters} {leverage : LeverageDecision} {paperEnabled : Bool} {entry : Entry}
    (h : entry ∈ entryOf config r request mark filters leverage paperEnabled) :
    Considered config r.state request (Runtime.upper request.symbol) leverage entry :=
  considerOrder_ok (considerOrder_of_entryOf h).2

theorem guarded_after {op : Operation} (hop : ∀ r, op.Admitted (fun _ t => Guarded t) config r) {r : Repository}
    (h : AllGuarded (ledger r)) : AllGuarded (ledger (after config r op)) :=
  ⟨keyed_after h.1, reflTransGen_invariant (I := fun l => ∀ t ∈ l.positions.values, Guarded t)
    (fun _ _ hm => guarded_move hm) (after_moves h.1 (hop r)) h.2⟩

omit [Runtime] in
theorem guarded_opening {startingBalance : Decimal} {now : Timestamp} {durability : Durability} :
    AllGuarded (ledger (opening startingBalance now durability)) := ⟨keyed_opening, fun _ ht => nomatch ht⟩

/-- What the service submits is approved with its stop before the loss of the
margin, or carries no approved leverage at all. -/
theorem admitted_of_issued {service : PaperTradingService} {op : Operation} (h : Issued service op) (r : Repository) :
    op.Admitted (fun _ t => Guarded t) config r := by
  cases h with
  | approved hverdict happroved =>
      intro entry hentry orderId positionId
      have hconsidered := considered_of_entryOf hentry
      refine guarded_openedPosition hconsidered.price_pos fun percent hpercent => ?_
      have hinside := hconsidered.stop percent hpercent
      exact ⟨hinside.1, approved_clears_stop hverdict happroved hpercent hinside hconsidered.approved⟩
  | unlisted => exact fun entry hentry => nomatch (considered_of_entryOf hentry).approved
  | _ => trivial

theorem guarded_exec {service : PaperTradingService} {β : Type} {f : Effect β} (hissued : IssuedBy service f)
    {w w' : World} {r : Except ServiceError β} (h : AllGuarded (ledger w.repository))
    (hx : exec config f w r w') : AllGuarded (ledger w'.repository) := by
  rcases exec_repository hx with hsame | ⟨op, hop, hcall⟩ | ⟨startingBalance, now, hreset⟩
  · rw [hsame]
    exact h
  · rw [hcall]
    exact guarded_after (admitted_of_issued (issued_of_operation hissued hop)) h
  · rw [hreset]
    have hsnapshot : Issued service (.snapshot now .empty) := .snapshot
    exact guarded_after (admitted_of_issued hsnapshot) guarded_opening

end Effects

def heldWorld : World :=
  ((@serve referenceRuntime exampleService (exampleOrder "BTCUSDT")).interp
    (@Venue.answers referenceRuntime exampleConfig (quoted 0 99)) (booted 1000 0 .inMemory)).2

end Aetheris.PaperStops
