import Aetheris.PaperBrake
import Aetheris.PaperSnapshot

namespace Aetheris.PaperFiling

open Lib Mutation Relation IndexedLog Money Clock Enums RiskEngine OrderIdentity PaperRecords PaperEngine PaperLedger
  PaperRefinement PaperRuns PaperAccounts PaperOutcomes PaperIndex PaperBrake PaperSnapshot

/-- An id that the engine's counter never comes to. -/
structure Named (id : String) : Prop where
  nonempty : id ≠ ""
  uncounted : ∀ n : Nat, id ≠ s!"paper-{n}"
  unclosed : ∀ n : Nat, id ≠ s!"paper-close-{n}"

/-- Under the id the log has one order at most, and the index has it while the log does. -/
abbrev Tracked (id : String) (s : PaperState) : Prop :=
  Tracks PaperOrder.clientOrderId id s.orderLog s.ordersByClientId

variable {config : PaperEngineConfig} {r t : Repository} {id : String} {request : SubmitOrderRequest}

theorem submittedId_named (hid : Named id) {n : Nat} (h : submittedId request n = id) :
    request.clientOrderId = some id := by
  unfold submittedId at h
  cases hclient : request.clientOrderId with
  | none =>
      rw [hclient] at h
      exact absurd h.symm (hid.uncounted _)
  | some given =>
      rw [hclient] at h
      dsimp only at h
      split at h
      · exact absurd h.symm (hid.uncounted _)
      · rw [h]

/-- The call is a refusal under the id. -/
def Refuses (id : String) : Operation → Prop
  | .refuse request _ _ _ _ _ => request.clientOrderId = some id
  | _ => False

theorem tracked_of_shelf (h : Tracked id r.state) (hshelf : shelf t = shelf r) : Tracked id t.state := by
  rw [shelf, shelf, Prod.mk.injEq] at hshelf
  rw [Tracked, hshelf.1, hshelf.2]
  exact h

section Calls

variable [Runtime] {op : Operation}

omit [Runtime] in
theorem filed_new (hid : Named id) (h : Tracked id r.state) (hrefuses : Refuses id op → id ∉ loggedIds r.state)
    (hfiled : id ∈ filedUnder r op) : id ∉ loggedIds r.state := by
  cases op with
  | submitOrder request now mark filters leverage paperEnabled marks detail checks riskMax =>
      change id ∈ (if (repeated r request).isSome then none else some (submittedId request r.state.sequence)) at hfiled
      split at hfiled
      · cases hfiled
      next hnew =>
        have hsubmitted : submittedId request r.state.sequence = id := Option.some.inj hfiled
        rw [Option.not_isSome_iff_eq_none, repeated, hsubmitted, Dict.get?_eq_none] at hnew
        exact fun hlogged => hnew (h.indexed hlogged)
  | refuse request now code detail marks from_ =>
      exact hrefuses (submittedId_named hid (Option.some.inj hfiled))
  | closePosition symbol now mark reason marks => exact absurd (Option.some.inj hfiled).symm (hid.unclosed _)
  | replay | tick | setEmergencyStop | snapshot => cases hfiled

variable (config) in
theorem tracked_after (hid : Named id) (h : Tracked id r.state) (hrefuses : Refuses id op → id ∉ loggedIds r.state) :
    Tracked id (after config r op).state := by
  rcases shelf_after config r op with hshelf | ⟨filed, hfiled, order, hunder, hshelf⟩
  · exact tracked_of_shelf h hshelf
  · rw [shelf, Prod.mk.injEq] at hshelf
    rw [Tracked, hshelf.1, hshelf.2]
    refine h.push fun hsame => filed_new hid h hrefuses ?_
    rw [← hsame, hunder]
    exact hfiled

/-- The call opens a position. -/
def opens (config : PaperEngineConfig) (r : Repository) (op : Operation) : Bool :=
  decide ((openings r.journal).length < (openings (after config r op).journal).length)

/-- The id of the order under which the call opens a position. -/
def openedUnder (config : PaperEngineConfig) (r : Repository) : Operation → Option String
  | .submitOrder request now mark filters leverage paperEnabled marks detail checks riskMax =>
      let op := Operation.submitOrder request now mark filters leverage paperEnabled marks detail checks riskMax
      if opens config r op then some (submittedId request r.state.sequence) else none
  | _ => none

omit [Runtime] in
theorem openings_move {today : Int} {l m : Ledger} (hm : Move config today (fun _ _ => False) l m) :
    openings m.journal = openings l.journal := by
  cases hm with
  | start _ => exact (List.filterMap_append ..).trans (List.append_nil _)
  | enter _ _ _ _ _ hadmitted => exact hadmitted.elim
  | leave _ _ _ _ _ _ _ => exact openings_leave

theorem openings_after (hkeyed : Keyed (ledger r)) (h : op.Admitted (fun _ _ => False) config r) :
    openings (after config r op).journal = openings r.journal :=
  reflTransGen_invariant (I := fun l => openings l.journal = openings r.journal)
    (fun _ _ hm hl => (openings_move hm).trans hl) (after_moves hkeyed h) rfl

theorem not_opens (hkeyed : Keyed (ledger r)) (h : op.Admitted (fun _ _ => False) config r) :
    opens config r op = false := by
  rw [opens, openings_after hkeyed h]
  exact decide_eq_false (lt_irrefl _)

theorem openedUnder_new (hkeyed : Keyed (ledger r)) (hid : Named id) (h : id ∈ openedUnder config r op) :
    id ∉ r.state.ordersByClientId.keys ∧ ∃ request now mark filters leverage paperEnabled marks detail checks riskMax,
      op = .submitOrder request now mark filters leverage paperEnabled marks detail checks riskMax ∧
        request.clientOrderId = some id := by
  cases op with
  | submitOrder request now mark filters leverage paperEnabled marks detail checks riskMax =>
      change id ∈ (if opens config r _ then some (submittedId request r.state.sequence) else none) at h
      split at h
      next hopens =>
        have hsubmitted : submittedId request r.state.sequence = id := Option.some.inj h
        refine ⟨fun hindexed => ?_, _, _, _, _, _, _, _, _, _, _, rfl, submittedId_named hid hsubmitted⟩
        have hnot : opens config r (.submitOrder request now mark filters leverage paperEnabled marks detail checks
            riskMax) = false := by
          refine not_opens hkeyed fun entry hentry => ?_
          have hnew := (considerOrder_of_entryOf hentry).1
          rw [onDay_ordersByClientId, onDay_sequence, hsubmitted, Dict.get?_eq_none] at hnew
          exact absurd hindexed hnew
        exact Bool.noConfusion (hopens.symm.trans hnot)
      · cases h
  | _ => cases h

end Calls

end Aetheris.PaperFiling
