import Aetheris.Enums

namespace Aetheris.OrderMachine

open Enums

structure TransitionDetails where
  orderId : String
  source : String
  target : String
  legal : List String
  deriving DecidableEq, Repr

structure IllegalTransitionError where
  detail : String
  details : Option TransitionDetails := none
  deriving DecidableEq, Repr

def legalTransitions : OrderState → List OrderState
  | .created => [.validating, .cancelled, .rejected]
  | .validating => [.submitted, .rejected, .cancelled]
  | .submitted => [.accepted, .partiallyFilled, .filled, .rejected, .cancelled, .expired, .unknown]
  | .accepted => [.partiallyFilled, .filled, .cancelRequested, .cancelled, .expired, .unknown]
  -- the self-loop lets a second fill be recorded without changing state
  | .partiallyFilled => [.partiallyFilled, .filled, .cancelRequested, .cancelled, .expired, .unknown]
  | .cancelRequested => [.cancelled, .filled, .partiallyFilled, .expired, .unknown]
  | .unknown => [.reconciling]
  | .reconciling => [.accepted, .partiallyFilled, .filled, .cancelled, .rejected, .expired, .unknown]
  | .filled | .cancelled | .rejected | .expired => []

def resolvableFromReconcilingStates : List OrderState := legalTransitions .reconciling

def canTransition (current target : OrderState) : Bool := (legalTransitions current).contains target

def resolvableFromReconciling (target : OrderState) : Bool :=
  resolvableFromReconcilingStates.contains target

def legalValues (current : OrderState) : List String :=
  ((legalTransitions current).map OrderState.value).mergeSort (fun a b => decide (a ≤ b))

/-- A list of strings as an f-string prints it. -/
def reprStrings (xs : List String) : String :=
  "[" ++ ", ".intercalate (xs.map (fun x => "'" ++ x ++ "'")) ++ "]"

def illegalDetail (current target : OrderState) (orderId : String) : String :=
  let now := current.value
  let wanted := target.value
  if current.isTerminal then
    s!"{orderId} is already {now}, which is terminal. A later message " ++
    s!"claiming {wanted} is a discrepancy to record, not a state to apply: " ++
    "applying it would destroy both the evidence and the settled state."
  else if current = .unknown then
    s!"{orderId} is UNKNOWN and cannot move directly to {wanted}. Its only " ++
    "exit is RECONCILING, because resolving an unknown order requires asking " ++
    "the venue rather than assuming an answer."
  else if current = .created ∧ target = .submitted then
    s!"{orderId} cannot be submitted directly from CREATED; it must pass " ++
    "through VALIDATING. The risk check is a prerequisite of submission, not " ++
    "an optional step."
  else
    let legal := legalValues current
    let shown := if legal.isEmpty then "none" else reprStrings legal
    s!"{orderId} cannot move from {now} to {wanted}. Legal " ++
    s!"targets are: {shown}."

def illegalTransition (current target : OrderState) (orderId : String) : IllegalTransitionError where
  detail := illegalDetail current target orderId
  details := some ⟨orderId, current.value, target.value, legalValues current⟩

def checkTransition (current target : OrderState) (orderId : String) :
    Except IllegalTransitionError Unit :=
  if canTransition current target then .ok () else .error (illegalTransition current target orderId)

theorem not_canTransition_of_terminal {current : OrderState} (h : current.isTerminal)
    (target : OrderState) : canTransition current target = false := by
  cases current <;> first | rfl | cases h

theorem legalTransitions_eq_nil_iff (current : OrderState) :
    legalTransitions current = [] ↔ current.isTerminal := by
  cases current <;> simp [legalTransitions, OrderState.isTerminal]

theorem canTransition_unknown_iff (target : OrderState) :
    canTransition .unknown target ↔ target = .reconciling := by
  cases target <;> decide

theorem canTransition_submitted_iff (current : OrderState) :
    canTransition current .submitted ↔ current = .validating := by
  cases current <;> decide

theorem canTransition_validating_iff (current : OrderState) :
    canTransition current .validating ↔ current = .created := by
  cases current <;> decide

theorem not_canTransition_created (current : OrderState) : canTransition current .created = false := by
  cases current <;> rfl

theorem canTransition_reconciling_iff (current : OrderState) :
    canTransition current .reconciling ↔ current = .unknown := by
  cases current <;> decide

/-- What reconciliation may conclude is never one of our own transient states. -/
theorem resolvable_iff (target : OrderState) :
    resolvableFromReconciling target ↔
      target ∉ [OrderState.created, .validating, .submitted, .cancelRequested, .reconciling] := by
  cases target <;> decide

end Aetheris.OrderMachine
