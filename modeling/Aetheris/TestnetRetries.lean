import Aetheris.Lib.Retry
import Aetheris.TestnetRequests

namespace Aetheris.TestnetRetries

open Lib Coroutine Clock TestnetService Signing TestnetRequests
open VenueAnswers (Interpreter Json)

variable {σ : Type}

/-- How long what is awaited takes. None of it raises: what may go wrong is an answer. -/
def lasts : Pace (Wire σ) ServiceError Money.Decimal
  | _, .http _, .ok _, seconds => 0 ≤ seconds
  | _, .sleep asked, .ok _, seconds => asked ≤ seconds
  | _, .timestamp, .ok _, seconds => seconds = 0
  | _, .keep _, _, seconds => 0 ≤ seconds
  | _, _, .error _, _ => False

/-- A request that has left. -/
def sent : Waited (Wire σ) ServiceError Money.Decimal → Option HttpRequest
  | ⟨.http request, _, _⟩ => some request
  | _ => none

/-- And its answer, unless it was cut off. -/
def answered : Waited (Wire σ) ServiceError Money.Decimal → Option (Option HttpAnswer)
  | ⟨.http _, some (.ok answer), _⟩ => some (some answer)
  | ⟨.http _, _, _⟩ => some none
  | _ => none

section

variable [Interpreter] (path : String)

/-- A timeout, and a failure of the venue's server, may pass. -/
def judge (answer : HttpAnswer) : Verdict AdapterError (Json × Timestamp) :=
  match single path answer with
  | .ok payload => .done (.ok payload)
  | .error e => if e.isTransient then .again e else .done (.error e)

theorem result_judge (answer : HttpAnswer) : (judge path answer).result = single path answer := by
  unfold judge
  cases single path answer with
  | ok payload => rfl
  | error e =>
      dsimp only
      split
      · rfl
      · rfl

theorem again_judge {answer : HttpAnswer} {fault : AdapterError} (h : judge path answer = .again fault) :
    single path answer = .error fault ∧ fault.isTransient := by
  unfold judge at h
  split at h
  · cases h
  · rename_i e he
    split at h
    · rename_i htransient
      cases h
      exact ⟨he, htransient⟩
    · cases h

variable (settings : TestnetSettings)

/-- Only after an answer, not after none, the next attempt waits. -/
def pause (attempt : Nat) : HttpAnswer → WireM σ Unit
  | .response _ _ => perform (.sleep (min (settings.backoffSeconds * 2 ^ attempt) settings.maxBackoffSeconds))
  | _ => return ()

variable [Hmac] (method : Method) (params : Params)

def ask : WireM σ HttpAnswer := do
  let timestampMs ← perform .timestamp
  perform (.http (signedRequest settings method path params timestampMs))

/-- The attempts at a request are a loop that asks again after a fault that may pass. -/
theorem attempts_eq (left attempt : Nat) :
    (attempts settings method path params left attempt : WireM σ _) =
      retrying (ask path settings method params) (judge path) (pause settings) .ok left attempt := by
  have hask : ∀ k : HttpAnswer → WireM σ (Except AdapterError (Json × Timestamp)),
      ask path settings method params >>= k = (do
        let timestampMs ← perform .timestamp
        let answer ← perform (.http (signedRequest settings method path params timestampMs))
        k answer) := fun k => bind_assoc _ _ _
  induction left generalizing attempt with
  | zero =>
      rw [attempts_zero, retrying, hask]
      congr 1
      funext timestampMs
      congr 1
      funext answer
      rw [result_judge]
      rfl
  | succ left ih =>
      rw [retrying, hask]
      unfold attempts
      congr 1
      funext timestampMs
      congr 1
      funext answer
      cases answer with
      | timedOut => exact ih _
      | unreachable => exact ih _
      | response response observedAt =>
          unfold judge single
          dsimp only
          cases decode path response with
          | ok payload => rfl
          | error e =>
              dsimp only [Except.map]
              by_cases htransient : e.isTransient = true
              · rw [if_pos htransient, if_pos htransient]
                exact congrArg _ (funext fun _ => ih _)
              · rw [if_neg htransient, if_neg htransient]
                rfl

section Runs

variable {path settings method params}
variable {pace : Pace (Wire σ) ServiceError Money.Decimal} {t t' deadline : Money.Decimal}
  {waits : List (Waited (Wire σ) ServiceError Money.Decimal)}
  (hpace : ∀ {β : Type} (f : Wire σ β) r seconds, pace f r seconds → lasts f r seconds)

omit [Interpreter] in
include hpace in
theorem runsBy_ask {r : Option (Except ServiceError HttpAnswer)}
    (h : RunsBy pace deadline t (ask path settings method params) waits r t') :
    ((∃ a, r = some (.ok a) ∧ waits.filterMap answered = [some a]) ∨
      (r = none ∧ (waits.filterMap answered = [] ∨ waits.filterMap answered = [none]))) ∧
      ∀ q ∈ waits.filterMap sent, ∃ timestampMs, q = signedRequest settings method path params timestampMs := by
  rcases h.of_bind with ⟨hrun, rfl⟩ | ⟨e, hrun, rfl⟩ | ⟨timestampMs, first, rest, t₁, hrun, hhttp, rfl⟩
  · obtain ⟨_, _, _, ⟨_, _, hr, _⟩ | ⟨_, rfl, _, _⟩⟩ := hrun.of_perform
    · cases hr
    · exact ⟨.inr ⟨rfl, .inl rfl⟩, nofun⟩
  · obtain ⟨_, _, hp, ⟨_, _, hr, _⟩ | ⟨_, _, hr, _⟩⟩ := hrun.of_perform
    · cases hr
      exact absurd (hpace _ _ _ hp) id
    · cases hr
  · obtain ⟨_, _, _, ⟨_, rfl, hr, _⟩ | ⟨_, _, hr, _⟩⟩ := hrun.of_perform
    · cases hr
      obtain ⟨answer, _, hp, ⟨_, rfl, rfl, _⟩ | ⟨_, rfl, rfl, _⟩⟩ := hhttp.of_perform
      · cases answer with
        | ok a => exact ⟨.inl ⟨a, rfl, rfl⟩, List.forall_mem_singleton.mpr ⟨timestampMs, rfl⟩⟩
        | error e => exact absurd (hpace _ _ _ hp) id
      · exact ⟨.inr ⟨rfl, .inr rfl⟩, List.forall_mem_singleton.mpr ⟨timestampMs, rfl⟩⟩
    · cases hr

omit [Interpreter] [Hmac] in
include hpace in
theorem runsBy_pause {n : Nat} {answer : HttpAnswer} {r : Option (Except ServiceError Unit)}
    (h : RunsBy pace deadline t (pause settings n answer) waits r t') :
    waits.filterMap answered = [] ∧ waits.filterMap sent = [] ∧ ∀ e, r ≠ some (.error e) := by
  unfold pause at h
  split at h
  · obtain ⟨slept, _, hp, ⟨_, rfl, rfl, _⟩ | ⟨_, rfl, rfl, _⟩⟩ := h.of_perform
    · cases slept with
      | ok _ => exact ⟨rfl, rfl, nofun⟩
      | error e => exact absurd (hpace _ _ _ hp) id
    · exact ⟨rfl, rfl, nofun⟩
  · cases h
    exact ⟨rfl, rfl, nofun⟩

end Runs

/-- A write leaves once, whatever comes of it. A read leaves again only after a fault that
may pass, each time signed anew, as often as is allowed; and what the last answer comes to
is the outcome. A rate limit, a refusal and a body that cannot be read end it. -/
theorem request_retried_when_transient (settings : TestnetSettings) (method : Method) (path : String)
    (params : List (String × ParamValue)) (pace : Pace (Wire σ) ServiceError Money.Decimal)
    (hpace : ∀ {β : Type} (f : Wire σ β) r seconds, pace f r seconds → lasts f r seconds)
    (deadline t t' : Money.Decimal) (waits : List (Waited (Wire σ) ServiceError Money.Decimal))
    (out : Option (Except ServiceError (Except AdapterError (Json × Timestamp))))
    (h : RunsBy pace deadline t (request settings method path params) waits out t') :
    (waits.filterMap answered).length ≤ (if method = .get then settings.maxReadRetries + 1 else 1) ∧
      (∀ q ∈ waits.filterMap sent, ∃ timestampMs, q = signedRequest settings method path (Dict.ofList params) timestampMs) ∧
      (∀ answer ∈ (waits.filterMap answered).dropLast, ∃ a e, answer = some a ∧ single path a = .error e ∧ e.isTransient) ∧
      ∀ r, out = some r → ∃ a, (waits.filterMap answered).getLast? = some (some a) ∧ r = .ok (single path a) := by
  rw [request, attempts_eq] at h
  have htried : Tried (judge path) .ok (retries settings method) (waits.filterMap answered) out :=
    RunsBy.tried _ _ (fun hrun => (runsBy_ask hpace hrun).1)
      (fun hrun => ⟨(runsBy_pause hpace hrun).1, (runsBy_pause hpace hrun).2.2⟩) h
  refine ⟨?_, fun q hq => ?_, fun answer hanswer => ?_, fun r hr => ?_⟩
  · have hlength := htried.length_le
    cases method with
    | get => exact hlength
    | post => exact hlength
    | delete => exact hlength
  · have heach : ∀ w ∈ waits, ∀ q, sent w = some q →
        ∃ timestampMs, q = signedRequest settings method path (Dict.ofList params) timestampMs := by
      refine RunsBy.each _ _ (fun hrun w hw q hq => ?_) (fun hrun w hw q hq => ?_) h
      · exact (runsBy_ask hpace hrun).2 q (List.mem_filterMap.mpr ⟨w, hw, hq⟩)
      · have hmem : q ∈ ([] : List HttpRequest) := (runsBy_pause hpace hrun).2.1 ▸ List.mem_filterMap.mpr ⟨w, hw, hq⟩
        exact absurd hmem List.not_mem_nil
    obtain ⟨w, hw, hwq⟩ := List.mem_filterMap.mp hq
    exact heach w hw q hwq
  · obtain ⟨a, fault, rfl, hv⟩ := htried.faults answer hanswer
    exact ⟨a, fault, rfl, (again_judge path hv).1, (again_judge path hv).2⟩
  · obtain ⟨a, hlast, hresult, _⟩ := htried.outcome hr
    exact ⟨a, hlast, by rw [hresult, result_judge]⟩

end

def exampleRead (timestampMs : Int) : HttpRequest :=
  @signedRequest constantHmac exampleSettings .get positionSideDual (Dict.ofList []) timestampMs

def exampleWaits : List (Waited (Wire Unit) ServiceError Money.Decimal) :=
  [⟨.timestamp, some (.ok 1), 0⟩, ⟨.http (exampleRead 1), some (.ok .timedOut), 10⟩, ⟨.timestamp, some (.ok 2), 0⟩,
    ⟨.http (exampleRead 2), some (.ok (.response ⟨200, some .null⟩ 3)), 1⟩]

theorem runsBy_exampleRead :
    RunsBy lasts 60 0 (@request VenueAnswers.referenceInterpreter constantHmac exampleSettings Unit .get positionSideDual [])
      exampleWaits (some (.ok (.ok (.null, 3)))) (0 + 0 + 10 + 0 + 1) := by
  change RunsBy lasts 60 0 (@attempts VenueAnswers.referenceInterpreter constantHmac exampleSettings Unit .get
    positionSideDual (Dict.ofList []) 2 0) _ _ _
  rw [@attempts_eq Unit VenueAnswers.referenceInterpreter]
  refine .answered (by norm_num [lasts]) (by norm_num) ?_
  refine .answered (by norm_num [lasts]) (by norm_num) ?_
  refine .answered (by norm_num [lasts]) (by norm_num) ?_
  refine .answered (by norm_num [lasts]) (by norm_num) ?_
  exact .ret

theorem request_retried_when_transient_read :
    (exampleWaits.filterMap answered).length ≤ 2 + 1 ∧
      ∀ q ∈ exampleWaits.filterMap sent, ∃ timestampMs, q = exampleRead timestampMs := by
  obtain ⟨hlength, hsigned, _⟩ := @request_retried_when_transient Unit VenueAnswers.referenceInterpreter constantHmac
    exampleSettings .get positionSideDual [] lasts (fun _ _ _ hp => hp) 60 0 _ exampleWaits _ runsBy_exampleRead
  exact ⟨hlength, hsigned⟩

end Aetheris.TestnetRetries
