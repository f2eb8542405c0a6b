import Aetheris.Lib.Retry
import Aetheris.Signing
import Aetheris.VenueAnswers

namespace Aetheris.ExchangeHttp

open Lib Coroutine Money VenueAnswers Signing

abbrev Details := List (String × Json)

/-- The faults of an exchange, by what a caller should do about them. -/
inductive ExchangeError
  | timeout (message : String) (details : Details)
  | rateLimited (message : String) (retryAfterSeconds : Option FloatNumber) (details : Details)
  | unavailable (message : String) (details : Details)
  | invalidResponse (message : String) (details : Details)

def ExchangeError.code : ExchangeError → String
  | timeout _ _ => "EXCHANGE_TIMEOUT"
  | rateLimited _ _ _ => "EXCHANGE_RATE_LIMITED"
  | unavailable _ _ => "EXCHANGE_UNAVAILABLE"
  | invalidResponse _ _ => "EXCHANGE_INVALID_RESPONSE"

/-- What comes of a request; with a response, its `Retry-After` as `float` reads it. -/
inductive Answer
  | timedOut
  | failed (errorType : String)
  | response (response : Response) (retryAfter : Option FloatNumber)

inductive HttpEffect : Type → Type 1
  | get (path : String) (params : List (String × ParamValue)) : HttpEffect Answer
  | uniform (low high : Decimal) : HttpEffect Decimal
  | sleep (seconds : Decimal) : HttpEffect Unit

abbrev HttpM := Coroutine HttpEffect ExchangeError

def retryableStatus : List Nat := [429, 418, 500, 502, 503, 504]

def rateLimitStatus : List Nat := [429, 418]

structure ExchangeHttpClient where
  source : String
  requestTimeoutSeconds : Decimal := 10
  maxRetries : Nat := 3
  backoffSeconds : Decimal := 1 / 2
  maxBackoffSeconds : Decimal := 8
  requestTimeout_nonneg : 0 ≤ requestTimeoutSeconds
  maxBackoff_nonneg : 0 ≤ maxBackoffSeconds

def retryAfterSeconds : Answer → Option FloatNumber
  | .response _ (some (.finite value)) => if 0 ≤ value then some (.finite value) else none
  | .response _ (some (.infinite false)) => some (.infinite false)
  | _ => none

/-- With the wait that the venue asked for among the details. -/
def rateLimitedError (message : String) (retryAfter : Option FloatNumber) (details : Details) : ExchangeError :=
  .rateLimited message retryAfter
    (details ++ (retryAfter.map fun seconds => ("retry_after_seconds", Json.float seconds)).toList)

namespace ExchangeHttpClient

variable (client : ExchangeHttpClient) (path : String) (params : List (String × ParamValue))

/-- A budget for every attempt and every pause. -/
def totalTimeout : Decimal :=
  client.requestTimeoutSeconds * (client.maxRetries + 1) + client.maxBackoffSeconds * client.maxRetries + 1

theorem totalTimeout_nonneg : 0 ≤ client.totalTimeout := by
  have hretries : (0 : Decimal) ≤ client.maxRetries := Nat.cast_nonneg _
  have hrequests := mul_nonneg client.requestTimeout_nonneg (add_nonneg hretries zero_le_one)
  have hpauses := mul_nonneg client.maxBackoff_nonneg hretries
  unfold totalTimeout
  linarith

/-- Exponential, with full jitter and a cap; or as long as the venue asked for, with the cap. -/
def backoffDelay (attempt : Nat) : Option FloatNumber → HttpM Decimal
  | some (.finite retryAfter) => return min retryAfter client.maxBackoffSeconds
  | some _ => return client.maxBackoffSeconds
  | none =>
      if client.backoffSeconds ≤ 0 then return 0
      else perform (.uniform 0 (min (client.backoffSeconds * 2 ^ attempt) client.maxBackoffSeconds))

def decode (response : Response) : Except ExchangeError Json :=
  match response.body with
  | some payload => .ok payload
  | none =>
      .error (.invalidResponse "Exchange response was not valid JSON" [("path", .text path), ("source", .text client.source)])

/-- Only a fault that may pass is worth another attempt. -/
def judge (answer : Answer) : Verdict ExchangeError Json :=
  let details : Details := [("path", .text path), ("source", .text client.source)]
  match answer with
  | .timedOut => .again (.timeout s!"Exchange request to {path} timed out" details)
  | .failed errorType => .again (.unavailable s!"Could not reach the exchange: {errorType}" details)
  | .response response _ =>
      let status := response.statusCode
      if status < 400 then .done (client.decode path response)
      else if status ∈ rateLimitStatus then
        .again (rateLimitedError s!"Exchange rate limited the request (HTTP {status})" (retryAfterSeconds answer) details)
      else if status ∈ retryableStatus then .again (.unavailable s!"Exchange returned HTTP {status}" details)
      else
        .done (.error (.unavailable s!"Exchange rejected the request with HTTP {status}"
          (details ++ [("status", .int status)])))

def getJsonAttempts : HttpM Json :=
  retrying (perform (.get path params)) (client.judge path)
    (fun attempt answer => do
      let delay ← client.backoffDelay attempt (retryAfterSeconds answer)
      perform (.sleep delay))
    id client.maxRetries 0

/-- What the attempts come to, if they come to anything before the budget is spent. -/
def getJson : Option (Except ExchangeError Json) → Except ExchangeError Json
  | some result => result
  | none =>
      let total := fixed 1 client.totalTimeout
      .error (.timeout s!"Exchange request exceeded the total budget of {total}s"
        [("path", .text path), ("source", .text client.source)])

end ExchangeHttpClient

/-- How long what is awaited takes: a sleep at least as long as it should. -/
def lasts : Pace HttpEffect ExchangeError Decimal
  | _, .get _ _, .ok _, seconds => 0 ≤ seconds
  | _, .uniform low high, .ok drawn, seconds => low ≤ drawn ∧ drawn ≤ high ∧ seconds = 0
  | _, .sleep asked, .ok _, seconds => asked ≤ seconds
  | _, _, .error _, _ => False

/-- No request takes longer than its own timeout, and no sleep oversleeps by more than this. -/
def Punctual (client : ExchangeHttpClient) (late : Decimal) (pace : Pace HttpEffect ExchangeError Decimal) : Prop :=
  ∀ {β : Type} (f : HttpEffect β) r seconds, pace f r seconds →
    match f with
    | .get _ _ => seconds ≤ client.requestTimeoutSeconds
    | .sleep asked => seconds ≤ asked + late
    | .uniform _ _ => True

/-- A request that was made, with its answer unless it was cut off. -/
def requested : Waited HttpEffect ExchangeError Decimal → Option (Option Answer)
  | ⟨.get _ _, some (.ok answer), _⟩ => some (some answer)
  | ⟨.get _ _, _, _⟩ => some none
  | _ => none

/-- A pause between two requests. -/
def paused : Waited HttpEffect ExchangeError Decimal → Option Decimal
  | ⟨.sleep asked, _, _⟩ => some asked
  | _ => none

section Runs

variable {client : ExchangeHttpClient} {path : String} {params : List (String × ParamValue)}
  {pace : Pace HttpEffect ExchangeError Decimal} {t t' : Decimal} {deadline : Decimal}
  {waits : List (Waited HttpEffect ExchangeError Decimal)}

section Steps

variable (hpace : ∀ {β : Type} (f : HttpEffect β) r seconds, pace f r seconds → lasts f r seconds)

include hpace in
theorem runsBy_get {r : Option (Except ExchangeError Answer)}
    (h : RunsBy pace deadline t (perform (.get path params)) waits r t') :
    (∃ a, r = some (.ok a) ∧ waits.filterMap requested = [some a]) ∨
      (r = none ∧ (waits.filterMap requested = [] ∨ waits.filterMap requested = [none])) := by
  obtain ⟨answer, seconds, hp, ⟨_, rfl, rfl, _⟩ | ⟨_, rfl, rfl, _⟩⟩ := h.of_perform
  · cases answer with
    | ok a => exact .inl ⟨a, rfl, rfl⟩
    | error e => exact absurd (hpace _ _ _ hp) id
  · exact .inr ⟨rfl, .inr rfl⟩

theorem paused_get {r : Option (Except ExchangeError Answer)}
    (h : RunsBy pace deadline t (perform (.get path params)) waits r t') : ∀ w ∈ waits, ∀ asked, paused w ≠ some asked := by
  obtain ⟨_, _, _, ⟨_, rfl, _, _⟩ | ⟨_, rfl, _, _⟩⟩ := h.of_perform
  · exact List.forall_mem_singleton.mpr nofun
  · exact List.forall_mem_singleton.mpr nofun

theorem runsBy_get_in_time {late : Decimal} (hpunctual : Punctual client late pace)
    {r : Option (Except ExchangeError Answer)} (h : RunsBy pace deadline t (perform (.get path params)) waits r t')
    (ht : t + client.requestTimeoutSeconds < deadline) : r ≠ none ∧ t' ≤ t + client.requestTimeoutSeconds := by
  obtain ⟨_, seconds, hp, ⟨_, _, rfl, rfl⟩ | ⟨hd, _, _, _⟩⟩ := h.of_perform
  · have hseconds : seconds ≤ client.requestTimeoutSeconds := hpunctual _ _ _ hp
    exact ⟨nofun, by linarith⟩
  · have hseconds : seconds ≤ client.requestTimeoutSeconds := hpunctual _ _ _ hp
    exact absurd (hd.trans (by linarith : t + seconds ≤ _)) (not_le.mpr ht)

/-- What a pause awaits: at most a draw, and then a sleep no longer than the cap. -/
structure Pauses (client : ExchangeHttpClient) (waits : List (Waited HttpEffect ExchangeError Decimal)) : Prop where
  requested : waits.filterMap requested = []
  paused : ∀ asked ∈ waits.filterMap paused, 0 ≤ asked ∧ asked ≤ client.maxBackoffSeconds

theorem Pauses.append {waits' : List (Waited HttpEffect ExchangeError Decimal)} (h : Pauses client waits)
    (h' : Pauses client waits') : Pauses client (waits ++ waits') := by
  refine ⟨by rw [List.filterMap_append, h.requested, h'.requested]; rfl, fun asked hasked => ?_⟩
  rw [List.filterMap_append] at hasked
  exact (List.mem_append.mp hasked).elim (h.paused asked) (h'.paused asked)

theorem retryAfter_nonneg {answer : Answer} {value : Decimal} (h : retryAfterSeconds answer = some (.finite value)) :
    0 ≤ value := by
  unfold retryAfterSeconds at h
  split at h
  · split at h
    · rename_i hnonneg
      cases h
      exact hnonneg
    · cases h
  · cases h
  · cases h

include hpace in
/-- The delay is drawn in no time, and is within the cap. -/
theorem runsBy_backoffDelay {n : Nat} {answer : Answer} {r : Option (Except ExchangeError Decimal)}
    (h : RunsBy pace deadline t (client.backoffDelay n (retryAfterSeconds answer)) waits r t') :
    Pauses client waits ∧ (t < deadline → r ≠ none ∧ t' = t) ∧
      ∀ result, r = some result → ∃ delay, result = .ok delay ∧ 0 ≤ delay ∧ delay ≤ client.maxBackoffSeconds := by
  have hreturned : ∀ {delay : Decimal}, 0 ≤ delay → delay ≤ client.maxBackoffSeconds →
      RunsBy pace deadline t (return delay) waits r t' →
      Pauses client waits ∧ (t < deadline → r ≠ none ∧ t' = t) ∧
        ∀ result, r = some result → ∃ delay, result = .ok delay ∧ 0 ≤ delay ∧ delay ≤ client.maxBackoffSeconds := by
    intro delay hnonneg hcap hrun
    cases hrun
    refine ⟨⟨rfl, nofun⟩, fun _ => ⟨nofun, rfl⟩, fun result hr => ⟨delay, ?_, hnonneg, hcap⟩⟩
    exact (Option.some.inj hr).symm
  unfold ExchangeHttpClient.backoffDelay at h
  split at h
  · rename_i value hafter
    exact hreturned (le_min (retryAfter_nonneg hafter) client.maxBackoff_nonneg) (min_le_right _ _) h
  · exact hreturned client.maxBackoff_nonneg le_rfl h
  · split at h
    · exact hreturned le_rfl client.maxBackoff_nonneg h
    · obtain ⟨drawn, seconds, hp, ⟨_, rfl, rfl, rfl⟩ | ⟨hd, rfl, rfl, _⟩⟩ := h.of_perform
      · cases drawn with
        | error e => exact absurd (hpace _ _ _ hp) id
        | ok x =>
            obtain ⟨hlow, hhigh, rfl⟩ := hpace _ _ _ hp
            refine ⟨⟨rfl, nofun⟩, fun _ => ⟨nofun, add_zero t⟩, fun result hr => ⟨x, ?_, hlow, ?_⟩⟩
            · exact (Option.some.inj hr).symm
            · exact hhigh.trans (min_le_right _ _)
      · refine ⟨⟨rfl, nofun⟩, fun ht => ?_, nofun⟩
        cases drawn with
        | error e => exact absurd (hpace _ _ _ hp) id
        | ok x =>
            obtain ⟨_, _, rfl⟩ := hpace _ _ _ hp
            exact absurd ht (not_lt.mpr (by simpa using hd))

include hpace in
theorem runsBy_pause {n : Nat} {answer : Answer} {r : Option (Except ExchangeError Unit)}
    (h : RunsBy pace deadline t (do
      let delay ← client.backoffDelay n (retryAfterSeconds answer)
      perform (.sleep delay)) waits r t') :
    Pauses client waits ∧ (∀ e, r ≠ some (.error e)) ∧
      ∀ late, Punctual client late pace → 0 ≤ late → t + (client.maxBackoffSeconds + late) < deadline →
        r ≠ none ∧ t' ≤ t + (client.maxBackoffSeconds + late) := by
  have hstarts : ∀ {late}, 0 ≤ late → t + (client.maxBackoffSeconds + late) < deadline → t < deadline :=
    fun hlate ht => (le_add_of_nonneg_right (add_nonneg client.maxBackoff_nonneg hlate)).trans_lt ht
  rcases h.of_bind with ⟨hrun, rfl⟩ | ⟨e, hrun, rfl⟩ | ⟨delay, first, rest, t₁, hrun, hsleep, rfl⟩
  · obtain ⟨hpauses, hin, _⟩ := runsBy_backoffDelay hpace hrun
    exact ⟨hpauses, nofun, fun late _ hlate ht => absurd rfl (hin (hstarts hlate ht)).1⟩
  · obtain ⟨_, _, hresult⟩ := runsBy_backoffDelay hpace hrun
    obtain ⟨_, hok, _⟩ := hresult _ rfl
    cases hok
  · obtain ⟨hpauses, hin, hresult⟩ := runsBy_backoffDelay hpace hrun
    obtain ⟨_, hok, hnonneg, hcap⟩ := hresult _ rfl
    cases hok
    obtain ⟨slept, seconds, hp, ⟨_, rfl, rfl, rfl⟩ | ⟨hd, rfl, rfl, _⟩⟩ := hsleep.of_perform
    · refine ⟨hpauses.append ⟨rfl, ?_⟩, fun e he => ?_, fun late hpunctual hlate ht => ⟨nofun, ?_⟩⟩
      · exact List.forall_mem_singleton.mpr ⟨hnonneg, hcap⟩
      · cases slept with
        | ok _ => cases he
        | error e => exact absurd (hpace _ _ _ hp) id
      · have hseconds : seconds ≤ delay + late := hpunctual _ _ _ hp
        rw [(hin (hstarts hlate ht)).2]
        linarith
    · refine ⟨hpauses.append ⟨rfl, ?_⟩, nofun, fun late hpunctual hlate ht => ?_⟩
      · exact List.forall_mem_singleton.mpr ⟨hnonneg, hcap⟩
      · have hseconds : seconds ≤ delay + late := hpunctual _ _ _ hp
        rw [(hin (hstarts hlate ht)).2] at hd
        linarith

end Steps

/-- A request for a document is made as often as its retries allow, again only after a
fault that may pass, with pauses within the cap, and never past the budget. Its outcome
is that of the last request; the budget runs out on none that keep to their timeout. -/
theorem get_json_bounded (client : ExchangeHttpClient) (path : String) (params : List (String × ParamValue))
    (pace : Pace HttpEffect ExchangeError Decimal)
    (hpace : ∀ {β : Type} (f : HttpEffect β) r seconds, pace f r seconds → lasts f r seconds)
    (waits : List (Waited HttpEffect ExchangeError Decimal)) (out : Option (Except ExchangeError Json)) (t' : Decimal)
    (h : RunsBy pace client.totalTimeout 0 (client.getJsonAttempts path params) waits out t') :
    (waits.filterMap requested).length ≤ client.maxRetries + 1 ∧ t' ≤ client.totalTimeout ∧
      (∀ answer ∈ (waits.filterMap requested).dropLast, ∃ a, answer = some a ∧ (client.judge path a).isAgain) ∧
      (∀ asked ∈ waits.filterMap paused, 0 ≤ asked ∧ asked ≤ client.maxBackoffSeconds) ∧
      (∀ r, out = some r → ∃ a, (waits.filterMap requested).getLast? = some (some a) ∧
        client.getJson path out = (client.judge path a).result ∧
        ((client.judge path a).isAgain → (waits.filterMap requested).length = client.maxRetries + 1)) ∧
      (out = none → t' = client.totalTimeout ∧
        ∀ late : Decimal, 0 ≤ late → late * client.maxRetries < 1 → ¬ Punctual client late pace) := by
  have htried : Tried (client.judge path) id client.maxRetries (waits.filterMap requested) out :=
    RunsBy.tried _ _ (runsBy_get hpace)
      (fun hrun => ⟨(runsBy_pause hpace hrun).1.requested, (runsBy_pause hpace hrun).2.1⟩) h
  have hends := h.ends_by client.totalTimeout_nonneg
  refine ⟨htried.length_le, hends.1, fun answer hanswer => ?_, ?_, fun r hr => ?_, fun hout => ⟨hends.2 hout, ?_⟩⟩
  · obtain ⟨a, fault, rfl, hv⟩ := htried.faults answer hanswer
    exact ⟨a, rfl, by rw [hv]; rfl⟩
  · have heach : ∀ w ∈ waits, ∀ asked, paused w = some asked → 0 ≤ asked ∧ asked ≤ client.maxBackoffSeconds := by
      refine RunsBy.each _ _ (fun hrun w hw asked hasked => ?_) (fun hrun w hw asked hasked => ?_) h
      · exact absurd hasked (paused_get hrun w hw asked)
      · exact (runsBy_pause hpace hrun).1.paused asked (List.mem_filterMap.mpr ⟨w, hw, hasked⟩)
    intro asked hasked
    obtain ⟨w, hw, hwasked⟩ := List.mem_filterMap.mp hasked
    exact heach w hw asked hwasked
  · obtain ⟨a, hlast, rfl, hagain⟩ := htried.outcome hr
    exact ⟨a, hlast, by rw [hr]; rfl, hagain⟩
  · intro late hlate hbudget hpunctual
    refine h.in_time _ _ client.requestTimeout_nonneg (add_nonneg client.maxBackoff_nonneg hlate)
      (runsBy_get_in_time hpunctual) (fun hrun => (runsBy_pause hpace hrun).2.2 late hpunctual hlate) ?_ hout
    rw [nsmul_eq_mul, ExchangeHttpClient.totalTimeout]
    linarith

theorem exampleTimeout_nonneg : (0 : Decimal) ≤ 10 := by norm_num

theorem exampleBackoff_nonneg : (0 : Decimal) ≤ 8 := by norm_num

def exampleClient : ExchangeHttpClient where
  source := "binance-futures-usdm:rest"
  requestTimeout_nonneg := exampleTimeout_nonneg
  maxBackoff_nonneg := exampleBackoff_nonneg

def overloaded : Answer := .response ⟨503, none⟩ none

def exampleWaits : List (Waited HttpEffect ExchangeError Decimal) :=
  [⟨.get "/fapi/v1/time" [], some (.ok overloaded), 1⟩, ⟨.uniform 0 (min (1 / 2 * 2 ^ 0) 8), some (.ok (1 / 4)), 0⟩,
    ⟨.sleep (1 / 4), some (.ok ()), 1 / 4⟩, ⟨.get "/fapi/v1/time" [], some (.ok (.response ⟨200, some .null⟩ none)), 1⟩]

theorem runsBy_example :
    RunsBy lasts exampleClient.totalTimeout 0 (exampleClient.getJsonAttempts "/fapi/v1/time" []) exampleWaits
      (some (.ok .null)) (0 + 1 + 0 + 1 / 4 + 1) := by
  have htotal : exampleClient.totalTimeout = 65 := by norm_num [ExchangeHttpClient.totalTimeout, exampleClient]
  rw [htotal]
  refine .answered (by norm_num [lasts]) (by norm_num) ?_
  change RunsBy lasts 65 _ (exampleClient.backoffDelay 0 none >>= _ >>= _) _ _ _
  rw [ExchangeHttpClient.backoffDelay, if_neg (by norm_num [exampleClient])]
  refine .answered (by norm_num [lasts, exampleClient]) (by norm_num) ?_
  refine .answered (by norm_num [lasts]) (by norm_num) ?_
  refine .answered (by norm_num [lasts]) (by norm_num) ?_
  exact .ret

theorem get_json_bounded_retried :
    (exampleWaits.filterMap requested).length ≤ 3 + 1 ∧ (0 + 1 + 0 + 1 / 4 + 1 : Decimal) ≤ exampleClient.totalTimeout ∧
      ∀ asked ∈ exampleWaits.filterMap paused, 0 ≤ asked ∧ asked ≤ 8 := by
  obtain ⟨hrequests, hends, _, hpauses, _⟩ := get_json_bounded exampleClient "/fapi/v1/time" [] lasts
    (fun _ _ _ hp => hp) exampleWaits _ _ runsBy_example
  exact ⟨hrequests, hends, hpauses⟩

end Runs

end Aetheris.ExchangeHttp
