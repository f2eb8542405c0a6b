import Aetheris.Lib.DecimalText
import Aetheris.TestnetService

namespace Aetheris.VenueAnswers

open Lib Money Clock Enums OrderRecords TestnetService
open Lib.DecimalText (Numeral readSign)

/-- A text that the database can store. -/
def storable (text : String) : Bool := !text.toList.contains '\x00'

/-- What reading an answer takes from the language runtime: Unicode's white
space and decimal digits, and how a string and a float are displayed. A display
escapes what is not printable. -/
class Interpreter where
  isSpace : Char → Bool
  digit? : Char → Option Nat
  reprText : String → String
  floatText : Decimal → String
  storable_reprText : ∀ text, storable (reprText text)
  storable_floatText : ∀ x, storable (floatText x)

/-- A float of a JSON document, which the parser lets be no number. -/
inductive FloatNumber
  | finite (value : Decimal)
  | infinite (negative : Bool)
  | nan

inductive Json
  | null
  | bool (value : Bool)
  | int (value : Int)
  | float (value : FloatNumber)
  | text (value : String)
  | list (items : List Json)
  | dict (entries : List (String × Json))

abbrev Payload := List (String × Json)

/-- `payload.get(key)`. -/
def field (payload : Payload) (key : String) : Json := (payload.lookup key).getD .null

def Json.isTruthy : Json → Bool
  | .null => false
  | .bool value => value
  | .int value => value ≠ 0
  | .float (.finite value) => value ≠ 0
  | .float _ => true
  | .text value => value ≠ ""
  | .list items => !items.isEmpty
  | .dict entries => !entries.isEmpty

section Texts

variable [Interpreter]

def FloatNumber.text : FloatNumber → String
  | .finite value => Interpreter.floatText value
  | .infinite negative => if negative then "-inf" else "inf"
  | .nan => "nan"

mutual

def Json.repr : Json → String
  | .null => "None"
  | .bool true => "True"
  | .bool false => "False"
  | .int value => toString value
  | .float value => value.text
  | .text value => Interpreter.reprText value
  | .list items => "[" ++ ", ".intercalate (reprItems items) ++ "]"
  | .dict entries => "\x7b" ++ ", ".intercalate (reprEntries entries) ++ "\x7d"

def reprItems : List Json → List String
  | [] => []
  | item :: rest => item.repr :: reprItems rest

def reprEntries : Payload → List String
  | [] => []
  | (key, value) :: rest => (Interpreter.reprText key ++ ": " ++ value.repr) :: reprEntries rest

end

def Json.str : Json → String
  | .text value => value
  | value => value.repr

def strip (text : List Char) : List Char :=
  ((text.dropWhile Interpreter.isSpace).reverse.dropWhile Interpreter.isSpace).reverse

def intMaxStrDigits : Nat := 4300

/-- `int` of a string: underscores may stand between digits, and nowhere else. -/
def intOfText (text : String) : Option Int :=
  let (negative, rest) := readSign (strip text.toList)
  if rest.head? = some '_' ∨ rest.getLast? = some '_' ∨ ('_', '_') ∈ rest.zip rest.tail then none
  else
    let digits := rest.filter (fun c => c ≠ '_')
    if digits = [] ∨ intMaxStrDigits < digits.length then none
    else (digits.mapM Interpreter.digit?).map fun values =>
      let n : Int := values.foldl (fun n d => 10 * n + d) 0
      if negative then -n else n

def Json.toInt : Json → Except ServiceError Int
  | .int value => .ok value
  | .bool value => .ok (if value then 1 else 0)
  | .float (.finite value) => .ok (value.num.tdiv value.den)
  | .float (.infinite _) => .error (.other "cannot convert float infinity to integer")
  | .float .nan => .error (.other "cannot convert float NaN to integer")
  | .text value =>
      let shown := Interpreter.reprText value
      match intOfText value with
      | some n => .ok n
      | none => .error (.other s!"invalid literal for int() with base 10: {shown}")
  | _ => .error (.other "int() argument must be a string, a bytes-like object or a real number")

end Texts

/-- A decimal as it is parsed, not all of them numbers. -/
inductive Number
  | finite (value : Numeral)
  | infinite (negative : Bool)
  | nan

def Number.isNan : Number → Bool
  | .nan => true
  | _ => false

/-- `x <= 0`, of a decimal that may be compared. -/
def Number.nonpositive : Number → Bool
  | .finite value => value.value ≤ 0
  | .infinite negative => negative
  | .nan => false

def maxEmax : Int := 999999999999999999

def minEtiny : Int := -1999999999999999997

section Numbers

variable [Interpreter]

/-- `Decimal` of a string. -/
def numberOfText (text : String) : Option Number :=
  let plain := ((strip text.toList).filter (fun c => c ≠ '_')).map fun c => (Interpreter.digit? c).elim c Nat.digitChar
  let (negative, rest) := readSign plain
  let word := rest.map Char.toLower
  if word = "inf".toList ∨ word = "infinity".toList then some (.infinite negative)
  else if "nan".toList <+: word ∧ (word.drop 3).all Char.isDigit then some .nan
  else if "snan".toList <+: word ∧ (word.drop 4).all Char.isDigit then some .nan
  else (DecimalText.read (String.ofList plain)).bind fun value =>
    if value.leading - 1 ≤ maxEmax ∧ minEtiny ≤ value.exponent then some (.finite value) else none

def decimal (payload : Payload) (key : String) : Except ServiceError (Option Number) :=
  match field payload key with
  | .null | .text "" => .ok none
  | raw =>
      match numberOfText raw.str with
      | some value => .ok (some value)
      | none => .error (.exchange s!"venue returned an unparseable {key}")

def venueStatusToState : List (String × OrderState) :=
  [("NEW", .accepted), ("PARTIALLY_FILLED", .partiallyFilled), ("FILLED", .filled), ("CANCELED", .cancelled),
    ("REJECTED", .rejected), ("EXPIRED", .expired), ("EXPIRED_IN_MATCH", .expired)]

def state? : Json → Option OrderState
  | .text status => venueStatusToState.lookup status
  | _ => none

def statusOf (payload : Payload) : Except ServiceError OrderState :=
  let shown := (field payload "status").repr
  match state? (field payload "status") with
  | some state => .ok state
  | none => .error (.exchange (s!"venue reported an unrecognised order status {shown}; refusing to " ++
      "map it onto a lifecycle state by guesswork"))

def clientOrderIdOf (payload : Payload) : Except ServiceError String :=
  match field payload "clientOrderId" with
  | .text clientOrderId =>
      if clientOrderId = "" then .error (.exchange "venue response carried no client order id") else .ok clientOrderId
  | _ => .error (.exchange "venue response carried no client order id")

/-- Zero is not a price. A comparison with no number is an error of its own. -/
def observedAverage : Option Number → Except ServiceError (Option Number)
  | none => .ok none
  | some average =>
      if average.isNan then .error (.other "[<class 'decimal.InvalidOperation'>]")
      else if average.nonpositive then .ok none
      else .ok (some average)

def venueOrderIdOf (payload : Payload) : Option String :=
  match field payload "orderId" with
  | .null => none
  | value => some value.str

def finite? : Number → Option Decimal
  | .finite value => some value.value
  | _ => none

/-- What the view's own model makes of the parts: no number that is not finite,
no negative total, and no rejection that is not a text. -/
def venueOrderView (clientOrderId : String) (venueOrderId : Option String) (state : OrderState) (filled : Number)
    (average : Option Number) (observedAt : Timestamp) (rejection : Json) : Except ServiceError VenueOrderView :=
  let invalid : Except ServiceError VenueOrderView := .error (.other "validation error for VenueOrderView")
  match finite? filled, average.mapM finite?, rejection with
  | some filled, some average, rejection =>
      if h : 0 ≤ filled then
        let view (venueRejection : Option String) : VenueOrderView :=
          { clientOrderId := clientOrderId, venueOrderId := venueOrderId, state := state, filledQuantity := filled,
            averageFillPrice := average, observedAt := observedAt, venueRejection := venueRejection,
            filledQuantity_nonneg := h }
        if !rejection.isTruthy then .ok (view none)
        else match rejection with
          | .text reason => .ok (view (some reason))
          | _ => invalid
      else invalid
  | _, _, _ => invalid

def parseOrderView (payload : Payload) (observedAt : Timestamp) : Except ServiceError VenueOrderView := do
  let state ← statusOf payload
  let clientOrderId ← clientOrderIdOf payload
  let filled ← decimal payload "executedQty"
  let average ← decimal payload "avgPrice"
  let average ← observedAverage average
  venueOrderView clientOrderId (venueOrderIdOf payload) state (filled.getD (.finite ⟨false, 0, 0⟩)) average observedAt
    (field payload "rejectReason")

/-- An answer to a request: its status, and its body where it is a JSON document. -/
structure Response where
  statusCode : Nat
  body : Option Json

def order : String := "/fapi/v1/order"

/-- The shape that usually means failure. -/
def codeAndMsg : Json → Option (Json × Json)
  | .dict payload =>
      match payload.lookup "code", payload.lookup "msg" with
      | some code, some msg => some (code, msg)
      | _, _ => none
  | _ => none

def decode (response : Response) : Except ServiceError Json :=
  let statusCode := response.statusCode
  if statusCode = 429 then .error (.exchange s!"{order} was rate limited")
  else if statusCode = 418 then
    .error (.exchange s!"{order} returned 418: this IP is temporarily banned by the venue")
  else match response.body with
    | none => .error (.exchange s!"{order} returned a non-JSON body")
    | some payload =>
        match codeAndMsg payload with
        | some (code, msg) =>
            let shown := msg.str
            match code.toInt with
            | .error e => .error e
            | .ok code =>
                if code ≠ 200 then .error (.exchange s!"{order} was refused by the venue (code {code}): {shown}")
                else .ok payload
        | none =>
            if 400 ≤ statusCode then .error (.exchange s!"{order} returned {statusCode}")
            else .ok payload

/-- What the adapter's `submit` makes of the answer to its request. -/
def answer (response : Response) (observedAt : Timestamp) : Except ServiceError VenueOrderView :=
  match decode response with
  | .error e => .error e
  | .ok (.dict payload) => parseOrderView payload observedAt
  | .ok _ => .error (.exchange "order response was not an object")

def Response.Refused (response : Response) : Prop := response.statusCode = 429 ∨ response.statusCode = 418

/-- An answer that reads as an order, whatever its numbers are. -/
structure Describes (response : Response) (payload : Payload) : Prop where
  decoded : decode response = .ok (.dict payload)
  state : ∃ state, state? (field payload "status") = some state
  clientOrderId : ∃ id, field payload "clientOrderId" = .text id ∧ id ≠ ""
  filled : ∃ filled, decimal payload "executedQty" = .ok filled
  average : ∃ average, decimal payload "avgPrice" = .ok average

/-- Numbers and a rejection that an order of the venue can have. -/
structure Legible (payload : Payload) : Prop where
  filled : ∀ x, decimal payload "executedQty" = .ok (some x) → ∃ value, x = .finite value ∧ 0 ≤ value.value
  average : ∀ x, decimal payload "avgPrice" = .ok (some x) → x ≠ .nan ∧ x ≠ .infinite false
  rejection : (field payload "rejectReason").isTruthy → ∃ reason, field payload "rejectReason" = .text reason

end Numbers

section Storing

@[simp] theorem storable_append (a b : String) : storable (a ++ b) = (storable a && storable b) := by
  simp [storable, String.toList_append]

theorem storable_of_digits {n : Nat} : storable (toString n) := by
  have hdigits : ∀ c ∈ Nat.toDigits 10 n, c.isDigit := DecimalText.allDigits_toDigits n
  have hnul : '\x00' ∉ Nat.toDigits 10 n := fun h => absurd (hdigits _ h) (by decide)
  simpa [storable, Nat.toString_eq_repr, Nat.repr] using hnul

theorem storable_int (n : Int) : storable (toString n) := by
  cases n with
  | ofNat n => exact storable_of_digits
  | negSucc n =>
      change storable ("-" ++ toString (n + 1)) = true
      rw [storable_append, storable_of_digits]
      rfl

theorem storable_join {pre post : String} {items : List String} (hpre : storable pre) (hpost : storable post)
    (h : ∀ item ∈ items, storable item) : storable (pre ++ ", ".intercalate items ++ post) := by
  have hitems : storable (", ".intercalate items) := by
    induction items with
    | nil => rfl
    | cons item rest ih =>
        cases rest with
        | nil => simpa using h item (List.mem_cons_self ..)
        | cons next rest =>
            have hrest := ih fun other ho => h other (List.mem_cons_of_mem _ ho)
            rw [String.intercalate_cons_cons]
            simp only [storable_append, h item (List.mem_cons_self ..), hrest, Bool.and_true, Bool.true_and]
            rfl
  simp only [storable_append, hpre, hitems, hpost, Bool.and_self]

theorem storable_plain (text : String) : storable (String.ofList (text.toList.filter (fun c => c ≠ '\x00'))) := by
  simp [storable]

/-- An interpreter that is right on printable ASCII and on floats that are integers. -/
@[reducible] def referenceInterpreter : Interpreter where
  isSpace c := c = ' '
  digit? c := if c.isDigit then some (c.toNat - '0'.toNat) else none
  reprText text := "'" ++ String.ofList (text.toList.filter (fun c => c ≠ '\x00')) ++ "'"
  floatText x := toString x.num ++ ".0"
  storable_reprText text := by
    rw [storable_append, storable_append, storable_plain]
    rfl
  storable_floatText x := by
    rw [storable_append, storable_int]
    rfl

variable [Interpreter]

theorem storable_float (value : FloatNumber) : storable value.text := by
  cases value with
  | finite value => exact Interpreter.storable_floatText value
  | infinite negative =>
      cases negative with
      | false => exact (rfl : storable "inf" = true)
      | true => exact (rfl : storable "-inf" = true)
  | nan => exact (rfl : storable "nan" = true)

mutual

theorem storable_repr : (json : Json) → storable json.repr
  | .null => by rw [Json.repr]; rfl
  | .bool true => by rw [Json.repr]; rfl
  | .bool false => by rw [Json.repr]; rfl
  | .int value => by rw [Json.repr]; exact storable_int value
  | .float value => by rw [Json.repr]; exact storable_float value
  | .text value => by rw [Json.repr]; exact Interpreter.storable_reprText value
  | .list items => by rw [Json.repr]; exact storable_join rfl rfl (storable_items items)
  | .dict entries => by rw [Json.repr]; exact storable_join rfl rfl (storable_entries entries)

theorem storable_items : (items : List Json) → ∀ text ∈ reprItems items, storable text
  | [] => by simp [reprItems]
  | item :: rest => by
      rw [reprItems, List.forall_mem_cons]
      exact ⟨storable_repr item, storable_items rest⟩

theorem storable_entries : (entries : Payload) → ∀ text ∈ reprEntries entries, storable text
  | [] => by simp [reprEntries]
  | (key, value) :: rest => by
      rw [reprEntries, List.forall_mem_cons]
      refine ⟨?_, storable_entries rest⟩
      simp only [storable_append, Interpreter.storable_reprText, storable_repr value, Bool.and_true, Bool.true_and]
      rfl

end

end Storing

section Parsing

variable [Interpreter] {payload : Payload} {observedAt : Timestamp}

/-- An error that is taken for no answer, of a text that can be noted. -/
def Unusable (r : Except ServiceError VenueOrderView) : Prop :=
  ∃ message, r = .error (.exchange message) ∧ storable message

/-- An error that is not one of the exchange's. -/
def Escapes (r : Except ServiceError VenueOrderView) : Prop := ∃ e, r = .error e ∧ e.isExchangeError = false

variable (payload) in
theorem decimal_cases (key : String) (hkey : storable key) :
    (∃ x, decimal payload key = .ok x) ∨ ∃ message, decimal payload key = .error (.exchange message) ∧ storable message := by
  unfold decimal
  split
  · exact .inl ⟨_, rfl⟩
  · exact .inl ⟨_, rfl⟩
  · split
    · exact .inl ⟨_, rfl⟩
    · refine .inr ⟨_, rfl, ?_⟩
      change storable ("venue returned an unparseable " ++ key)
      rw [storable_append, hkey, Bool.and_true]
      rfl

variable (payload) in
theorem statusOf_cases :
    (∃ state, state? (field payload "status") = some state ∧ statusOf payload = .ok state) ∨
      state? (field payload "status") = none ∧
        ∃ message, statusOf payload = .error (.exchange message) ∧ storable message := by
  unfold statusOf
  cases hstate : state? (field payload "status") with
  | some state => exact .inl ⟨state, rfl, rfl⟩
  | none =>
      refine .inr ⟨rfl, _, rfl, ?_⟩
      change storable ("venue reported an unrecognised order status " ++ (field payload "status").repr ++
        "; refusing to " ++ "map it onto a lifecycle state by guesswork")
      simp only [storable_append, storable_repr, Bool.and_true]
      rfl

variable (payload) in
omit [Interpreter] in
theorem clientOrderIdOf_cases :
    (∃ id, (field payload "clientOrderId" = .text id ∧ id ≠ "") ∧ clientOrderIdOf payload = .ok id) ∨
      (¬ ∃ id, field payload "clientOrderId" = .text id ∧ id ≠ "") ∧
        clientOrderIdOf payload = .error (.exchange "venue response carried no client order id") := by
  unfold clientOrderIdOf
  cases hfield : field payload "clientOrderId" with
  | text id =>
      by_cases hid : id = ""
      · simp [hid]
      · simp [hid]
  | _ => simp

variable (observedAt) in
/-- What does not read as an order is no usable answer, and nothing worse. -/
theorem parseOrderView_of_not_describes {response : Response} (hdecode : decode response = .ok (.dict payload))
    (h : ¬ Describes response payload) : Unusable (parseOrderView payload observedAt) := by
  unfold parseOrderView
  obtain ⟨state, hstate, hstatus⟩ | ⟨_, message, hstatus, hmessage⟩ := statusOf_cases payload
  · obtain ⟨id, hid, hclient⟩ | ⟨_, hclient⟩ := clientOrderIdOf_cases payload
    · obtain ⟨filled, hfilled⟩ | ⟨message, hfilled, hmessage⟩ := decimal_cases payload "executedQty" rfl
      · obtain ⟨average, haverage⟩ | ⟨message, haverage, hmessage⟩ := decimal_cases payload "avgPrice" rfl
        · exact absurd ⟨hdecode, ⟨state, hstate⟩, ⟨id, hid⟩, ⟨filled, hfilled⟩, ⟨average, haverage⟩⟩ h
        · rw [hstatus, hclient, hfilled, haverage]
          exact ⟨message, rfl, hmessage⟩
      · rw [hstatus, hclient, hfilled]
        exact ⟨message, rfl, hmessage⟩
    · rw [hstatus, hclient]
      exact ⟨_, rfl, rfl⟩
  · rw [hstatus]
    exact ⟨message, rfl, hmessage⟩

omit [Interpreter] in
theorem observedAverage_of_sound {average : Option Number} (h : ∀ x ∈ average, x ≠ .nan ∧ x ≠ .infinite false) :
    ∃ observed values, observedAverage average = .ok observed ∧ observed.mapM finite? = some values := by
  cases average with
  | none => exact ⟨none, none, rfl, rfl⟩
  | some x =>
      obtain ⟨hnan, hinfinite⟩ := h x rfl
      cases x with
      | nan => exact absurd rfl hnan
      | infinite negative =>
          cases negative with
          | false => exact absurd rfl hinfinite
          | true => exact ⟨none, none, rfl, rfl⟩
      | finite value =>
          by_cases hvalue : value.value ≤ 0
          · exact ⟨none, none, by simp [observedAverage, Number.isNan, Number.nonpositive, hvalue], rfl⟩
          · exact ⟨some (.finite value), some value.value,
              by simp [observedAverage, Number.isNan, Number.nonpositive, hvalue], rfl⟩

variable (observedAt) in
/-- An order of the venue that has such numbers is viewed as it is. -/
theorem parseOrderView_of_legible {response : Response} (hd : Describes response payload) (h : Legible payload) :
    ∃ view, parseOrderView payload observedAt = .ok view ∧ view.venueOrderId = venueOrderIdOf payload ∧
      view.observedAt = observedAt ∧ state? (field payload "status") = some view.state := by
  obtain ⟨state, hstate⟩ := hd.state
  obtain ⟨id, hid, hne⟩ := hd.clientOrderId
  obtain ⟨filled, hfilled⟩ := hd.filled
  obtain ⟨average, haverage⟩ := hd.average
  have hstatus : statusOf payload = .ok state := by rw [statusOf, hstate]
  have hclient : clientOrderIdOf payload = .ok id := by rw [clientOrderIdOf, hid]; exact if_neg hne
  have hsound : ∀ x ∈ average, x ≠ .nan ∧ x ≠ .infinite false := by
    rintro x ⟨⟩
    exact h.average x haverage
  obtain ⟨observed, values, hobserved, hvalues⟩ := observedAverage_of_sound hsound
  have htotal : ∃ total, finite? (filled.getD (.finite ⟨false, 0, 0⟩)) = some total ∧ 0 ≤ total := by
    cases filled with
    | none => exact ⟨_, rfl, by simp [Numeral.value]⟩
    | some x =>
        obtain ⟨value, rfl, hvalue⟩ := h.filled x hfilled
        exact ⟨_, rfl, hvalue⟩
  obtain ⟨total, hfinite, hnonneg⟩ := htotal
  unfold parseOrderView
  rw [hstatus, hclient, hfilled, haverage]
  change ∃ view, (observedAverage average >>= _) = _ ∧ _
  rw [hobserved]
  change ∃ view, venueOrderView _ _ _ _ _ _ _ = _ ∧ _
  unfold venueOrderView
  rw [hfinite, hvalues]
  dsimp only
  rw [dif_pos hnonneg]
  cases htruth : (field payload "rejectReason").isTruthy with
  | false => exact ⟨_, if_pos rfl, rfl, rfl, hstate⟩
  | true =>
      obtain ⟨reason, hreason⟩ := h.rejection htruth
      rw [if_neg (by decide), hreason]
      exact ⟨_, rfl, rfl, rfl, hstate⟩

omit [Interpreter] in
theorem observedAverage_cases (average : Option Number) :
    (∃ observed, observedAverage average = .ok observed ∧
      ((observed.mapM finite?).isSome → ∀ x ∈ average, x ≠ .nan ∧ x ≠ .infinite false)) ∨
      ∃ e, observedAverage average = .error e ∧ e.isExchangeError = false := by
  cases average with
  | none => exact .inl ⟨none, rfl, fun _ _ hx => nomatch hx⟩
  | some x =>
      cases x with
      | nan => exact .inr ⟨_, rfl, rfl⟩
      | infinite negative =>
          cases negative with
          | false => exact .inl ⟨_, rfl, fun hsome => nomatch hsome⟩
          | true => exact .inl ⟨_, rfl, by simp⟩
      | finite value =>
          left
          by_cases hvalue : value.value ≤ 0
          · exact ⟨none, by simp [observedAverage, Number.isNan, Number.nonpositive, hvalue], by simp⟩
          · exact ⟨_, by simp [observedAverage, Number.isNan, Number.nonpositive, hvalue]; rfl, by simp⟩

omit [Interpreter] in
theorem venueOrderView_cases (clientOrderId : String) (venueOrderId : Option String) (state : OrderState)
    (filled : Number) (average : Option Number) (observedAt : Timestamp) (rejection : Json) :
    ((∃ total, finite? filled = some total ∧ 0 ≤ total) ∧ (average.mapM finite?).isSome ∧
      (rejection.isTruthy → ∃ reason, rejection = .text reason)) ∨
      Escapes (venueOrderView clientOrderId venueOrderId state filled average observedAt rejection) := by
  unfold venueOrderView
  cases hfilled : finite? filled with
  | none => exact .inr ⟨_, rfl, rfl⟩
  | some total =>
      cases haverage : average.mapM finite? with
      | none => exact .inr ⟨_, rfl, rfl⟩
      | some average =>
          by_cases hnonneg : 0 ≤ total
          · cases htruth : rejection.isTruthy with
            | false => exact .inl ⟨⟨total, rfl, hnonneg⟩, rfl, fun h => nomatch h⟩
            | true =>
                cases rejection with
                | text reason => exact .inl ⟨⟨total, rfl, hnonneg⟩, rfl, fun _ => ⟨reason, rfl⟩⟩
                | _ => exact .inr ⟨.other "validation error for VenueOrderView", by simp [hnonneg, htruth], rfl⟩
          · exact .inr ⟨.other "validation error for VenueOrderView", by simp [hnonneg], rfl⟩

variable (observedAt) in
/-- Any other order of the venue is an error that the submission does not expect. -/
theorem parseOrderView_of_illegible {response : Response} (hd : Describes response payload) (h : ¬ Legible payload) :
    Escapes (parseOrderView payload observedAt) := by
  obtain ⟨state, hstate⟩ := hd.state
  obtain ⟨id, hid, hne⟩ := hd.clientOrderId
  obtain ⟨filled, hfilled⟩ := hd.filled
  obtain ⟨average, haverage⟩ := hd.average
  have hstatus : statusOf payload = .ok state := by rw [statusOf, hstate]
  have hclient : clientOrderIdOf payload = .ok id := by rw [clientOrderIdOf, hid]; exact if_neg hne
  unfold parseOrderView
  rw [hstatus, hclient, hfilled, haverage]
  change Escapes (observedAverage average >>= _)
  obtain ⟨observed, hobserved, hsound⟩ | ⟨e, hobserved, he⟩ := observedAverage_cases average
  · rw [hobserved]
    obtain ⟨⟨total, htotal, hnonneg⟩, hsome, hrejection⟩ | hescapes := venueOrderView_cases id (venueOrderIdOf payload)
      state (filled.getD (.finite ⟨false, 0, 0⟩)) observed observedAt (field payload "rejectReason")
    · refine absurd ⟨fun x hx => ?_, fun x hx => ?_, hrejection⟩ h
      · obtain rfl : filled = some x := Except.ok.inj (hfilled.symm.trans hx)
        cases x with
        | finite value => exact ⟨value, rfl, by cases htotal; exact hnonneg⟩
        | _ => cases htotal
      · exact hsound hsome x (Except.ok.inj (haverage.symm.trans hx) ▸ rfl)
    · exact hescapes
  · rw [hobserved]
    exact ⟨e, rfl, he⟩

theorem toInt_error {json : Json} {e : ServiceError} (h : json.toInt = .error e) : e.isExchangeError = false := by
  unfold Json.toInt at h
  split at h
  · cases h
  · cases h
  · cases h
  · cases h
    rfl
  · cases h
    rfl
  · dsimp only at h
    split at h
    · cases h
    · cases h
      rfl
  · cases h
    rfl

variable (response : Response)

/-- A code and a message that are read of an answer. -/
def Coded (code msg : Json) : Prop :=
  ¬ response.Refused ∧ ∃ payload, response.body = some payload ∧ codeAndMsg payload = some (code, msg)

variable {response}

omit [Interpreter] in
theorem Coded.unique {code msg code' msg' : Json} (h : Coded response code msg) (h' : Coded response code' msg') :
    code' = code ∧ msg' = msg := by
  obtain ⟨_, payload, hbody, hcode⟩ := h
  obtain ⟨_, payload', hbody', hcode'⟩ := h'
  cases hbody.symm.trans hbody'
  cases hcode.symm.trans hcode'
  exact ⟨rfl, rfl⟩

variable (response) in
theorem decode_cases :
    (∃ code msg e, Coded response code msg ∧ code.toInt = .error e ∧ decode response = .error e) ∨
    (∃ code msg n, Coded response code msg ∧ code.toInt = .ok n ∧ n ≠ 200 ∧
      ∃ message, decode response = .error (.exchange message) ∧ storable message = storable msg.str) ∨
    ((∀ code msg, Coded response code msg → code.toInt = .ok 200) ∧
      ((∃ message, decode response = .error (.exchange message) ∧ storable message) ∨
        ∃ payload, decode response = .ok payload)) := by
  unfold decode
  dsimp only
  by_cases hlimited : response.statusCode = 429
  · rw [if_pos hlimited]
    exact .inr (.inr ⟨fun _ _ h => absurd (.inl hlimited) h.1, .inl ⟨_, rfl, rfl⟩⟩)
  by_cases hbanned : response.statusCode = 418
  · rw [if_neg hlimited, if_pos hbanned]
    exact .inr (.inr ⟨fun _ _ h => absurd (.inr hbanned) h.1, .inl ⟨_, rfl, rfl⟩⟩)
  rw [if_neg hlimited, if_neg hbanned]
  have hopen : ¬ response.Refused := fun h => h.elim hlimited hbanned
  cases hbody : response.body with
  | none =>
      refine .inr (.inr ⟨fun _ _ h => ?_, .inl ⟨_, rfl, rfl⟩⟩)
      obtain ⟨_, payload, hsome, _⟩ := h
      cases hbody.symm.trans hsome
  | some payload =>
      dsimp only
      cases hcode : codeAndMsg payload with
      | none =>
          refine .inr (.inr ⟨fun _ _ h => ?_, ?_⟩)
          · obtain ⟨_, payload', hsome, hcoded⟩ := h
            cases hbody.symm.trans hsome
            cases hcode.symm.trans hcoded
          · dsimp only
            split
            · refine .inl ⟨_, rfl, ?_⟩
              change storable (order ++ " returned " ++ toString response.statusCode)
              rw [storable_append, storable_of_digits, Bool.and_true]
              rfl
            · exact .inr ⟨payload, rfl⟩
      | some shape =>
          obtain ⟨code, msg⟩ := shape
          have hcoded : Coded response code msg := ⟨hopen, payload, hbody, hcode⟩
          dsimp only
          cases hint : code.toInt with
          | error e => exact .inl ⟨code, msg, e, hcoded, hint, rfl⟩
          | ok n =>
              dsimp only
              by_cases hn : n = 200
              · rw [if_neg (not_not_intro hn)]
                refine .inr (.inr ⟨fun code' msg' h => ?_, .inr ⟨payload, rfl⟩⟩)
                obtain ⟨rfl, rfl⟩ := hcoded.unique h
                rw [hint, hn]
              · rw [if_pos hn]
                refine .inr (.inl ⟨code, msg, n, hcoded, hint, hn, _, rfl, ?_⟩)
                change storable (order ++ " was refused by the venue (code " ++ toString n ++ "): " ++ msg.str) = _
                simp only [storable_append, storable_int, Bool.and_true]
                rw [show storable order = true from rfl, show storable " was refused by the venue (code " = true from rfl,
                  show storable "): " = true from rfl]
                rfl

/-- A view that an answer gives was observed when it was read, in a state of the table. -/
theorem answer_ok {view : VenueOrderView} (h : answer response observedAt = .ok view) :
    view.observedAt = observedAt ∧ ∃ json, state? json = some view.state := by
  unfold answer at h
  cases hdecode : decode response with
  | error e =>
      rw [hdecode] at h
      cases h
  | ok json =>
      rw [hdecode] at h
      cases json with
      | dict payload =>
          dsimp only at h
          by_cases hd : Describes response payload
          · by_cases hl : Legible payload
            · obtain ⟨viewed, hviewed, _, hobserved, hstate⟩ := parseOrderView_of_legible observedAt hd hl
              cases h.symm.trans hviewed
              exact ⟨hobserved, _, hstate⟩
            · obtain ⟨e, he, _⟩ := parseOrderView_of_illegible observedAt hd hl
              cases h.symm.trans he
          · obtain ⟨message, hm, _⟩ := parseOrderView_of_not_describes observedAt hdecode hd
            cases h.symm.trans hm
      | _ => cases h

end Parsing

end Aetheris.VenueAnswers
