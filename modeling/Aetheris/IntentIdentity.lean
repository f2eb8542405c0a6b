import Aetheris.Lib.Separated
import Aetheris.TestnetWorld

namespace Aetheris.IntentIdentity

open Lib Separated Money Clock Enums OrderRecords OrderStore RecordStore OrderEngine OrderIdentity TestnetService

/-- A body the order endpoint accepts: each bound of the schema is a field. -/
structure SubmitTestnetOrderBody where
  symbol : String
  side : OrderSide
  margin : Decimal
  requestedLeverage : Decimal := 1
  stopLossPercent : Decimal
  takeProfitPercent : Option Decimal := none
  intentKey : String
  symbol_length : 3 ≤ symbol.length ∧ symbol.length ≤ 32
  margin_pos : 0 < margin
  requestedLeverage_range : 1 ≤ requestedLeverage ∧ requestedLeverage ≤ 500
  stopLossPercent_range : 0 < stopLossPercent ∧ stopLossPercent < 100
  takeProfitPercent_range : ∀ p ∈ takeProfitPercent, 0 < p ∧ p < 100
  intentKey_length : 1 ≤ intentKey.length ∧ intentKey.length ≤ 64

def SubmitTestnetOrderBody.toRequest (body : SubmitTestnetOrderBody) : TestnetOrderRequest where
  symbol := body.symbol
  side := body.side
  margin := body.margin
  requestedLeverage := body.requestedLeverage
  stopLossPercent := body.stopLossPercent
  intentKey := body.intentKey
  takeProfitPercent := body.takeProfitPercent

/-! ### Digests -/

theorem digitChar_inj : ∀ m < 16, ∀ n < 16, Nat.digitChar m = Nat.digitChar n → m = n := by decide

theorem hexByte_inj {b d : Fin 256} (h : hexByte b = hexByte d) : b = d := by
  obtain ⟨hhigh, hlow⟩ := List.cons.inj h
  have hhigh := digitChar_inj _ (by omega) _ (by omega) hhigh
  have hlow := digitChar_inj _ (by omega) _ (by omega) (List.cons.inj hlow).1
  apply Fin.ext
  omega

theorem hexdigest_inj {bytes digits : List (Fin 256)} (h : hexdigest bytes = hexdigest digits) : bytes = digits := by
  induction bytes generalizing digits with
  | nil =>
      cases digits with
      | nil => rfl
      | cons d digits => cases h
  | cons b bytes ih =>
      cases digits with
      | nil => cases h
      | cons d digits =>
          change hexByte b ++ hexdigest bytes = hexByte d ++ hexdigest digits at h
          obtain ⟨hbyte, hrest⟩ := List.append_inj h rfl
          rw [hexByte_inj hbyte, ih hrest]

/-! ### Canonical strings -/

section Identity

variable [Runtime]

/-- The text an order's identity is the digest of. -/
def canonicalText (service : TestnetExecutionService) (body : SubmitTestnetOrderBody) (now : Timestamp) : String :=
  let intent := submitIntent service body.toRequest (Runtime.upper body.symbol) now
  let accountId := intent.accountId
  let intentKey := intent.intentKey
  s!"{accountId}|{intentKey}"

/-- What an identity is meant to tell apart. -/
def SameIntent (a b : SubmitTestnetOrderBody) : Prop :=
  Runtime.upper a.symbol = Runtime.upper b.symbol ∧ a.side = b.side ∧ a.intentKey = b.intentKey

/-- The symbol of `b` begins with the symbol and the side of `a`, and the key
of `a` ends with the side and the key of `b`; what is left of the symbol is
what is left of the key. -/
def Overlaps (a b : SubmitTestnetOrderBody) : Prop :=
  Absorbs ':' (Runtime.upper a.symbol).toList a.side.value.toList a.intentKey.toList
    (Runtime.upper b.symbol).toList b.side.value.toList b.intentKey.toList

def NoCollision (x y : String) : Prop := Runtime.blake2b x = Runtime.blake2b y → x = y

/-- Two bodies of one account are kept apart: by their canonical strings, by
their client order ids, and by the store, which never answers the second with
an order placed for the first. -/
structure KeptApart (service : TestnetExecutionService) (a b : SubmitTestnetOrderBody) (t u : Timestamp) : Prop where
  canonical : ¬ SameIntent a b → canonicalText service a t ≠ canonicalText service b u
  clientOrderId : ¬ SameIntent a b → NoCollision (canonicalText service a t) (canonicalText service b u) →
    ∀ p q, (build p (submitIntent service a.toRequest (Runtime.upper a.symbol) t)).clientOrderId ≠
      (build q (submitIntent service b.toRequest (Runtime.upper b.symbol) u)).clientOrderId
  answered : NoCollision (canonicalText service a t) (canonicalText service b u) →
    ∀ (durable : Bool) (s s' : RecordStore durable) (p q : String) (record : OrderRecord),
      record.clientOrderId = (build p (submitIntent service a.toRequest (Runtime.upper a.symbol) t)).clientOrderId →
      createOrGet q (submitIntent service b.toRequest (Runtime.upper b.symbol) u) s = .ok ((record, false), s') →
        SameIntent a b

section Texts

variable {service : TestnetExecutionService} {a b : SubmitTestnetOrderBody} {t u : Timestamp}

omit [Runtime] in
theorem side_no_separator (side : OrderSide) : ':' ∉ side.value.toList := by
  cases side with
  | buy => decide
  | sell => decide

omit [Runtime] in
theorem side_value_inj {side side' : OrderSide} (h : side.value = side'.value) : side = side' := by
  cases side with
  | buy =>
      cases side' with
      | buy => rfl
      | sell => exact absurd h (by decide)
  | sell =>
      cases side' with
      | buy => exact absurd h (by decide)
      | sell => rfl

variable (hupper : ∀ x, Runtime.upper (Runtime.upper x) = Runtime.upper x)
include hupper

theorem canonicalText_toList :
    (canonicalText service a t).toList = (service.accountId ++ "|testnet:").toList ++
      joined ':' (Runtime.upper a.symbol).toList a.side.value.toList a.intentKey.toList := by
  simp [canonicalText, submitIntent, buildIntentKey, SubmitTestnetOrderBody.toRequest, joined, hupper, toString]

theorem canonicalText_eq_iff :
    canonicalText service a t = canonicalText service b u ↔ SameIntent a b ∨ Overlaps a b ∨ Overlaps b a := by
  rw [← String.toList_inj, canonicalText_toList hupper, canonicalText_toList hupper, List.append_cancel_left_eq,
    joined_eq_iff (side_no_separator a.side) (side_no_separator b.side)]
  rw [String.toList_inj, String.toList_inj, String.toList_inj]
  constructor
  · rintro (⟨hsymbol, hside, hkey⟩ | h)
    · exact .inl ⟨hsymbol, side_value_inj hside, hkey⟩
    · exact .inr h
  · rintro (⟨hsymbol, hside, hkey⟩ | h)
    · exact .inl ⟨hsymbol, by rw [hside], hkey⟩
    · exact .inr h

end Texts

section Identities

variable {service : TestnetExecutionService} {a b : SubmitTestnetOrderBody} {t u : Timestamp}

theorem canonical_of_sameId (hcollision : NoCollision (canonicalText service a t) (canonicalText service b u))
    {p q : String}
    (h : (build p (submitIntent service a.toRequest (Runtime.upper a.symbol) t)).clientOrderId =
      (build q (submitIntent service b.toRequest (Runtime.upper b.symbol) u)).clientOrderId) :
    canonicalText service a t = canonicalText service b u := by
  apply hcollision
  apply List.Vector.toList_injective
  apply hexdigest_inj
  apply String.ofList_injective
  exact String.append_right_inj _ |>.mp h

/-- The record that is answered carries the id that was asked for. -/
theorem createOrGet_found {durable : Bool} {s s' : RecordStore durable} {q : String} {intent : OrderIntent}
    {record : OrderRecord} (h : createOrGet q intent s = .ok ((record, false), s')) :
    record.clientOrderId = (build q intent).clientOrderId := by
  rcases addOrGet_ok.mp h with ⟨existing, hfound, _, hpair⟩ | ⟨_, _, _, hpair⟩
  · obtain ⟨hrecord, -⟩ := Prod.mk.inj (Prod.mk.inj hpair).1
    have hid := List.find?_some hfound
    rw [hrecord]
    simpa using hid
  · obtain ⟨-, hcreated⟩ := Prod.mk.inj (Prod.mk.inj hpair).1
    cases hcreated

theorem not_sameIntent_of_overlaps (h : Overlaps a b) : ¬ SameIntent a b :=
  fun hsame => h.ne (congrArg String.toList hsame.1)

end Identities

/-- Two accepted bodies are kept apart exactly when the symbol of neither runs
on into what separates the parts of the other's identity. -/
theorem keptApart_iff (hupper : ∀ x, Runtime.upper (Runtime.upper x) = Runtime.upper x)
    (service : TestnetExecutionService) (a b : SubmitTestnetOrderBody) (t u : Timestamp) :
    KeptApart service a b t u ↔ ¬ Overlaps a b ∧ ¬ Overlaps b a := by
  have htexts : canonicalText service a t = canonicalText service b u ↔ SameIntent a b ∨ Overlaps a b ∨ Overlaps b a :=
    canonicalText_eq_iff hupper
  constructor
  · intro h
    refine ⟨fun hoverlaps => ?_, fun hoverlaps => ?_⟩
    · exact h.canonical (not_sameIntent_of_overlaps hoverlaps) (htexts.mpr (.inr (.inl hoverlaps)))
    · have hdiffer : ¬ SameIntent a b := fun hsame =>
        not_sameIntent_of_overlaps hoverlaps ⟨hsame.1.symm, hsame.2.1.symm, hsame.2.2.symm⟩
      exact h.canonical hdiffer (htexts.mpr (.inr (.inr hoverlaps)))
  · rintro ⟨hab, hba⟩
    have hsame (h : canonicalText service a t = canonicalText service b u) : SameIntent a b := by
      rcases htexts.mp h with h | h | h
      · exact h
      · exact absurd h hab
      · exact absurd h hba
    refine ⟨fun hdiffer h => hdiffer (hsame h), fun hdiffer hcollision p q h => ?_, ?_⟩
    · exact hdiffer (hsame (canonical_of_sameId hcollision h))
    · intro hcollision durable s s' p q record hplaced hanswered
      have hid := hplaced.symm.trans (createOrGet_found hanswered)
      exact hsame (canonical_of_sameId hcollision hid)

end Identity

/-! ### Two orders under one identity -/

/-- ASCII upper-casing of text that is upper-case already. -/
@[reducible] def upperRuntime : Runtime := { referenceRuntime with upper := id }

def testnet : TestnetExecutionService := ⟨"acct", true⟩

theorem margin_pos : (0 : Decimal) < 100 := by norm_num

theorem leverage_range : (1 : Decimal) ≤ 1 ∧ (1 : Decimal) ≤ 500 := by norm_num

theorem stop_range : (0 : Decimal) < 2 ∧ (2 : Decimal) < 100 := by norm_num

theorem no_target (p : Decimal) (h : p ∈ (none : Option Decimal)) : 0 < p ∧ p < 100 := nomatch h

def keyed (symbol : String) (side : OrderSide) (intentKey : String)
    (hsymbol : 3 ≤ symbol.length ∧ symbol.length ≤ 32) (hkey : 1 ≤ intentKey.length ∧ intentKey.length ≤ 64) :
    SubmitTestnetOrderBody where
  symbol := symbol
  side := side
  margin := 100
  requestedLeverage := 1
  stopLossPercent := 2
  takeProfitPercent := none
  intentKey := intentKey
  symbol_length := hsymbol
  margin_pos := margin_pos
  requestedLeverage_range := leverage_range
  stopLossPercent_range := stop_range
  takeProfitPercent_range := no_target
  intentKey_length := hkey

/-- A purchase under a key that names the other side. -/
def purchase : SubmitTestnetOrderBody := keyed "BTCUSDT" .buy "SELL:k" (by decide) (by decide)

/-- A sale of a symbol that names the other side. -/
def sale : SubmitTestnetOrderBody := keyed "BTCUSDT:BUY" .sell "k" (by decide) (by decide)

def plain : SubmitTestnetOrderBody := keyed "BTCUSDT" .sell "k" (by decide) (by decide)

theorem purchase_overlaps_sale : @Overlaps upperRuntime purchase sale :=
  ⟨[], by decide, by decide⟩

theorem purchase_and_sale_share_identity : ¬ @KeptApart upperRuntime testnet purchase sale 0 0 :=
  fun h => @KeptApart.canonical upperRuntime _ _ _ _ _ h
    (@not_sameIntent_of_overlaps upperRuntime _ _ purchase_overlaps_sale)
    ((@canonicalText_eq_iff upperRuntime _ _ _ _ _ fun _ => rfl).mpr (.inr (.inl purchase_overlaps_sale)))

theorem keptApart_iff_plain : @KeptApart upperRuntime testnet purchase plain 0 0 :=
  (@keptApart_iff upperRuntime (fun _ => rfl) testnet purchase plain 0 0).mpr
    ⟨fun h => h.ne rfl, fun h => h.ne rfl⟩

end Aetheris.IntentIdentity
