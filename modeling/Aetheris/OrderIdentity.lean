import Aetheris.Enums
import Mathlib.Data.Fintype.Basic
import Mathlib.Data.Vector.Basic

namespace Aetheris.OrderIdentity

open Enums

/-- What identity takes from the language runtime: a ten-byte BLAKE2b digest
of a string's UTF-8 bytes, and Unicode upper-casing. -/
class Runtime where
  blake2b : String → List.Vector (Fin 256) 10
  upper : String → String

/-- A runtime that is right on ASCII and on two canonical strings, enough to
evaluate a run by hand. -/
@[reducible] def referenceRuntime : Runtime where
  blake2b canonical :=
    if canonical = "acct|testnet:BTCUSDT:BUY:k1" then ⟨[38, 231, 66, 3, 35, 66, 198, 123, 28, 50], rfl⟩
    else if canonical = "acct|testnet:ETHUSDT:BUY:k2" then ⟨[168, 154, 7, 50, 96, 195, 126, 65, 184, 136], rfl⟩
    else ⟨List.replicate 10 0, rfl⟩
  upper := String.toUpper

/-- The digest of the first of the two under an account id that is a UUID, `0d4b2a6e-8c1f-4e57-9a3d-5f6b7c8d9e01`. -/
def uuidDigest : List.Vector (Fin 256) 10 := ⟨[242, 68, 228, 35, 55, 128, 240, 206, 130, 225], rfl⟩

def hexByte (b : Fin 256) : List Char := [Nat.digitChar (b.val / 16), Nat.digitChar (b.val % 16)]

def hexdigest (bytes : List (Fin 256)) : List Char := bytes.flatMap hexByte

def venueIdMaxLength : Nat := 36

def isVenueChar (c : Char) : Bool :=
  ('A' ≤ c && c ≤ 'Z') || ('a' ≤ c && c ≤ 'z') || ('0' ≤ c && c ≤ '9') ||
    c = '.' || c = ':' || c = '/' || c = '_' || c = '-'

def isValidVenueId (value : String) : Bool :=
  decide (0 < value.length) && decide (value.length ≤ venueIdMaxLength) && value.toList.all isVenueChar

variable [Runtime]

def buildIntentKey (symbol : String) (side : OrderSide) (purpose bucket : String) : String :=
  let upper := Runtime.upper symbol
  let direction := side.value
  s!"{purpose}:{upper}:{direction}:{bucket}"

/-- Derive the venue identity. The check that follows the derivation in the
source never fails: see `isValidVenueId_clientOrderId`. -/
def clientOrderId (accountId intentKey : String) : String :=
  let canonical := s!"{accountId}|{intentKey}"
  "aeth-" ++ String.ofList (hexdigest (Runtime.blake2b canonical).toList)

omit [Runtime] in
theorem hexdigest_length (bytes : List (Fin 256)) : (hexdigest bytes).length = 2 * bytes.length := by
  induction bytes with
  | nil => rfl
  | cons b bs ih =>
      change (hexByte b ++ hexdigest bs).length = _
      rw [List.length_append, ih, List.length_cons]
      change 2 + 2 * bs.length = _
      omega

omit [Runtime] in
theorem isVenueChar_digitChar : ∀ n < 16, isVenueChar (Nat.digitChar n) := by decide

omit [Runtime] in
theorem isVenueChar_hexByte (b : Fin 256) : (hexByte b).all isVenueChar := by
  have hhigh := isVenueChar_digitChar (b.val / 16) (by omega)
  have hlow := isVenueChar_digitChar (b.val % 16) (by omega)
  simp [hexByte, hhigh, hlow]

omit [Runtime] in
theorem isVenueChar_hexdigest (bytes : List (Fin 256)) : (hexdigest bytes).all isVenueChar := by
  simp only [hexdigest, List.all_flatMap, isVenueChar_hexByte]
  simp

theorem isValidVenueId_clientOrderId (accountId intentKey : String) :
    isValidVenueId (clientOrderId accountId intentKey) := by
  have hchars := isVenueChar_hexdigest (Runtime.blake2b s!"{accountId}|{intentKey}").toList
  have hlength := hexdigest_length (Runtime.blake2b s!"{accountId}|{intentKey}").toList
  rw [List.Vector.toList_length] at hlength
  simp only [isValidVenueId, clientOrderId, String.length_append, String.length_ofList, hlength,
    String.toList_append, String.toList_ofList, List.all_append, hchars]
  decide

end Aetheris.OrderIdentity
