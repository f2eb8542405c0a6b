import Aetheris.Lib.Dict
import Aetheris.Lib.FormEncoding
import Aetheris.OrderIdentity

namespace Aetheris.Signing

open Lib FormEncoding OrderIdentity

/-- HMAC with SHA-256, of a key and a message. -/
class Hmac where
  sha256 : List UInt8 → List UInt8 → List.Vector (Fin 256) 32

/-- A key that signs every message alike. -/
@[reducible] def constantHmac : Hmac := ⟨fun _ _ => .replicate 32 (Fin.last 255)⟩

def apiKeyHeader : String := "X-MBX-APIKEY"

inductive ParamValue
  | text (value : String)
  | int (value : Int)
  | none
  deriving DecidableEq

def ParamValue.str? : ParamValue → Option String
  | text value => some value
  | int value => some (toString value)
  | none => Option.none

abbrev Params := Dict String ParamValue

def present (params : Params) : List (String × String) :=
  params.entries.filterMap fun entry => entry.2.str?.map fun value => (entry.1, value)

def payload (params : Params) (recvWindowMs timestampMs : Int) : Dict String String :=
  ((Dict.ofList (present params)).set "recvWindow" (toString recvWindowMs)).set "timestamp" (toString timestampMs)

def utf8 (text : String) : List UInt8 := text.toList.flatMap String.utf8EncodeChar

def signature [Hmac] (apiSecret encoded : String) : String :=
  String.ofList (hexdigest (Hmac.sha256 (utf8 apiSecret) (utf8 encoded)).toList)

/-- The string that is sent, signed as it is sent. -/
def buildSignedQuery [Hmac] (params : Params) (apiSecret : String) (recvWindowMs timestampMs : Int) : String :=
  let encoded := String.ofList (urlencode (payload params recvWindowMs timestampMs).entries)
  encoded ++ "&signature=" ++ signature apiSecret encoded

/-- What a venue that holds the secret reads of a query, if the signature is right
for the bytes before it. -/
def venueReads [Hmac] (apiSecret query : String) : Option (List (String × String)) :=
  match lastPair query.toList with
  | some (key, given) =>
      if key = "signature" ∧ given = signature apiSecret (String.ofList (dropLastPair query.toList)) then
        parse (dropLastPair query.toList)
      else none
  | none => none

theorem unreserved_hexdigest (bytes : List (Fin 256)) : ∀ c ∈ hexdigest bytes, unreserved c := by
  intro c hc
  obtain ⟨b, _, hb⟩ := List.mem_flatMap.mp hc
  have hdigit : ∀ n < 16, unreserved (Nat.digitChar n) := by decide
  simp only [hexByte, List.mem_cons, List.not_mem_nil, or_false] at hb
  rcases hb with rfl | rfl
  · exact hdigit _ (by omega)
  · exact hdigit _ (by omega)

section

variable (params : Params) (apiSecret : String) (recvWindowMs timestampMs : Int)

theorem payload_ne_nil : (payload params recvWindowMs timestampMs).entries ≠ [] := by
  intro he
  have hkey := Dict.mem_keys_set ((Dict.ofList (present params)).set "recvWindow" (toString recvWindowMs)) "timestamp"
    (toString timestampMs)
  change "timestamp" ∈ (payload params recvWindowMs timestampMs).keys at hkey
  rw [Dict.keys, he] at hkey
  cases hkey

theorem nodup_present : ((present params).map Prod.fst).Nodup := by
  have hsub : ((present params).map Prod.fst).Sublist (params.entries.map Prod.fst) := by
    unfold present
    induction params.entries with
    | nil => exact .slnil
    | cons entry rest ih =>
        cases hv : entry.2.str? with
        | none => simpa [hv] using ih.cons entry.1
        | some value => simpa [hv] using ih.cons_cons entry.1
  exact params.nodup.sublist hsub

theorem get?_present (key : String) :
    (Dict.ofList (present params)).get? key = (params.get? key).bind ParamValue.str? := by
  have hentries : (Dict.ofList (present params)).entries = present params :=
    Dict.foldl_set_entries (present params) .empty (nodup_present params)
  ext value
  rw [Dict.get?_eq_some, hentries, Option.bind_eq_some_iff]
  simp only [present, List.mem_filterMap, Option.map_eq_some_iff, Prod.mk.injEq, Dict.get?_eq_some]
  constructor
  · rintro ⟨⟨_, v⟩, hentry, _, hv, rfl, rfl⟩
    exact ⟨v, hentry, hv⟩
  · rintro ⟨v, hentry, hv⟩
    exact ⟨(key, v), hentry, value, hv, rfl, rfl⟩

theorem get?_payload {key : String} (hrecv : key ≠ "recvWindow") (htime : key ≠ "timestamp") :
    (payload params recvWindowMs timestampMs).get? key = (params.get? key).bind ParamValue.str? := by
  rw [payload, Dict.get?_set_of_ne _ _ htime, Dict.get?_set_of_ne _ _ hrecv, get?_present]

variable [Hmac]

/-- The signature is one more pair of the query. -/
theorem toList_buildSignedQuery : ∃ sig,
    sig = signature apiSecret (String.ofList (urlencode (payload params recvWindowMs timestampMs).entries)) ∧
      (buildSignedQuery params apiSecret recvWindowMs timestampMs).toList =
        urlencode ((payload params recvWindowMs timestampMs).entries ++ [("signature", sig)]) := by
  refine ⟨_, rfl, ?_⟩
  have hkey : quotePlus "signature" = "signature".toList := quotePlus_of_unreserved (List.all_eq_true.mp rfl)
  have hvalue : ∀ encoded, quotePlus (signature apiSecret encoded) = (signature apiSecret encoded).toList := by
    intro encoded
    refine quotePlus_of_unreserved ?_
    rw [signature, String.toList_ofList]
    exact unreserved_hexdigest _
  rw [urlencode_append _ _ (payload_ne_nil params recvWindowMs timestampMs), encodePair, hkey, hvalue]
  simp [buildSignedQuery]

theorem venueReads_buildSignedQuery :
    venueReads apiSecret (buildSignedQuery params apiSecret recvWindowMs timestampMs) =
      some (payload params recvWindowMs timestampMs).entries := by
  obtain ⟨sig, hsig, hquery⟩ := toList_buildSignedQuery params apiSecret recvWindowMs timestampMs
  rw [venueReads, hquery, lastPair_urlencode, dropLastPair_urlencode, parse_urlencode]
  exact if_pos ⟨rfl, hsig⟩

/-- The venue accepts what is sent, and reads it as it was meant: the parameters of the
call as they are, and the window and the time that are added to every one. -/
theorem venue_reads_signed_query : ∃ read : Dict String String,
    venueReads apiSecret (buildSignedQuery params apiSecret recvWindowMs timestampMs) = some read.entries ∧
      read.get? "recvWindow" = some (toString recvWindowMs) ∧ read.get? "timestamp" = some (toString timestampMs) ∧
      ∀ key, key ≠ "recvWindow" → key ≠ "timestamp" → read.get? key = (params.get? key).bind ParamValue.str? := by
  refine ⟨payload params recvWindowMs timestampMs, venueReads_buildSignedQuery .., ?_, Dict.get?_set_self ..,
    fun key hrecv htime => get?_payload params recvWindowMs timestampMs hrecv htime⟩
  rw [payload, Dict.get?_set_of_ne _ _ (by decide), Dict.get?_set_self]

end

end Aetheris.Signing
