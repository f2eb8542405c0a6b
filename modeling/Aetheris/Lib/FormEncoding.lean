import Mathlib.Data.List.TakeDrop
import Mathlib.Data.List.Basic
import Mathlib.Tactic.IntervalCases

namespace Aetheris.Lib.FormEncoding

/-- The characters that stand for themselves. -/
def unreserved (c : Char) : Bool := c.isAlphanum || c = '_' || c = '.' || c = '-' || c = '~'

def hexDigit (n : Nat) : Char := (Nat.digitChar n).toUpper

def hexValue (c : Char) : Option Nat := (List.range 16).find? (fun n => hexDigit n = c)

def percent (b : UInt8) : List Char := ['%', hexDigit (b.toNat / 16), hexDigit (b.toNat % 16)]

def quoteChar (c : Char) : List Char :=
  if unreserved c then [c] else if c = ' ' then ['+'] else (String.utf8EncodeChar c).flatMap percent

def quotePlus (text : String) : List Char := text.toList.flatMap quoteChar

def encodePair (pair : String × String) : List Char := quotePlus pair.1 ++ '=' :: quotePlus pair.2

def urlencode (pairs : List (String × String)) : List Char := ['&'].intercalate (pairs.map encodePair)

/-- The bytes that a quoted text stands for. -/
def bytes? : List Char → Option (List UInt8)
  | [] => some []
  | '%' :: a :: b :: rest => do return UInt8.ofNat (16 * (← hexValue a) + (← hexValue b)) :: (← bytes? rest)
  | c :: rest =>
      if c = '%' then none
      else (bytes? rest).map ((if c = '+' then String.utf8EncodeChar ' ' else String.utf8EncodeChar c) ++ ·)

def unquotePlus (quoted : List Char) : Option String :=
  (bytes? quoted).bind fun bytes => bytes.toByteArray.utf8Decode?.map fun text => String.ofList text.toList

def decodePair (encoded : List Char) : Option (String × String) :=
  match encoded.span (fun c => c ≠ '=') with
  | (key, '=' :: value) => do return (← unquotePlus key, ← unquotePlus value)
  | _ => none

def parse (query : List Char) : Option (List (String × String)) :=
  if query = [] then some [] else (query.splitOn '&').mapM decodePair

/-- The query without its last pair. -/
def dropLastPair (query : List Char) : List Char := ['&'].intercalate (query.splitOn '&').dropLast

def lastPair (query : List Char) : Option (String × String) := (query.splitOn '&').getLast?.bind decodePair

theorem hexValue_hexDigit {n : Nat} (h : n < 16) : hexValue (hexDigit n) = some n := by
  interval_cases n <;> decide

theorem unreserved_hexDigit {n : Nat} (h : n < 16) : unreserved (hexDigit n) := by
  interval_cases n <;> decide

theorem bytes?_percent (b : UInt8) (rest : List Char) : bytes? (percent b ++ rest) = (bytes? rest).map (b :: ·) := by
  have hb : b.toNat < 256 := b.toNat_lt
  have hvalue : UInt8.ofNat (16 * (b.toNat / 16) + b.toNat % 16) = b := by
    rw [Nat.div_add_mod, UInt8.ofNat_toNat]
  change bytes? ('%' :: hexDigit (b.toNat / 16) :: hexDigit (b.toNat % 16) :: rest) = _
  rw [bytes?, hexValue_hexDigit (by omega), hexValue_hexDigit (by omega)]
  simp only [Option.bind_eq_bind, Option.bind_some, hvalue]
  cases bytes? rest <;> rfl

theorem bytes?_percents (bs : List UInt8) (rest : List Char) :
    bytes? (bs.flatMap percent ++ rest) = (bytes? rest).map (bs ++ ·) := by
  induction bs with
  | nil => simp
  | cons b bs ih =>
      rw [List.flatMap_cons, List.append_assoc, bytes?_percent, ih, Option.map_map]
      rfl

theorem bytes?_of_ne {c : Char} (h : c ≠ '%') (rest : List Char) :
    bytes? (c :: rest) =
      (bytes? rest).map ((if c = '+' then String.utf8EncodeChar ' ' else String.utf8EncodeChar c) ++ ·) := by
  rw [bytes?]
  · rw [if_neg h]
  · intro a b rest' hc _
    exact h hc

theorem bytes?_quoteChar (c : Char) (rest : List Char) :
    bytes? (quoteChar c ++ rest) = (bytes? rest).map (String.utf8EncodeChar c ++ ·) := by
  unfold quoteChar
  split
  · rename_i hc
    have hpercent : c ≠ '%' := by
      rintro rfl
      exact absurd hc (by decide)
    have hplus : c ≠ '+' := by
      rintro rfl
      exact absurd hc (by decide)
    rw [List.singleton_append, bytes?_of_ne hpercent, if_neg hplus]
  · split
    · rename_i hc
      subst hc
      exact bytes?_of_ne (by decide) rest
    · exact bytes?_percents _ rest

theorem bytes?_quotePlus (text : String) : bytes? (quotePlus text) = some (text.toList.flatMap String.utf8EncodeChar) := by
  unfold quotePlus
  induction text.toList with
  | nil => rfl
  | cons c rest ih => rw [List.flatMap_cons, bytes?_quoteChar, ih, List.flatMap_cons, Option.map_some]

theorem unquotePlus_quotePlus (text : String) : unquotePlus (quotePlus text) = some text := by
  have hdecoded : (text.toList.flatMap String.utf8EncodeChar).toByteArray.utf8Decode? = some text.toList.toArray :=
    List.utf8Decode?_utf8Encode
  rw [unquotePlus, bytes?_quotePlus, Option.bind_some, hdecoded, Option.map_some, String.ofList_toList]

/-- What a quoted text is made of. -/
theorem mem_quotePlus {text : String} {c : Char} (h : c ∈ quotePlus text) : unreserved c ∨ c = '+' ∨ c = '%' := by
  obtain ⟨d, _, hc⟩ := List.mem_flatMap.mp h
  unfold quoteChar at hc
  split at hc
  · rename_i hd
    exact .inl (List.mem_singleton.mp hc ▸ hd)
  · split at hc
    · exact .inr (.inl (List.mem_singleton.mp hc))
    · obtain ⟨b, _, hc⟩ := List.mem_flatMap.mp hc
      have hb : b.toNat < 256 := b.toNat_lt
      rcases List.mem_cons.mp hc with rfl | hc
      · exact .inr (.inr rfl)
      · simp only [List.mem_cons, List.not_mem_nil, or_false] at hc
        rcases hc with rfl | rfl
        · exact .inl (unreserved_hexDigit (by omega))
        · exact .inl (unreserved_hexDigit (by omega))

theorem not_mem_quotePlus (text : String) {c : Char} (h : c = '&' ∨ c = '=') : c ∉ quotePlus text := by
  intro hc
  have hnot : unreserved c = false ∧ c ≠ '+' ∧ c ≠ '%' := by rcases h with rfl | rfl <;> decide
  rcases mem_quotePlus hc with hu | hp | hp
  · rw [hnot.1] at hu
    cases hu
  · exact hnot.2.1 hp
  · exact hnot.2.2 hp

theorem decodePair_encodePair (pair : String × String) : decodePair (encodePair pair) = some pair := by
  have hspan : (encodePair pair).span (fun c => c ≠ '=') = (quotePlus pair.1, '=' :: quotePlus pair.2) := by
    have hkey : ∀ c ∈ quotePlus pair.1, decide (c ≠ '=') = true := by
      intro c hc
      refine decide_eq_true ?_
      rintro rfl
      exact not_mem_quotePlus pair.1 (.inr rfl) hc
    rw [encodePair, List.span_eq_takeWhile_dropWhile, List.takeWhile_append_of_pos hkey,
      List.dropWhile_append_of_pos hkey]
    simp
  rw [decodePair, hspan]
  simp [unquotePlus_quotePlus]

theorem amp_not_mem_encodePair (pair : String × String) : '&' ∉ encodePair pair := by
  simp only [encodePair, List.mem_append, List.mem_cons, not_or]
  exact ⟨not_mem_quotePlus pair.1 (.inl rfl), by decide, not_mem_quotePlus pair.2 (.inl rfl)⟩

theorem urlencode_ne_nil {pairs : List (String × String)} (h : pairs ≠ []) : urlencode pairs ≠ [] := by
  obtain ⟨pair, rest, rfl⟩ := List.exists_cons_of_ne_nil h
  intro he
  have hmem : '=' ∈ urlencode (pair :: rest) := by
    cases rest <;> simp [urlencode, encodePair, List.intercalate]
  rw [he] at hmem
  cases hmem

theorem mapM_decodePair (pairs : List (String × String)) : (pairs.map encodePair).mapM decodePair = some pairs := by
  induction pairs with
  | nil => rfl
  | cons pair rest ih =>
      rw [List.map_cons, List.mapM_cons, decodePair_encodePair, ih]
      rfl

theorem splitOn_urlencode {pairs : List (String × String)} (h : pairs ≠ []) :
    (urlencode pairs).splitOn '&' = pairs.map encodePair := by
  refine List.splitOn_intercalate '&' ?_ (by simpa using h)
  intro l hl
  obtain ⟨pair, _, rfl⟩ := List.mem_map.mp hl
  exact amp_not_mem_encodePair pair

/-- Whatever the texts are, what is encoded is read back. -/
theorem parse_urlencode (pairs : List (String × String)) : parse (urlencode pairs) = some pairs := by
  by_cases h : pairs = []
  · subst h
    rfl
  · rw [parse, if_neg (urlencode_ne_nil h), splitOn_urlencode h, mapM_decodePair]

section Last

variable (pairs : List (String × String)) (pair : String × String)

theorem splitOn_append : (urlencode (pairs ++ [pair])).splitOn '&' = pairs.map encodePair ++ [encodePair pair] := by
  rw [splitOn_urlencode (by simp), List.map_append, List.map_singleton]

theorem dropLastPair_urlencode : dropLastPair (urlencode (pairs ++ [pair])) = urlencode pairs := by
  rw [dropLastPair, splitOn_append, List.dropLast_concat, urlencode]

theorem lastPair_urlencode : lastPair (urlencode (pairs ++ [pair])) = some pair := by
  rw [lastPair, splitOn_append, List.getLast?_concat, Option.bind_some, decodePair_encodePair]

theorem urlencode_append (h : pairs ≠ []) : urlencode (pairs ++ [pair]) = urlencode pairs ++ '&' :: encodePair pair := by
  unfold urlencode
  induction pairs with
  | nil => exact absurd rfl h
  | cons first rest ih =>
      by_cases hrest : rest = []
      · subst hrest
        simp
      · have hencoded : (rest.map encodePair) ≠ [] := by simpa using hrest
        have hmore : ((rest ++ [pair]).map encodePair) ≠ [] := by simp
        rw [List.cons_append, List.map_cons, List.map_cons, List.intercalate_cons_of_ne_nil hmore,
          List.intercalate_cons_of_ne_nil hencoded, ih hrest]
        simp

end Last

theorem quotePlus_of_unreserved {text : String} (h : ∀ c ∈ text.toList, unreserved c) : quotePlus text = text.toList := by
  have hquoted : ∀ c ∈ text.toList, quoteChar c = [c] := fun c hc => if_pos (h c hc)
  rw [quotePlus, List.flatMap_congr hquoted, List.flatMap_singleton']

end Aetheris.Lib.FormEncoding
