import Mathlib.Data.List.TakeWhile
import Mathlib.Data.Rat.Defs

namespace Aetheris.Lib.DecimalText

/-- A decimal number as it is kept: a coefficient with a sign, scaled by a power of ten. -/
structure Numeral where
  negative : Bool := false
  coefficient : Nat
  exponent : Int := 0
  deriving DecidableEq

def Numeral.value (x : Numeral) : ℚ :=
  (if x.negative then -1 else 1) * x.coefficient * (10 : ℚ) ^ x.exponent

def Numeral.digits (x : Numeral) : List Char := Nat.toDigits 10 x.coefficient

/-- How many digits stand before the point when nothing is scaled away. -/
def Numeral.leading (x : Numeral) : Int := x.exponent + x.digits.length

/-- Where the point is put: in its place, or after the first digit. -/
def Numeral.point (x : Numeral) : Int := if x.exponent ≤ 0 ∧ -6 < x.leading then x.leading else 1

def signed (n : Int) : List Char := (if n < 0 then '-' else '+') :: Nat.toDigits 10 n.natAbs

def Numeral.whole (x : Numeral) : List Char :=
  if x.point ≤ 0 then ['0'] else x.digits.take x.point.toNat

def Numeral.fraction (x : Numeral) : List Char :=
  if x.point ≤ 0 then List.replicate (-x.point).toNat '0' ++ x.digits else x.digits.drop x.point.toNat

def fractionText (fraction : List Char) : List Char := if fraction = [] then [] else '.' :: fraction

def exponentText (n : Int) : List Char := if n = 0 then [] else 'E' :: signed n

/-- To scientific notation, the text of every digit and of the exponent. -/
def text (x : Numeral) : String :=
  String.ofList ((if x.negative then ['-'] else []) ++ x.whole ++ fractionText x.fraction ++
    exponentText (x.leading - x.point))

/-- A sign, if there is one, and what follows it. -/
def readSign : List Char → Bool × List Char
  | '-' :: rest => (true, rest)
  | '+' :: rest => (false, rest)
  | rest => (false, rest)

def readDigits (text : List Char) : List Char × List Char :=
  (text.takeWhile Char.isDigit, text.dropWhile Char.isDigit)

def readFraction : List Char → List Char × List Char
  | '.' :: rest => readDigits rest
  | rest => ([], rest)

def readExponent : List Char → Option Int
  | [] => some 0
  | c :: rest =>
      let (negative, rest) := readSign rest
      let (digits, rest) := readDigits rest
      if (c = 'E' ∨ c = 'e') ∧ digits ≠ [] ∧ rest = [] then
        some (if negative then -Nat.ofDigitChars 10 digits 0 else Nat.ofDigitChars 10 digits 0)
      else none

def read (text : String) : Option Numeral :=
  let (negative, rest) := readSign text.toList
  let (whole, rest) := readDigits rest
  let (fraction, rest) := readFraction rest
  if whole ++ fraction = [] then none
  else (readExponent rest).map fun exponent =>
    ⟨negative, Nat.ofDigitChars 10 (whole ++ fraction) 0, exponent - fraction.length⟩

section Readers

variable {digits rest : List Char}

def AllDigits (digits : List Char) : Prop := ∀ c ∈ digits, c.isDigit

/-- What follows the digits is no digit. -/
def Ends (rest : List Char) : Prop := ∀ c ∈ rest.head?, c.isDigit = false

theorem readDigits_append (h : AllDigits digits) (hrest : Ends rest) : readDigits (digits ++ rest) = (digits, rest) := by
  unfold readDigits
  rw [List.takeWhile_append_of_pos h, List.dropWhile_append_of_pos h]
  cases rest with
  | nil => simp
  | cons c rest =>
      have hc : c.isDigit = false := hrest c rfl
      simp [hc]

theorem allDigits_toDigits (n : Nat) : AllDigits (Nat.toDigits 10 n) := fun _ hc =>
  Nat.isDigit_of_mem_toDigits (by omega) (by omega) hc

theorem readSign_of_digit (h : AllDigits digits) (hne : digits ≠ []) :
    readSign (digits ++ rest) = (false, digits ++ rest) := by
  cases digits with
  | nil => exact absurd rfl hne
  | cons c digits =>
      have hc : c.isDigit := h c (List.mem_cons_self ..)
      have hminus : c ≠ '-' := by
        rintro rfl
        exact absurd hc (by decide)
      have hplus : c ≠ '+' := by
        rintro rfl
        exact absurd hc (by decide)
      rw [List.cons_append]
      unfold readSign
      split
      next heq => exact absurd (List.cons.inj heq).1 hminus
      next heq => exact absurd (List.cons.inj heq).1 hplus
      next => rfl

theorem readExponent_text (n : Int) : readExponent (exponentText n) = some n := by
  unfold exponentText
  split
  next h => rw [h]; rfl
  next h =>
    have hdigits : readDigits (Nat.toDigits 10 n.natAbs) = (Nat.toDigits 10 n.natAbs, []) := by
      have hnone : Ends [] := by simp [Ends]
      have hread := readDigits_append (allDigits_toDigits n.natAbs) hnone
      rwa [List.append_nil] at hread
    have hne : Nat.toDigits 10 n.natAbs ≠ [] := Nat.toDigits_ne_nil
    have hvalue : Nat.ofDigitChars 10 (Nat.toDigits 10 n.natAbs) 0 = n.natAbs := by simp
    by_cases hneg : n < 0
    · simp only [signed, hneg, if_true, readExponent, readSign, hdigits]
      rw [if_pos ⟨.inl trivial, hne, trivial⟩, hvalue]
      exact congrArg some (by omega)
    · simp only [signed, hneg, if_false, readExponent, readSign, hdigits, Bool.false_eq_true]
      rw [if_pos ⟨.inl trivial, hne, trivial⟩, hvalue]
      exact congrArg some (by omega)

theorem exponentText_head (n : Int) : ∀ c ∈ (exponentText n).head?, c = 'E' := by
  intro c hc
  unfold exponentText at hc
  split at hc
  next => cases hc
  next => exact (Option.some.inj hc).symm

theorem readFraction_text (h : AllDigits digits) (n : Int) :
    readFraction (fractionText digits ++ exponentText n) = (digits, exponentText n) := by
  have hends : Ends (exponentText n) := by
    intro c hc
    rw [exponentText_head n c hc]
    rfl
  unfold fractionText
  split
  next hnone =>
    rw [hnone, List.nil_append]
    have hhead := exponentText_head n
    generalize exponentText n = rest at hhead
    unfold readFraction
    split
    next => exact absurd (hhead '.' rfl) (by decide)
    next => rfl
  next => exact readDigits_append h hends

theorem ends_fraction (digits : List Char) (n : Int) : Ends (fractionText digits ++ exponentText n) := by
  intro c hc
  unfold fractionText at hc
  split at hc
  next =>
    rw [exponentText_head n c hc]
    rfl
  next =>
    rw [← Option.some.inj hc]
    rfl

end Readers

section Numerals

variable (x : Numeral)

theorem length_digits_pos : 0 < x.digits.length := List.length_pos_iff.mpr Nat.toDigits_ne_nil

theorem allDigits_digits : AllDigits x.digits := allDigits_toDigits x.coefficient

theorem allDigits_zeros (n : Nat) : AllDigits (List.replicate n '0') := by
  intro c hc
  rw [List.eq_of_mem_replicate hc]
  rfl

theorem allDigits_whole : AllDigits x.whole := by
  unfold Numeral.whole
  split
  next => exact allDigits_zeros 1
  next => exact fun c hc => allDigits_digits x c (List.mem_of_mem_take hc)

theorem whole_ne_nil : x.whole ≠ [] := by
  unfold Numeral.whole
  split
  next => simp
  next h =>
    have hlength := length_digits_pos x
    rw [← List.length_pos_iff, List.length_take]
    omega

theorem allDigits_fraction : AllDigits x.fraction := by
  unfold Numeral.fraction
  split
  next =>
    intro c hc
    rcases List.mem_append.mp hc with hc | hc
    · exact allDigits_zeros _ c hc
    · exact allDigits_digits x c hc
  next => exact fun c hc => allDigits_digits x c (List.mem_of_mem_drop hc)

theorem ofDigitChars_whole_fraction : Nat.ofDigitChars 10 (x.whole ++ x.fraction) 0 = x.coefficient := by
  have hdigits : Nat.ofDigitChars 10 x.digits 0 = x.coefficient := by simp [Numeral.digits]
  unfold Numeral.whole Numeral.fraction
  split
  next =>
    have hzeros : ∀ n, Nat.ofDigitChars 10 (List.replicate n '0') 0 = 0 := fun n => by
      rw [Nat.ofDigitChars_replicate_zero, Nat.mul_zero]
    rw [Nat.ofDigitChars_append, Nat.ofDigitChars_append]
    change Nat.ofDigitChars 10 x.digits (Nat.ofDigitChars 10 _ (Nat.ofDigitChars 10 (List.replicate 1 '0') 0)) = _
    rw [hzeros 1, hzeros, hdigits]
  next => rwa [List.take_append_drop]

theorem exponent_of_fraction : x.leading - x.point - x.fraction.length = x.exponent := by
  have hlength := length_digits_pos x
  unfold Numeral.fraction
  split
  next h =>
    rw [List.length_append, List.length_replicate]
    unfold Numeral.leading
    omega
  next h =>
    rw [List.length_drop]
    unfold Numeral.point Numeral.leading at *
    split <;> omega

/-- What is written of a decimal is read back to the last digit. -/
theorem read_text : read (text x) = some x := by
  have htail : readDigits (x.whole ++ (fractionText x.fraction ++ exponentText (x.leading - x.point))) =
      (x.whole, fractionText x.fraction ++ exponentText (x.leading - x.point)) :=
    readDigits_append (allDigits_whole x) (ends_fraction _ _)
  have hsign : readSign (text x).toList =
      (x.negative, x.whole ++ (fractionText x.fraction ++ exponentText (x.leading - x.point))) := by
    rw [text, String.toList_ofList]
    cases hnegative : x.negative with
    | true => simp [readSign]
    | false =>
        rw [if_neg Bool.false_ne_true, List.nil_append, List.append_assoc]
        exact readSign_of_digit (allDigits_whole x) (whole_ne_nil x)
  have hdigits : x.whole ++ x.fraction ≠ [] := by simp [whole_ne_nil x]
  rw [read, hsign]
  dsimp only
  rw [htail]
  dsimp only
  rw [readFraction_text (allDigits_fraction x)]
  dsimp only
  rw [if_neg hdigits, readExponent_text, Option.map_some, ofDigitChars_whole_fraction, exponent_of_fraction]

end Numerals

end Aetheris.Lib.DecimalText
