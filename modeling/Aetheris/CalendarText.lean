import Mathlib.Tactic.IntervalCases
import Aetheris.Clock

namespace Aetheris.CalendarText

open Money Clock

/-- The day number of a year, a month and a day of the month, counted from the epoch. -/
def days (year : Int) (month dayOfMonth : Nat) : Int :=
  let year := if month ≤ 2 then year - 1 else year
  let era := year / 400
  let yoe := (year - era * 400).toNat
  let mp := if 2 < month then month - 3 else month + 9
  let doy := (153 * mp + 2) / 5 + dayOfMonth - 1
  era * 146097 + (yoe * 365 + yoe / 4 - yoe / 100 + doy : Nat) - 719468

/-- The years a `date` can have. -/
def Datable (number : Int) : Prop := 1 ≤ (civil number).1 ∧ (civil number).1 ≤ 9999

instance (number : Int) : Decidable (Datable number) := inferInstanceAs (Decidable (_ ∧ _))

theorem datable_epoch : Datable 0 := by decide

/-- A `date`, by its number from the epoch. -/
structure CalendarDay where
  number : Int
  datable : Datable number
  deriving DecidableEq

/-- An aware `datetime` in UTC. -/
structure Instant where
  timestamp : Timestamp
  datable : Datable (date timestamp)
  deriving DecidableEq

def dateIsoformat (number : Int) : String :=
  let (year, month, dayOfMonth) := civil number
  digits 4 year.toNat ++ "-" ++ digits 2 month ++ "-" ++ digits 2 dayOfMonth

def readNumber (width : Nat) (text : List Char) : Option (Nat × List Char) :=
  let number := text.take width
  if number.length = width ∧ number.all Char.isDigit then some (Nat.ofDigitChars 10 number 0, text.drop width) else none

def readMark (mark : Char) : List Char → Option (List Char)
  | [] => none
  | c :: rest => if c = mark then some rest else none

def readDate (text : List Char) : Option (CalendarDay × List Char) := do
  let (year, rest) ← readNumber 4 text
  let (month, rest) ← readNumber 2 (← readMark '-' rest)
  let (dayOfMonth, rest) ← readNumber 2 (← readMark '-' rest)
  let number := days year month dayOfMonth
  if h : civil number = ((year : Int), month, dayOfMonth) ∧ Datable number then some (⟨number, h.2⟩, rest) else none

/-- `date.fromisoformat`, of the dashed form that is written. -/
def dateFromIsoformat (text : String) : Option CalendarDay := do
  let (day, rest) ← readDate text.toList
  if rest = [] then some day else none

def readMicros : List Char → Option (Nat × List Char)
  | '.' :: rest => readNumber 6 rest
  | rest => some (0, rest)

/-- `datetime.fromisoformat`, of the form that is written for UTC. -/
def fromIsoformat (text : String) : Option Instant := do
  let (day, rest) ← readDate text.toList
  let (hours, rest) ← readNumber 2 (← readMark 'T' rest)
  let (minutes, rest) ← readNumber 2 (← readMark ':' rest)
  let (seconds, rest) ← readNumber 2 (← readMark ':' rest)
  let (micros, rest) ← readMicros rest
  let timestamp := day.number * Clock.day + ((hours * 60 + minutes) * 60 + seconds : Nat) * second + (micros : Nat)
  if h : rest = "+00:00".toList ∧ hours < 24 ∧ minutes < 60 ∧ seconds < 60 ∧ Datable (date timestamp) then
    some ⟨timestamp, h.2.2.2.2⟩
  else none

section Calendar

/-- In an era of 400 years: the year of a day, and what is left of the day in it. -/
theorem year_of_era {doe : Nat} (h : doe < 146097) :
    let yoe := (doe - doe / 1460 + doe / 36524 - doe / 146096) / 365
    yoe < 400 ∧ 365 * yoe + yoe / 4 - yoe / 100 ≤ doe ∧ doe - (365 * yoe + yoe / 4 - yoe / 100) ≤ 365 := by
  intro yoe
  obtain ⟨quads, rest, hrest, hdoe⟩ : ∃ quads rest, rest < 1460 ∧ doe = 1460 * quads + rest :=
    ⟨doe / 1460, doe % 1460, by omega, by omega⟩
  obtain ⟨century, hcentury, hlow, hhigh⟩ :
      ∃ century < 5, 36524 * century ≤ doe ∧ doe < 36524 * (century + 1) :=
    ⟨doe / 36524, by omega, by omega, by omega⟩
  have hyoe : yoe = (1459 * quads + rest + century - century / 4) / 365 := by
    have hquads : doe / 1460 = quads := by omega
    have hcent : doe / 36524 = century := by omega
    have hlast : doe / 146096 = century / 4 := by omega
    simp only [yoe, hquads, hcent, hlast]
    congr 1
    omega
  clear_value yoe
  subst hdoe
  -- the last day of the era, alone in a fifth century by the count, belongs to the fourth
  have hcenturies : yoe / 100 = century - century / 4 := by interval_cases century <;> omega
  have hleaps : yoe / 4 ≤ quads ∧ quads ≤ yoe / 4 + 1 := by omega
  omega

/-- In a year that begins in March: the month of a day. -/
theorem month_of_year {doy : Nat} (h : doy ≤ 365) :
    (5 * doy + 2) / 153 < 12 ∧ (153 * ((5 * doy + 2) / 153) + 2) / 5 ≤ doy ∧
      doy - (153 * ((5 * doy + 2) / 153) + 2) / 5 < 31 := by
  omega

theorem days_civil (number : Int) : days (civil number).1 (civil number).2.1 (civil number).2.2 = number := by
  obtain ⟨era, doe, hdoe, hnumber⟩ : ∃ (era : Int) (doe : Nat), doe < 146097 ∧ number + 719468 = era * 146097 + doe :=
    ⟨(number + 719468) / 146097, ((number + 719468) % 146097).toNat, by omega, by omega⟩
  have hera : (number + 719468) / 146097 = era := by omega
  have hrest : (number + 719468 - era * 146097).toNat = doe := by omega
  obtain ⟨hyoe, hyear, hdoy⟩ := year_of_era hdoe
  unfold civil
  dsimp only
  rw [hera, hrest]
  generalize (doe - doe / 1460 + doe / 36524 - doe / 146096) / 365 = yoe at *
  obtain ⟨hmonths, hmonth, _⟩ := month_of_year hdoy
  generalize hdoy' : doe - (365 * yoe + yoe / 4 - yoe / 100) = doy at *
  generalize (5 * doy + 2) / 153 = mp at *
  have hmp : (if 2 < (if mp < 10 then mp + 3 else mp - 9) then (if mp < 10 then mp + 3 else mp - 9) - 3
      else (if mp < 10 then mp + 3 else mp - 9) + 9) = mp := by
    by_cases h : mp < 10 <;> simp only [h, if_true, if_false] <;> split <;> omega
  have hyears : (if (if mp < 10 then mp + 3 else mp - 9) ≤ 2
      then (yoe : Int) + era * 400 + (if (if mp < 10 then mp + 3 else mp - 9) ≤ 2 then 1 else 0) - 1
      else (yoe : Int) + era * 400 + (if (if mp < 10 then mp + 3 else mp - 9) ≤ 2 then 1 else 0)) =
      yoe + era * 400 := by
    split <;> omega
  unfold days
  dsimp only
  rw [hyears, hmp]
  have hera' : ((yoe : Int) + era * 400) / 400 = era := by omega
  have hyoe' : ((yoe : Int) + era * 400 - era * 400).toNat = yoe := by omega
  rw [hera', hyoe']
  omega

/-- A month and a day of it are written in two digits. -/
theorem civil_lt (number : Int) : (civil number).2.1 < 10 ^ 2 ∧ (civil number).2.2 < 10 ^ 2 := by
  obtain ⟨doe, hdoe⟩ : ∃ doe : Nat, (number + 719468 - (number + 719468) / 146097 * 146097).toNat = doe := ⟨_, rfl⟩
  have hdoe' : doe < 146097 := by omega
  obtain ⟨hmonth, -, hday⟩ := month_of_year (year_of_era hdoe').2.2
  unfold civil
  dsimp only
  rw [hdoe]
  constructor
  · split <;> omega
  · omega

end Calendar

section Texts

variable {width n : Nat} {rest : List Char}

theorem toList_digits (width n : Nat) :
    (digits width n).toList = List.replicate (width - (Nat.toDigits 10 n).length) '0' ++ Nat.toDigits 10 n := by
  have hzeros : ∀ k, ("".pushn '0' k).toList = List.replicate k '0' := by
    intro k
    rw [String.pushn_eq_repeat_push]
    induction k with
    | zero => rfl
    | succ k ih => rw [Nat.repeat, String.toList_push, ih, List.replicate_succ']
  have hlength : (toString n).length = (Nat.toDigits 10 n).length := by
    rw [← String.length_toList, Nat.toString_eq_repr, Nat.toList_repr]
  unfold digits
  dsimp only
  rw [String.toList_append, hzeros, hlength, Nat.toString_eq_repr, Nat.toList_repr]

theorem readNumber_digits (hwidth : 0 < width) (h : n < 10 ^ width) :
    readNumber width ((digits width n).toList ++ rest) = some (n, rest) := by
  have hshort : (Nat.toDigits 10 n).length ≤ width := (Nat.length_toDigits_le_iff (by omega) hwidth).mpr h
  have hlength : (digits width n).toList.length = width := by
    rw [toList_digits, List.length_append, List.length_replicate]
    omega
  have hdigits : (digits width n).toList.all Char.isDigit := by
    rw [toList_digits, List.all_append, Bool.and_eq_true, List.all_eq_true, List.all_eq_true]
    constructor
    · intro c hc
      rw [List.eq_of_mem_replicate hc]
      rfl
    · exact fun c hc => Nat.isDigit_of_mem_toDigits (by omega) (by omega) hc
  have hvalue : Nat.ofDigitChars 10 (digits width n).toList 0 = n := by
    rw [toList_digits, Nat.ofDigitChars_append, Nat.ofDigitChars_replicate_zero, Nat.mul_zero,
      Nat.ofDigitChars_ten_toDigits]
  have htake : ((digits width n).toList ++ rest).take width = (digits width n).toList :=
    List.take_left' hlength
  have hdrop : ((digits width n).toList ++ rest).drop width = rest :=
    List.drop_left' hlength
  unfold readNumber
  dsimp only
  rw [htake, hdrop, if_pos ⟨hlength, hdigits⟩, hvalue]

theorem readMark_cons (mark : Char) : readMark mark (mark :: rest) = some rest := if_pos rfl

variable (rest) in
theorem readDate_parts {year month dayOfMonth : Nat} {day : CalendarDay} (hyear : year < 10 ^ 4)
    (hmonth : month < 10 ^ 2) (hdayOfMonth : dayOfMonth < 10 ^ 2)
    (hcivil : civil day.number = ((year : Int), month, dayOfMonth)) (hdays : days year month dayOfMonth = day.number) :
    readDate ((digits 4 year).toList ++ '-' :: ((digits 2 month).toList ++ '-' ::
      ((digits 2 dayOfMonth).toList ++ rest))) = some (day, rest) := by
  unfold readDate
  rw [readNumber_digits (by omega) hyear]
  dsimp only [Option.bind_eq_bind, Option.bind_some]
  rw [readMark_cons, Option.bind_some, readNumber_digits (by omega) hmonth]
  dsimp only [Option.bind_some]
  rw [readMark_cons, Option.bind_some, readNumber_digits (by omega) hdayOfMonth]
  dsimp only [Option.bind_some]
  have hfound : civil (days year month dayOfMonth) = ((year : Int), month, dayOfMonth) ∧
      Datable (days year month dayOfMonth) := by
    rw [hdays]
    exact ⟨hcivil, day.datable⟩
  rw [dif_pos hfound]
  cases day
  simp only [hdays]

variable (rest) in
theorem readDate_dateIsoformat (day : CalendarDay) :
    readDate ((dateIsoformat day.number).toList ++ rest) = some (day, rest) := by
  obtain ⟨hlow, hhigh⟩ := day.datable
  have hyear : (((civil day.number).1.toNat : Nat) : Int) = (civil day.number).1 := by omega
  have hfour : (civil day.number).1.toNat < 10 ^ 4 := by omega
  have hdays : days (civil day.number).1.toNat (civil day.number).2.1 (civil day.number).2.2 = day.number := by
    rw [hyear, days_civil]
  have hcivil : civil day.number = (((civil day.number).1.toNat : Int), (civil day.number).2.1,
      (civil day.number).2.2) := by
    rw [hyear]
  have hparts := readDate_parts rest hfour (civil_lt day.number).1 (civil_lt day.number).2 hcivil hdays
  rw [← hparts]
  simp [dateIsoformat]

theorem dateFromIsoformat_dateIsoformat (day : CalendarDay) :
    dateFromIsoformat (dateIsoformat day.number) = some day := by
  have hread := readDate_dateIsoformat [] day
  rw [List.append_nil] at hread
  rw [dateFromIsoformat, hread]
  rfl

/-- The clock of a day, as it is written. -/
def timeText (clock : Nat) : List Char :=
  let micros := clock % 1000000
  let seconds := clock / 1000000
  let time := (digits 2 (seconds / 3600)).toList ++ ':' :: ((digits 2 (seconds / 60 % 60)).toList ++ ':' ::
    (digits 2 (seconds % 60)).toList)
  time ++ if micros = 0 then [] else '.' :: (digits 6 micros).toList

theorem toList_isoformat (t : Timestamp) : (isoformat t).toList =
    (dateIsoformat (date t)).toList ++ 'T' :: (timeText (t % Clock.day).toNat ++ "+00:00".toList) := by
  have hmark : ∀ (mark : Char) (tail : List Char), (String.ofList [mark]).toList ++ tail = mark :: tail :=
    fun _ _ => by simp
  unfold isoformat dateIsoformat timeText date
  dsimp only
  split <;> simp

theorem readMicros_text (h : n < 1000000) :
    readMicros ((if n = 0 then [] else '.' :: (digits 6 n).toList) ++ "+00:00".toList) = some (n, "+00:00".toList) := by
  by_cases hzero : n = 0
  · rw [if_pos hzero, hzero]
    rfl
  · rw [if_neg hzero, List.cons_append]
    simp only [readMicros]
    exact readNumber_digits (by omega) (by omega)

theorem clock_of (t : Int) : ∃ clock : Nat, clock < 86400000000 ∧ (t % Clock.day).toNat = clock ∧
    t = t / Clock.day * Clock.day + clock := by
  have hday : Clock.day = 86400000000 := rfl
  rw [hday]
  exact ⟨(t % 86400000000).toNat, by omega, rfl, by omega⟩

/-- The numbers a clock is written in are those of a time of day, and give the clock back. -/
theorem clock_parts {clock : Nat} (h : clock < 86400000000) :
    (clock / 1000000 / 3600 < 24 ∧ clock / 1000000 / 60 % 60 < 60 ∧ clock / 1000000 % 60 < 60) ∧
      ((clock / 1000000 / 3600 * 60 + clock / 1000000 / 60 % 60) * 60 + clock / 1000000 % 60) * 1000000 +
        clock % 1000000 = clock := by
  omega

theorem instant_of_parts {t : Instant} {timestamp : Timestamp} {hours minutes seconds : Nat}
    (h : timestamp = t.timestamp) (hhours : hours < 24) (hminutes : minutes < 60) (hseconds : seconds < 60) :
    (if h : "+00:00".toList = "+00:00".toList ∧ hours < 24 ∧ minutes < 60 ∧ seconds < 60 ∧ Datable (date timestamp) then
      some (⟨timestamp, h.2.2.2.2⟩ : Instant) else none) = some t := by
  subst h
  exact dif_pos ⟨rfl, hhours, hminutes, hseconds, t.datable⟩

/-- What is written of a time is read back to the microsecond. -/
theorem fromIsoformat_isoformat (t : Instant) : fromIsoformat (isoformat t.timestamp) = some t := by
  obtain ⟨clock, hclock, hrest, hsplit⟩ := clock_of t.timestamp
  obtain ⟨⟨hhours, hminutes, hseconds⟩, htime⟩ := clock_parts hclock
  have hback : date t.timestamp * Clock.day + ((((clock / 1000000 / 3600) * 60 + clock / 1000000 / 60 % 60) * 60 +
      clock / 1000000 % 60 : Nat) : Int) * second + ((clock % 1000000 : Nat) : Int) = t.timestamp := by
    refine Eq.trans ?_ hsplit.symm
    rw [add_assoc, date]
    congr 1
    rw [second]
    exact_mod_cast htime
  rw [fromIsoformat, toList_isoformat, readDate_dateIsoformat _ ⟨date t.timestamp, t.datable⟩, hrest]
  unfold timeText
  dsimp only [Option.bind_eq_bind, Option.bind_some]
  simp only [List.append_assoc, List.cons_append]
  rw [readMark_cons, Option.bind_some, readNumber_digits two_pos (hhours.trans_le (by decide))]
  dsimp only [Option.bind_some]
  rw [readMark_cons, Option.bind_some, readNumber_digits two_pos (hminutes.trans_le (by decide))]
  dsimp only [Option.bind_some]
  rw [readMark_cons, Option.bind_some, readNumber_digits two_pos (hseconds.trans_le (by decide))]
  dsimp only [Option.bind_some]
  rw [readMicros_text (Nat.mod_lt _ (by decide))]
  dsimp only [Option.bind_some]
  exact instant_of_parts hback hhours hminutes hseconds

end Texts

end Aetheris.CalendarText
