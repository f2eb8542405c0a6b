import Aetheris.Money

namespace Aetheris.Clock

open Money (digits)

/-- An aware UTC datetime: microseconds since the epoch. -/
abbrev Timestamp := Int

def second : Int := 1000000

def day : Int := 86400 * second

def date (t : Timestamp) : Int := t / day

def totalSeconds (delta : Int) : Money.Decimal := delta / 1000000

/-- Year, month and day of a day number counted from the epoch, in the proleptic Gregorian calendar. -/
def civil (days : Int) : Int × Nat × Nat :=
  let z := days + 719468
  let era := z / 146097
  let doe := (z - era * 146097).toNat
  let yoe := (doe - doe / 1460 + doe / 36524 - doe / 146096) / 365
  let doy := doe - (365 * yoe + yoe / 4 - yoe / 100)
  let mp := (5 * doy + 2) / 153
  let month := if mp < 10 then mp + 3 else mp - 9
  (yoe + era * 400 + (if month ≤ 2 then 1 else 0), month, doy - (153 * mp + 2) / 5 + 1)

def isoformat (t : Timestamp) : String :=
  let (year, month, dayOfMonth) := civil (t / day)
  let clock := (t % day).toNat
  let micros := clock % 1000000
  let seconds := clock / 1000000
  let date := digits 4 year.toNat ++ "-" ++ digits 2 month ++ "-" ++ digits 2 dayOfMonth
  let time := digits 2 (seconds / 3600) ++ ":" ++ digits 2 (seconds / 60 % 60) ++ ":" ++
    digits 2 (seconds % 60)
  let fraction := if micros = 0 then "" else "." ++ digits 6 micros
  date ++ "T" ++ time ++ fraction ++ "+00:00"

example : isoformat (1789992000 * second) = "2026-09-21T12:00:00+00:00" := by decide +kernel

end Aetheris.Clock
