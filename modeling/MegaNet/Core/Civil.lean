import Mathlib.Data.UInt

/-! The calendar of the SNTP client (`mn_ntp.c`): seconds since 1900 to a date. -/
namespace MegaNet.Core.Ntp

/-- `mn_civil`. -/
structure MnCivil where
  year : UInt16
  month : UInt8
  day : UInt8
  hour : UInt8
  minute : UInt8
  second : UInt8
  weekday : UInt8
  deriving DecidableEq

/-- `leap`. -/
def leap (y : UInt16) : Bool := y % 4 == 0 && y % 100 != 0 || y % 400 == 0

def mdays : List UInt8 := [31, 28, 31, 30, 31, 30, 31, 31, 30, 31, 30, 31]

/-- The loop `for (;;)` over the years, from year `y` with `days` left, if it
ends within so many turns. -/
def years : Nat → UInt32 → UInt16 → Option (UInt32 × UInt16)
  | 0, _, _ => none
  | turns + 1, days, y =>
    let dy : UInt16 := if leap y then 366 else 365
    if days < dy.toUInt32 then some (days, y) else years turns (days - dy.toUInt32) (y + 1)

/-- The loop over the months of year `y`, from month `m` on, with the entries of
`mdays` that are left. -/
def months (y : UInt16) : List UInt8 → UInt8 → UInt32 → UInt32 × UInt8
  | [], m, days => (days, m)
  | dm :: rest, m, days =>
    let dy : UInt16 := if m = 1 ∧ leap y then 29 else dm.toUInt16
    if days < dy.toUInt32 then (days, m) else months y rest (m + 1) (days - dy.toUInt32)

/-- The local time in seconds. The signed sum wraps. -/
def localSeconds (seconds1900 : UInt32) (offsetMin : Int16) : UInt32 :=
  (seconds1900.toInt32 + offsetMin.toInt32 * 60).toUInt32

/-- The days and the seconds of the last: below the pivot an era later. -/
def daysAndRem (s : UInt32) : UInt32 × UInt32 :=
  if s < 0x80000000 then (49710 + (s + 23296) / 86400, (s + 23296) % 86400) else (s / 86400, s % 86400)

/-- `mn_ntp_civil`. A year takes off 365 days at least, which bounds the turns of
the first loop. -/
def mnNtpCivil (seconds1900 : UInt32) (offsetMin : Int16) : Option MnCivil :=
  let (days, rem) := daysAndRem (localSeconds seconds1900 offsetMin)
  (years (days.toNat / 365 + 1) days 1900).map fun (left, y) =>
    let (left, m) := months y mdays 0 left
    { year := y
      month := m + 1
      day := (left + 1).toUInt8
      hour := (rem / 3600).toUInt8
      minute := (rem % 3600 / 60).toUInt8
      second := (rem % 3600 % 60).toUInt8
      weekday := ((days + 1) % 7).toUInt8 }

end MegaNet.Core.Ntp
