import MegaNet.Periods

/-! The Gregorian calendar from Monday 1900-01-01 on: years of 365 and 366 days
by the leap rule, their months, and times of day; the seconds since then as a
number, and the time one second later. -/
namespace MegaNet.Gregorian
open Periods

variable {n y : Nat}

/-! ## The calendar -/

/-- Every fourth year is a leap year, but of the hundredth only every fourth. -/
def Leap (y : Nat) : Prop := y % 4 = 0 ∧ y % 100 ≠ 0 ∨ y % 400 = 0

instance (y : Nat) : Decidable (Leap y) := inferInstanceAs (Decidable (_ ∧ _ ∨ _))

def yearDays (y : Nat) : Nat := if Leap y then 366 else 365

/-- The days of a month, from 1 to 12. -/
def monthDays (y month : Nat) : Nat :=
  if month = 2 then if Leap y then 29 else 28
  else if month = 4 ∨ month = 6 ∨ month = 9 ∨ month = 11 then 30
  else 31

/-- A date, a time of day, and a day of the week, Sunday being 0. -/
structure Civil where
  year : Nat
  month : Nat
  day : Nat
  hour : Nat
  minute : Nat
  second : Nat
  weekday : Nat
  deriving DecidableEq

/-- The years from 1900 on, and the months of one from January on, as periods of
days. -/
def years (k : Nat) : Nat := yearDays (1900 + k)

def months (y j : Nat) : Nat := monthDays y (j + 1)

/-- The day, the first being 0. -/
def dayNumber (c : Civil) : Nat :=
  start years (c.year - 1900) + start (months c.year) (c.month - 1) + (c.day - 1)

/-- The seconds since the first day began. -/
def seconds (c : Civil) : Nat := 86400 * dayNumber c + 3600 * c.hour + 60 * c.minute + c.second

/-- A civil time from 1900 on: there is such a day, the time of day is one, and
the weekday is right, the first day being a Monday. -/
structure Valid (c : Civil) : Prop where
  year : 1900 ≤ c.year
  month : 1 ≤ c.month ∧ c.month ≤ 12
  day : 1 ≤ c.day ∧ c.day ≤ monthDays c.year c.month
  hour : c.hour < 24
  minute : c.minute < 60
  second : c.second < 60
  weekday : c.weekday = (dayNumber c + 1) % 7

/-! ## Days -/

theorem monthDays_pos (y month : Nat) : 0 < monthDays y month := by
  unfold monthDays
  split_ifs <;> exact Nat.succ_pos _

theorem yearDays_ge (y : Nat) : 365 ≤ yearDays y := by
  unfold yearDays
  split_ifs <;> omega

/-- Twelve months are a year. -/
theorem months_year (y : Nat) : start (months y) 12 = yearDays y := by
  unfold yearDays
  by_cases leap : Leap y <;> simp [start, months, monthDays, leap]

/-- A valid date is a day of a month of a year. -/
theorem Valid.at {c : Civil} (valid : Valid c) : ∃ day, At years (dayNumber c) (c.year - 1900) day ∧
    At (months c.year) day (c.month - 1) (c.day - 1) := by
  obtain ⟨first, last⟩ := valid.month
  obtain ⟨one, most⟩ := valid.day
  have inMonth : At (months c.year) (start (months c.year) (c.month - 1) + (c.day - 1))
      (c.month - 1) (c.day - 1) := by
    refine ⟨rfl, ?_⟩
    unfold months
    rw [Nat.sub_add_cancel first]
    omega
  refine ⟨_, ⟨(Nat.add_assoc _ _ _).symm, ?_⟩, inMonth⟩
  have inYear := inMonth.before (show c.month - 1 < 12 by omega)
  rw [months_year] at inYear
  unfold years
  rw [Nat.add_sub_cancel' valid.year]
  exact inYear

/-- Two valid times of the same second are the same. -/
theorem Valid.unique {c c' : Civil} (valid : Valid c) (valid' : Valid c')
    (same : seconds c = seconds c') : c = c' := by
  have hour := valid.hour
  have minute := valid.minute
  have second := valid.second
  have hour' := valid'.hour
  have minute' := valid'.minute
  have second' := valid'.second
  unfold seconds at same
  have days : dayNumber c = dayNumber c' := by omega
  obtain ⟨day, inYear, inMonth⟩ := valid.at
  obtain ⟨day', inYear', inMonth'⟩ := valid'.at
  rw [← days] at inYear'
  obtain ⟨years, rfl⟩ := inYear.unique inYear'
  have year : c.year = c'.year := by
    have := valid.year
    have := valid'.year
    omega
  rw [← year] at inMonth'
  obtain ⟨months, rest⟩ := inMonth.unique inMonth'
  have weekday : c.weekday = c'.weekday := by rw [valid.weekday, valid'.weekday, days]
  obtain ⟨first, _⟩ := valid.month
  obtain ⟨first', _⟩ := valid'.month
  obtain ⟨one, _⟩ := valid.day
  obtain ⟨one', _⟩ := valid'.day
  obtain ⟨_, _, _, _, _, _, _⟩ := c
  obtain ⟨_, _, _, _, _, _, _⟩ := c'
  simp only at *
  simp only [Civil.mk.injEq]
  omega

/-! ## The next second -/

/-- The day after. -/
def tomorrow (c : Civil) : Civil :=
  if c.day < monthDays c.year c.month then { c with day := c.day + 1 }
  else if c.month < 12 then { c with month := c.month + 1, day := 1 }
  else { c with year := c.year + 1, month := 1, day := 1 }

/-- One second later. -/
def next (c : Civil) : Civil :=
  if c.second < 59 then { c with second := c.second + 1 }
  else if c.minute < 59 then { c with minute := c.minute + 1, second := 0 }
  else if c.hour < 23 then { c with hour := c.hour + 1, minute := 0, second := 0 }
  else { tomorrow c with hour := 0, minute := 0, second := 0, weekday := (c.weekday + 1) % 7 }

/-- The month after begins where this one ends. -/
theorem month_turn {c : Civil} (valid : Valid c) :
    start (months c.year) c.month = start (months c.year) (c.month - 1) + monthDays c.year c.month := by
  have whole : c.month = c.month - 1 + 1 := by
    have := valid.month
    omega
  have turn : start (months c.year) (c.month - 1 + 1) =
      start (months c.year) (c.month - 1) + months c.year (c.month - 1) := rfl
  rw [← whole] at turn
  rw [turn, months, ← whole]

/-- And the year after where this one does. -/
theorem year_turn {c : Civil} (valid : Valid c) :
    start years (c.year + 1 - 1900) = start years (c.year - 1900) + start (months c.year) 12 := by
  have after : c.year + 1 - 1900 = c.year - 1900 + 1 := by
    have := valid.year
    omega
  rw [after, months_year]
  show start years (c.year - 1900) + yearDays (1900 + (c.year - 1900)) = _
  rw [Nat.add_sub_cancel' valid.year]

theorem tomorrow_dayNumber {c : Civil} (valid : Valid c) : dayNumber (tomorrow c) = dayNumber c + 1 := by
  obtain ⟨one, most⟩ := valid.day
  have month := month_turn valid
  have year := year_turn valid
  unfold tomorrow dayNumber
  split_ifs with inMonth inYear
  · dsimp only
    omega
  · dsimp only
    rw [Nat.add_sub_cancel]
    omega
  · dsimp only
    have last : c.month = 12 := by
      have := valid.month
      omega
    rw [last] at month most inMonth
    rw [last, year, month, show start (months (c.year + 1)) (1 - 1) = 0 from rfl]
    omega

/-- The day after is a day of the calendar. -/
theorem tomorrow_date {c : Civil} (valid : Valid c) :
    1900 ≤ (tomorrow c).year ∧ (1 ≤ (tomorrow c).month ∧ (tomorrow c).month ≤ 12) ∧
      1 ≤ (tomorrow c).day ∧ (tomorrow c).day ≤ monthDays (tomorrow c).year (tomorrow c).month := by
  obtain ⟨one, most⟩ := valid.day
  obtain ⟨first, last⟩ := valid.month
  have year := valid.year
  unfold tomorrow
  split_ifs with inMonth inYear
  · exact ⟨year, ⟨first, last⟩, Nat.succ_pos _, inMonth⟩
  · exact ⟨year, ⟨Nat.succ_pos _, inYear⟩, Nat.le_refl 1, monthDays_pos ..⟩
  · exact ⟨Nat.le_succ_of_le year, ⟨Nat.le_refl 1, by dsimp only; omega⟩,
      Nat.le_refl 1, monthDays_pos ..⟩

/-- A second later is a valid time again, and one second later. -/
theorem next_valid {c : Civil} (valid : Valid c) : Valid (next c) ∧
    seconds (next c) = seconds c + 1 := by
  obtain ⟨year, month, day, hour, minute, second, weekday⟩ := valid
  unfold next
  split_ifs with inMinute inHour inDay
  · exact ⟨⟨year, month, day, hour, minute, by dsimp only; omega, weekday⟩, rfl⟩
  · refine ⟨⟨year, month, day, hour, by dsimp only; omega, Nat.succ_pos _, weekday⟩, ?_⟩
    show 86400 * dayNumber c + 3600 * c.hour + 60 * (c.minute + 1) + 0 = seconds c + 1
    unfold seconds
    omega
  · refine ⟨⟨year, month, day, by dsimp only; omega, Nat.succ_pos _, Nat.succ_pos _, weekday⟩, ?_⟩
    show 86400 * dayNumber c + 3600 * (c.hour + 1) + 60 * 0 + 0 = seconds c + 1
    unfold seconds
    omega
  · have valid : Valid c := ⟨year, month, day, hour, minute, second, weekday⟩
    obtain ⟨year', month', day'⟩ := tomorrow_date valid
    have number := tomorrow_dayNumber valid
    refine ⟨⟨year', month', day', Nat.succ_pos _, Nat.succ_pos _, Nat.succ_pos _, ?_⟩, ?_⟩
    · show (c.weekday + 1) % 7 = (dayNumber (tomorrow c) + 1) % 7
      rw [number, weekday]
      omega
    · show 86400 * dayNumber (tomorrow c) + 3600 * 0 + 60 * 0 + 0 = seconds c + 1
      rw [number]
      unfold seconds
      omega

end MegaNet.Gregorian
