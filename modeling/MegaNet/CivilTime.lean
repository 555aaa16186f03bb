import Mathlib.Tactic.IntervalCases
import MegaNet.Core.Civil
import MegaNet.Gregorian

/-! `mn_ntp_civil` is the Gregorian calendar: its two loops take off years and
months by the calendar's lengths, and its fields read as a number give back the
time they are of, in either era. -/
namespace MegaNet.CivilTime
open Core.Ntp Periods

variable {y y' : UInt16} {m dm : UInt8} {days s : UInt32} {k n j turns : Nat}

/-! ## The time -/

/-- The seconds since 1900 of a timestamp and an offset in minutes, a sum below
2^31 being of the era after. -/
def eraTime (seconds1900 : UInt32) (offsetMin : Int16) : Nat :=
  let s := ((seconds1900.toNat + 60 * offsetMin.toInt) % 2 ^ 32).toNat
  if 2 ^ 31 ≤ s then s else s + 2 ^ 32

private theorem toNat_ofInt (i : Int) : ((Int32.ofInt i).toUInt32.toNat : Int) = i % 2 ^ 32 := by
  show ((BitVec.ofInt 32 i).toNat : Int) = i % 2 ^ 32
  rw [BitVec.toNat_ofInt]
  omega

/-- The sum of the signed words is the sum modulo 2^32. -/
theorem localSeconds_toNat (seconds1900 : UInt32) (offsetMin : Int16) :
    ((localSeconds seconds1900 offsetMin).toNat : Int) =
      (seconds1900.toNat + 60 * offsetMin.toInt) % 2 ^ 32 := by
  have unsigned : seconds1900.toInt32 = Int32.ofInt seconds1900.toNat := by
    apply Int32.toBitVec_inj.mp
    show seconds1900.toBitVec = BitVec.ofInt 32 (seconds1900.toBitVec.toNat : Int)
    simp
  have signed : offsetMin.toInt32 = Int32.ofInt offsetMin.toInt := by
    rw [← Int16.toInt_toInt32, Int32.ofInt_toInt]
  have sum : seconds1900.toInt32 + offsetMin.toInt32 * 60 =
      Int32.ofInt (seconds1900.toNat + offsetMin.toInt * 60) := by
    rw [Int32.ofInt_add, Int32.ofInt_mul, ← unsigned, ← signed]
    rfl
  rw [localSeconds, sum, toNat_ofInt, Int.mul_comm]

theorem eraTime_eq (seconds1900 : UInt32) (offsetMin : Int16) :
    let s := (localSeconds seconds1900 offsetMin).toNat
    eraTime seconds1900 offsetMin = if 2 ^ 31 ≤ s then s else s + 2 ^ 32 := by
  unfold eraTime
  rw [← localSeconds_toNat, Int.toNat_natCast]

/-- The days and the seconds of the last are those of the time, and the days fit
in 205 years. -/
theorem daysAndRem_time (s : UInt32) :
    86400 * (daysAndRem s).1.toNat + (daysAndRem s).2.toNat =
        (if 2 ^ 31 ≤ s.toNat then s.toNat else s.toNat + 2 ^ 32) ∧
      (daysAndRem s).2.toNat < 86400 ∧ (daysAndRem s).1.toNat < 74566 := by
  have bound := s.toNat_lt
  unfold daysAndRem
  by_cases early : s < 0x80000000
  · have below : ¬2 ^ 31 ≤ s.toNat := Nat.not_le_of_lt (UInt32.lt_iff_toNat_lt.mp early)
    rw [if_pos early, if_neg below]
    simp only [UInt32.toNat_add, UInt32.toNat_div, UInt32.toNat_mod, UInt32.reduceToNat]
    omega
  · have pivot : 2 ^ 31 ≤ s.toNat := UInt32.le_iff_toNat_le.mp (UInt32.not_lt.mp early)
    rw [if_neg early, if_pos pivot]
    simp only [UInt32.toNat_div, UInt32.toNat_mod, UInt32.reduceToNat]
    omega

/-- What a turn of either loop takes off. -/
theorem taken_off {dy : UInt32} (past : ¬days < dy) :
    dy.toNat ≤ days.toNat ∧ (days - dy).toNat = days.toNat - dy.toNat := by
  have le : dy ≤ days := UInt32.not_lt.mp past
  exact ⟨UInt32.le_iff_toNat_le.mp le, UInt32.toNat_sub_of_le _ _ le⟩

/-! ## The years -/

private theorem leap_iff (y : UInt16) : leap y = true ↔ Gregorian.Leap y.toNat := by
  simp [leap, Gregorian.Leap, ← UInt16.toNat_inj]

/-- The days of a year, as the loop has them. -/
theorem year_days (year : y.toNat = 1900 + k) :
    (if leap y then 366 else 365 : UInt16).toUInt32.toNat = Gregorian.years k := by
  unfold Gregorian.years Gregorian.yearDays
  rw [← year]
  by_cases long : leap y
  · rw [if_pos long, if_pos ((leap_iff y).mp long)]
    rfl
  · rw [if_neg long, if_neg (mt (leap_iff y).mpr long)]
    rfl

/-- The loop over the years ends in the year that the day is in. -/
theorem years_at (year : y.toNat = 1900 + k) (place : start Gregorian.years k + days.toNat = n)
    (few : days.toNat < 365 * turns) (fits : k + turns < 60000) :
    ∃ left y', years turns days y = some (left, y') ∧ 1900 ≤ y'.toNat ∧
      At Gregorian.years n (y'.toNat - 1900) left.toNat := by
  induction turns generalizing days y k with
  | zero => omega
  | succ turns ih =>
    have length := year_days year
    have long : 365 ≤ Gregorian.years k := Gregorian.yearDays_ge _
    simp only [years]
    generalize (if leap y then 366 else 365 : UInt16).toUInt32 = dy at *
    by_cases within : days < dy
    · have k' : y.toNat - 1900 = k := by omega
      rw [if_pos within]
      exact ⟨days, y, rfl, by omega, k' ▸ place, k' ▸ length ▸ UInt32.lt_iff_toNat_lt.mp within⟩
    · obtain ⟨past, less⟩ := taken_off within
      rw [if_neg within]
      apply ih (k := k + 1)
      · simp only [UInt16.toNat_add, UInt16.reduceToNat]
        omega
      · show start Gregorian.years k + Gregorian.years k + _ = n
        omega
      · omega
      · omega

/-! ## The months -/

/-- The days of a month, as the loop has them. -/
theorem month_days (entry : mdays[j]? = some dm) :
    (if j = 1 ∧ leap y then 29 else dm.toUInt16 : UInt16).toUInt32.toNat =
      Gregorian.months y.toNat j := by
  have few : j < 12 := (List.getElem?_eq_some_iff.mp entry).1
  have long := leap_iff y
  unfold Gregorian.months Gregorian.monthDays
  by_cases leaps : leap y <;> simp only [leaps, true_iff, Bool.false_eq_true, false_iff] at long <;>
    interval_cases j <;> cases entry <;> simp [leaps, long]

/-- The loop over the months ends in the month that the day is in. -/
theorem months_at {rest : List UInt8} (left : mdays.drop m.toNat = rest)
    (place : start (Gregorian.months y.toNat) m.toNat + days.toNat = n)
    (fits : n < Gregorian.yearDays y.toNat)
    (some_ : m.toNat ≤ 12) :
    (months y rest m days).2.toNat < 12 ∧
      At (Gregorian.months y.toNat) n (months y rest m days).2.toNat (months y rest m days).1.toNat := by
  induction rest generalizing m days with
  | nil =>
    have whole : m.toNat = 12 := by
      have length := List.drop_eq_nil_iff.mp left
      exact Nat.le_antisymm some_ length
    rw [whole, Gregorian.months_year] at place
    omega
  | cons dm rest ih =>
    have entry : mdays[m.toNat]? = some dm := by
      rw [← List.head?_drop, left]
      rfl
    have few : m.toNat < 12 := (List.getElem?_eq_some_iff.mp entry).1
    have length := month_days (y := y) entry
    have first : m.toNat = 1 ↔ m = 1 := by
      rw [← UInt8.toNat_inj]
      rfl
    simp only [first] at length
    simp only [months]
    generalize (if m = 1 ∧ leap y then 29 else dm.toUInt16 : UInt16).toUInt32 = dy at *
    by_cases within : days < dy
    · rw [if_pos within]
      exact ⟨few, place, length ▸ UInt32.lt_iff_toNat_lt.mp within⟩
    · obtain ⟨past, less⟩ := taken_off within
      have after : (m + 1).toNat = m.toNat + 1 := by
        simp only [UInt8.toNat_add, UInt8.reduceToNat]
        omega
      rw [if_neg within]
      apply ih
      · rw [after, ← List.tail_drop, left]
        rfl
      · rw [after]
        show start (Gregorian.months y.toNat) m.toNat + Gregorian.months y.toNat m.toNat + _ = n
        omega
      · omega

/-- The two loops find the date. -/
theorem date_at (few : days.toNat < 74566) :
    ∃ left y day m, years (days.toNat / 365 + 1) days 1900 = some (left, y) ∧
      months y mdays 0 left = (day, m) ∧
      1900 ≤ y.toNat ∧ m.toNat < 12 ∧ day.toNat < Gregorian.monthDays y.toNat (m.toNat + 1) ∧
      start Gregorian.years (y.toNat - 1900) + start (Gregorian.months y.toNat) m.toNat + day.toNat =
        days.toNat := by
  have enough : days.toNat < 365 * (days.toNat / 365 + 1) := by omega
  obtain ⟨left, y, ends, first, inYear⟩ :=
    years_at (y := 1900) (k := 0) rfl (Nat.zero_add _) enough (by omega)
  have fits : left.toNat < Gregorian.yearDays y.toNat := by
    have within := inYear.within
    rwa [Gregorian.years, Nat.add_sub_cancel' first] at within
  have whole : mdays.drop (0 : UInt8).toNat = mdays := rfl
  have place : start (Gregorian.months y.toNat) (0 : UInt8).toNat + left.toNat = left.toNat :=
    Nat.zero_add _
  obtain ⟨december, inMonth⟩ := months_at whole place fits (Nat.zero_le _)
  generalize found : months y mdays 0 left = place at *
  refine ⟨left, y, place.1, place.2, ends, found, first, december, inMonth.within, ?_⟩
  rw [← inYear.sum, ← inMonth.sum, Nat.add_assoc]

/-! ## The fields -/

/-- The fields as a civil time. -/
def read (out : MnCivil) : Gregorian.Civil where
  year := out.year.toNat
  month := out.month.toNat
  day := out.day.toNat
  hour := out.hour.toNat
  minute := out.minute.toNat
  second := out.second.toNat
  weekday := out.weekday.toNat

/-- A value that fits in a byte is kept by the cast to one. -/
theorem toUInt8_toNat {a : UInt32} {b : Nat} (value : a.toNat = b) (fits : b < 256) :
    a.toUInt8.toNat = b := by
  rw [UInt32.toNat_toUInt8, value, Nat.mod_eq_of_lt fits]

theorem monthDays_le (y month : Nat) : Gregorian.monthDays y month ≤ 31 := by
  unfold Gregorian.monthDays
  split_ifs <;> omega

/-- What it returns, on the days and the seconds it has computed. -/
theorem civil_fields {seconds1900 : UInt32} {offsetMin : Int16} {days rem : UInt32}
    (parts : daysAndRem (localSeconds seconds1900 offsetMin) = (days, rem)) (few : days.toNat < 74566)
    (last : rem.toNat < 86400) :
    ∃ out, mnNtpCivil seconds1900 offsetMin = some out ∧ Gregorian.Valid (read out) ∧
      Gregorian.seconds (read out) = 86400 * days.toNat + rem.toNat := by
  obtain ⟨left, y, day, m, inYear, inMonth, first, december, within, number⟩ := date_at few
  have short := monthDays_le y.toNat (m.toNat + 1)
  have month : (m + 1).toNat = m.toNat + 1 := by
    simp only [UInt8.toNat_add, UInt8.reduceToNat]
    omega
  have date : (day + 1).toUInt8.toNat = day.toNat + 1 := by
    apply toUInt8_toNat _ (by omega)
    simp only [UInt32.toNat_add, UInt32.reduceToNat]
    omega
  have hour : (rem / 3600).toUInt8.toNat = rem.toNat / 3600 :=
    toUInt8_toNat (UInt32.toNat_div ..) (by omega)
  have minute : (rem % 3600 / 60).toUInt8.toNat = rem.toNat % 3600 / 60 := by
    apply toUInt8_toNat _ (by omega)
    simp only [UInt32.toNat_div, UInt32.toNat_mod, UInt32.reduceToNat]
  have second : (rem % 3600 % 60).toUInt8.toNat = rem.toNat % 3600 % 60 := by
    apply toUInt8_toNat _ (by omega)
    simp only [UInt32.toNat_mod, UInt32.reduceToNat]
  have weekday : ((days + 1) % 7).toUInt8.toNat = (days.toNat + 1) % 7 := by
    apply toUInt8_toNat _ (by omega)
    simp only [UInt32.toNat_add, UInt32.toNat_mod, UInt32.reduceToNat]
    omega
  let out : MnCivil := ⟨y, m + 1, (day + 1).toUInt8, (rem / 3600).toUInt8, (rem % 3600 / 60).toUInt8,
    (rem % 3600 % 60).toUInt8, ((days + 1) % 7).toUInt8⟩
  have fields : read out = ⟨y.toNat, m.toNat + 1, day.toNat + 1, rem.toNat / 3600, rem.toNat % 3600 / 60,
      rem.toNat % 3600 % 60, (days.toNat + 1) % 7⟩ := by
    simp only [read, out, month, date, hour, minute, second, weekday]
  have dayNumber : Gregorian.dayNumber (read out) = days.toNat := by
    rw [fields]
    exact number
  refine ⟨out, by simp only [mnNtpCivil, parts, inYear, inMonth, Option.map_some, out], ?_, ?_⟩
  · constructor
    case weekday => rw [dayNumber, fields]
    all_goals
      rw [fields]
      dsimp only
      omega
  · unfold Gregorian.seconds
    rw [dayNumber, fields]
    dsimp only
    omega

/-! ## The calendar -/

/-- `mn_ntp_civil` ends for every timestamp and every offset, and what it returns
is the one civil time that many seconds after Monday 1900-01-01 00:00:00; the
times of two seconds in a row follow one another, also from one era into the
next. -/
theorem calendar_exact :
    (∀ seconds1900 offsetMin, ∃ out, mnNtpCivil seconds1900 offsetMin = some out ∧
      Gregorian.Valid (read out) ∧
      Gregorian.seconds (read out) = eraTime seconds1900 offsetMin ∧
      ∀ c, Gregorian.Valid c → Gregorian.seconds c = eraTime seconds1900 offsetMin → c = read out) ∧
    ∀ seconds1900 offsetMin seconds1900' offsetMin' out out',
      mnNtpCivil seconds1900 offsetMin = some out →
      mnNtpCivil seconds1900' offsetMin' = some out' →
      eraTime seconds1900' offsetMin' = eraTime seconds1900 offsetMin + 1 →
      read out' = Gregorian.next (read out) := by
  have exact_ : ∀ seconds1900 offsetMin, ∃ out, mnNtpCivil seconds1900 offsetMin = some out ∧
      Gregorian.Valid (read out) ∧ Gregorian.seconds (read out) = eraTime seconds1900 offsetMin := by
    intro seconds1900 offsetMin
    obtain ⟨sum, last, few⟩ := daysAndRem_time (localSeconds seconds1900 offsetMin)
    rw [eraTime_eq, ← sum]
    exact civil_fields rfl few last
  constructor
  · intro seconds1900 offsetMin
    obtain ⟨out, runs, valid, time⟩ := exact_ seconds1900 offsetMin
    refine ⟨out, runs, valid, time, ?_⟩
    intro c valid' time'
    exact valid'.unique valid (time'.trans time.symm)
  · intro seconds1900 offsetMin seconds1900' offsetMin' out out' runs runs' after
    obtain ⟨_, found, valid, time⟩ := exact_ seconds1900 offsetMin
    obtain ⟨_, found', valid', time'⟩ := exact_ seconds1900' offsetMin'
    cases runs.symm.trans found
    cases runs'.symm.trans found'
    obtain ⟨valid'', later⟩ := Gregorian.next_valid valid
    apply valid'.unique valid''
    rw [time', after, later, time]

/-- From the last second of the era to the first of the next. -/
theorem calendar_exact_era :
    mnNtpCivil 0xffffffff 0 = some ⟨2036, 2, 7, 6, 28, 15, 4⟩ ∧
      mnNtpCivil 0 0 = some ⟨2036, 2, 7, 6, 28, 16, 4⟩ ∧
      read ⟨2036, 2, 7, 6, 28, 16, 4⟩ = Gregorian.next (read ⟨2036, 2, 7, 6, 28, 15, 4⟩) := by
  have last : mnNtpCivil 0xffffffff 0 = some ⟨2036, 2, 7, 6, 28, 15, 4⟩ := by decide +kernel
  have first : mnNtpCivil 0 0 = some ⟨2036, 2, 7, 6, 28, 16, 4⟩ := by decide +kernel
  exact ⟨last, first, calendar_exact.2 _ _ _ _ _ _ last first (by decide)⟩

end MegaNet.CivilTime
