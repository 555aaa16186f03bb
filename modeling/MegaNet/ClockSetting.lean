import MegaNet.ApiBlocks
import MegaNet.ApiRuns

/-! From the answer of a time server to the machine's clock: what NTP_RESULT
leaves in its block is what SET_RTC takes, and the clock's registers show the
civil time of the timestamp. -/
namespace MegaNet.ClockSetting
open MegaNet.Core AddressSpace ApiMoves ApiBlocks CivilTime

variable {s s₁ s₂ : Api} {r r' : Regs} {m : PhysMem} {c : Ntp.MnCivil}

/-! ## Decimal digits -/

/-- What two decimal digits in a byte say. -/
def fromBcd (v : UInt8) : Nat := 10 * (v.toNat / 16) + v.toNat % 16

private theorem bcd_table : ∀ n < 100, fromBcd (bcd (UInt8.ofNat n)) = n := by decide

/-- Two digits are enough for a number below 100. -/
theorem fromBcd_bcd {v : UInt8} (small : v.toNat < 100) : fromBcd (bcd v) = v.toNat := by
  have shown := bcd_table v.toNat small
  rwa [UInt8.ofNat_toNat] at shown

private theorem hours_table : ∀ n < 24,
    fromBcd ((bcd (UInt8.ofNat n) ||| 0x80) &&& 0x7f) = n ∧
      (bcd (UInt8.ofNat n) ||| 0x80) &&& 0x80 = 0x80 := by
      decide

/-- An hour with the mark for 24 of them. -/
theorem hours_bcd {v : UInt8} (small : v.toNat < 24) :
    fromBcd ((bcd v ||| 0x80) &&& 0x7f) = v.toNat ∧ (bcd v ||| 0x80) &&& 0x80 = 0x80 := by
  have shown := hours_table v.toNat small
  rwa [UInt8.ofNat_toNat] at shown

/-! ## The registers -/

/-- The clock shows a time: the last two digits of its year, and the hours out of
24. -/
structure Shows (m : PhysMem) (c : Gregorian.Civil) : Prop where
  second : fromBcd (m RTC) = c.second
  minute : fromBcd (m (RTC + 1)) = c.minute
  hour : fromBcd (m (RTC + 2) &&& 0x7f) = c.hour
  all24 : m (RTC + 2) &&& 0x80 = 0x80
  day : fromBcd (m (RTC + 3)) = c.day
  month : fromBcd (m (RTC + 4)) = c.month
  year : fromBcd (m (RTC + 5)) = c.year % 100
  weekday : fromBcd (m (RTC + 6)) = c.weekday

/-- The block of a time in the caller's memory. -/
def Holds (m : PhysMem) (p : UInt32) (c : Ntp.MnCivil) : Prop := run m p 8 = c.block

/-- SET_RTC from a block that holds a valid time. -/
theorem setRtc_shows (held : Holds s.m r.argPtr c) (valid : Gregorian.Valid (read c)) :
    Shows (mnApiSetRtc s r).2.m (read c) := by
  have byte (k : Nat) : byteAt (s.fetch r.argPtr 8).blk k = byteAt (c.block ++ s.blk.drop 8) k := by
    rw [Api.fetch, show run s.m r.argPtr 8 = c.block from held]
  have year : (s.fetch r.argPtr 8).blkWord 0 = c.year := by
    rw [Api.blkWord, byte, byte]
    exact word_bytes16 c.year
  have days := valid.day
  have most := monthDays_le (read c).year (read c).month
  have short : (c.year % 100).toNat < 100 := by
    rw [UInt16.toNat_mod]
    exact Nat.mod_lt _ (by decide)
  have low : (c.year % 100).toUInt8.toNat = (read c).year % 100 := by
    rw [UInt16.toNat_toUInt8, Nat.mod_eq_of_lt (by omega), UInt16.toNat_mod]
    rfl
  have registers (k : Nat) (below : k < 7) :=
    put_at s.m RTC [bcd c.second, bcd c.minute, bcd c.hour ||| 0x80, bcd c.day,
    bcd c.month, bcd (c.year % 100).toUInt8, bcd c.weekday] k (show 7 ≤ 2 ^ 32 by decide) below
  have stored : (mnApiSetRtc s r).2.m = put s.m RTC
    [bcd c.second, bcd c.minute, bcd c.hour ||| 0x80, bcd c.day,
      bcd c.month, bcd (c.year % 100).toUInt8, bcd c.weekday] := by
    unfold mnApiSetRtc
    dsimp only
    rw [year, byte, byte, byte, byte, byte, byte]
    rfl
  rw [stored]
  have weekday : c.weekday.toNat < 100 := by
    have seven := valid.weekday
    show (read c).weekday < 100
    omega
  obtain ⟨hour, mark⟩ := hours_bcd valid.hour
  refine ⟨?_, ?_, ?_, ?_, ?_, ?_, ?_, ?_⟩
  · exact (congrArg fromBcd (registers 0 (by decide))).trans
      (fromBcd_bcd (Nat.lt_trans valid.second (by decide)))
  · exact (congrArg fromBcd (registers 1 (by decide))).trans
      (fromBcd_bcd (Nat.lt_trans valid.minute (by decide)))
  · exact (congrArg (fun v => fromBcd (v &&& 0x7f)) (registers 2 (by decide))).trans hour
  · exact (congrArg (· &&& 0x80) (registers 2 (by decide))).trans mark
  · exact (congrArg fromBcd (registers 3 (by decide))).trans
      (fromBcd_bcd (show (read c).day < 100 by omega))
  · have months := valid.month
    exact (congrArg fromBcd (registers 4 (by decide))).trans
      (fromBcd_bcd (show (read c).month < 100 by omega))
  · exact ((congrArg fromBcd (registers 5 (by decide))).trans (fromBcd_bcd (by omega))).trans low
  · exact (congrArg fromBcd (registers 6 (by decide))).trans (fromBcd_bcd weekday)

/-- NTP_RESULT leaves the time of the timestamp in its block. -/
theorem ntpResult_holds (s : Api) (r : Regs) :
    ∃ s₁ c, mnApiNtpResult s r = some (⟨0, 0, 0, 0⟩, s₁) ∧ Holds s₁.m (r.argPtr + 6) c ∧
      Gregorian.Valid (read c) ∧
      Gregorian.seconds (read c) = eraTime s.ntp.seconds (callerWord s.m r.argPtr).toInt16 := by
  have offset : (s.fetch r.argPtr 2).blkWord 0 = callerWord s.m r.argPtr :=
    (fetch_word (by decide) s r.argPtr).trans (congrArg (callerWord s.m) (UInt32.add_zero _))
  have parts := daysAndRem_time (Ntp.localSeconds s.ntp.seconds (callerWord s.m r.argPtr).toInt16)
  generalize split : Ntp.daysAndRem
    (Ntp.localSeconds s.ntp.seconds (callerWord s.m r.argPtr).toInt16) = out at parts
  obtain ⟨sum, last, few⟩ := parts
  obtain ⟨c, found, valid, time⟩ := civil_fields split few last
  rw [sum, ← eraTime_eq] at time
  have size : (bytes32 s.ntp.seconds ++ c.block).length = 12 := rfl
  have back := writeBack_fill (r.argPtr + 2) (fetch_long s r.argPtr 2) size
  refine ⟨((s.fetch r.argPtr 2).fill 2 (bytes32 s.ntp.seconds ++ c.block)).writeBack
    (r.argPtr + 2) 2 12, c, ?_, ?_, valid,
    time⟩
  · unfold mnApiNtpResult
    dsimp only
    rw [offset, show (s.fetch r.argPtr 2).ntp.seconds = s.ntp.seconds from rfl, found]
    rfl
  · unfold Holds
    rw [back, show r.argPtr + 6 = r.argPtr + 2 + UInt32.ofNat 4 by rw [UInt32.add_assoc]; rfl,
      run_part _ _ (size.trans_le (by decide)) size.symm]
    rfl

/-- The block that NTP_RESULT has filled in sets the clock: its registers show the
one civil time that many seconds after 1900, the offset counted. -/
theorem clock_shows_server_time (s : Api) (r r' : Regs) (fields : r'.argPtr = r.argPtr + 6) :
    ∃ s₁ c, mnApiNtpResult s r = some (⟨0, 0, 0, 0⟩, s₁) ∧ Shows (mnApiSetRtc s₁ r').2.m c ∧
      Gregorian.Valid c ∧
      Gregorian.seconds c = eraTime s.ntp.seconds (callerWord s.m r.argPtr).toInt16 := by
  obtain ⟨s₁, c, ends, held, valid, time⟩ := ntpResult_holds s r
  exact ⟨s₁, read c, ends, setRtc_shows (fields ▸ held) valid, valid, time⟩

/-- A server's answer, and an hour's offset in the caller's block at `$1700`. -/
def answeredAt : Api :=
  { ApiRuns.fresh with
    ntp := { ApiRuns.fresh.ntp with seconds := 3975589805 }
    m := put (fun _ => 0) 0x1700 [60, 0] }

/-- Half past six in the evening and five seconds, the server's time: an hour later here. -/
def evening : Gregorian.Civil := ⟨2025, 12, 24, 19, 30, 5, 3⟩

private theorem evening_seconds : Gregorian.Valid evening ∧
    eraTime answeredAt.ntp.seconds (callerWord answeredAt.m 0x1700).toInt16 =
      Gregorian.seconds evening := by
  refine ⟨⟨?_, ?_, ?_, ?_, ?_, ?_, ?_⟩, ?_⟩ <;> decide +kernel

theorem clock_shows_server_time_evening :
    ∃ s₁, mnApiNtpResult answeredAt ⟨0, 0x17, 0, 0⟩ = some (⟨0, 0, 0, 0⟩, s₁) ∧
      Shows (mnApiSetRtc s₁ ⟨6, 0x17, 0, 0⟩).2.m evening := by
  obtain ⟨s₁, c, ends, shown, valid, time⟩ :=
    clock_shows_server_time answeredAt ⟨0, 0x17, 0, 0⟩ ⟨6, 0x17, 0, 0⟩ (by decide)
  obtain ⟨valid', time'⟩ := evening_seconds
  obtain rfl := valid.unique valid' (time.trans time')
  exact ⟨s₁, ends, shown⟩

end MegaNet.ClockSetting
