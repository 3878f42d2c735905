import DoubleSwap.Text.Decimal

/-! The values that the plotting scripts save: numbers, and `datetime` values,
which are local times without a zone. The scripts render these to two texts, and
read one of the two again. Both texts hold the time of the day only. -/
namespace Plots

open Text

/-- Python's numbers as far as a saved line needs them: what `str` writes is
one word that `float` reads. -/
structure Numbers (F : Type) where
  str : F → Text
  float : Text → Option F
  isWord_str : ∀ x, IsWord (str x)
  float_str : ∀ x, (float (str x)).isSome = true

/-- The whole numbers among the floats: any number of zeros follows the point. -/
def wholeFloats : Numbers ℤ where
  str z := intText z ++ ['.', '0']
  float s :=
    match s.reverse.dropWhile (· = '0') with
    | '.' :: rest => parseInt rest.reverse
    | _ => none
  isWord_str := by
    intro z
    refine ⟨by simp, ?_⟩
    intro c hc
    rcases List.mem_append.mp hc with hc | hc
    · exact (isWord_intText z).2 c hc
    · fin_cases hc <;> decide
  float_str := by
    intro z
    simp

/-- A naive `datetime`. The date is its `toordinal()`. -/
structure Datetime where
  ordinal : Nat
  hour : Nat
  minute : Nat
  second : Nat
  microsecond : Nat
  hour_lt : hour < 24
  minute_lt : minute < 60
  second_lt : second < 60
  microsecond_lt : microsecond < 1000000
  deriving DecidableEq, Repr

namespace Datetime

/-- Microseconds since midnight. -/
def timeOfDay (t : Datetime) : Nat :=
  ((t.hour * 60 + t.minute) * 60 + t.second) * 1000000 + t.microsecond

/-- Microseconds since the beginning of the calendar. -/
def instant (t : Datetime) : Nat := t.ordinal * 86400000000 + t.timeOfDay

theorem timeOfDay_lt (t : Datetime) : t.timeOfDay < 86400000000 := by
  have hHour := t.hour_lt
  have hMinute := t.minute_lt
  have hSecond := t.second_lt
  have hMicrosecond := t.microsecond_lt
  simp only [timeOfDay]
  omega

/-- The moment of a date that is so many whole seconds after midnight. -/
def ofSeconds (ordinal seconds : Nat) : Datetime where
  ordinal := ordinal
  hour := seconds / 3600 % 24
  minute := seconds / 60 % 60
  second := seconds % 60
  microsecond := 0
  hour_lt := by omega
  minute_lt := by omega
  second_lt := by omega
  microsecond_lt := by omega

/-- The `timedelta` of `t - start`, in microseconds. -/
def since (t start : Datetime) : Int := (t.instant : Int) - start.instant

/-- `t.strftime('%H:%M')`. -/
def strftimeHM (t : Datetime) : Text := padded 2 t.hour ++ ':' :: padded 2 t.minute

/-- `t.strftime('%H:%M:%S.%f')`. -/
def strftimeHMSf (t : Datetime) : Text :=
  padded 2 t.hour ++ ':' :: (padded 2 t.minute ++ ':' ::
    (padded 2 t.second ++ '.' :: padded 6 t.microsecond))

end Datetime

/-- A field of `strptime`: at most `width` digits. -/
def digitField (width : Nat) (field : Text) : Option Nat :=
  if field ≠ [] ∧ field.length ≤ width ∧ field.all Char.isDigit then
    some (Nat.ofDigitChars 10 field 0)
  else none

/-- `%f` is filled up with zeros on the right. -/
def fractionField (field : Text) : Option Nat :=
  (digitField 6 field).map (· * 10 ^ (6 - field.length))

/-- The date that `strptime` fills in, January 1st, 1900. -/
def defaultOrdinal : Nat := 693596

/-- `datetime.strptime(s, '%H:%M:%S.%f')`, with `none` for the `ValueError`. -/
def strptime (s : Text) : Option Datetime :=
  match s.splitOn ':' with
  | [hourField, minuteField, rest] =>
      match rest.splitOn '.' with
      | [secondField, fraction] =>
          (digitField 2 hourField).bind fun hour =>
          (digitField 2 minuteField).bind fun minute =>
          (digitField 2 secondField).bind fun second =>
          (fractionField fraction).bind fun microsecond =>
            if h : hour < 24 ∧ minute < 60 ∧ second < 60 ∧ microsecond < 1000000 then
              some ⟨defaultOrdinal, hour, minute, second, microsecond, h.1, h.2.1, h.2.2.1, h.2.2.2⟩
            else none
      | _ => none
  | _ => none

/-- The same time of the day on the default date. -/
def Datetime.clock (t : Datetime) : Datetime := { t with ordinal := defaultOrdinal }

/-- A padded number is read back. -/
theorem digitField_padded {width n : Nat} (hWidth : 0 < width) (h : n < 10 ^ width) :
    digitField width (padded width n) = some n := by
  obtain ⟨hNonempty, hDigits⟩ := isNumeral_padded width n
  rw [digitField, if_pos ⟨hNonempty, (length_padded hWidth h).le, List.all_eq_true.mpr hDigits⟩,
    ofDigitChars_padded]

theorem fractionField_padded {n : Nat} (h : n < 10 ^ 6) : fractionField (padded 6 n) = some n := by
  rw [fractionField, digitField_padded (by decide) h, length_padded (by decide) h]
  simp

/-- A time that was written has three fields. -/
theorem splitOn_strftimeHMSf (t : Datetime) :
    t.strftimeHMSf.splitOn ':' =
      [padded 2 t.hour, padded 2 t.minute, padded 2 t.second ++ '.' :: padded 6 t.microsecond] := by
  have hField := splitOnP_padded (show ':'.isDigit = false by decide)
  have hRest : (padded 2 t.second ++ '.' :: padded 6 t.microsecond).splitOnP (· == ':') =
      [padded 2 t.second ++ '.' :: padded 6 t.microsecond] := by
    apply List.splitOnP_eq_singleton
    intro c hc
    rcases List.mem_append.mp hc with hc | hc
    · exact (isNumeral_padded 2 t.second).beq_eq_false (by decide) c hc
    · rcases List.mem_cons.mp hc with rfl | hc
      · decide
      · exact (isNumeral_padded 6 t.microsecond).beq_eq_false (by decide) c hc
  show t.strftimeHMSf.splitOnP (· == ':') = _
  rw [Datetime.strftimeHMSf, List.splitOnP_append_cons _ _ (by decide),
    List.splitOnP_append_cons _ _ (by decide), hField, hField, hRest]
  rfl

theorem splitOn_seconds (t : Datetime) :
    (padded 2 t.second ++ '.' :: padded 6 t.microsecond).splitOn '.' =
      [padded 2 t.second, padded 6 t.microsecond] := by
  have hField := splitOnP_padded (show '.'.isDigit = false by decide)
  show (padded 2 t.second ++ '.' :: padded 6 t.microsecond).splitOnP (· == '.') = _
  rw [List.splitOnP_append_cons _ _ (by decide), hField, hField]
  rfl

/-- Only the date is lost on the way through the text. -/
theorem strptime_strftimeHMSf (t : Datetime) : strptime t.strftimeHMSf = some t.clock := by
  have hTwo {k : Nat} (h : k < 100) : digitField 2 (padded 2 k) = some k :=
    digitField_padded (by decide) h
  have hHour := hTwo (lt_trans t.hour_lt (by decide))
  have hMinute := hTwo (lt_trans t.minute_lt (by decide))
  have hSecond := hTwo (lt_trans t.second_lt (by decide))
  have hFraction := fractionField_padded t.microsecond_lt
  simp only [strptime, splitOn_strftimeHMSf, splitOn_seconds, hHour, hMinute, hSecond, hFraction,
    Option.bind_some]
  rw [dif_pos ⟨t.hour_lt, t.minute_lt, t.second_lt, t.microsecond_lt⟩]
  rfl

@[simp] theorem Datetime.ordinal_clock (t : Datetime) : t.clock.ordinal = defaultOrdinal := rfl

@[simp] theorem Datetime.timeOfDay_clock (t : Datetime) : t.clock.timeOfDay = t.timeOfDay := rfl

/-- A difference of two clock times is the true one, less whole days. -/
theorem Datetime.since_clock (t start : Datetime) :
    t.clock.since start.clock =
      t.since start - ((t.ordinal : Int) - start.ordinal) * 86400000000 := by
  simp only [since, instant, ordinal_clock, timeOfDay_clock]
  push_cast
  ring

end Plots
