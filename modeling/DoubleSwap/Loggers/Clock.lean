import DoubleSwap.Analyser.Records

/-! The time stamps of the loggers. All of them, in the kernels and in the
traced programs, read the real-time clock and render the hour, the minute and
the nanoseconds of the second; the second itself is not rendered. -/
namespace Loggers

open Text

/-- A `timespec64` that `ktime_get_real_ts64` can return after the epoch. -/
structure Timespec where
  tvSec : Nat
  tvNsec : Nat
  nsec_lt : tvNsec < 1000000000
  deriving DecidableEq, Repr

namespace Timespec

/-- Nanoseconds since the epoch. -/
def instant (ts : Timespec) : Nat := ts.tvSec * 1000000000 + ts.tvNsec

def day (ts : Timespec) : Nat := ts.tvSec / 86400

def hours (ts : Timespec) : Nat := ts.tvSec / 3600 % 24

def minutes (ts : Timespec) : Nat := ts.tvSec / 60 % 60

/-- The minute since the epoch. -/
def minute (ts : Timespec) : Nat := ts.tvSec / 60

theorem hours_mul_add_minutes (ts : Timespec) :
    ts.hours * 60 + ts.minutes = ts.minute % 1440 := by
  simp only [hours, minutes, minute]
  omega

/-- A minute is one of its day. -/
theorem minute_eq_day_add (ts : Timespec) : ts.minute = ts.day * 1440 + ts.minute % 1440 := by
  simp only [minute, day]
  omega

theorem minute_le_of_instant_le {first second : Timespec} (h : first.instant ≤ second.instant) :
    first.minute ≤ second.minute := by
  have hFirst := first.nsec_lt
  have hSecond := second.nsec_lt
  simp only [instant] at h
  simp only [minute]
  omega

end Timespec

/-- The `"%02lu:%02lu:%09lu"` of the loggers. -/
def stamp (ts : Timespec) : Text :=
  padded 2 ts.hours ++ ':' :: (padded 2 ts.minutes ++ ':' :: padded 9 ts.tvNsec)

/-- The three fields of a stamp. -/
theorem splitOn_stamp (ts : Timespec) :
    (stamp ts).splitOn ':' = [padded 2 ts.hours, padded 2 ts.minutes, padded 9 ts.tvNsec] := by
  have hField := splitOnP_padded (show ':'.isDigit = false by decide)
  change (stamp ts).splitOnP (· == ':') = _
  rw [stamp, List.splitOnP_append_cons _ _ (by decide), List.splitOnP_append_cons _ _ (by decide),
    hField, hField, hField]
  rfl

/-- What `time_to_microseconds` makes of a stamp: minutes are counted in
microseconds, and the nanoseconds are added to them as they are. -/
def Timespec.stampValue (ts : Timespec) : Nat := ts.minute % 1440 * 60000000 + ts.tvNsec

/-- The stamp of an instant has its own key. -/
theorem timeToMicroseconds_stamp (ts : Timespec) :
    Analyser.timeToMicroseconds (stamp ts) = .ok (ts.stampValue : Int) := by
  have hMinutes := ts.hours_mul_add_minutes
  simp only [Analyser.timeToMicroseconds, splitOn_stamp, Analyser.int, List.getElem?_cons_zero,
    List.getElem?_cons_succ, parseInt_padded, bind, Except.bind, pure, Except.pure,
    Except.ok.injEq, Timespec.stampValue]
  omega

end Loggers
