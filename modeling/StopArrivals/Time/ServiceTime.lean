import StopArrivals.Text.Blank
import StopArrivals.Text.Decimal
import StopArrivals.Text.Fields

/-!
# Service time

Trips that run past midnight keep counting the hours of the day on which they began, so the hour
of a service time has no upper limit but the width of the result.
-/

namespace StopArrivals

/-- The seconds since the midnight that begins the service day, from hours, minutes and seconds
between colons. All steps stay within 32 bits. -/
def readServiceTime (s : String) : Option Int :=
  match fieldsOf ':' (trimChars s.toList) with
  | [h, m, s] => do
    let hours ← readSigned 32 h
    let minutes ← readSigned 32 m
    let seconds ← readSigned 32 s
    if 0 ≤ hours ∧ 0 ≤ minutes ∧ minutes < 60 ∧ 0 ≤ seconds ∧ seconds < 60 then
      let whole ← (IntRange.signed 32).checked (hours * 3600)
      (IntRange.signed 32).checked (whole + (minutes * 60 + seconds))
    else none
  | _ => none

end StopArrivals
