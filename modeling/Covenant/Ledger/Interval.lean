/-!
# Time intervals

Times are counted in milliseconds since the epoch.  A contract is evaluated in an
interval that does not contain its start and does contain its end.
-/

namespace Covenant

/-- A span of time. -/
structure TimeInterval where
  /-- The time just before the interval. -/
  start : Int64
  /-- The last time in the interval. -/
  finish : Int64
deriving DecidableEq, Inhabited

/-- Whether a time lies in an interval. -/
def TimeInterval.contains (interval : TimeInterval) (time : Int64) : Bool :=
  interval.start < time && time ≤ interval.finish

/-- What surrounds the evaluation of a contract. -/
structure Environment where
  /-- The time at which the evaluation takes place, as an interval. -/
  timeInterval : TimeInterval
deriving DecidableEq, Inhabited

end Covenant
