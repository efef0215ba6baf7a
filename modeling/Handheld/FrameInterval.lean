import Handheld.Binary64

/-! The time between frames for a frame rate, to the nearest nanosecond. -/

namespace Handheld

/-- A span of time as whole seconds and nanoseconds. -/
structure TimeSpan where
  seconds : Nat
  nanoseconds : Nat
  deriving DecidableEq, Repr

namespace TimeSpan

def nanosecondsPerSecond : Nat :=
  1000000000

/-- Seconds that a span cannot reach. -/
def secondsLimit : Nat :=
  UInt64.size

/-- The span nearest to a number of seconds, ties going to the even nanosecond; none if the
number is too large, or not a number at all.
-/
def ofSeconds? (seconds : Binary64) : Option TimeSpan :=
  match seconds.magnitude with
  | .finite mantissa exponent =>
      let (numerator, denominator) :=
        Binary64.scaled (mantissa * nanosecondsPerSecond) 1 exponent
      let nanoseconds := roundHalfEven numerator denominator
      if nanoseconds / nanosecondsPerSecond < secondsLimit then
        some
          { seconds := nanoseconds / nanosecondsPerSecond
            nanoseconds := nanoseconds % nanosecondsPerSecond }
      else none
  | .infinite | .nan => none

end TimeSpan

/-- The refresh rate of the display, 59.7275 frames per second. -/
def nominalFrameRate : Binary64 :=
  .ofRatio false 597275 10000

/-- The time between frames at a rate; a rate that is not positive counts as the nominal one.
The time of a very small rate is too long to be a span.
-/
def frameInterval? (rate : Binary64) : Option TimeSpan :=
  TimeSpan.ofSeconds? (if rate.isPositive then rate.reciprocal else nominalFrameRate.reciprocal)

end Handheld
