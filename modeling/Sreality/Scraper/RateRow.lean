import Sreality.Foundation.Binary

/-! The row of `portal_rate_state` and the statements on it (`scraper/rate_ledger.py`): times are
microseconds of the database's clock, the factor is a `real`, and what a statement reckons it
reckons in `float8`. There is no last timestamp. -/

set_option autoImplicit false

namespace Sreality.Scraper

open Sreality.Foundation

def penaltyMult : Float64 := .ofRat _ 2
def penaltyCap : Float64 := .ofRat _ 8
def recoveryFactor : Float64 := .ofRat _ (9 / 10)

def int4Max : Nat := 2147483647

/-- `portal_rate_state` of the source. -/
structure RateRow where
  nextSlotAt : ℤ
  intervalMs : Nat
  penaltyFactor : Single
  stored : intervalMs ≤ int4Max
  deriving DecidableEq

/-- What `_LEASE_SQL` answers: the seconds until its window starts, the slot width, granted. -/
structure LeaseAnswer where
  delay : Float64
  slot : Float64
  granted : Bool
  deriving DecidableEq

def seconds (microseconds : ℤ) : ℚ := microseconds / 1000000

/-- `make_interval(secs => ...)`. -/
def makeInterval (secs : Float64) : ℤ :=
  roundHalfEven (secs * .ofRat _ 1000000).value

/-- `ms * factor / 1000.0` -/
def spanOf (ms : Nat) (factor : Float64) : Float64 :=
  .ofRat _ ms * factor / .ofRat _ 1000

/-- `_LEASE_SQL` at `now`: an `int` out of range fails it, a window further out than the bound
leaves the row as it was. -/
def leaseSql (row : RateRow) (now : ℤ) (slots intervalMs : Nat) (bound : Option Float64) :
    Option (RateRow × LeaseAnswer) :=
  if fits : slots ≤ int4Max ∧ intervalMs ≤ int4Max ∧ slots * intervalMs ≤ int4Max then
    let factor := row.penaltyFactor.cast binary64
    let windowStart := max row.nextSlotAt now
    let granted := bound.all fun wait => decide (windowStart ≤ now + makeInterval wait)
    some
      (if granted then
        { nextSlotAt := windowStart + makeInterval (spanOf (slots * intervalMs) factor)
          intervalMs := intervalMs
          penaltyFactor := (max (.ofRat _ 1) (factor * recoveryFactor)).cast binary32
          stored := fits.2.1 }
      else row,
      { delay := .ofRat _ (max (seconds (windowStart - now)) 0)
        slot := spanOf intervalMs factor
        granted := granted })
  else none

/-- `_PENALIZE_SQL` at `now`. -/
def penalizeSql (row : RateRow) (now : ℤ) : RateRow :=
  let factor := min penaltyCap (row.penaltyFactor.cast binary64 * penaltyMult)
  { row with
    penaltyFactor := factor.cast binary32
    nextSlotAt := max row.nextSlotAt now + makeInterval (spanOf row.intervalMs factor) }

end Sreality.Scraper
