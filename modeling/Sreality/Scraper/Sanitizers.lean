import Mathlib.Algebra.Order.Field.Rat
import Mathlib.Data.Rat.Floor
import Mathlib.Data.Int.ConditionallyCompleteOrder
import Mathlib.Tactic.Linarith
import Sreality.Foundation.Binary

/-! The numbers of a parsed listing on their way into the batched write: `sane_price_czk` and
`sane_listing_numerics` (scraper/db.py) around `_coerce_numerics` (scraper/listing_write.py), and
what the columns make of the values that come through. -/

set_option autoImplicit false

namespace Sreality.Scraper.Sanitizers

open Foundation

/-! ### Values -/

/-- A Python float: a finite one with its exact value and the decimal `json.dumps` prints for it. -/
inductive PyFloat where
  | nan
  | infinite (negative : Bool)
  | finite (value printed : ℚ)
  deriving DecidableEq

inductive PyValue where
  | int (value : ℤ)
  | float (value : PyFloat)
  deriving DecidableEq

namespace PyValue

/-- `value < bound`; a NaN compares to nothing. -/
def ltInt : PyValue → ℤ → Bool
  | .int value, bound => decide (value < bound)
  | .float .nan, _ => false
  | .float (.infinite negative), _ => negative
  | .float (.finite value _), bound => decide (value < bound)

/-- `value > bound`. -/
def gtInt : PyValue → ℤ → Bool
  | .int value, bound => decide (bound < value)
  | .float .nan, _ => false
  | .float (.infinite negative), _ => !negative
  | .float (.finite value _), bound => decide (bound < value)

/-- `low <= value <= high`. -/
def between : PyValue → ℤ → ℤ → Bool
  | .int value, low, high => decide (low ≤ value ∧ value ≤ high)
  | .float .nan, _, _ => false
  | .float (.infinite _), _, _ => false
  | .float (.finite value _), low, high => decide ((low : ℚ) ≤ value ∧ value ≤ high)

/-- `value == 0`. -/
def isZero : PyValue → Bool
  | .int value => decide (value = 0)
  | .float (.finite value _) => decide (value = 0)
  | .float _ => false

/-- `abs(value) >= bound`. -/
def absReaches : PyValue → ℤ → Bool
  | .int value, bound => decide (bound ≤ |value|)
  | .float .nan, _ => false
  | .float (.infinite _), _ => true
  | .float (.finite value _), bound => decide ((bound : ℚ) ≤ |value|)

end PyValue

/-! ### Columns -/

/-- The integer columns of `_LISTING_COLUMN_PGTYPE`. -/
inductive IntegerColumn where
  | priceCzk
  | floor
  | totalFloors
  | categorySubCb
  | parkingLots
  deriving DecidableEq

/-- Its numeric columns, all areas. -/
inductive NumericColumn where
  | areaM2
  | estateArea
  | usableArea
  | gardenArea
  deriving DecidableEq

/-- The precision `p` of `numeric(p,1)`. -/
def NumericColumn.precision : NumericColumn → Nat
  | .areaM2 => 7
  | .estateArea | .usableArea | .gardenArea => 9

/-- `_NUMERIC_ABS_MAX`. -/
def NumericColumn.absMax : NumericColumn → ℤ
  | .areaM2 => 10 ^ 6
  | .estateArea | .usableArea | .gardenArea => 10 ^ 8

/-- The numbers of a staged listing. -/
structure Row where
  integers : IntegerColumn → Option PyValue
  numerics : NumericColumn → Option PyValue

/-! ### The passes -/

def maxPriceCzk : ℤ := 2000000000

def minPriceCzk : ℤ := 2

def int4Min : ℤ := -2147483648

def int4Max : ℤ := 2147483647

def sanePriceCzk (price : Option PyValue) : Option PyValue :=
  price.filter fun price => !price.gtInt maxPriceCzk && !price.ltInt minPriceCzk

/-- `_coerce_numerics` on a value of an integer column. -/
def coerceInteger : PyValue → Option PyValue
  | .int value => some (.int value)
  | .float (.finite value _) => some (.int (roundHalfEven value))
  | .float _ => none

/-- `_coerce_numerics` on a value of a numeric column. -/
def coerceNumeric : PyValue → Option PyValue
  | .float .nan => none
  | .float (.infinite _) => none
  | value => some value

def coerceNumerics (row : Row) : Row where
  integers := fun column => (row.integers column).bind coerceInteger
  numerics := fun column => (row.numerics column).bind coerceNumeric

def saneListingNumerics (row : Row) : Row where
  integers := fun column => (row.integers column).filter fun value => value.between int4Min int4Max
  numerics := fun column => (row.numerics column).filter fun value =>
    !value.isZero && !value.absReaches column.absMax

/-- `_stage`, of one listing. -/
def stage (row : Row) : Row :=
  saneListingNumerics (coerceNumerics
    { row with integers := fun column =>
        if column = .priceCzk then sanePriceCzk (row.integers column) else row.integers column })

/-! ### The write -/

/-- A numeral to one decimal, half away from zero. -/
def roundTenth (value : ℚ) : ℚ :=
  if 0 ≤ value then (⌊value * 10 + 1 / 2⌋ : ℚ) / 10 else -((⌊-value * 10 + 1 / 2⌋ : ℚ) / 10)

/-- The numeral of a value in the batch's JSON; NaN and the infinities have none. -/
def PyValue.numeral : PyValue → Option ℚ
  | .int value => some value
  | .float (.finite _ printed) => some printed
  | .float _ => none

/-- What an integer column takes: an integer of its range, never `2.0`. -/
def storeInteger : PyValue → Option ℤ
  | .int value => if int4Min ≤ value ∧ value ≤ int4Max then some value else none
  | .float _ => none

/-- What a `numeric(p,1)` column takes: the numeral rounded, unless it overflows. -/
def storeNumeric (column : NumericColumn) (value : PyValue) : Option ℚ :=
  (value.numeral.map roundTenth).filter fun stored =>
    decide (|stored| < 10 ^ (column.precision - 1))

end Sreality.Scraper.Sanitizers
