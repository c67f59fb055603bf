import Mathlib.Data.List.Sort
import Telescope.Foundation.Number

namespace Telescope
namespace Metrics

/-!
# Percentiles by nearest rank

The rank is computed with doubles: the quantile is the double nearest to the decimal
fraction of the source, and so is its product with the number of samples.
-/

/-- A quantile that the source writes as `hundredths / 100`. -/
def quantile (hundredths : Nat) : Rat := Number.nearest ((hundredths : Rat) / 100)

/-- The index of the percentile among `size` ascending samples. -/
def percentileIndex (size hundredths : Nat) : Nat :=
  let rawIndex := ⌈Number.nearest (quantile hundredths * size)⌉ - 1
  (min ((size : Int) - 1) (max 0 rawIndex)).toNat

/-- The nearest-rank percentile of ascending samples; zero where there are none. -/
def percentile (sortedAscending : List Rat) (hundredths : Nat) : Rat :=
  (sortedAscending[percentileIndex sortedAscending.length hundredths]?).getD 0

/-- `samples.sort((a, b) => a - b)`. -/
def ascending (samples : List Rat) : List Rat := samples.insertionSort (· ≤ ·)

end Metrics
end Telescope
