import Multipass.Number.Binary

/-!
# Sums of columns

The sum of some values while it grows. It is exact as long as all values are integers and it fits
in 64 bits with a sign. Otherwise it is a double, and what every addition rounds away is summed up
apart and added at the end.
-/

namespace Multipass.Number

/-- A sum while it grows. -/
inductive RunningSum where
  | exact (sum : Int)
  /-- The rounded sum and what was rounded away; `overflowed` when integers alone led here. -/
  | rounded (sum lost : Double) (overflowed : Bool)
  deriving DecidableEq, Repr

namespace RunningSum

/-- Holds of an integer of 64 bits with a sign. -/
def fits (i : Int) : Bool :=
  -0x8000000000000000 ≤ i && i < 0x8000000000000000

/-- The part of an integer that a double may not hold beside the rest. -/
def small (i : Int) : Int :=
  if i ≤ -0x10000000000000 ∨ 0x10000000000000 ≤ i then i.tmod 16384 else 0

/-- A rounded sum with one more value: the smaller of the two loses its last places. -/
def addRounded (sum lost x : Double) : Double × Double :=
  let total := Double.add sum x
  let rest :=
    if x.abs.lt sum.abs then Double.add (Double.sub sum total) x
    else Double.add (Double.sub x total) sum
  (total, Double.add lost rest)

/-- A rounded sum with one more integer. -/
def addRoundedInt (sum lost : Double) (i : Int) : Double × Double :=
  if small i = 0 then addRounded sum lost (Double.ofInt i)
  else
    let (sum, lost) := addRounded sum lost (Double.ofInt (i - small i))
    addRounded sum lost (Double.ofInt (small i))

/-- The sum with one more integer. -/
def addInt (s : RunningSum) (i : Int) : RunningSum :=
  match s with
  | exact n =>
    if fits (n + i) then exact (n + i)
    else
      let (sum, lost) := addRoundedInt (Double.ofInt (n - small n)) (Double.ofInt (small n)) i
      rounded sum lost true
  | rounded sum lost overflowed =>
    let (sum, lost) := addRoundedInt sum lost i
    rounded sum lost overflowed

/-- The sum with one more double. -/
def addDouble (s : RunningSum) (x : Double) : RunningSum :=
  match s with
  | exact n =>
    let (sum, lost) := addRounded (Double.ofInt (n - small n)) (Double.ofInt (small n)) x
    rounded sum lost false
  | rounded sum lost _ =>
    let (sum, lost) := addRounded sum lost x
    rounded sum lost false

/-- The sum as a double. -/
def toDouble : RunningSum → Double
  | exact n => Double.ofInt n
  | rounded sum lost _ =>
    match lost with
    | .finite .. => Double.add sum lost
    | _ => sum

/-- The sum of integers. -/
def ofInts (is : List Int) : RunningSum :=
  is.foldl addInt (exact 0)

/-- The sum of doubles. -/
def ofDoubles (xs : List Double) : RunningSum :=
  xs.foldl addDouble (exact 0)

end RunningSum

end Multipass.Number
