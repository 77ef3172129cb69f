import Multipass.Number.Binary

/-!
# Decimal text of binary numbers

The fewest digits that read back as a number, and the layouts that use them; and a fixed number of
places after the point.

A number reads back from every decimal nearer to it than to its neighbours, and from the halfway
points when its significand is even. For one digit, two digits, and so on, one of the two
neighbours of the number on the decimal grid of that many digits lies in this interval if any
point of the grid does, so the first hit has the fewest digits.
-/

namespace Multipass.Number

/-- The decimal digits of a number, most significant first. -/
def digitChars (n : Nat) : List Char :=
  Nat.toDigits 10 n

/-- A positive decimal: `0.d₁d₂…dₙ * 10 ^ point` for the digits `d₁d₂…dₙ`. -/
structure Digits where
  digits : List Char
  point : Int
  deriving DecidableEq, Repr

/-- The interval of the numbers that round to `significand * 2 ^ exponent`, in units of
`2 ^ (exponent - 2)`: its lower end, its middle, its upper end. Below a power of two the numbers
of the format lie twice as dense. -/
def roundingInterval (fmt : Format) (significand : Nat) (exponent : Int) : Nat × Nat × Nat :=
  let m := 4 * significand
  let below := if significand = Nat.pow 2 (fmt.precision - 1) ∧ fmt.minExponent < exponent then 1 else 2
  (m - below, m, m + 2)

/-- The largest `d` with `10 ^ d ≤ num / den`, found upwards from a lower bound. -/
def decimalExponent (num den : Nat) : (fuel : Nat) → Int → Int
  | 0, d => d
  | fuel + 1, d =>
    let next := d + 1
    let reached :=
      if 0 ≤ next then den * Nat.pow 10 next.toNat ≤ num else den ≤ num * Nat.pow 10 (-next).toNat
    if reached then decimalExponent num den fuel next else d

/-- `num / den` in units of `10 ^ grid`, as a quotient of natural numbers. -/
def onGrid (num den : Nat) (grid : Int) : Nat × Nat :=
  if 0 ≤ grid then (num, den * Nat.pow 10 grid.toNat) else (num * Nat.pow 10 (-grid).toNat, den)

/-- The point of a decimal grid that reads back, if there is one: of two, the nearer. The numbers
`low`, `mid`, and `high` are in units of `num / den`. -/
def gridHit? (closed : Bool) (low mid high num den : Nat) (grid : Int) : Option Nat :=
  let (n, d) := onGrid num den grid
  -- A point `k` of the grid stands for `k * d / n` units.
  let inside (k : Nat) : Bool :=
    if closed then low * n ≤ k * d && k * d ≤ high * n else low * n < k * d && k * d < high * n
  let k := mid * n / d
  let toLow := mid * n - k * d
  let toHigh := (k + 1) * d - mid * n
  match inside k && k != 0, inside (k + 1) with
  | true, true =>
    if toLow < toHigh then some k
    else if toHigh < toLow then some (k + 1)
    else some (if k % 2 = 0 then k else k + 1)
  | true, false => some k
  | false, true => some (k + 1)
  | false, false => none

/-- The first grid with a hit, from `count` digits on. -/
def shortestFrom (closed : Bool) (low mid high num den : Nat) (top : Int) :
    (fuel count : Nat) → Nat × Int
  | 0, count => ((onGrid (mid * num) den (top - count)).1 / (onGrid (mid * num) den (top - count)).2,
      top - count)
  | fuel + 1, count =>
    match gridHit? closed low mid high num den (top - count) with
    | some k => (k, top - count)
    | none => shortestFrom closed low mid high num den top fuel (count + 1)

/-- Digits without zeros at the end. -/
def stripZeros (ds : List Char) : List Char :=
  (ds.reverse.dropWhile (· == '0')).reverse

/-- The fewest digits that read back as `significand * 2 ^ exponent`. -/
def shortest (fmt : Format) (significand : Nat) (exponent : Int) : Digits :=
  if significand = 0 then ⟨['0'], 1⟩
  else
    let (low, mid, high) := roundingInterval fmt significand exponent
    let (num, den) := Binary.magnitude 1 (exponent - 2)
    -- `2 ^ 10` exceeds `10 ^ 3`, so a third of the binary exponent is close from below.
    let binary : Int := (Nat.log2 mid : Int) + (exponent - 2)
    let guess := binary * 30103 / 100000 - 2
    let top := decimalExponent (mid * num) den 6 guess + 1
    let (k, grid) := shortestFrom (significand % 2 == 0) low mid high num den top 20 1
    let ds := digitChars k
    ⟨stripZeros ds, grid + ds.length⟩

/-- Digits with the point among them, before them, or behind them, and nothing after a point that
no digit follows. -/
def Digits.positional (d : Digits) : List Char :=
  if d.point ≤ 0 then ['0', '.'] ++ List.replicate (-d.point).toNat '0' ++ d.digits
  else
    let n := d.point.toNat
    if d.digits.length ≤ n then d.digits ++ List.replicate (n - d.digits.length) '0'
    else d.digits.take n ++ ['.'] ++ d.digits.drop n

/-- Digits with one before the point and an exponent that shows its sign. -/
def Digits.scientific (d : Digits) : List Char :=
  let e := d.point - 1
  let mantissa := match d.digits with
    | [] => []
    | [c] => [c]
    | c :: cs => c :: '.' :: cs
  mantissa ++ ['e', if e < 0 then '-' else '+'] ++ digitChars e.natAbs

/-- A minus sign in front of a negative number. -/
def signed (negative : Bool) (s : List Char) : List Char :=
  if negative then '-' :: s else s

/-- Plain text of a number: the fewest digits, never an exponent, no point in an integer. -/
def plainChars (fmt : Format) : Binary → List Char
  | .nan => ['N', 'a', 'N']
  | .infinite s => signed s ['i', 'n', 'f']
  | .finite s m e => signed s (shortest fmt m e).positional

/-- Plain text of a number: the fewest digits, never an exponent, no point in an integer. -/
def plain (fmt : Format) (x : Binary) : String :=
  String.ofList (plainChars fmt x)

/-- Text of a number with a fixed number of places after the point, a half going to the even
neighbour of the exact value. -/
def fixedChars (places : Nat) : Binary → List Char
  | .nan => ['N', 'a', 'N']
  | .infinite s => signed s ['i', 'n', 'f']
  | .finite s m e =>
    let (num, den) := Binary.magnitude m e
    let ds := digitChars (roundQuotient (num * Nat.pow 10 places) den)
    let ds := List.replicate (places + 1 - ds.length) '0' ++ ds
    let whole := ds.take (ds.length - places)
    signed s (if places = 0 then whole else whole ++ ['.'] ++ ds.drop (ds.length - places))

/-- Text of a number with a fixed number of places after the point. -/
def fixed (places : Nat) (x : Binary) : String :=
  String.ofList (fixedChars places x)

/-- The decimal digits of a natural number in groups of three from the right. -/
def groupedChars (n : Nat) : List Char :=
  let rec go : Nat → List Char → List Char
    | _, [] => []
    | i, c :: cs => if i != 0 && i % 3 == 0 then ',' :: c :: go (i + 1) cs else c :: go (i + 1) cs
  (go 0 (digitChars n).reverse).reverse

/-- The decimal digits of a natural number in groups of three from the right. -/
def grouped (n : Nat) : String :=
  String.ofList (groupedChars n)

end Multipass.Number
