/-!
# Binary floating-point numbers

Numbers of a binary format with a sign, a significand, and an exponent, as exact data: a finite
number is `significand * 2 ^ exponent`. Every operation computes its exact result as a quotient of
natural numbers and rounds it once, to the nearest number of the format, a half going to the even
neighbour. Numbers in canonical form are equal exactly when their parts are.
-/

namespace Multipass.Number

/-- The size of a binary format: the bits of a significand, and the least and the greatest exponent
of its last place. -/
structure Format where
  precision : Nat
  minExponent : Int
  maxExponent : Int
  deriving DecidableEq, Repr

/-- The format of 64 bits. -/
def Format.double : Format := ⟨53, -1074, 971⟩

/-- The format of 32 bits. -/
def Format.single : Format := ⟨24, -149, 104⟩

/-- A floating-point number. -/
inductive Binary where
  | nan
  | infinite (negative : Bool)
  | finite (negative : Bool) (significand : Nat) (exponent : Int)
  deriving DecidableEq, Repr, Inhabited

/-- The quotient of two numbers to the nearest integer, a half to the even neighbour. -/
def roundQuotient (num den : Nat) : Nat :=
  let q := num / den
  let r := num % den
  if 2 * r < den then q
  else if 2 * r = den then q + q % 2
  else q + 1

/-- `num / den` in units of `2 ^ exponent`, as a quotient of natural numbers. -/
def inUnits (num den : Nat) (exponent : Int) : Nat × Nat :=
  if 0 ≤ exponent then (num, den * Nat.pow 2 exponent.toNat)
  else (num * Nat.pow 2 (-exponent).toNat, den)

namespace Binary

/-- Zero with a sign. -/
def zero (fmt : Format) (negative : Bool) : Binary :=
  .finite negative 0 fmt.minExponent

/-- The exponent of the last place in which `num / den` is rounded. -/
def lastPlace (fmt : Format) (num den : Nat) : Int :=
  let guess : Int := max ((Nat.log2 num : Int) - Nat.log2 den - fmt.precision) fmt.minExponent
  let (n, d) := inUnits num den guess
  if n / d < Nat.pow 2 fmt.precision then guess else guess + 1

/-- `num / den`, rounded. -/
def ofQuotient (fmt : Format) (negative : Bool) (num den : Nat) : Binary :=
  if num = 0 ∨ den = 0 then zero fmt negative
  else
    let e := lastPlace fmt num den
    let (n, d) := inUnits num den e
    let m := roundQuotient n d
    let (m, e) :=
      if m = Nat.pow 2 fmt.precision then (Nat.pow 2 (fmt.precision - 1), e + 1) else (m, e)
    if fmt.maxExponent < e then .infinite negative else .finite negative m e

/-- A natural number, rounded. -/
def ofNat (fmt : Format) (n : Nat) : Binary :=
  ofQuotient fmt false n 1

/-- An integer, rounded. -/
def ofInt (fmt : Format) (i : Int) : Binary :=
  ofQuotient fmt (i < 0) i.natAbs 1

/-- `digits * 10 ^ exponent`, rounded once. -/
def ofDecimal (fmt : Format) (negative : Bool) (digits : Nat) (exponent : Int) : Binary :=
  if 0 ≤ exponent then ofQuotient fmt negative (digits * Nat.pow 10 exponent.toNat) 1
  else ofQuotient fmt negative digits (Nat.pow 10 (-exponent).toNat)

/-- The absolute value of a finite number as a quotient of natural numbers. -/
def magnitude (significand : Nat) (exponent : Int) : Nat × Nat :=
  if 0 ≤ exponent then (significand * Nat.pow 2 exponent.toNat, 1)
  else (significand, Nat.pow 2 (-exponent).toNat)

/-- The same number in another format. -/
def convert (fmt : Format) : Binary → Binary
  | .nan => .nan
  | .infinite s => .infinite s
  | .finite s m e =>
    let (n, d) := magnitude m e
    ofQuotient fmt s n d

/-- The sign bit; a number that is none counts as positive. -/
def negative : Binary → Bool
  | .nan => false
  | .infinite s => s
  | .finite s _ _ => s

/-- The number with the other sign. -/
def neg : Binary → Binary
  | .nan => .nan
  | .infinite s => .infinite (!s)
  | .finite s m e => .finite (!s) m e

/-- The number without its sign. -/
def abs : Binary → Binary
  | .nan => .nan
  | .infinite _ => .infinite false
  | .finite _ m e => .finite false m e

/-- Holds of either zero. -/
def isZero : Binary → Bool
  | .finite _ 0 _ => true
  | _ => false

/-- Holds of either infinity. -/
def isInfinite : Binary → Bool
  | .infinite _ => true
  | _ => false

/-- The significand with its sign, in units of `2 ^ unit` for a `unit` not above the exponent. -/
def scaled (s : Bool) (m : Nat) (e unit : Int) : Int :=
  let n : Int := (m * Nat.pow 2 (e - unit).toNat : Nat)
  if s then -n else n

/-- The rounded sum. Opposite numbers give the positive zero. -/
def add (fmt : Format) : Binary → Binary → Binary
  | .nan, _ => .nan
  | _, .nan => .nan
  | .infinite s, .infinite t => if s = t then .infinite s else .nan
  | .infinite s, .finite .. => .infinite s
  | .finite .., .infinite t => .infinite t
  | .finite s m e, .finite t n f =>
    let unit := min e f
    let sum := scaled s m e unit + scaled t n f unit
    if sum = 0 then zero fmt (s && t)
    else
      let (num, den) := magnitude sum.natAbs unit
      ofQuotient fmt (sum < 0) num den

/-- The rounded difference. -/
def sub (fmt : Format) (x y : Binary) : Binary :=
  add fmt x y.neg

/-- The rounded product. -/
def mul (fmt : Format) : Binary → Binary → Binary
  | .nan, _ => .nan
  | _, .nan => .nan
  | .infinite s, y => if y.isZero then .nan else .infinite (s != y.negative)
  | x, .infinite t => if x.isZero then .nan else .infinite (x.negative != t)
  | .finite s m e, .finite t n f =>
    let (num, den) := magnitude (m * n) (e + f)
    ofQuotient fmt (s != t) num den

/-- The rounded quotient. -/
def div (fmt : Format) : Binary → Binary → Binary
  | .nan, _ => .nan
  | _, .nan => .nan
  | .infinite _, .infinite _ => .nan
  | .infinite s, y => .infinite (s != y.negative)
  | x, .infinite t => zero fmt (x.negative != t)
  | .finite s m e, .finite t n f =>
    if n = 0 then if m = 0 then .nan else .infinite (s != t)
    else
      let (num, den) := magnitude m e
      let (num', den') := magnitude n f
      ofQuotient fmt (s != t) (num * den') (den * num')

/-- Whether a number is below another; never with `nan`. -/
def lt : Binary → Binary → Bool
  | .nan, _ => false
  | _, .nan => false
  | .infinite s, .infinite t => s && !t
  | .infinite s, .finite .. => s
  | .finite .., .infinite t => !t
  | .finite s m e, .finite t n f =>
    let unit := min e f
    scaled s m e unit < scaled t n f unit

/-- Numeric equality: the two zeros are equal, and `nan` equals nothing. -/
def eq : Binary → Binary → Bool
  | .nan, _ => false
  | _, .nan => false
  | x, y => !x.lt y && !y.lt x

/-- Whether a number is at most another; never with `nan`. -/
def le (x y : Binary) : Bool :=
  x.lt y || x.eq y

end Binary

/-- A number of the 64-bit format. -/
abbrev Double := Binary

namespace Double

/-- A natural number as a double. -/
def ofNat (n : Nat) : Double := Binary.ofNat .double n

/-- An integer as a double. -/
def ofInt (i : Int) : Double := Binary.ofInt .double i

/-- The rounded sum of doubles. -/
def add (x y : Double) : Double := Binary.add .double x y

/-- The rounded difference of doubles. -/
def sub (x y : Double) : Double := Binary.sub .double x y

/-- The rounded quotient of doubles. -/
def div (x y : Double) : Double := Binary.div .double x y

end Double

end Multipass.Number
