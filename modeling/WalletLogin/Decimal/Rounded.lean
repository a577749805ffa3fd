/-
  WalletLogin.Decimal.Rounded — products and powers of two of decimals, rounded to a
  number of digits, a tie to the even one, with exponents of six digits.

  A number below the least exponent loses digits until it is zero at the least; one
  past the greatest has no value, nor has an operation on a signalling not-a-number or
  a product of zero and an infinity. A power with a whole exponent is found by
  squaring, with a few digits more than asked for in each step; any other is the
  nearest to the true one, from logarithms as long series in whole numbers.
-/

import WalletLogin.Decimal.Scaled
import WalletLogin.Encoding.Radix

namespace WalletLogin.Decimal.Rounded

open Scaled

def precision : Nat := 28

def greatestExp : Int := 999999

/-- The exponent of the last digit of the smallest number of so many digits. -/
def leastExp (prec : Nat) : Int := 1 - greatestExp - prec

/-- The coefficient without its last `shift` digits. -/
def shorten (coeff shift : Nat) : Nat :=
  if digitCount coeff < shift then 0 else Binary64.roundHalfEven coeff (Nat.pow 10 shift)

def round? (prec : Nat) (neg : Bool) (coeff : Nat) (exp : Int) : Option Scaled :=
  if coeff = 0 then some (.number neg 0 (max (leastExp prec) (min exp greatestExp)))
  else
    let shift := (max ((digitCount coeff : Int) - prec) (leastExp prec - exp)).toNat
    let c := if shift = 0 then coeff else shorten coeff shift
    let e := exp + shift
    let (c, e) := if c = Nat.pow 10 prec then (c / 10, e + 1) else (c, e)
    if greatestExp < adjusted c e then none else some (.number neg c e)

/-- A not-a-number as a result, with as much of its payload as has room. -/
def carried? (signals neg : Bool) (payload : Nat) : Option Scaled :=
  if signals then none else some (.nan false neg (payload % Nat.pow 10 precision))

def times? (prec : Nat) : Scaled → Scaled → Option Scaled
  | .nan signals neg p, .nan signals' _ _ => if signals' then none else carried? signals neg p
  | .nan signals neg p, _ => carried? signals neg p
  | _, .nan signals neg p => carried? signals neg p
  | .infinite a, .infinite b => some (.infinite (a != b))
  | .infinite a, .number b c _ => if c = 0 then none else some (.infinite (a != b))
  | .number a c _, .infinite b => if c = 0 then none else some (.infinite (a != b))
  | .number a c e, .number b d f => round? prec (a != b) (c * d) (e + f)

/-! ## Powers of two -/

/-- The power for the bits of an exponent behind the first, most significant first. -/
def powerBits? (prec : Nat) (base acc : Scaled) : List Nat → Option Scaled
  | [] => some acc
  | b :: r => do
    let acc ← times? prec acc acc
    let acc ← if b = 1 then times? prec acc base else some acc
    powerBits? prec base acc r

/-- With a few digits more than the exponent has. -/
def wholePower? (neg : Bool) (n : Nat) : Option Scaled := do
  let base := if neg then .number false 5 (-1) else .number false 2 0
  let prec := precision + digitCount n + 2 + neg.toNat
  match ← powerBits? prec base base ((Encoding.Radix.digits 2 n).drop 1) with
  | .number s c e => round? precision s c e
  | x => some x

/-- The number of decimals in the series below. -/
def places : Nat := 100

def unit : Nat := Nat.pow 10 places

/-- The sum of `power / (2 i + 1)`, where each power is the one before over `square`. -/
def areaSeries (square : Nat) : Nat → Nat → Nat → Nat
  | 0, _, _ => 0
  | fuel + 1, i, power => power / (2 * i + 1) + areaSeries square fuel (i + 1) (power / square)

/-- The natural logarithm of `(k + 1) / (k - 1)`. -/
def logRatio (k : Nat) : Nat := 2 * areaSeries (k * k) (4 * places) 0 (unit / k)

def log2 : Nat := logRatio 3

/-- Ten is eight times five quarters. -/
def log10 : Nat := 3 * log2 + logRatio 9

def expSeries (x : Nat) : Nat → Nat → Nat → Nat
  | 0, _, _ => 0
  | fuel + 1, i, term => term + expSeries x fuel (i + 1) (term * x / (unit * (i + 1)))

/-- The exponential of a number below three or so. -/
def exp (x : Nat) : Nat := expSeries x (4 * places) 0 unit

/-- With an exponent near zero the power is one, to as many digits as there are. -/
def nearOne : Scaled := .number false (Nat.pow 10 (precision - 1)) (1 - precision)

def brokenPower? (neg : Bool) (coeff : Nat) (e : Int) : Option Scaled :=
  if adjusted coeff e < -60 then some nearOne
  else
    let (n, d) := Binary64.scale 10 (coeff * log2) 1 e
    let y := Binary64.signed neg (n / d)
    let k := Int.fdiv y log10
    round? precision false (exp (y - k * log10).toNat) (k - places)

/-- Exponents of more digits than these have no power, or one that is zero. -/
def exponentLimit : Int := 8

/-- Two to the power of a decimal. -/
def power? : Scaled → Option Scaled
  | .nan signals neg p => carried? signals neg p
  | .infinite neg => some (if neg then .number false 0 0 else .infinite false)
  | .number neg c e =>
    if c = 0 then some (.number false 1 0)
    else if exponentLimit ≤ adjusted c e then
      if neg then some (.number false 0 (leastExp precision)) else none
    else if e < -(Int.ofNat (digitCount c)) then brokenPower? neg c e
    else
      let (n, d) := Binary64.scale 10 c 1 e
      if n % d = 0 then wholePower? neg (n / d) else brokenPower? neg c e

end WalletLogin.Decimal.Rounded
