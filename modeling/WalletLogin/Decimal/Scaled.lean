/-
  WalletLogin.Decimal.Scaled — decimals of any length: a sign, a coefficient and a
  power of ten. Zeros at the end of the coefficient count, so 1.0 and 1.00 differ.

  Infinities and not-a-numbers have signs too. A not-a-number carries a payload, zero
  for none, and the signalling kind is refused by every operation. Exponents have
  wide bounds, outside of which there is no decimal.
-/

import WalletLogin.Decimal.Entry

namespace WalletLogin.Decimal

open Text

inductive Scaled where
  | number (neg : Bool) (coeff : Nat) (exp : Int)
  | infinite (neg : Bool)
  | nan (signals : Bool) (neg : Bool) (payload : Nat)
  deriving DecidableEq, Repr, Inhabited

namespace Scaled

def leastExp : Int := -1999999999999999997

def greatestExp : Int := 999999999999999999

/-- The number of digits of a coefficient; zero has one. -/
def digitCount (n : Nat) : Nat := max 1 (Digit.digits n).length

/-- The exponent of the first digit. -/
def adjusted (coeff : Nat) (exp : Int) : Int := exp + digitCount coeff - 1

def number? (neg : Bool) (coeff : Nat) (exp : Int) : Option Scaled :=
  if leastExp ≤ exp ∧ adjusted coeff exp ≤ greatestExp then some (.number neg coeff exp) else none

def ofInt (n : Int) : Scaled := .number (n < 0) n.natAbs 0

def ofNat (n : Nat) : Scaled := .number false n 0

def isNegative : Scaled → Bool
  | .number neg _ _ => neg
  | .infinite neg => neg
  | .nan _ neg _ => neg

/-- The digits without sign and exponent, as a number; an infinity has none but a zero. -/
def coefficient : Scaled → Nat
  | .number _ c _ => c
  | .infinite _ => 0
  | .nan _ _ payload => payload

/-- A power of two below the point is a power of five with as many decimals. -/
def ofBinary64 : Binary64 → Scaled
  | .nan => .nan false false 0
  | .infinite neg => .infinite neg
  | .finite neg m e =>
    let (n, d) := Binary64.ratio m e
    let k := (d / Nat.gcd n d).log2
    .number neg (n / Nat.gcd n d * Nat.pow 5 k) (-(k : Int))

/-- The nearest floating-point number; there is none for a signalling not-a-number. -/
def toBinary64? : Scaled → Option Binary64
  | .number neg c e => some (Binary64.ofDecimal neg c e)
  | .infinite neg => some (.infinite neg)
  | .nan signals _ _ => if signals then none else some .nan

/-! ## Texts -/

/-- ASCII characters stand for themselves and digits of any script for ASCII ones. -/
def asciiChar? (c : Char) : Option Char :=
  if 0 < c.toNat ∧ c.toNat < 128 then some c else (Digit.value? c).map Digit.char

def payload? (s : List Char) : Option Nat :=
  if s.all Entry.isDigit then some (Entry.number s) else none

def magnitude? (neg : Bool) (s : List Char) : Option Scaled :=
  let word := Case.lower s
  if Entry.isInfinity word then some (.infinite neg)
  else if word.take 3 = "nan".toList then (payload? (s.drop 3)).map (.nan false neg)
  else if word.take 4 = "snan".toList then (payload? (s.drop 4)).map (.nan true neg)
  else (Entry.decimal? s).bind fun (n, k) => number? neg n k

/-- Blanks around a text and underscores anywhere in it do not count. -/
def ofText? (s : List Char) : Option Scaled := do
  match ← ((Blank.trim s).filter (· ≠ '_')).mapM asciiChar? with
  | '-' :: r => magnitude? true r
  | '+' :: r => magnitude? false r
  | r => magnitude? false r

end Scaled

end WalletLogin.Decimal
