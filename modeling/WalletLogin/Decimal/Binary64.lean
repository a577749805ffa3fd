/-
  WalletLogin.Decimal.Binary64 — floating-point numbers of 64 bits, as exact values.

  A finite number is a sign and `mant · 2 ^ exp` with `mant` below 2 ^ 53, `exp` at
  least -1074, and `mant` at least 2 ^ 52 unless `exp` is -1074; so equal numbers of
  one sign are equal terms. A quotient is rounded to the nearest such number, a tie to
  the even one, and to an infinity past the largest.
-/

namespace WalletLogin.Decimal

inductive Binary64 where
  | nan
  | infinite (neg : Bool)
  | finite (neg : Bool) (mant : Nat) (exp : Int)
  deriving DecidableEq, Repr, Inhabited

namespace Binary64

/-- Numerator and denominator of `num / den · base ^ exp`. -/
def scale (base num den : Nat) (exp : Int) : Nat × Nat :=
  if 0 ≤ exp then (num * Nat.pow base exp.toNat, den) else (num, den * Nat.pow base (-exp).toNat)

def roundHalfEven (num den : Nat) : Nat :=
  let q := num / den
  let r := num % den
  if den < 2 * r ∨ (den = 2 * r ∧ q % 2 = 1) then q + 1 else q

/-- The greatest `k` with `2 ^ k ≤ num / den`, of a positive quotient. -/
def log2Ratio (num den : Nat) : Int :=
  let k := (num.log2 : Int) - den.log2
  let s := scale 2 num den (-k)
  if s.2 ≤ s.1 then k else k - 1

/-- The first bit of a full significand, 2 ^ 52. -/
def leading : Nat := 0x10000000000000

def minExp : Int := -1074

def maxExp : Int := 971

def ofRatio (neg : Bool) (num den : Nat) : Binary64 :=
  if num = 0 then .finite neg 0 minExp
  else
    let e := max (log2Ratio num den - 52) minExp
    let s := scale 2 num den (-e)
    let q := roundHalfEven s.1 s.2
    let m := if q = 2 * leading then leading else q
    let e := if q = 2 * leading then e + 1 else e
    if maxExp < e then .infinite neg else .finite neg m e

/-- The number nearest to `d · 10 ^ k`. Exponents too large to matter are settled by
the number of digits of `d`, without the power. -/
def ofDecimal (neg : Bool) (d : Nat) (k : Int) : Binary64 :=
  let size := (d.log2 : Int) * 3 / 10 + k
  if d = 0 ∨ size < -400 then .finite neg 0 minExp
  else if 400 < size then .infinite neg
  else
    let s := scale 10 d 1 k
    ofRatio neg s.1 s.2

/-- The magnitude of a finite number as a quotient. -/
def ratio (mant : Nat) (exp : Int) : Nat × Nat := scale 2 mant 1 exp

def signed (neg : Bool) (n : Nat) : Int := if neg then -(n : Int) else n

/-- The whole number next to a finite one, toward zero. -/
def truncate? : Binary64 → Option Int
  | .finite neg m e => let s := ratio m e; some (signed neg (s.1 / s.2))
  | _ => none

def isWhole : Binary64 → Bool
  | .finite _ m e => let s := ratio m e; s.1 % s.2 = 0
  | _ => false

/-- The least whole number that is not less. -/
def ceiling? : Binary64 → Option Int
  | .finite neg m e => let s := ratio m e; some (-Int.fdiv (-(signed neg s.1)) s.2)
  | _ => none

def ofInt (n : Int) : Binary64 := ofRatio (n < 0) n.natAbs 1

/-- The number nearest to a whole one, unless it is infinite. -/
def ofInt? (n : Int) : Option Binary64 :=
  match ofInt n with
  | .infinite _ => none
  | x => some x

def negate : Binary64 → Binary64
  | .nan => .nan
  | .infinite neg => .infinite !neg
  | .finite neg m e => .finite (!neg) m e

def zero : Binary64 := .finite false 0 minExp

/-- A sum of zero is negative only if both numbers are negative zeros. -/
def plus : Binary64 → Binary64 → Binary64
  | .infinite a, .infinite b => if a = b then .infinite a else .nan
  | .nan, _ => .nan
  | _, .nan => .nan
  | .infinite a, _ => .infinite a
  | _, .infinite b => .infinite b
  | .finite a m e, .finite b n f =>
    let x := signed a (m * Nat.pow 2 (e - min e f).toNat) + signed b (n * Nat.pow 2 (f - min e f).toNat)
    if x = 0 then .finite (a && b) 0 minExp
    else
      let s := scale 2 x.natAbs 1 (min e f)
      ofRatio (x < 0) s.1 s.2

def isZero : Binary64 → Bool
  | .finite _ 0 _ => true
  | _ => false

end Binary64

end WalletLogin.Decimal
