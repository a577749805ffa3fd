/-
  WalletLogin.Decimal.Exact — the exact values of numbers of every kind, so that those
  of two kinds can be compared: a value apart from zero and the infinities is a sign, a
  power of two, a power of five and a quotient in lowest terms of numbers that neither
  divides. Equal values are equal terms, and no power is ever worked out.
-/

import WalletLogin.Decimal.Fraction

namespace WalletLogin.Decimal

inductive Exact where
  | zero
  | infinite (neg : Bool)
  | finite (neg : Bool) (twos fives : Int) (num den : Nat)
  deriving DecidableEq, Repr

namespace Exact

/-- How often `p` divides `n`, and what is left. -/
def withoutFuel (p : Nat) : Nat → Nat → Nat × Nat
  | 0, n => (0, n)
  | fuel + 1, n =>
    if n % p = 0 then let (k, m) := withoutFuel p fuel (n / p); (k + 1, m) else (0, n)

def without (p n : Nat) : Nat × Nat := withoutFuel p n.log2 n

/-- The value of `num / den · 10 ^ exp`, of a quotient in lowest terms. -/
def ofQuotient (neg : Bool) (num den : Nat) (exp : Int) : Exact :=
  if num = 0 then .zero
  else
    let (a, n) := without 2 num
    let (b, n) := without 5 n
    let (c, d) := without 2 den
    let (e, d) := without 5 d
    .finite neg (exp + a - c) (exp + b - e) n d

def ofInt (n : Int) : Exact := ofQuotient (n < 0) n.natAbs 1 0

def ofFraction (x : Fraction) : Exact := ofQuotient (x.num < 0) x.num.natAbs x.den 0

def ofBinary64? : Binary64 → Option Exact
  | .nan => none
  | .infinite neg => some (.infinite neg)
  | .finite neg m e => (Fraction.ofBinary64? (.finite neg m e)).map ofFraction

def ofScaled? : Scaled → Option Exact
  | .nan .. => none
  | .infinite neg => some (.infinite neg)
  | .number neg c e => some (ofQuotient neg c 1 e)

end Exact

end WalletLogin.Decimal
