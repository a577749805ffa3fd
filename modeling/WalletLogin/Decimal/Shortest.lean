/-
  WalletLogin.Decimal.Shortest — the text of a floating-point number: the fewest
  digits that read back as the same number, and of those the nearest.

  A text is positional when the exponent of its first digit is at least -4 and below
  16, and then has a point with a digit on either side; otherwise one digit stands
  before the point, and the exponent has a sign and at least two digits.
-/

import WalletLogin.Decimal.Binary64
import WalletLogin.Decimal.Digit

namespace WalletLogin.Decimal.Shortest

open Binary64

/-- The greatest `k` with `10 ^ k ≤ num / den`, of a positive quotient. -/
def log10Ratio (num den : Nat) : Int :=
  let t := Int.fdiv (log2Ratio num den * 30103) 100000
  let s := scale 10 num den (-(t + 1))
  let u := scale 10 num den (-t)
  if s.2 ≤ s.1 then t + 1 else if u.2 ≤ u.1 then t else t - 1

/-- Of the two neighbours `lo` and `lo + 1` on the grid of `10 ^ k` the one that reads
back as the number; of two such the nearer, and the even one of a tie. -/
def pick? (mant : Nat) (exp k : Int) : Option Nat :=
  let s := ratio mant exp
  let g := scale 10 s.1 s.2 (-k)
  let lo := g.1 / g.2
  let readsBack (d : Nat) : Bool := ofDecimal false d k = .finite false mant exp
  match readsBack lo, readsBack (lo + 1) with
  | true, true => some (roundHalfEven g.1 g.2)
  | true, false => some lo
  | false, true => some (lo + 1)
  | false, false => none

/-- The first grid with a hit, from `n` digits on. -/
def search (mant : Nat) (exp top : Int) : Nat → Nat → Nat × Int
  | 0, _ => (mant, 0)
  | fuel + 1, n =>
    let k := top - n + 1
    match pick? mant exp k with
    | some d => (d, k)
    | none => search mant exp top fuel (n + 1)

/-- Digits without zeros at the end, and the exponent of the first digit. -/
def digits (mant : Nat) (exp : Int) : List Nat × Int :=
  let s := ratio mant exp
  let (d, k) := search mant exp (log10Ratio s.1 s.2) 17 1
  let ds := Digit.digits d
  ((ds.reverse.dropWhile (· = 0)).reverse, k + ds.length - 1)

def zeros (n : Nat) : List Char := List.replicate n '0'

def positional (ds : List Char) (e : Int) : List Char :=
  if e < 0 then '0' :: '.' :: zeros (-e - 1).toNat ++ ds
  else
    let n := e.toNat + 1
    let whole := ds.take n ++ zeros (n - ds.length)
    let rest := ds.drop n
    whole ++ '.' :: (if rest.isEmpty then ['0'] else rest)

def scientific (ds : List Char) (e : Int) : List Char :=
  let tail := ds.drop 1
  let size := Digit.renderNat e.natAbs
  ds.take 1 ++ (if tail.isEmpty then [] else '.' :: tail) ++
    'e' :: (if e < 0 then '-' else '+') :: zeros (2 - size.length) ++ size

def magnitude (mant : Nat) (exp : Int) : List Char :=
  if mant = 0 then ['0', '.', '0']
  else
    let (ds, e) := digits mant exp
    let ds := ds.map Digit.char
    if -4 ≤ e ∧ e < 16 then positional ds e else scientific ds e

def render : Binary64 → List Char
  | .nan => ['n', 'a', 'n']
  | .infinite false => ['i', 'n', 'f']
  | .infinite true => ['-', 'i', 'n', 'f']
  | .finite false m e => magnitude m e
  | .finite true m e => '-' :: magnitude m e

end WalletLogin.Decimal.Shortest
