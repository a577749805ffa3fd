/-
  WalletLogin.Decimal.Digit — decimal digits of every script, and the lenient reading
  of whole numbers from text.

  The characters of category Nd come in runs of ten from a zero to a nine; `zeros`
  lists the code points of the zeros (Unicode 14). A lenient whole number is, between
  white space, an optional sign and digits of any script, in which single underscores
  may stand between two digits. More than 4300 digits are refused.
-/

import WalletLogin.Text.Blank

namespace WalletLogin.Decimal.Digit

open Text

def zeros : List Nat := [
  48, 1632, 1776, 1984, 2406, 2534, 2662, 2790, 2918, 3046, 3174, 3302, 3430, 3558, 3664, 3792,
  3872, 4160, 4240, 6112, 6160, 6470, 6608, 6784, 6800, 6992, 7088, 7232, 7248, 42528, 43216,
  43264, 43472, 43504, 43600, 44016, 65296, 66720, 68912, 69734, 69872, 69942, 70096, 70384,
  70736, 70864, 71248, 71360, 71472, 71904, 72016, 72784, 73040, 73120, 92768, 92864, 93008,
  120782, 120792, 120802, 120812, 120822, 123200, 123632, 125264, 130032]

def value? (c : Char) : Option Nat :=
  (zeros.find? fun z => z ≤ c.toNat && c.toNat ≤ z + 9).map (c.toNat - ·)

def digitLimit : Nat := 4300

/-- The digits of a run, which starts with one and has single underscores between
them only. -/
def run? : List Char → Option (List Nat)
  | [] => none
  | [c] => (value? c).map fun d => [d]
  | c :: '_' :: r => do return (← value? c) :: (← run? r)
  | c :: r => do return (← value? c) :: (← run? r)

def number (ds : List Nat) : Nat := ds.foldl (fun n d => n * 10 + d) 0

def natural? (s : List Char) : Option Nat := do
  let ds ← run? s
  if ds.length ≤ digitLimit then some (number ds) else none

def whole? (s : List Char) : Option Int :=
  match Blank.trimSpace s with
  | '-' :: r => (natural? r).map fun n => -(n : Int)
  | '+' :: r => (natural? r).map Int.ofNat
  | r => (natural? r).map Int.ofNat

/-- The decimal digits of a number, most significant first; zero has none. -/
def digitsFuel : Nat → Nat → List Nat → List Nat
  | 0, _, acc => acc
  | fuel + 1, n, acc => if n = 0 then acc else digitsFuel fuel (n / 10) (n % 10 :: acc)

def digits (n : Nat) : List Nat := digitsFuel (n.log2 + 1) n []

def char (d : Nat) : Char := Char.ofNat (48 + d)

def renderNat (n : Nat) : List Char := if n = 0 then ['0'] else (digits n).map char

/-- With zeros in front, so that there are `width` digits at least. -/
def renderPadded (width n : Nat) : List Char :=
  let ds := renderNat n
  List.replicate (width - ds.length) '0' ++ ds

def renderInt (n : Int) : List Char :=
  if n < 0 then '-' :: renderNat n.natAbs else renderNat n.natAbs

end WalletLogin.Decimal.Digit
