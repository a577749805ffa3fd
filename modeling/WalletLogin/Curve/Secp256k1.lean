/-
  WalletLogin.Curve.Secp256k1 — the curve y² = x³ + 7 on which evm wallets sign, and
  the public key that a signature of a hash belongs to.

  Points are projective, (X : Y : Z) for (X/Z, Y/Z), with (0 : 1 : 0) at infinity. One
  formula adds any two points of this curve, equal and opposite ones included.
-/

import WalletLogin.Bytes
import WalletLogin.Curve.Residue

namespace WalletLogin.Curve.Secp256k1

open Residue

/-- The order of the field. -/
def p : Nat := 0xfffffffffffffffffffffffffffffffffffffffffffffffffffffffefffffc2f

/-- The order of the group. -/
def n : Nat := 0xfffffffffffffffffffffffffffffffebaaedce6af48a03bbfd25e8cd0364141

structure Point where
  x : Nat
  y : Nat
  z : Nat
  deriving DecidableEq, Repr

def infinity : Point := ⟨0, 1, 0⟩

def generator : Point :=
  ⟨0x79be667ef9dcbbac55a06295ce870b07029bfcdb2dce28d959f2815b16f81798,
   0x483ada7726a3c4655da4fbfc0e1108a8fd17b448a68554199c47d08ffb10d4b8, 1⟩

def add (a b : Point) : Point :=
  let xx := a.x * b.x % p
  let yy := a.y * b.y % p
  let zz := 21 * (a.z * b.z) % p
  let xy := (a.x * b.y + b.x * a.y) % p
  let yz := (a.y * b.z + b.y * a.z) % p
  let xz := (a.x * b.z + b.x * a.z) % p
  let lo := sub p yy zz
  let hi := (yy + zz) % p
  ⟨sub p (xy * lo) (21 * yz * xz), (lo * hi + 63 * xx * xz) % p, (yz * hi + 3 * xx * xy) % p⟩

def mulFuel : Nat → Nat → Point → Point → Point
  | 0, _, _, acc => acc
  | fuel + 1, k, a, acc =>
    mulFuel fuel (k / 2) (add a a) (if k % 2 = 1 then add acc a else acc)

def mul (k : Nat) (a : Point) : Point := mulFuel (k.log2 + 1) k a infinity

/-- The two coordinates in 32 bytes each; infinity has the coordinates zero. -/
def encode (a : Point) : Bytes :=
  let w := inverse p a.z
  Bytes.ofBigEndian 32 (a.x * w % p) ++ Bytes.ofBigEndian 32 (a.y * w % p)

/-- The point with the abscissa `x` whose ordinate is odd or even as asked. -/
def lift? (x : Nat) (odd : Bool) : Option Point :=
  let a := (x * x * x + 7) % p
  let y := pow p a ((p + 1) / 4)
  if y * y % p = a then some ⟨x, if (y % 2 = 1) = odd then y else p - y, 1⟩ else none

/-- The key under which (r, s) signs the hash `h`; `odd` tells the ordinate of the
signature's point. -/
def recover? (h r s : Nat) (odd : Bool) : Option Point := do
  if r = 0 ∨ n ≤ r ∨ s = 0 ∨ n ≤ s then none
  let a ← lift? r odd
  let q := add (mul s a) (mul (sub n 0 h) generator)
  return mul (inverse n r) q

end WalletLogin.Curve.Secp256k1
