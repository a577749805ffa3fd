/-
  WalletLogin.Curve.Ed25519 — signatures of solana and cardano wallets.

  Points are (X : Y : Z : T) with x = X/Z, y = Y/Z and x · y = T/Z, on the curve
  y² - x² = 1 + d · x² · y². A signature (R, S) of a message is accepted when S is below
  the group order and [S]B - [h]A has R as its encoding, byte for byte; keys of small
  order and keys whose ordinate is not reduced are not refused.
-/

import WalletLogin.Bytes
import WalletLogin.Curve.Residue
import WalletLogin.Hash.Sha2

namespace WalletLogin.Curve.Ed25519

open Residue

/-- The order of the field. -/
def p : Nat := 0x7fffffffffffffffffffffffffffffffffffffffffffffffffffffffffffffed

/-- The bit that tells the parity of an abscissa. -/
def signBit : Nat := 0x8000000000000000000000000000000000000000000000000000000000000000

/-- The order of the group that the base point spans. -/
def l : Nat := 0x1000000000000000000000000000000014def9dea2f79cd65812631a5cf5d3ed

def d : Nat := 37095705934669439343138083508754565189542113879843219016388785533085940283555

/-- A square root of -1. -/
def rootOfMinusOne : Nat :=
  19681161376707505956807079304988542015446066515923890162744021073123829784752

structure Point where
  x : Nat
  y : Nat
  z : Nat
  t : Nat
  deriving DecidableEq, Repr

def zero : Point := ⟨0, 1, 1, 0⟩

def ofAffine (x y : Nat) : Point := ⟨x, y, 1, x * y % p⟩

def base : Point :=
  ofAffine 15112221349535400772501151409588531511454012693041857206046113283949847762202
    46316835694926478169428394003475163141307993866256225615783033603165251855960

def add (a b : Point) : Point :=
  let u := sub p a.y a.x * sub p b.y b.x % p
  let v := (a.y + a.x) * (b.y + b.x) % p
  let c := 2 * d * a.t * b.t % p
  let w := 2 * a.z * b.z % p
  let e := sub p v u
  let f := sub p w c
  let g := (w + c) % p
  let h := (v + u) % p
  ⟨e * f % p, g * h % p, f * g % p, e * h % p⟩

def neg (a : Point) : Point := ⟨sub p 0 a.x, a.y, a.z, sub p 0 a.t⟩

def mulFuel : Nat → Nat → Point → Point → Point
  | 0, _, _, acc => acc
  | fuel + 1, k, a, acc =>
    mulFuel fuel (k / 2) (add a a) (if k % 2 = 1 then add acc a else acc)

def mul (k : Nat) (a : Point) : Point := mulFuel (k.log2 + 1) k a zero

/-- A square root of `w`, if it has one. -/
def root? (w : Nat) : Option Nat :=
  let x := pow p w ((p + 3) / 8)
  if x * x % p = w then some x
  else
    let x := x * rootOfMinusOne % p
    if x * x % p = w then some x else none

/-- The point whose ordinate the low 255 bits give and whose abscissa is odd as the
top bit says. -/
def decode? (key : Bytes) : Option Point := do
  let m := Bytes.toLittleEndian key
  let y := m % signBit % p
  let yy := y * y % p
  let x ← root? (sub p yy 1 * inverse p ((d * yy + 1) % p) % p)
  return ofAffine (if x % 2 = m / signBit then x else sub p 0 x) y

def encode (a : Point) : Bytes :=
  let w := inverse p a.z
  Bytes.ofLittleEndian 32 (a.y * w % p + a.x * w % p % 2 * signBit)

def challenge (r key m : Bytes) : Nat := Bytes.toLittleEndian (Hash.Sha2.sha512 (r ++ key ++ m)) % l

def verify (key m signature : Bytes) : Bool :=
  let r := signature.take 32
  let s := Bytes.toLittleEndian (signature.drop 32)
  if key.length = 32 ∧ signature.length = 64 ∧ s < l then
    match decode? key with
    | some a => encode (add (mul s base) (mul (challenge r key m) (neg a))) = r
    | none => false
  else false

end WalletLogin.Curve.Ed25519
