/-
  WalletLogin.Encoding.Bech32 — bytes in groups of five bits behind a readable part,
  with six characters of checksum.

  The checksum is the remainder of a polynomial over the field of 32 elements. Two
  constants for it are in use; writing takes the first and reading takes both. A text
  has one letter case, at most 108 characters of the printable ASCII range, and its
  readable part ends at the last 1.
-/

import WalletLogin.Bytes
import WalletLogin.Encoding.Bits
import WalletLogin.Encoding.Radix
import WalletLogin.Text.Case

namespace WalletLogin.Encoding.Bech32

inductive Variant where
  | plain
  | modified
  deriving DecidableEq, Repr

def Variant.constant : Variant → Nat
  | .plain => 1
  | .modified => 0x2bc830a3

def charset : List Char := "qpzry9x8gf2tvdw0s3jn54khce6mua7l".toList

def char (n : Nat) : Char := charset.getD n 'q'

def value? (c : Char) : Option Nat := charset.idxOf? c

def maxLength : Nat := 108

def checksumLength : Nat := 6

/-- What is added for each bit of the group that a step pushes out. -/
def generators : List Nat := [0x3b6a57b2, 0x26508e6d, 0x1ea119fa, 0x3d4233dd, 0x2a1462b3]

def feedback (top : Nat) : List Nat → Nat → Nat
  | [], _ => 0
  | g :: gs, i => (if top.testBit i then g else 0) ^^^ feedback top gs (i + 1)

/-- The five groups that a step keeps, 2 ^ 25. -/
def low : Nat := 0x2000000

def step (c v : Nat) : Nat := ((c % low) * 32 ^^^ v) ^^^ feedback (c / low) generators 0

def remainder (c : Nat) (vs : List Nat) : Nat := vs.foldl step c

def expand (readable : List Char) : List Nat :=
  readable.map (·.toNat / 32) ++ 0 :: readable.map (·.toNat % 32)

def verifies (v : Variant) (readable : List Char) (ns : List Nat) : Bool :=
  remainder 1 (expand readable ++ ns) = v.constant

def checksum (v : Variant) (readable : List Char) (ns : List Nat) : List Nat :=
  let r := remainder 1 (expand readable ++ ns ++ List.replicate checksumLength 0) ^^^ v.constant
  Radix.lowDigits 32 checksumLength r

def isUpper (c : Char) : Bool := 'A' ≤ c && c ≤ 'Z'

def isLower (c : Char) : Bool := 'a' ≤ c && c ≤ 'z'

def isAdmissible (s : List Char) : Bool :=
  s.all (fun c => 33 ≤ c.toNat && c.toNat ≤ 126) && !(s.any isUpper && s.any isLower) &&
    s.length ≤ maxLength

/-- The parts before and behind the last 1. -/
def split (s : List Char) : List Char × List Char :=
  let r := s.reverse
  (((r.dropWhile (· ≠ '1')).drop 1).reverse, (r.takeWhile (· ≠ '1')).reverse)

/-- The readable part and the groups of five bits, without the checksum. -/
def parts? (s : List Char) : Option (List Char × List Nat) := do
  if !isAdmissible s then none
  let (readable, data) := split (Text.Case.lower s)
  if readable.isEmpty || data.length < checksumLength then none
  let ns ← data.mapM value?
  if verifies .plain readable ns || verifies .modified readable ns then
    return (readable, ns.take (ns.length - checksumLength))
  else none

/-- The bytes of a text; fewer than five bits may be over, all zero, and there are at
least two bytes. -/
def decode? (s : List Char) : Option (List Char × Bytes) := do
  let (readable, ns) ← parts? s
  let (bytes, rest) := Bits.gather 8 (Bits.spread 5 ns)
  if rest.length < 5 && rest.all (· = false) && 2 ≤ bytes.length then
    return (readable, bytes.map UInt8.ofNat)
  else none

def encode (v : Variant) (readable : List Char) (b : Bytes) : List Char :=
  let ns := Bits.gatherPadded 5 (Bits.spread 8 (b.map UInt8.toNat))
  readable ++ '1' :: (ns ++ checksum v readable ns).map char

end WalletLogin.Encoding.Bech32
