/-
  WalletLogin.Encoding.Base64 — bytes in the standard alphabet.

  Reading refuses every character outside the alphabet and asks for the padding that
  a text with two or three characters over needs; after whole groups of four any run
  of padding may follow. What the last character says beyond the last byte is not
  looked at.
-/

import WalletLogin.Bytes
import WalletLogin.Encoding.Bits

namespace WalletLogin.Encoding.Base64

def value? (c : Char) : Option Nat :=
  if 'A' ≤ c ∧ c ≤ 'Z' then some (c.toNat - 65)
  else if 'a' ≤ c ∧ c ≤ 'z' then some (c.toNat - 71)
  else if '0' ≤ c ∧ c ≤ '9' then some (c.toNat + 4)
  else if c = '+' then some 62
  else if c = '/' then some 63
  else none

def char (n : Nat) : Char :=
  if n < 26 then Char.ofNat (n + 65)
  else if n < 52 then Char.ofNat (n + 71)
  else if n < 62 then Char.ofNat (n - 4)
  else if n = 62 then '+' else '/'

def isDigit (c : Char) : Bool := (value? c).isSome

/-- Whether `pad` padding signs may follow `n` characters. -/
def padded (n pad : Nat) : Bool :=
  match n % 4 with
  | 0 => n ≠ 0 || pad = 0
  | 1 => false
  | 2 => pad = 2
  | _ => pad = 1

def bytesOf (ns : List Nat) : Bytes := (Bits.gather 8 (Bits.spread 6 ns)).1.map UInt8.ofNat

def decode? (s : List Char) : Option Bytes :=
  let body := s.takeWhile isDigit
  let pad := s.dropWhile isDigit
  if pad.all (· = '=') && padded body.length pad.length then some (bytesOf (body.filterMap value?))
  else none

def sextets (b : Bytes) : List Nat := Bits.gatherPadded 6 (Bits.spread 8 (b.map UInt8.toNat))

def encode (b : Bytes) : List Char :=
  (sextets b).map char ++ List.replicate ((3 - b.length % 3) % 3) '='

end WalletLogin.Encoding.Base64
